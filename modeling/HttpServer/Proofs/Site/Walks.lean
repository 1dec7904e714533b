import HttpServer.Site.FileTree

/-!
# Walks in a tree without links

Where no name is a link, a walk follows the pieces of a path one by one. `Leads` says where it gets,
by the kinds of pieces, and `walk_eq_found_iff` that this is what a walk finds. Two facts about it
are all that confinement needs: a walk along two rows of pieces is two walks, and a walk without a
piece that climbs ends at or below the place where it began.
-/

namespace HttpServer

namespace FileTree

/-- No name of the tree is a link. -/
def Linkless (t : FileTree) : Prop :=
  ∀ l target, t.lookup? l ≠ some (.link target)

theorem linkless_empty : Linkless empty := by
  intro l target h
  unfold lookup? at h
  split at h
  · cases h
  · unfold empty at h
    rw [LocationMap.find?_empty] at h
    cases h

theorem Linkless.set {t : FileTree} (ht : t.Linkless) {l : Location} (hl : l ≠ []) {e : FileEntry}
    (he : ∀ target, e ≠ .link target) : (t.set l e).Linkless := by
  intro m target h
  rw [lookup?_set hl] at h
  split at h
  · exact he target (Option.some.inj h)
  · exact ht m target h

/-- The pieces of a path lead from one place to another, where no name is a link. -/
inductive Leads (t : FileTree) : Location → List Bytes → Location → Prop where
  | done (dir : Location) : Leads t dir [] dir
  | stay {dir l : Location} {name : Bytes} {rest : List Bytes} :
      t.lookup? dir = some .directory → name = [] ∨ name = Path.here → Leads t dir rest l →
      Leads t dir (name :: rest) l
  | climb {dir l : Location} {rest : List Bytes} :
      t.lookup? dir = some .directory → Leads t dir.dropLast rest l →
      Leads t dir (Path.parent :: rest) l
  | enter {dir l : Location} {name : Bytes} {rest : List Bytes} {e : FileEntry} :
      t.lookup? dir = some .directory → ¬ (name = [] ∨ name = Path.here) → name ≠ Path.parent →
      name.length ≤ greatestName → t.lookup? (dir ++ [name]) = some e →
      Leads t (dir ++ [name]) rest l → Leads t dir (name :: rest) l

section Leads

variable {t : FileTree} {dir l : Location}

theorem leads_append_iff {xs ys : List Bytes} :
    Leads t dir (xs ++ ys) l ↔ ∃ m, Leads t dir xs m ∧ Leads t m ys l := by
  constructor
  · intro h
    induction xs generalizing dir with
    | nil => exact ⟨dir, .done dir, h⟩
    | cons name xs ih =>
        cases h with
        | stay hdir hname hrest =>
            obtain ⟨m, hxs, hys⟩ := ih hrest
            exact ⟨m, .stay hdir hname hxs, hys⟩
        | climb hdir hrest =>
            obtain ⟨m, hxs, hys⟩ := ih hrest
            exact ⟨m, .climb hdir hxs, hys⟩
        | enter hdir hname hparent hlen hentry hrest =>
            obtain ⟨m, hxs, hys⟩ := ih hrest
            exact ⟨m, .enter hdir hname hparent hlen hentry hxs, hys⟩
  · rintro ⟨m, hxs, hys⟩
    induction hxs with
    | done dir => exact hys
    | stay hdir hname _ ih => exact .stay hdir hname (ih hys)
    | climb hdir _ ih => exact .climb hdir (ih hys)
    | enter hdir hname hparent hlen hentry _ ih =>
        exact .enter hdir hname hparent hlen hentry (ih hys)

/-- Without a piece that climbs nothing above is reached. -/
theorem Leads.descends {pieces : List Bytes} (h : Leads t dir pieces l)
    (hparent : Path.parent ∉ pieces) : dir <+: l := by
  induction h with
  | done dir => exact List.prefix_refl dir
  | stay _ _ _ ih => exact ih fun hmem => hparent (List.mem_cons_of_mem _ hmem)
  | climb _ _ _ => exact absurd List.mem_cons_self hparent
  | enter _ _ _ _ _ _ ih =>
      exact (List.prefix_append _ _).trans (ih fun hmem => hparent (List.mem_cons_of_mem _ hmem))

section Cons

variable {name : Bytes} {rest : List Bytes}

/-- Where a path goes on, there is a directory. -/
theorem Leads.directory (h : Leads t dir (name :: rest) l) : t.lookup? dir = some .directory := by
  cases h with
  | stay hdir _ _ => exact hdir
  | climb hdir _ => exact hdir
  | enter hdir _ _ _ _ _ => exact hdir

theorem leads_stay_iff (hdir : t.lookup? dir = some .directory)
    (hname : name = [] ∨ name = Path.here) :
    Leads t dir (name :: rest) l ↔ Leads t dir rest l := by
  refine ⟨fun h => ?_, .stay hdir hname⟩
  cases h with
  | stay _ _ hrest => exact hrest
  | climb _ _ => exact absurd hname (by decide)
  | enter _ hother _ _ _ _ => exact absurd hname hother

theorem leads_climb_iff (hdir : t.lookup? dir = some .directory) :
    Leads t dir (Path.parent :: rest) l ↔ Leads t dir.dropLast rest l := by
  refine ⟨fun h => ?_, .climb hdir⟩
  cases h with
  | stay _ hname _ => exact absurd hname (by decide)
  | climb _ hrest => exact hrest
  | enter _ _ hother _ _ _ => exact absurd rfl hother

theorem leads_enter_iff (hdir : t.lookup? dir = some .directory)
    (hname : ¬ (name = [] ∨ name = Path.here)) (hparent : name ≠ Path.parent) :
    Leads t dir (name :: rest) l ↔ name.length ≤ greatestName ∧
      (∃ e, t.lookup? (dir ++ [name]) = some e) ∧ Leads t (dir ++ [name]) rest l := by
  constructor
  · intro h
    cases h with
    | stay _ hstay _ => exact absurd hstay hname
    | climb _ _ => exact absurd rfl hparent
    | enter _ _ _ hlen hentry hrest => exact ⟨hlen, ⟨_, hentry⟩, hrest⟩
  · rintro ⟨hlen, ⟨e, hentry⟩, hrest⟩
    exact .enter hdir hname hparent hlen hentry hrest

end Cons

end Leads

/-- A walk over a name, where no name is a link. -/
theorem walk_name {t : FileTree} (ht : t.Linkless) {dir : Location} {name : Bytes}
    (hdir : t.lookup? dir = some .directory) (hname : ¬ (name = [] ∨ name = Path.here))
    (hparent : name ≠ Path.parent) (links : Nat) (rest : List Bytes) :
    t.walk .finding links dir (name :: rest) =
      if greatestName < name.length then .error .nameTooLong
      else
        match t.lookup? (dir ++ [name]) with
        | none => if rest = [] then .ok ⟨.free (dir ++ [name]), links⟩ else .error .noSuchFile
        | some _ => t.walk .finding links (dir ++ [name]) rest := by
  rw [walk, if_neg (not_not_intro hdir), if_neg hname, if_neg hparent,
    if_neg fun h => Purpose.noConfusion h.1]
  cases hentry : t.lookup? (dir ++ [name]) with
  | none => rfl
  | some e =>
      cases e with
      | link target => exact absurd hentry (ht _ _)
      | file f => rfl
      | directory => rfl

/-- What a walk finds in a tree without links. -/
theorem walk_eq_found_iff {t : FileTree} (ht : t.Linkless) {links k : Nat} {dir l : Location}
    {pieces : List Bytes} :
    t.walk .finding links dir pieces = .ok ⟨.found l, k⟩ ↔ k = links ∧ Leads t dir pieces l := by
  induction pieces generalizing dir with
  | nil =>
      rw [walk]
      constructor
      · intro h
        cases h
        exact ⟨rfl, .done l⟩
      · rintro ⟨rfl, h⟩
        cases h
        rfl
  | cons name rest ih =>
      by_cases hdir : t.lookup? dir = some .directory
      · by_cases hstay : name = [] ∨ name = Path.here
        · rw [walk, if_neg (not_not_intro hdir), if_pos hstay, ih, leads_stay_iff hdir hstay]
        · by_cases hparent : name = Path.parent
          · rw [walk, if_neg (not_not_intro hdir), if_neg hstay, if_pos hparent, ih, hparent,
              leads_climb_iff hdir]
          · rw [walk_name ht hdir hstay hparent, leads_enter_iff hdir hstay hparent]
            by_cases hlen : greatestName < name.length
            · rw [if_pos hlen]
              constructor
              · intro h
                cases h
              · intro h
                exact absurd h.2.1 (Nat.not_le.2 hlen)
            · rw [if_neg hlen]
              cases hentry : t.lookup? (dir ++ [name]) with
              | none =>
                  -- a name that is free is not found
                  constructor
                  · intro h
                    simp only at h
                    split at h <;> cases h
                  · rintro ⟨-, -, ⟨e, he⟩, -⟩
                    cases he
              | some e =>
                  simp only
                  rw [ih]
                  exact and_congr_right fun _ =>
                    ⟨fun h => ⟨Nat.not_lt.1 hlen, ⟨e, rfl⟩, h⟩, fun h => h.2.2⟩
      · rw [walk, if_pos hdir]
        constructor
        · intro h
          cases h
        · intro h
          exact absurd h.2.directory hdir

/-- A walk whose last piece stays where it is ends in a directory. -/
theorem lookup?_of_walk_stay {t : FileTree} {purpose : Purpose} {links k : Nat} {dir l : Location}
    {pieces : List Bytes} {last : Bytes} (hlast : pieces.getLast? = some last)
    (hstay : last = [] ∨ last = Path.here)
    (h : t.walk purpose links dir pieces = .ok ⟨.found l, k⟩) :
    t.lookup? l = some .directory := by
  -- a piece that moves is not the last one
  have hrest {name : Bytes} {rest : List Bytes} (hmoves : ¬(name = [] ∨ name = Path.here))
      (hlast : (name :: rest).getLast? = some last) : rest.getLast? = some last := by
    cases rest with
    | nil =>
        rw [List.getLast?_singleton, Option.some.injEq] at hlast
        exact absurd (hlast ▸ hstay) hmoves
    | cons first rest => rwa [List.getLast?_cons_cons] at hlast
  fun_induction walk t purpose links dir pieces with
  | case1 => cases hlast
  | case3 links dir name rest hdir hname ih =>
      cases rest with
      | nil =>
          rw [walk] at h
          cases h
          exact Classical.not_not.1 hdir
      | cons first rest =>
          rw [List.getLast?_cons_cons] at hlast
          exact ih hlast h
  | case4 links dir rest hdir hmoves ih => exact ih (hrest hmoves hlast) h
  | case9 links dir name rest hdir hmoves hparent hmaking hlen target hentry hnaming =>
      rw [hnaming.2] at hlast
      cases hrest hmoves hlast
  | case11 dir name rest hdir hmoves hparent hmaking hlen target hentry hnaming links base ih =>
      -- the pieces of the link stand in front of those that are left
      refine ih ?_ h
      rw [List.getLast?_append, hrest hmoves hlast]
      rfl
  | case12 links dir name rest hdir hmoves hparent hmaking hlen e hentry hlink ih =>
      exact ih (hrest hmoves hlast) h
  | _ => cases h

/-- Where a path leads is where the walk along its pieces ends. -/
theorem place_eq_ok_iff {t : FileTree} {purpose : Purpose} {path : Bytes} {p : Place} :
    t.place purpose path = .ok p ↔ checkPath path = .ok () ∧
      ∃ k, t.walk purpose greatestLinks (t.start path) (Path.pieces path) = .ok ⟨p, k⟩ := by
  unfold place
  cases hcheck : checkPath path with
  | error e =>
      constructor
      · intro h
        cases h
      · rintro ⟨h, -⟩
        cases h
  | ok u =>
      cases hwalk : t.walk purpose greatestLinks (t.start path) (Path.pieces path) with
      | error e =>
          constructor
          · intro h
            cases h
          · rintro ⟨-, k, h⟩
            cases h
      | ok arrival =>
          constructor
          · intro h
            cases h
            exact ⟨rfl, arrival.links, rfl⟩
          · rintro ⟨-, k, h⟩
            cases h
            rfl

theorem stat_eq_ok_iff_place {t : FileTree} {path : Bytes} {e : FileEntry} :
    t.stat path = .ok e ↔ ∃ l, t.place .finding path = .ok (.found l) ∧ t.lookup? l = some e := by
  unfold stat
  constructor
  · intro h
    split at h
    · cases h
    · cases h
    · rename_i l hplace
      split at h
      · rename_i e' hl
        cases h
        exact ⟨l, hplace, hl⟩
      · cases h
  · rintro ⟨l, hplace, hl⟩
    simp only [hplace, hl]

/-- A path that names a file ends in a piece that moves. -/
theorem moves_of_stat_file {t : FileTree} {path last : Bytes} {f : File}
    (h : t.stat path = .ok (.file f)) (hlast : (Path.pieces path).getLast? = some last) :
    last ≠ [] ∧ last ≠ Path.here := by
  obtain ⟨l, hplace, hl⟩ := stat_eq_ok_iff_place.1 h
  obtain ⟨-, k, hwalk⟩ := place_eq_ok_iff.1 hplace
  rw [← not_or]
  intro hstay
  rw [lookup?_of_walk_stay hlast hstay hwalk] at hl
  cases hl

/-- What a path names in a tree without links. -/
theorem stat_eq_ok_iff {t : FileTree} (ht : t.Linkless) {path : Bytes} {e : FileEntry} :
    t.stat path = .ok e ↔ checkPath path = .ok () ∧
      ∃ l, Leads t (t.start path) (Path.pieces path) l ∧ t.lookup? l = some e := by
  rw [stat_eq_ok_iff_place]
  constructor
  · rintro ⟨l, hplace, hl⟩
    obtain ⟨hcheck, k, hwalk⟩ := place_eq_ok_iff.1 hplace
    exact ⟨hcheck, l, ((walk_eq_found_iff ht).1 hwalk).2, hl⟩
  · rintro ⟨hcheck, l, hleads, hl⟩
    have hwalk : t.walk .finding greatestLinks (t.start path) (Path.pieces path) =
        .ok ⟨.found l, greatestLinks⟩ := (walk_eq_found_iff ht).2 ⟨rfl, hleads⟩
    exact ⟨l, place_eq_ok_iff.2 ⟨hcheck, greatestLinks, hwalk⟩, hl⟩

end FileTree

end HttpServer
