import HttpServer.Proofs.Site.Walks

/-!
# What is written is found

A walk that may end at a new file and one that is for what is there are different walks. Where the
first one ends at a file, or at a name where one is made, the second one finds that file afterwards
(`Placed.walk_eq`), through the same links.
-/

namespace HttpServer

namespace FileTree

/-- A tree has come about from another by putting a file where there was a file or nothing. -/
structure Placed (t t' : FileTree) (l : Location) (f : File) : Prop where
  workingDirectory_eq : t'.workingDirectory = t.workingDirectory
  before : t.lookup? l = none ∨ ∃ f₀, t.lookup? l = some (.file f₀)
  here : t'.lookup? l = some (.file f)
  elsewhere : ∀ m, m ≠ l → t'.lookup? m = t.lookup? m

/-- The location at which a walk ends. -/
def Place.location : Place → Location
  | found l => l
  | free l => l

section Placed

variable {t t' : FileTree} {l dir : Location} {f : File} {path : Bytes} {p : Place}

/-- A file that is there is as good as put there. -/
theorem placed_self (h : t.lookup? l = some (.file f)) : Placed t t l f :=
  ⟨rfl, Or.inr ⟨f, h⟩, h, fun _ _ => rfl⟩

/-- What is there elsewhere stays there. -/
theorem Placed.lookup?_eq (h : Placed t t' l f) {m : Location} {e : FileEntry}
    (he : t.lookup? m = some e) (hfile : ∀ f₀, e ≠ .file f₀) : t'.lookup? m = some e := by
  have hm : m ≠ l := by
    rintro rfl
    rcases h.before with hnone | ⟨f₀, hf₀⟩
    · rw [he] at hnone
      cases hnone
    · rw [he] at hf₀
      exact hfile f₀ (Option.some.inj hf₀)
  rw [h.elsewhere m hm, he]

theorem Placed.directory (h : Placed t t' l f) {m : Location}
    (hm : ¬t.lookup? m ≠ some .directory) : ¬t'.lookup? m ≠ some .directory := by
  have hdirectory : t.lookup? m = some .directory := Decidable.of_not_not hm
  exact not_not_intro (h.lookup?_eq hdirectory fun _ h => FileEntry.noConfusion h)

/-- A file is there still, if perhaps another one. -/
theorem Placed.exists_file (h : Placed t t' l f) {m : Location} {f₀ : File}
    (he : t.lookup? m = some (.file f₀)) : ∃ f₁, t'.lookup? m = some (.file f₁) := by
  by_cases hm : m = l
  · exact ⟨f, hm ▸ h.here⟩
  · exact ⟨f₀, by rw [h.elsewhere m hm, he]⟩

/-- Where a walk for a file ends, the file is found. -/
theorem Placed.walk_eq (h : Placed t t' l f) {links k : Nat} {pieces : List Bytes}
    (hwalk : t.walk .making links dir pieces = .ok ⟨p, k⟩) (hp : p.location = l) :
    t'.walk .finding links dir pieces = .ok ⟨.found l, k⟩ := by
  have hslashes (rest : List Bytes) : ¬(Purpose.finding = .making ∧ onlySlashesLeft rest) :=
    fun h => Purpose.noConfusion h.1
  fun_induction walk t .making links dir pieces with
  | case1 links dir =>
      cases hwalk
      cases hp
      rw [walk]
      rfl
  | case2 => cases hwalk
  | case3 links dir name rest hdir hstay ih =>
      rw [walk, if_neg (h.directory hdir), if_pos hstay]
      exact ih hwalk
  | case4 links dir rest hdir hstay ih =>
      rw [walk, if_neg (h.directory hdir), if_neg hstay, if_pos rfl]
      exact ih hwalk
  | case5 => cases hwalk
  | case6 => cases hwalk
  | case7 links dir name hdir hstay hparent hlength hentry =>
      -- the name is free, so this is where the file is put
      cases hwalk
      have hl : dir ++ [name] = l := hp
      rw [walk, if_neg (h.directory hdir), if_neg hstay, if_neg hparent, if_neg (hslashes []),
        if_neg hlength, hl, h.here]
      simp only
      rw [walk]
  | case8 => cases hwalk
  | case9 _ _ _ _ _ _ _ _ _ _ _ hnaming => cases hnaming.1
  | case10 => cases hwalk
  | case11 dir name rest hdir hstay hparent _ hlength target hentry _ links base ih =>
      rw [walk, if_neg (h.directory hdir), if_neg hstay, if_neg hparent, if_neg (hslashes rest),
        if_neg hlength, h.lookup?_eq hentry fun _ h => FileEntry.noConfusion h]
      simp only
      rw [if_neg fun h => Purpose.noConfusion h.1]
      exact ih hwalk
  | case12 links dir name rest hdir hstay hparent _ hlength e he hentry ih =>
      rw [walk, if_neg (h.directory hdir), if_neg hstay, if_neg hparent, if_neg (hslashes rest),
        if_neg hlength]
      cases e with
      | file f₀ =>
          obtain ⟨f₁, hf₁⟩ := h.exists_file hentry
          rw [hf₁]
          exact ih hwalk
      | directory =>
          rw [h.lookup?_eq hentry fun _ h => FileEntry.noConfusion h]
          exact ih hwalk
      | link target => exact absurd rfl (he target)

theorem Placed.stat_eq (h : Placed t t' l f) (hplace : t.place .making path = .ok p)
    (hp : p.location = l) : t'.stat path = .ok (.file f) := by
  obtain ⟨hcheck, k, hwalk⟩ := place_eq_ok_iff.1 hplace
  have hstart : t'.start path = t.start path := by
    unfold start
    rw [h.workingDirectory_eq]
  have hfound := h.walk_eq hwalk hp
  rw [← hstart] at hfound
  exact stat_eq_ok_iff_place.2 ⟨l, place_eq_ok_iff.2 ⟨hcheck, k, hfound⟩, h.here⟩

end Placed

section Write

variable {t t' : FileTree} {path data : Bytes} {l : Location} {f f₀ : File}

theorem ne_nil_of_file (h : t.lookup? l = some (.file f)) : l ≠ [] := by
  rintro rfl
  rw [lookup?_nil] at h
  cases h

theorem placed_set (h : t.lookup? l = some (.file f₀)) (f : File) :
    Placed t (t.set l (.file f)) l f := by
  have hl := ne_nil_of_file h
  refine ⟨rfl, Or.inr ⟨f₀, h⟩, ?_, fun m hm => ?_⟩
  · rw [lookup?_set hl, if_pos rfl]
  · rw [lookup?_set hl, if_neg hm]

theorem placed_create (h : t.lookup? l = none) (data : Bytes) :
    Placed t (t.create l data) l ⟨t.nextSerial, data, defaultMode⟩ := by
  have hl : l ≠ [] := by
    rintro rfl
    rw [lookup?_nil] at h
    cases h
  refine ⟨rfl, Or.inl h, ?_, fun m hm => ?_⟩
  · exact (lookup?_set hl l).trans (if_pos rfl)
  · exact (lookup?_set hl m).trans (if_neg hm)

/-- A name that is free has no entry. -/
theorem lookup?_of_walk_free {purpose : Purpose} {links k : Nat} {dir : Location}
    {pieces : List Bytes} (h : t.walk purpose links dir pieces = .ok ⟨.free l, k⟩) :
    t.lookup? l = none := by
  fun_induction walk t purpose links dir pieces with
  | case1 => cases h
  | case2 => cases h
  | case3 _ _ _ _ _ _ ih => exact ih h
  | case4 _ _ _ _ _ ih => exact ih h
  | case5 => cases h
  | case6 => cases h
  | case7 _ _ _ _ _ _ _ hentry =>
      cases h
      exact hentry
  | case8 => cases h
  | case9 => cases h
  | case10 => cases h
  | case11 _ _ _ _ _ _ _ _ _ _ _ _ _ ih => exact ih h
  | case12 _ _ _ _ _ _ _ _ _ _ _ _ ih => exact ih h

theorem lookup?_of_place_free {purpose : Purpose} (h : t.place purpose path = .ok (.free l)) :
    t.lookup? l = none := by
  obtain ⟨-, k, hwalk⟩ := place_eq_ok_iff.1 h
  exact lookup?_of_walk_free hwalk

/-- After a file was written, its path names a file with that content. It is a new one, or has the
permissions of the one that was there. -/
theorem write_cases (h : t.write path data = .ok t') :
    ∃ f, t'.stat path = .ok (.file f) ∧ f.data = data ∧
      (f.mode = defaultMode ∨ ∃ f₀, t.stat path = .ok (.file f₀) ∧ f.mode = f₀.mode) := by
  unfold write update at h
  split at h
  · cases h
  · rename_i l hplace
    cases h
    exact ⟨_, (placed_create (lookup?_of_place_free hplace) data).stat_eq hplace rfl, rfl,
      Or.inl rfl⟩
  · rename_i l hplace
    split at h
    · rename_i f₀ hf₀
      split at h
      · cases h
        exact ⟨_, (placed_set hf₀ _).stat_eq hplace rfl, rfl,
          Or.inr ⟨f₀, (placed_self hf₀).stat_eq hplace rfl, rfl⟩⟩
      · cases h
    · cases h

end Write

end FileTree

end HttpServer
