import HttpServer.Proofs.Json.Printing
import Mathlib.Data.List.Forall2

/-!
# Records of edited objects

`Edited saved kept ms` says that the members `ms` of an object came about from those of `saved` by
leaving out all but `kept`, bringing these into another order, and putting well-formed members with
other names in between.

A record that knows exactly the names of `saved` has to be told by the names that were met. `R` is
that account, from the names met so far to the record so far, and `Fits R field m` says that the
field takes its member for one name more. The members are then followed one by one, from any names
on (`MembersText.membersInto_eq`). That no name comes twice, which would be refused, is carried
along.
-/

namespace HttpServer

namespace Json.Scan

variable {σ α : Type} {R : List Bytes → σ} {fields : List (RecordField σ)}
  {saved kept ms : List (Bytes × Bytes)} {m : Bytes × Bytes} {seen : List Bytes}
  {t g rest : Bytes} {fuel : Nat}

/-- A field takes the member of its name. -/
def Fits (R : List Bytes → σ) (field : RecordField σ) (m : Bytes × Bytes) : Prop :=
  field.name = m.1 ∧ ∀ seen, Reads (field.read (R seen)) m.2 (R (m.1 :: seen))

/-- The names of some members. -/
abbrev namesOf (ms : List (Bytes × Bytes)) : List Bytes :=
  ms.map Prod.fst

/-- The members whose names are among those of `saved`. -/
def known (saved ms : List (Bytes × Bytes)) : List (Bytes × Bytes) :=
  ms.filter fun m => (namesOf saved).contains m.1

theorem known_cons_of_mem (h : m.1 ∈ namesOf saved) :
    known saved (m :: ms) = m :: known saved ms :=
  List.filter_cons_of_pos (List.contains_iff_mem.2 h)

theorem known_cons_of_not_mem (h : m.1 ∉ namesOf saved) :
    known saved (m :: ms) = known saved ms :=
  List.filter_cons_of_neg fun hname => h (List.contains_iff_mem.1 hname)

/-- Of the members `saved` those of `kept` are left, in any order and with unknown members in
between. -/
structure Edited (saved kept ms : List (Bytes × Bytes)) : Prop where
  subset : kept.Sublist saved
  order : (known saved ms).Perm kept
  unknown : ∀ m ∈ ms, m.1 ∉ namesOf saved → Value m.2

/-- Leaving everything as it is. -/
theorem edited_self (saved : List (Bytes × Bytes)) : Edited saved saved saved := by
  have hall : ∀ m ∈ saved, m.1 ∈ namesOf saved := fun m hm => List.mem_map_of_mem hm
  have hknown : known saved saved = saved :=
    List.filter_eq_self.2 fun m hm => List.contains_iff_mem.2 (hall m hm)
  refine ⟨List.Sublist.refl saved, ?_, fun m hm hname => absurd (hall m hm) hname⟩
  rw [hknown]

section Fields

/-- A field that is set to what it reads. -/
theorem fits_set {name : String} {read : Bytes → Result α} {put : σ → α → σ} {v : α}
    (hread : Reads read t v) (hput : ∀ seen, put (R seen) v = R (Bytes.ascii name :: seen)) :
    Fits R (.set name read put) (Bytes.ascii name, t) := by
  refine ⟨rfl, fun seen g rest hg hrest => ?_⟩
  simp only [RecordField.set, hread g rest hg hrest, Except.map, hput]

/-- The field of a member that was saved. -/
theorem find?_of_mem (hfits : List.Forall₂ (Fits R) fields saved)
    (hnames : (namesOf saved).Nodup) (hm : m ∈ saved) :
    ∃ field, fields.find? (fun field => field.name == m.1) = some field ∧ Fits R field m := by
  induction hfits with
  | nil => cases hm
  | @cons field m' fields saved hfit _ ih =>
      have hnodup := List.nodup_cons.1 hnames
      rcases List.mem_cons.1 hm with rfl | hm
      · exact ⟨field, List.find?_cons_of_pos (beq_iff_eq.2 hfit.1), hfit⟩
      · have hne : ¬(field.name == m.1) = true := by
          rw [beq_iff_eq, hfit.1]
          intro h
          exact hnodup.1 (h ▸ List.mem_map_of_mem hm)
        rw [List.find?_cons_of_neg (p := fun field : RecordField σ => field.name == m.1) hne]
        exact ih hnodup.2 hm

/-- No field has a name that was not saved. -/
theorem find?_of_not_mem (hfits : List.Forall₂ (Fits R) fields saved)
    {name : Bytes} (hname : name ∉ namesOf saved) :
    fields.find? (fun field => field.name == name) = none := by
  induction hfits with
  | nil => rfl
  | @cons field m fields saved hfit _ ih =>
      have hcons := not_or.1 (List.mem_cons.not.1 hname)
      have hne : ¬(field.name == name) = true := by
        rw [beq_iff_eq, hfit.1]
        exact fun h => hcons.1 h.symm
      rw [List.find?_cons_of_neg (p := fun field : RecordField σ => field.name == name) hne]
      exact ih hcons.2

end Fields

section Members

variable {name v g₁ g₂ : Bytes}

theorem expect_colon (hg : Gap g) (rest : Bytes) :
    expect Bytes.colon (dropGap (g ++ Bytes.colon :: rest)) = .ok rest := by
  rw [dropGap_token hg rfl]
  rfl

/-- A member that was saved is met. -/
theorem member_known (hfits : List.Forall₂ (Fits R) fields saved) (hnames : (namesOf saved).Nodup)
    (hm : (name, v) ∈ saved) (hseen : name ∉ seen) (ht : Spells t name) (hg₁ : Gap g₁)
    (hg₂ : Gap g₂) (hrest : Delimited rest) :
    member fields fuel ⟨seen, R seen⟩
        (t ++ 34 :: (g₁ ++ Bytes.colon :: (g₂ ++ (v ++ rest)))) =
      .ok (⟨name :: seen, R (name :: seen)⟩, rest) := by
  obtain ⟨field, hfind, hfit⟩ := find?_of_mem hfits hnames hm
  have hread := hfit.2 seen g₂ rest hg₂ hrest
  simp only [member, ht.string_eq, hfind, if_neg hseen, expect_colon hg₁, hread]
  rfl

/-- A member with an unknown name is passed over. -/
theorem member_unknown (hfits : List.Forall₂ (Fits R) fields saved) (hname : name ∉ namesOf saved)
    (hv : Value v) (s : Filling σ) (ht : Spells t name) (hg₁ : Gap g₁) (hg₂ : Gap g₂)
    (hrest : Delimited rest) (hfuel : v.length ≤ fuel) :
    member fields fuel s (t ++ 34 :: (g₁ ++ Bytes.colon :: (g₂ ++ (v ++ rest)))) =
      .ok (s, rest) := by
  have hfind := find?_of_not_mem hfits hname
  simp only [member, ht.string_eq, hfind, expect_colon hg₁, hv.skipFrom_eq hg₂ hrest hfuel]
  rfl

/-- The names met after one member more. -/
def met (saved : List (Bytes × Bytes)) (seen : List Bytes) (m : Bytes × Bytes) : List Bytes :=
  if (namesOf saved).contains m.1 then m.1 :: seen else seen

theorem met_of_mem (h : m.1 ∈ namesOf saved) : met saved seen m = m.1 :: seen :=
  if_pos (List.contains_iff_mem.2 h)

theorem met_of_not_mem (h : m.1 ∉ namesOf saved) : met saved seen m = seen :=
  if_neg fun hname => h (List.contains_iff_mem.1 hname)

/-- What may come next: a member that was saved, for the first time, or a well-formed one with an
unknown name. -/
def Next (saved : List (Bytes × Bytes)) (seen : List Bytes) (m : Bytes × Bytes) : Prop :=
  (m.1 ∈ namesOf saved → m ∈ saved ∧ m.1 ∉ seen) ∧ (m.1 ∉ namesOf saved → Value m.2)

/-- One member is read, up to the comma or bracket behind it. -/
theorem MemberText.member_eq (h : MemberText Spells m t)
    (hfits : List.Forall₂ (Fits R) fields saved) (hnames : (namesOf saved).Nodup)
    (hnext : Next saved seen m) (hfuel : t.length ≤ fuel) {b : UInt8}
    (hb : b = comma ∨ b = 93 ∨ b = 125) (rest : Bytes) :
    ∃ r g, Gap g ∧ dropGap (t ++ b :: rest) = 34 :: r ∧
      member fields fuel ⟨seen, R seen⟩ r =
        .ok (⟨met saved seen m, R (met saved seen m)⟩, g ++ b :: rest) := by
  cases h with
  | @spaced g t g₁ g₂ v g₃ name hg ht hg₁ hg₂ hg₃ =>
      refine ⟨t ++ 34 :: (g₁ ++ Bytes.colon :: (g₂ ++ (v ++ (g₃ ++ b :: rest)))), g₃, hg₃,
        ?_, ?_⟩
      · simp only [List.append_assoc, List.cons_append]
        exact dropGap_token hg rfl _
      · have hrest := delimited_token hg₃ hb rest
        by_cases hname : name ∈ namesOf saved
        · obtain ⟨hm, hseen⟩ := hnext.1 hname
          rw [met_of_mem (m := (name, v)) hname]
          exact member_known hfits hnames hm hseen ht hg₁ hg₂ hrest
        · have hv : Value v := hnext.2 hname
          have hlength : v.length ≤ fuel := by
            simp only [List.length_append, List.length_cons] at hfuel
            omega
          rw [met_of_not_mem (m := (name, v)) hname]
          exact member_unknown hfits hname hv _ ht hg₁ hg₂ hrest hlength

/-- What may come, one member after the other. -/
def Coming (saved : List (Bytes × Bytes)) : List Bytes → List (Bytes × Bytes) → Prop
  | _, [] => True
  | seen, m :: ms => Next saved seen m ∧ Coming saved (met saved seen m) ms

/-- The members are read up to the closing bracket. -/
theorem MembersText.membersInto_eq (h : MembersText Spells ms t)
    (hfits : List.Forall₂ (Fits R) fields saved) (hnames : (namesOf saved).Nodup)
    (hcoming : Coming saved seen ms) (hfuel : t.length ≤ fuel) (rest : Bytes) :
    membersInto fields fuel ⟨seen, R seen⟩ (t ++ rest) =
      .ok (R (ms.foldl (met saved) seen), rest) := by
  -- each member takes one step, and leaves as many as its value and the members behind it need
  induction h generalizing seen fuel with
  | @last m x hx =>
      rw [List.length_append, List.length_singleton] at hfuel
      obtain ⟨fuel, rfl⟩ : ∃ k, fuel = k + 1 := ⟨fuel - 1, by omega⟩
      obtain ⟨r, g, hg, hdrop, hmember⟩ := hx.member_eq hfits hnames hcoming.1
        (Nat.le_of_succ_le_succ hfuel) (Or.inr (Or.inr rfl)) rest
      rw [List.append_assoc, List.singleton_append, membersInto, hdrop]
      have hclose : dropGap (g ++ 125 :: rest) = 125 :: rest := dropGap_token hg rfl rest
      simp only [ne_eq, not_true_eq_false, if_false, hmember, hclose, if_true]
      rfl
  | @more m x t ms hx _ ih =>
      rw [List.length_append, List.length_cons] at hfuel
      obtain ⟨fuel, rfl⟩ : ∃ k, fuel = k + 1 := ⟨fuel - 1, by omega⟩
      obtain ⟨r, g, hg, hdrop, hmember⟩ := hx.member_eq hfits hnames hcoming.1
        (show x.length ≤ fuel by omega) (Or.inl rfl) (t ++ rest)
      have hcomma : dropGap (g ++ comma :: (t ++ rest)) = comma :: (t ++ rest) :=
        dropGap_token hg rfl (t ++ rest)
      have hlength : t.length ≤ fuel := by omega
      rw [List.append_assoc, List.cons_append, membersInto, hdrop]
      simp only [ne_eq, not_true_eq_false, if_false, hmember, hcomma, if_true,
        if_neg (by decide : ¬comma = 125)]
      exact ih hcoming.2 hlength

end Members

section Objects

/-- The names met are those of the members that are known. -/
theorem mem_foldl_met {name : Bytes} : name ∈ ms.foldl (met saved) seen ↔
    name ∈ seen ∨ name ∈ namesOf (known saved ms) := by
  induction ms generalizing seen with
  | nil => exact ⟨Or.inl, fun h => h.resolve_right nofun⟩
  | cons m ms ih =>
      rw [List.foldl_cons, ih]
      by_cases hm : m.1 ∈ namesOf saved
      · have hnames : namesOf (m :: known saved ms) = m.1 :: namesOf (known saved ms) := rfl
        rw [met_of_mem hm, known_cons_of_mem hm, hnames, List.mem_cons, List.mem_cons, or_assoc,
          or_left_comm]
      · rw [met_of_not_mem hm, known_cons_of_not_mem hm]

/-- Members may come as they are where those that are known were saved, all have different names,
and the others are well formed. -/
theorem coming_of_known (hsaved : ∀ m ∈ known saved ms, m ∈ saved)
    (hnodup : (namesOf (known saved ms) ++ seen).Nodup)
    (hunknown : ∀ m ∈ ms, m.1 ∉ namesOf saved → Value m.2) : Coming saved seen ms := by
  induction ms generalizing seen with
  | nil => trivial
  | cons m ms ih =>
      rw [List.forall_mem_cons] at hunknown
      by_cases hm : m.1 ∈ namesOf saved
      · rw [known_cons_of_mem hm] at hsaved hnodup
        rw [List.forall_mem_cons] at hsaved
        rw [namesOf, List.map_cons, List.cons_append] at hnodup
        have hnot := (List.nodup_cons.1 hnodup).1
        refine ⟨⟨fun _ => ⟨hsaved.1, fun h => hnot (List.mem_append_right _ h)⟩,
          fun h => absurd hm h⟩, ?_⟩
        rw [met_of_mem hm]
        exact ih hsaved.2 (List.perm_middle.nodup_iff.2 hnodup) hunknown.2
      · rw [known_cons_of_not_mem hm] at hsaved hnodup
        refine ⟨⟨fun h => absurd h hm, hunknown.1⟩, ?_⟩
        rw [met_of_not_mem hm]
        exact ih hsaved hnodup hunknown.2

/-- The text of an edited object, laid out in any way. -/
inductive EditedText (saved kept : List (Bytes × Bytes)) : Bytes → Prop where
  | laidOut {ms : List (Bytes × Bytes)} {t : Bytes} : Edited saved kept ms →
      ObjectText Spells ms t → EditedText saved kept t

/-- An edited object is read as the record of the members that were kept. -/
theorem EditedText.reads (h : EditedText saved kept t)
    (hfits : List.Forall₂ (Fits R) fields saved) (hnames : (namesOf saved).Nodup)
    (hR : ∀ {names names' : List Bytes}, (∀ name, name ∈ names ↔ name ∈ names') →
      R names = R names') : Reads (record fields (R [])) t (R (namesOf kept)) := by
  obtain @⟨ms, _, h, htext⟩ := h
  have horder : (namesOf (known saved ms)).Perm (namesOf kept) := h.order.map Prod.fst
  have hnodup : (namesOf (known saved ms) ++ []).Nodup := by
    rw [List.append_nil]
    exact horder.nodup_iff.2 (hnames.sublist (h.subset.map Prod.fst))
  have hcoming : Coming saved [] ms := coming_of_known
    (fun m hm => h.subset.subset (h.order.mem_iff.1 hm)) hnodup h.unknown
  have hmet : R (ms.foldl (met saved) []) = R (namesOf kept) := by
    apply hR
    intro name
    rw [mem_foldl_met, horder.mem_iff]
    exact ⟨fun h => h.resolve_left nofun, Or.inr⟩
  intro g rest hg _
  cases htext with
  | @empty g' hg' =>
      have hclose : dropGap (g' ++ 125 :: rest) = 125 :: rest := dropGap_token hg' rfl rest
      rw [List.cons_append, record, dropGap_token hg rfl, List.append_assoc, List.singleton_append]
      simp only [if_neg (by decide : ¬(123 : UInt8) = 91), if_true, hclose]
      rw [← hmet]
      rfl
  | @members _ t ht =>
      obtain ⟨s, hdrop⟩ := ht.dropGap_eq rest
      have hlength : t.length ≤ (t ++ rest).length + 1 := by
        rw [List.length_append]
        omega
      have hread := ht.membersInto_eq hfits hnames hcoming hlength rest
      rw [List.cons_append, record, dropGap_token hg rfl]
      simp only [if_neg (by decide : ¬(123 : UInt8) = 91), if_true, hdrop,
        if_neg (by decide : ¬(34 : UInt8) = 125), hread, hmet]

/-- The text of an edited object is UTF-8 if the texts that were saved are. -/
theorem EditedText.valid (h : EditedText saved kept t) (hsaved : ∀ m ∈ saved, Utf8.Valid m.2) :
    Utf8.Valid t := by
  obtain @⟨ms, _, h, htext⟩ := h
  refine htext.valid (fun _ _ ht => ht.inside) fun m hm => ?_
  by_cases hname : m.1 ∈ namesOf saved
  · have hknown : m ∈ known saved ms := List.mem_filter.2 ⟨hm, List.contains_iff_mem.2 hname⟩
    exact hsaved m (h.subset.subset (h.order.mem_iff.1 hknown))
  · exact (h.unknown m hm hname).valid

end Objects

end Json.Scan

end HttpServer
