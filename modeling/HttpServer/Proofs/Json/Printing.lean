import HttpServer.Json.Record
import HttpServer.Proofs.Json.Skipping

/-!
# What is printed is read

`Reads` says that a reader takes a text for a certain value, whatever blanks stand in front of it
and whatever follows. Truth values, whole numbers, strings and names are printed as well-formed
values, and their readers take them for what was printed.

An object is printed one member a line. That is one of the layouts of its members.
-/

namespace HttpServer

namespace Json.Scan

variable {α : Type} {t s r rest g : Bytes}

/-- A reader takes a text for a value, and stops behind it. -/
def Reads (read : Bytes → Result α) (t : Bytes) (a : α) : Prop :=
  ∀ g rest, Gap g → Delimited rest → read (g ++ (t ++ rest)) = .ok (a, rest)

section Numbers

theorem whole_decimal (n : Nat) : Whole (Bytes.decimal n) := by
  refine ⟨⟨Bytes.decimal_ne_nil n, fun d hd => Bytes.isDigit_of_mem_decimal hd⟩, ?_⟩
  have hdigit : ∀ n < 10, [UInt8.ofNat (Nat.digitChar n).toNat].head? = some 48 → n = 0 := by
    decide
  -- the first digit of a number is that of a number with one digit less
  have hzero : (Bytes.decimal n).head? = some 48 → n = 0 := by
    induction n using Nat.strongRecOn with
    | ind n ih =>
        intro h
        rcases Nat.lt_or_ge n 10 with hn | hn
        · rw [Bytes.decimal, Nat.toDigits_of_lt_base hn] at h
          exact hdigit n hn h
        · have happend : Bytes.decimal n =
              Bytes.decimal (n / 10) ++ [UInt8.ofNat (Nat.digitChar (n % 10)).toNat] := by
            rw [Bytes.decimal, Nat.toDigits_of_base_le (by decide) hn, List.map_append]
            rfl
          obtain ⟨d, ds, hds⟩ := List.exists_cons_of_ne_nil (Bytes.decimal_ne_nil (n / 10))
          have htenth := ih (n / 10) (by omega)
          rw [happend, hds] at h
          rw [hds] at htenth
          have := htenth h
          omega
  intro h
  rw [hzero h]
  decide

theorem takeUpTo_decimal {n bound : Nat} (h : n ≤ bound) :
    takeUpTo bound 0 (Bytes.decimal n) = (n, []) := by
  rw [takeUpTo_eq_nil_iff _ (Nat.zero_le bound)]
  exact ⟨Bytes.decimalValue_decimal n, h⟩

theorem magnitude_decimal (negative : Bool) {n : Nat} (h : n ≤ maxWord) (hrest : Delimited rest) :
    magnitude negative (Bytes.decimal n ++ rest) = wholeNumber negative n rest := by
  have hspan := spanDigits_append (whole_decimal n).1.2 hrest.undigited
  have htake := takeUpTo_decimal h
  obtain ⟨⟨hne, hdigits⟩, hlead⟩ := whole_decimal n
  obtain ⟨d, ds, hds⟩ := List.exists_cons_of_ne_nil hne
  rw [hds] at hspan htake hdigits hlead ⊢
  have hzero : ¬(d = 48 ∧ (d :: ds).length ≠ 1) := by
    rintro ⟨rfl, hlength⟩
    rw [hlead rfl] at hlength
    exact hlength rfl
  rw [List.cons_append] at hspan ⊢
  rw [magnitude]
  simp only [hdigits d List.mem_cons_self, Bool.not_true, Bool.false_eq_true, if_false, hspan,
    if_neg hzero, htake]
  split
  · exact absurd rfl hrest.head_cases.2.1
  · exact absurd rfl hrest.head_cases.2.2.1
  · exact absurd rfl hrest.head_cases.2.2.2
  · rfl

/-- A whole number of 64 bits is read as it was written. -/
theorem number_wholeText {n : Int} (hlow : -(greatestDebt : Int) ≤ n) (hhigh : n ≤ maxWord)
    (hrest : Delimited rest) : number (wholeText n ++ rest) = .ok (.whole n, rest) := by
  have hword : n.natAbs ≤ maxWord := by
    unfold greatestDebt at hlow
    unfold maxWord at hhigh ⊢
    omega
  unfold wholeText
  split
  · rename_i hneg
    have hfit : ¬(n.natAbs = 0 ∨ greatestDebt < n.natAbs) := by omega
    have hvalue : -(n.natAbs : Int) = n := by omega
    have hread := magnitude_decimal true hword hrest
    rw [wholeNumber, if_pos rfl, if_neg hfit, hvalue] at hread
    exact hread
  · rename_i hpos
    have hvalue : (n.natAbs : Int) = n := by omega
    have hread := magnitude_decimal false hword hrest
    rw [wholeNumber, if_neg Bool.false_ne_true, hvalue] at hread
    obtain ⟨d, ds, hds⟩ := List.exists_cons_of_ne_nil (Bytes.decimal_ne_nil n.natAbs)
    have hd : Bytes.isDigit d = true :=
      Bytes.isDigit_of_mem_decimal (n := n.natAbs) (hds ▸ List.mem_cons_self)
    rw [hds, List.cons_append] at hread ⊢
    rw [number]
    · exact hread
    · rintro r hr
      exact (begins_of_isDigit hd).2.2.2.2.2.2.2 (List.cons.inj hr).1

/-- The first byte of a whole number. -/
theorem wholeText_eq_cons (n : Int) :
    ∃ b r, wholeText n = b :: r ∧ isGap b = false ∧ (b = 45 ∨ Bytes.isDigit b = true) := by
  unfold wholeText
  split
  · exact ⟨45, _, rfl, rfl, Or.inl rfl⟩
  · obtain ⟨d, ds, hds⟩ := List.exists_cons_of_ne_nil (Bytes.decimal_ne_nil n.natAbs)
    have hd : Bytes.isDigit d = true :=
      Bytes.isDigit_of_mem_decimal (n := n.natAbs) (hds ▸ List.mem_cons_self)
    exact ⟨d, ds, hds, (begins_of_isDigit hd).1.1, Or.inr hd⟩

theorem value_wholeText (n : Int) : Value (wholeText n) := by
  have hdecimal : Magnitude (Bytes.decimal n.natAbs) := by
    have hparts := Magnitude.parts (whole_decimal n.natAbs) .none .none
    rwa [List.append_nil, List.append_nil] at hparts
  unfold wholeText
  split
  · exact .negative hdecimal
  · exact .number hdecimal

theorem reads_wholeBetween {low high n : Int} (hlow : low ≤ n) (hhigh : n ≤ high)
    (hdebt : -(greatestDebt : Int) ≤ n) (hword : n ≤ maxWord) :
    Reads (wholeBetween low high) (wholeText n) n := by
  intro g rest hg hrest
  obtain ⟨b, r, hb, hgap, hbegins⟩ := wholeText_eq_cons n
  have hnumber := number_wholeText hdebt hword hrest
  rw [hb, List.cons_append] at hnumber ⊢
  rw [wholeBetween, dropGap_token hg hgap]
  simp only [if_pos hbegins, hnumber, if_pos (And.intro hlow hhigh)]

end Numbers

section Words

theorem value_boolText (b : Bool) : Value (boolText b) := by
  cases b with
  | true => exact .true
  | false => exact .false

theorem reads_truth (b : Bool) : Reads truth (boolText b) b := by
  intro g rest hg _
  cases b with
  | true =>
      have htext : boolText true ++ rest = 116 :: (Bytes.ascii "rue" ++ rest) := rfl
      rw [truth, htext, dropGap_token hg rfl]
      simp only [if_true, literal_append]
      rfl
  | false =>
      have htext : boolText false ++ rest = 102 :: (Bytes.ascii "alse" ++ rest) := rfl
      rw [truth, htext, dropGap_token hg rfl]
      simp only [if_neg (by decide : ¬(102 : UInt8) = 116), if_true, literal_append]
      rfl

theorem reads_null (read : Bytes → Result α) : Reads (optional read) (Bytes.ascii "null") none := by
  intro g rest hg _
  have htext : Bytes.ascii "null" ++ rest = 110 :: (Bytes.ascii "ull" ++ rest) := rfl
  rw [optional, htext, dropGap_token hg rfl]
  simp only [if_true, literal_append]
  rfl

theorem reads_some {read : Bytes → Result α} {b : UInt8} {a : α} (h : Reads read (b :: t) a)
    (hgap : isGap b = false) (hb : b ≠ 110) : Reads (optional read) (b :: t) (some a) := by
  intro g rest hg hrest
  have hread := h [] rest gap_nil hrest
  rw [List.nil_append, List.cons_append] at hread
  rw [optional, List.cons_append, dropGap_token hg hgap]
  simp only [if_neg hb, hread]
  rfl

end Words

section Strings

theorem value_quote (h : Utf8.Valid s) : Value (quote s) :=
  .string (spells_flatMap_escape h).inside

theorem reads_text (h : Utf8.Valid s) : Reads text (quote s) s := by
  intro g rest hg _
  rw [quote_eq, List.cons_append, text, dropGap_token hg rfl, List.append_assoc]
  simp only [if_true]
  exact (spells_flatMap_escape h).string_eq rest

theorem reads_quote_some (h : Utf8.Valid s) : Reads (optional text) (quote s) (some s) :=
  reads_some (reads_text h) rfl (by decide)

theorem reads_choice {table : List (Bytes × α)} {a : α} (h : Utf8.Valid s)
    (hfind : table.find? (fun row => row.1 == s) = some (s, a)) :
    Reads (choice table) (quote s) a := by
  intro g rest hg _
  rw [quote_eq, List.cons_append, choice, dropGap_token hg rfl, List.append_assoc]
  simp only [if_true, named]
  rw [List.singleton_append, (spells_flatMap_escape h).string_eq rest]
  simp only [hfind]

end Strings

section Layout

theorem gap_newline (level : Nat) : Gap (newline level) := by
  intro b hb
  rcases List.mem_cons.1 hb with rfl | hb
  · rfl
  · rw [List.eq_of_mem_replicate hb]
    rfl

theorem gap_space : Gap [Bytes.space] := by
  intro b hb
  rw [List.mem_singleton.1 hb]
  rfl

/-- A member that is printed, with the text of its value. -/
def printed (level : Nat) (m : Bytes × Json) : Bytes × Bytes :=
  (m.1, prettyAt level m.2)

/-- A member on a line of its own. -/
theorem memberText_printed {m : Bytes × Json} (h : Utf8.Valid m.1) (level : Nat) (hg : Gap g) :
    MemberText Spells (printed level m)
      (newline level ++ quote m.1 ++ Bytes.ascii ": " ++ prettyAt level m.2 ++ g) := by
  have hspaced := MemberText.spaced (v := prettyAt level m.2) (gap_newline level)
    (spells_flatMap_escape h) gap_nil gap_space hg
  rw [quote_eq]
  simp only [List.append_assoc, List.cons_append, List.nil_append] at hspaced ⊢
  exact hspaced

/-- Members one a line, up to the closing bracket. -/
theorem membersText_pretty {ms : List (Bytes × Json)} (hne : ms ≠ [])
    (hms : ∀ m ∈ ms, Utf8.Valid m.1) (level : Nat) (hg : Gap g) :
    MembersText Spells (ms.map (printed level)) (prettyMembers level ms ++ g ++ [125]) := by
  induction ms with
  | nil => exact absurd rfl hne
  | cons m ms ih =>
      rw [List.forall_mem_cons] at hms
      cases ms with
      | nil =>
          rw [prettyMembers]
          exact .last (memberText_printed hms.1 level hg)
      | cons m' ms =>
          have hmore := MembersText.more (memberText_printed hms.1 level gap_nil)
            (ih (List.cons_ne_nil _ _) hms.2)
          rw [prettyMembers]
          · simp only [List.append_assoc, List.append_nil] at hmore ⊢
            exact hmore
          · exact List.cons_ne_nil _ _

/-- An object as it is printed. -/
theorem objectText_pretty {ms : List (Bytes × Json)} (hms : ∀ m ∈ ms, Utf8.Valid m.1)
    (level : Nat) : ObjectText Spells (ms.map (printed (level + 1))) (prettyAt level (.object ms)) := by
  cases ms with
  | nil =>
      rw [prettyAt]
      exact .empty gap_nil
  | cons m ms =>
      have hmembers := membersText_pretty (List.cons_ne_nil m ms) hms (level + 1)
        (gap_newline level)
      rw [prettyAt, List.append_assoc, List.append_assoc]
      exact .members (by rwa [List.append_assoc] at hmembers)

end Layout

end Json.Scan

end HttpServer
