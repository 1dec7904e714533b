import HttpServer.Message.RequestReader

/-!
# The lines of a request

Reading on falls into two parts. `takeLines r bs` takes every complete line up to the end of the
headers, or up to a line that fails, and hands back what stands behind them. `settle` looks at that
rest once: it is waited for, it is a body, or nothing more is read. Only the first part moves over
bytes, and it does not matter in how many pieces it gets them: `takeLines_append` stops in the
middle of a text and goes on from there.
-/

namespace HttpServer

namespace RequestReader

/-- The start line or a header comes next. -/
def inHead (r : RequestReader) : Bool :=
  r.phase == .startLine || r.phase == .headers

/-- The reader behind all complete lines of the head, and the bytes that it did not take. -/
def takeLines (r : RequestReader) (bs : Bytes) : RequestReader × Bytes :=
  if r.inHead then
    match _h : Bytes.lineEnd? bs with
    | none => (r, bs)
    | some n => (r.line (bs.take n)).takeLines (bs.drop (n + 2))
  else (r, bs)
termination_by bs.length
decreasing_by
  have := Bytes.add_two_le_of_lineEnd?_eq_some _h
  rw [List.length_drop]
  omega

/-- Where a reader stops that is behind all complete lines. -/
def settle (r : RequestReader) (rest : Bytes) : Stop :=
  match r.phase with
  | .done => ⟨.success, r, rest⟩
  | .failed => ⟨.error, r, rest⟩
  | .body =>
    match r.body? rest with
    | some s => ⟨s.verdict, s, rest⟩
    | none => ⟨.incomplete, r, rest⟩
  | .startLine | .headers => ⟨.incomplete, r, rest⟩

theorem takeLines_of_not_inHead {r : RequestReader} (h : r.inHead = false) (bs : Bytes) :
    r.takeLines bs = (r, bs) := by
  rw [takeLines, if_neg (by simp [h])]

theorem takeLines_of_none {r : RequestReader} {bs : Bytes} (h : Bytes.lineEnd? bs = none) :
    r.takeLines bs = (r, bs) := by
  rw [takeLines]
  split
  · split
    · rfl
    · rename_i hn
      rw [h] at hn
      cases hn
  · rfl

theorem takeLines_of_some {r : RequestReader} {bs : Bytes} {n : Nat} (hr : r.inHead = true)
    (h : Bytes.lineEnd? bs = some n) :
    r.takeLines bs = (r.line (bs.take n)).takeLines (bs.drop (n + 2)) := by
  rw [takeLines, if_pos hr]
  split
  · rename_i hn
    rw [h] at hn
    cases hn
  · rename_i m hm
    rw [h] at hm
    cases hm
    rfl

/-- A text can be taken in two pieces. -/
theorem takeLines_append (r : RequestReader) (bs cs : Bytes) :
    r.takeLines (bs ++ cs) =
      (r.takeLines bs).1.takeLines ((r.takeLines bs).2 ++ cs) := by
  induction r, bs using takeLines.induct with
  | case1 r bs hr hn => rw [takeLines_of_none hn]
  | case2 r bs hr n hn ih =>
      have hle := Bytes.add_two_le_of_lineEnd?_eq_some hn
      have htake : (bs ++ cs).take n = bs.take n :=
        List.take_append_of_le_length (by omega)
      have hdrop : (bs ++ cs).drop (n + 2) = bs.drop (n + 2) ++ cs :=
        List.drop_append_of_le_length hle
      rw [takeLines_of_some hr (Bytes.lineEnd?_append hn cs), takeLines_of_some hr hn, htake,
        hdrop, ih]
  | case3 r bs hr => rw [takeLines_of_not_inHead (by simpa using hr) bs]

/-- Lines are taken from the front. -/
theorem takeLines_suffix (r : RequestReader) (bs : Bytes) : (r.takeLines bs).2 <:+ bs := by
  induction r, bs using takeLines.induct with
  | case1 r bs hr hn =>
      simp only [takeLines_of_none hn]
      exact List.suffix_refl bs
  | case2 r bs hr n hn ih =>
      rw [takeLines_of_some hr hn]
      exact ih.trans (List.drop_suffix _ _)
  | case3 r bs hr =>
      simp only [takeLines_of_not_inHead (Bool.eq_false_iff.2 hr) bs]
      exact List.suffix_refl bs

/-- While the head is incomplete, no complete line is left over. -/
theorem lineEnd?_takeLines {r : RequestReader} {bs : Bytes}
    (h : (r.takeLines bs).1.inHead = true) : Bytes.lineEnd? (r.takeLines bs).2 = none := by
  induction r, bs using takeLines.induct with
  | case1 r bs hr hn =>
      rw [takeLines_of_none hn]
      exact hn
  | case2 r bs hr n hn ih =>
      rw [takeLines_of_some hr hn] at h ⊢
      exact ih h
  | case3 r bs hr =>
      rw [takeLines_of_not_inHead (by simpa using hr) bs] at h
      exact absurd h hr

/-- A reader that leaves the head by what is new leaves only new bytes, and not all of them. -/
theorem length_takeLines_lt {r : RequestReader} {bs cs : Bytes} (hr : r.inHead = true)
    (hbs : Bytes.lineEnd? bs = none) (h : (r.takeLines (bs ++ cs)).1.inHead = false) :
    (r.takeLines (bs ++ cs)).2.length < cs.length := by
  cases hn : Bytes.lineEnd? (bs ++ cs) with
  | none =>
      rw [takeLines_of_none hn, hr] at h
      cases h
  | some n =>
      -- the first line break cannot lie within the old bytes
      have hlong : bs.length < n + 2 := by
        rcases Nat.lt_or_ge bs.length (n + 2) with hlt | hge
        · exact hlt
        · have hsplit := Bytes.eq_of_lineEnd?_eq_some hn
          rw [List.take_append_of_le_length (by omega), List.drop_append_of_le_length hge,
            ← List.append_assoc, List.append_cancel_right_eq] at hsplit
          exact absurd ⟨_, _, hsplit.symm⟩ (Bytes.lineEnd?_eq_none_iff.1 hbs)
      have hle := Bytes.add_two_le_of_lineEnd?_eq_some hn
      have hsuffix := takeLines_suffix (r.line ((bs ++ cs).take n)) ((bs ++ cs).drop (n + 2))
      have := hsuffix.length_le
      rw [takeLines_of_some hr hn]
      simp only [List.length_drop, List.length_append] at this hle
      omega

/-- Reading on is taking lines and then looking at the rest. -/
theorem advance_eq_settle (r : RequestReader) (bs : Bytes) :
    r.advance bs = (r.takeLines bs).1.settle (r.takeLines bs).2 := by
  induction r, bs using takeLines.induct with
  | case1 r bs hr hn =>
      rw [takeLines_of_none hn]
      unfold advance settle
      cases hp : r.phase with
      | startLine | headers =>
          simp only
          split
          · rfl
          · rename_i m hm
            rw [hn] at hm
            cases hm
      | body | done | failed => simp [inHead, hp] at hr
  | case2 r bs hr n hn ih =>
      rw [takeLines_of_some hr hn, ← ih]
      conv => lhs; unfold advance
      cases hp : r.phase with
      | startLine | headers =>
          simp only
          split
          · rename_i hm
            rw [hn] at hm
            cases hm
          · rename_i m hm
            rw [hn] at hm
            cases hm
            rfl
      | body | done | failed => simp [inHead, hp] at hr
  | case3 r bs hr =>
      rw [takeLines_of_not_inHead (by simpa using hr) bs]
      unfold advance settle
      cases hp : r.phase with
      | startLine | headers => simp [inHead, hp] at hr
      | body | done | failed => rfl

end RequestReader

end HttpServer
