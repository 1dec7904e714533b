import HttpServer.Message.Response
import Mathlib.Data.List.Basic

/-!
# The head of a message

A reader cuts a message at its first empty line: what stands in front is the head, a row of lines
with breaks between them, and what stands behind is the body. `Framed` says that a text is cut in
this way. It holds of any row of lines that are not empty and hold no break of their own, whatever
the body is (`framed_of_lines`), so nothing in a body can move the end of the head. A text is cut in
one way only (`Framed.unique`).
-/

namespace HttpServer

namespace Message

/-- Neither of the two bytes of a line break occurs. -/
def Unbroken (bs : Bytes) : Prop :=
  Bytes.cr ∉ bs ∧ Bytes.lf ∉ bs

instance (bs : Bytes) : Decidable (Unbroken bs) :=
  inferInstanceAs (Decidable (_ ∧ _))

/-- The break at the end of the head, and the one of the empty line behind it. -/
def headEnd : Bytes := Bytes.crlf ++ Bytes.crlf

/-- The text of a head: its lines with breaks between them. -/
def headText (lines : List Bytes) : Bytes :=
  Bytes.crlf.intercalate lines

/-- A text is cut at its first empty line, and what stands in front of that into lines. -/
structure Framed (text : Bytes) (lines : List Bytes) (body : Bytes) : Prop where
  text_eq : text = headText lines ++ headEnd ++ body
  first : ∀ front back, text = front ++ headEnd ++ back → (headText lines).length ≤ front.length
  unbroken : ∀ l ∈ lines, Unbroken l

/-- The name in front of the colon of a header line. -/
def fieldName (line : Bytes) : Bytes :=
  line.takeWhile (· != Bytes.colon)

/-- The values that header lines give for a name. -/
def fieldValues (name : Bytes) (lines : List Bytes) : List Bytes :=
  lines.filterMap (Bytes.strip? (name ++ Bytes.ascii ": "))

theorem unbroken_append {a b : Bytes} : Unbroken (a ++ b) ↔ Unbroken a ∧ Unbroken b := by
  simp only [Unbroken, List.mem_append, not_or]
  constructor
  · rintro ⟨⟨h₁, h₂⟩, h₃, h₄⟩
    exact ⟨⟨h₁, h₃⟩, h₂, h₄⟩
  · rintro ⟨⟨h₁, h₃⟩, h₂, h₄⟩
    exact ⟨⟨h₁, h₂⟩, h₃, h₄⟩

theorem unbroken_decimal (n : Nat) : Unbroken (Bytes.decimal n) := by
  constructor
  · intro h
    exact absurd (Bytes.isDigit_of_mem_decimal h) (by decide)
  · intro h
    exact absurd (Bytes.isDigit_of_mem_decimal h) (by decide)

/-- Lines with breaks behind them are lines with breaks between them, and one break more. -/
theorem headText_append_crlf {lines : List Bytes} (h : lines ≠ []) :
    headText lines ++ Bytes.crlf = (lines.map Response.endLine).flatten := by
  induction lines with
  | nil => exact absurd rfl h
  | cons l lines ih =>
      rw [List.map_cons, List.flatten_cons, Response.endLine]
      by_cases hl : lines = []
      · subst hl
        rw [List.map_nil, List.flatten_nil, List.append_nil, headText,
          List.intercalate_singleton]
      · rw [← ih hl, headText, List.intercalate_cons_of_ne_nil hl, headText]
        simp only [List.append_assoc]

/-- A line that is not empty does not open with a break. -/
theorem lines_eq_nil_of_crlf {lines : List Bytes} (h : ∀ l ∈ lines, l ≠ [] ∧ Unbroken l)
    {rest back : Bytes}
    (htext : (lines.map Response.endLine).flatten ++ rest = Bytes.crlf ++ back) : lines = [] := by
  cases lines with
  | nil => rfl
  | cons l lines =>
      obtain ⟨hne, hcr, -⟩ := h l (List.mem_cons_self)
      cases l with
      | nil => exact absurd rfl hne
      | cons b l =>
          have hb : b = Bytes.cr := by
            simp only [List.map_cons, List.flatten_cons, Response.endLine, List.cons_append,
              Bytes.crlf, List.cons.injEq] at htext
            exact htext.1
          exact absurd (hb ▸ List.mem_cons_self) hcr

/-- Within lines that are not empty no break follows another one. -/
theorem length_lines_le {lines : List Bytes} (h : ∀ l ∈ lines, l ≠ [] ∧ Unbroken l)
    {body front back : Bytes}
    (htext : (lines.map Response.endLine).flatten ++ (Bytes.crlf ++ body) =
      front ++ (headEnd ++ back)) :
    ((lines.map Response.endLine).flatten).length ≤ front.length + 2 := by
  induction lines generalizing front with
  | nil => exact Nat.zero_le _
  | cons l lines ih =>
      obtain ⟨⟨-, hcr, -⟩, hlines⟩ := List.forall_mem_cons.1 h
      rw [List.map_cons, List.flatten_cons, Response.endLine] at htext ⊢
      rw [List.append_assoc, List.append_assoc] at htext
      have hlast : front = l →
          (lines.map Response.endLine).flatten ++ (Bytes.crlf ++ body) = Bytes.crlf ++ back →
          (l ++ Bytes.crlf ++ (lines.map Response.endLine).flatten).length ≤ front.length + 2 := by
        intro hfront hrest
        rw [lines_eq_nil_of_crlf hlines hrest, hfront]
        simp [Bytes.crlf]
      -- either the empty line begins behind this line, or inside it, which holds no break
      rcases List.append_eq_append_iff.1 htext with ⟨t, hfront, ht⟩ | ⟨t, hl, ht⟩
      · cases t with
        | nil =>
            rw [List.append_nil] at hfront
            exact hlast hfront (by simpa [headEnd] using ht)
        | cons x t =>
            cases t with
            | nil => simp [Bytes.crlf, headEnd, Bytes.cr, Bytes.lf] at ht
            | cons y t =>
                have hrest : (lines.map Response.endLine).flatten ++ (Bytes.crlf ++ body) =
                    t ++ (headEnd ++ back) := by
                  simp only [Bytes.crlf, List.cons_append, List.nil_append, List.cons.injEq] at ht
                  exact ht.2.2
                have := ih hlines hrest
                rw [hfront]
                simp only [List.length_append, List.length_cons, List.length_nil, Bytes.crlf]
                  at this ⊢
                omega
      · cases t with
        | nil =>
            rw [List.append_nil] at hl
            exact hlast hl.symm (by simpa [headEnd] using ht.symm)
        | cons x t =>
            have hx : x = Bytes.cr := by
              simp only [headEnd, Bytes.crlf, List.cons_append, List.cons.injEq] at ht
              exact ht.1.symm
            rw [hl, hx] at hcr
            exact absurd (by simp) hcr

/-- Lines that are not empty and hold no break are the head of a text in which an empty line follows
them. -/
theorem framed_of_lines {lines : List Bytes} (hne : lines ≠ [])
    (h : ∀ l ∈ lines, l ≠ [] ∧ Unbroken l) (body : Bytes) :
    Framed ((lines.map Response.endLine).flatten ++ Bytes.crlf ++ body) lines body := by
  have hhead := headText_append_crlf hne
  refine ⟨?_, ?_, ?_⟩
  · rw [← hhead, headEnd]
    simp only [List.append_assoc]
  · intro front back htext
    rw [List.append_assoc, List.append_assoc] at htext
    have hle := length_lines_le h htext
    rw [← hhead, List.length_append] at hle
    exact Nat.le_of_add_le_add_right hle
  · intro l hl
    exact (h l hl).2

/-- Rows of lines that hold no break are the same if they are the same text. -/
theorem eq_of_flatten_endLine {lines lines' : List Bytes} (h : ∀ l ∈ lines, Unbroken l)
    (h' : ∀ l ∈ lines', Unbroken l)
    (htext : (lines.map Response.endLine).flatten = (lines'.map Response.endLine).flatten) :
    lines = lines' := by
  induction lines generalizing lines' with
  | nil =>
      cases lines' with
      | nil => rfl
      | cons l' lines' => simp [Response.endLine, Bytes.crlf] at htext
  | cons l lines ih =>
      cases lines' with
      | nil => simp [Response.endLine, Bytes.crlf] at htext
      | cons l' lines' =>
          obtain ⟨⟨hcr, -⟩, hlines⟩ := List.forall_mem_cons.1 h
          obtain ⟨⟨hcr', -⟩, hlines'⟩ := List.forall_mem_cons.1 h'
          simp only [List.map_cons, List.flatten_cons, Response.endLine, Bytes.crlf,
            List.append_assoc, List.cons_append, List.nil_append] at htext
          -- the first break stands behind the first line, on both sides
          have hlength : l.length = l'.length := by
            have hfirst := congrArg (List.idxOf Bytes.cr) htext
            rwa [List.idxOf_append_of_notMem hcr, List.idxOf_append_of_notMem hcr',
              List.idxOf_cons_self, List.idxOf_cons_self] at hfirst
          obtain ⟨rfl, hrest⟩ := List.append_inj htext hlength
          rw [ih hlines hlines' (List.cons.inj (List.cons.inj hrest).2).2]

/-- A text is cut in one way only. -/
theorem Framed.unique {text body body' : Bytes} {lines lines' : List Bytes}
    (h : Framed text lines body) (h' : Framed text lines' body') (hne : lines ≠ [])
    (hne' : lines' ≠ []) : lines = lines' ∧ body = body' := by
  have htext := h.text_eq.symm.trans h'.text_eq
  have hlength : (headText lines).length = (headText lines').length :=
    Nat.le_antisymm (h.first _ _ h'.text_eq) (h'.first _ _ h.text_eq)
  rw [List.append_assoc, List.append_assoc] at htext
  obtain ⟨hhead, hrest⟩ := List.append_inj htext hlength
  refine ⟨eq_of_flatten_endLine h.unbroken h'.unbroken ?_, List.append_cancel_left hrest⟩
  rw [← headText_append_crlf hne, ← headText_append_crlf hne', hhead]

end Message

end HttpServer
