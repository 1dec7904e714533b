import HttpServer.Message.RequestReader
import HttpServer.Proofs.Message.Length

/-!
# The grammar of requests

A request is a start line, field lines, an empty line, and perhaps a body with a line break behind
it. The lines are what is left when a text is cut at its first line break again and again. This file
says which texts are a request, which are the beginning of one, and which are neither, without a
reader: `Complete`, `Begun` and `Broken` speak of the bytes alone.

Every text opens with field lines up to a line that is none, or up to the end of what is there
(`exists_fields`), so each text is one of the three (`complete_or_begun_or_broken`).
-/

namespace HttpServer

namespace Message

/-- `line` stands in front of the first line break of a text, and `rest` behind that break. -/
structure Cut (s line rest : Bytes) : Prop where
  text_eq : s = line ++ Bytes.crlf ++ rest
  first : ∀ front back, s = front ++ Bytes.crlf ++ back → line.length ≤ front.length

/-- The bytes of a text in UTF-8. -/
def IsText (bs : Bytes) : Prop :=
  ∃ s : String, bs = Utf8.encode s

/-- A start line: three tokens with single spaces between, the third of which names the protocol.
Tokens may be empty. -/
structure StartLine (line method target version : Bytes) : Prop where
  isText : IsText line
  line_eq : line =
    method ++ Bytes.space :: (target ++ Bytes.space :: (RequestReader.protocolName ++ version))
  method : Bytes.space ∉ method
  target : Bytes.space ∉ target
  version : Bytes.space ∉ version

/-- A field line: text with a colon in it. -/
def FieldLine (line : Bytes) : Prop :=
  IsText line ∧ Bytes.colon ∈ line

/-- Complete field lines at the front of a text, and what stands behind them. -/
inductive Fields : Bytes → List Bytes → Bytes → Prop where
  | nil (s : Bytes) : Fields s [] s
  | cons {s line more : Bytes} {fields : List Bytes} {rest : Bytes} : Cut s line more →
      FieldLine line → Fields more fields rest → Fields s (line :: fields) rest

/-- A start line and field lines at the front of a text, and what stands behind them. -/
def Opening (s method : Bytes) (fields : List Bytes) (rest : Bytes) : Prop :=
  ∃ line target version more, Cut s line more ∧ StartLine line method target version ∧
    Fields more fields rest

/-- The head of a request up to its empty line, and what stands behind it. -/
def Head (s method : Bytes) (fields : List Bytes) (behind : Bytes) : Prop :=
  ∃ rest, Opening s method fields rest ∧ Cut rest [] behind

/-- All complete lines of a text obey their rules, and no empty line is among them. -/
def HeadBegun (s : Bytes) : Prop :=
  ¬ Bytes.crlf <:+: s ∨ ∃ method fields rest, Opening s method fields rest ∧ ¬ Bytes.crlf <:+: rest

/-- A complete line up to the first empty one breaks its rule. -/
def HeadBroken (s : Bytes) : Prop :=
  (∃ line rest, Cut s line rest ∧ ∀ method target version, ¬ StartLine line method target version) ∨
    ∃ method fields rest line more, Opening s method fields rest ∧ Cut rest line more ∧ line ≠ [] ∧
      ¬ FieldLine line

/-- A field line is about a name. -/
def Names (line name : Bytes) : Prop :=
  name ++ [Bytes.colon] <+: line

/-- A field line gives a value for a name. One space behind the colon is not part of the value. -/
def Gives (line name value : Bytes) : Prop :=
  line = name ++ Bytes.colon :: Bytes.space :: value ∨
    (line = name ++ Bytes.colon :: value ∧ value.head? ≠ some Bytes.space)

/-- The last field line about a name gives a value. -/
def Carries (fields : List Bytes) (name value : Bytes) : Prop :=
  ∃ before line after, fields = before ++ line :: after ∧ Gives line name value ∧
    ∀ l ∈ after, ¬ Names l name

/-- Requests of these methods have a body. -/
def HasBody (method : Bytes) : Prop :=
  method = Bytes.ascii "POST" ∨ method = Bytes.ascii "post"

/-- The fields announce the length of a body. The second spelling counts if the first is absent. -/
def Announced (fields : List Bytes) (n : Nat) : Prop :=
  ∃ value, (Carries fields (Bytes.ascii "Content-Length") value ∨
      (∀ v, ¬ Carries fields (Bytes.ascii "Content-Length") v) ∧
        Carries fields (Bytes.ascii "content-length") value) ∧
    Request.Measures value n

/-- The fields announce a body as JSON. -/
def AnnouncedJson (fields : List Bytes) : Prop :=
  Carries fields (Bytes.ascii "Content-Type") (Bytes.ascii "application/json") ∨
    Carries fields (Bytes.ascii "content-type") (Bytes.ascii "application/json")

/-- A body is JSON. -/
def IsJson (body : Bytes) : Prop :=
  ∃ v, Json.parse body = .ok v

/-- A text is a request. -/
def Complete (s : Bytes) : Prop :=
  ∃ method fields behind, Head s method fields behind ∧
    (HasBody method → ∃ n, Announced fields n ∧ behind.length = n + 2 ∧
      (AnnouncedJson fields → IsJson (behind.take n)))

/-- More has to follow before a text is a request. -/
def Begun (s : Bytes) : Prop :=
  HeadBegun s ∨ ∃ method fields behind n, Head s method fields behind ∧ HasBody method ∧
    Announced fields n ∧ behind.length < n + 2

/-- What stands behind the head of a request is not its body: no length is announced, or there is
more than announced, or the body is announced as JSON and is not. -/
def BodyBroken (fields : List Bytes) (behind : Bytes) : Prop :=
  (∀ n, ¬ Announced fields n) ∨ ∃ n, Announced fields n ∧
    (n + 2 < behind.length ∨
      behind.length = n + 2 ∧ AnnouncedJson fields ∧ ¬ IsJson (behind.take n))

/-- A text is not a request, whatever follows. -/
def Broken (s : Bytes) : Prop :=
  HeadBroken s ∨ ∃ method fields behind, Head s method fields behind ∧ HasBody method ∧
    BodyBroken fields behind

section Cuts

variable {s line rest : Bytes} {n : Nat}

/-- The line break that is found is the first one. -/
theorem le_of_lineEnd?_eq_some {front back : Bytes} (h : Bytes.lineEnd? s = some n)
    (hs : s = front ++ Bytes.crlf ++ back) : n ≤ front.length := by
  have hsome : ∃ m, Bytes.lineEnd? (front ++ Bytes.crlf) = some m := by
    refine Option.ne_none_iff_exists'.1 fun hnone => ?_
    exact Bytes.lineEnd?_eq_none_iff.1 hnone (List.suffix_append front _).isInfix
  obtain ⟨m, hm⟩ := hsome
  have hwhole := Bytes.lineEnd?_append hm back
  rw [← hs, h] at hwhole
  have hle := Bytes.add_two_le_of_lineEnd?_eq_some hm
  rw [List.length_append, Bytes.crlf, List.length_cons, List.length_singleton] at hle
  have := Option.some.inj hwhole
  omega

theorem cut_of_lineEnd? (h : Bytes.lineEnd? s = some n) : Cut s (s.take n) (s.drop (n + 2)) := by
  refine ⟨Bytes.eq_of_lineEnd?_eq_some h, fun front back hs => ?_⟩
  exact Nat.le_trans (List.length_take_le n s) (le_of_lineEnd?_eq_some h hs)

theorem Cut.lineEnd? (h : Cut s line rest) : Bytes.lineEnd? s = some line.length := by
  have hsome : ∃ n, Bytes.lineEnd? s = some n := by
    refine Option.ne_none_iff_exists'.1 fun hnone => ?_
    exact Bytes.lineEnd?_eq_none_iff.1 hnone ⟨_, _, h.text_eq.symm⟩
  obtain ⟨n, hn⟩ := hsome
  have hle := le_of_lineEnd?_eq_some hn h.text_eq
  have hge := (h.first _ _ (Bytes.eq_of_lineEnd?_eq_some hn))
  rw [List.length_take] at hge
  rw [hn]
  congr 1
  omega

theorem cut_iff :
    Cut s line rest ↔ Bytes.lineEnd? s = some line.length ∧ s = line ++ Bytes.crlf ++ rest := by
  constructor
  · exact fun h => ⟨h.lineEnd?, h.text_eq⟩
  · rintro ⟨hn, hs⟩
    exact ⟨hs, fun front back hfront => le_of_lineEnd?_eq_some hn hfront⟩

theorem Cut.take (h : Cut s line rest) : s.take line.length = line := by
  rw [h.text_eq, List.append_assoc, List.take_left]

theorem Cut.drop (h : Cut s line rest) : s.drop (line.length + 2) = rest := by
  have hlen : (line ++ Bytes.crlf).length = line.length + 2 := List.length_append
  rw [h.text_eq, ← hlen, List.drop_left]

theorem Cut.length_lt (h : Cut s line rest) : rest.length < s.length := by
  rw [h.text_eq, List.length_append, List.length_append, Bytes.crlf, List.length_cons]
  omega

/-- A text is cut, or it has no line break. -/
theorem exists_cut_or (s : Bytes) : (∃ line rest, Cut s line rest) ∨ ¬ Bytes.crlf <:+: s := by
  cases h : Bytes.lineEnd? s with
  | none => exact Or.inr (Bytes.lineEnd?_eq_none_iff.1 h)
  | some n => exact Or.inl ⟨_, _, cut_of_lineEnd? h⟩

end Cuts

section Lengths

variable {s method rest behind : Bytes} {fields : List Bytes}

theorem Fields.length_le (h : Fields s fields rest) : rest.length ≤ s.length := by
  induction h with
  | nil s => exact Nat.le_refl _
  | cons hcut _ _ ih => exact Nat.le_trans ih (Nat.le_of_lt hcut.length_lt)

theorem Head.length_lt (h : Head s method fields behind) : behind.length < s.length := by
  obtain ⟨rest, ⟨line, target, version, more, hcut, -, hfields⟩, hempty⟩ := h
  exact Nat.lt_trans hempty.length_lt (Nat.lt_of_le_of_lt hfields.length_le hcut.length_lt)

end Lengths

section Cover

/-- A text opens with field lines, up to a line that is none or up to the end of what is there. -/
theorem exists_fields (s : Bytes) :
    ∃ fields rest, Fields s fields rest ∧
      (¬ Bytes.crlf <:+: rest ∨ ∃ line more, Cut rest line more ∧ ¬ FieldLine line) := by
  -- on the length, as a cut takes a line off
  induction hn : s.length using Nat.strongRecOn generalizing s with
  | ind n ih =>
      rcases exists_cut_or s with ⟨line, more, hcut⟩ | hnone
      · by_cases hline : FieldLine line
        · have hlt := hcut.length_lt
          obtain ⟨fields, rest, hfields, hend⟩ := ih more.length (by omega) more rfl
          exact ⟨line :: fields, rest, .cons hcut hline hfields, hend⟩
        · exact ⟨[], s, .nil s, Or.inr ⟨line, more, hcut, hline⟩⟩
      · exact ⟨[], s, .nil s, Or.inl hnone⟩

/-- A text has a head, or the beginning of one, or a line that breaks its rule. -/
theorem head_cases (s : Bytes) :
    (∃ method fields behind, Head s method fields behind) ∨ HeadBegun s ∨ HeadBroken s := by
  rcases exists_cut_or s with ⟨line, more, hcut⟩ | hnone
  · by_cases hstart : ∃ method target version, StartLine line method target version
    · obtain ⟨method, target, version, hstart⟩ := hstart
      obtain ⟨fields, rest, hfields, hend⟩ := exists_fields more
      have hopening : Opening s method fields rest :=
        ⟨line, target, version, more, hcut, hstart, hfields⟩
      rcases hend with hnone | ⟨last, behind, hcut', hlast⟩
      · exact Or.inr (Or.inl (Or.inr ⟨method, fields, rest, hopening, hnone⟩))
      · by_cases hempty : last = []
        · subst hempty
          exact Or.inl ⟨method, fields, behind, rest, hopening, hcut'⟩
        · exact Or.inr (Or.inr (Or.inr
            ⟨method, fields, rest, last, behind, hopening, hcut', hempty, hlast⟩))
    · refine Or.inr (Or.inr (Or.inl ⟨line, more, hcut, fun method target version h => ?_⟩))
      exact hstart ⟨method, target, version, h⟩
  · exact Or.inr (Or.inl (Or.inl hnone))

/-- What stands behind a head that announces a length is the body, or too short for it, or not the
body. -/
theorem behind_cases (fields : List Bytes) (behind : Bytes) :
    (∃ n, Announced fields n ∧ behind.length = n + 2 ∧
      (AnnouncedJson fields → IsJson (behind.take n))) ∨
    (∃ n, Announced fields n ∧ behind.length < n + 2) ∨ BodyBroken fields behind := by
  by_cases hlength : ∃ n, Announced fields n
  · obtain ⟨n, hn⟩ := hlength
    rcases Nat.lt_trichotomy behind.length (n + 2) with hlt | heq | hgt
    · exact Or.inr (Or.inl ⟨n, hn, hlt⟩)
    · by_cases hjson : AnnouncedJson fields → IsJson (behind.take n)
      · exact Or.inl ⟨n, hn, heq, hjson⟩
      · rw [Classical.not_imp] at hjson
        exact Or.inr (Or.inr (Or.inr ⟨n, hn, Or.inr ⟨heq, hjson⟩⟩))
    · exact Or.inr (Or.inr (Or.inr ⟨n, hn, Or.inl hgt⟩))
  · exact Or.inr (Or.inr (Or.inl fun n hn => hlength ⟨n, hn⟩))

/-- Every text is a request, the beginning of one, or neither. -/
theorem complete_or_begun_or_broken (s : Bytes) : Complete s ∨ Begun s ∨ Broken s := by
  rcases head_cases s with ⟨method, fields, behind, hhead⟩ | hbegun | hbroken
  · by_cases hbody : HasBody method
    · rcases behind_cases fields behind with ⟨n, hbehind⟩ | ⟨n, hn, hlt⟩ | hbroken
      · exact Or.inl ⟨method, fields, behind, hhead, fun _ => ⟨n, hbehind⟩⟩
      · exact Or.inr (Or.inl (Or.inr ⟨method, fields, behind, n, hhead, hbody, hn, hlt⟩))
      · exact Or.inr (Or.inr (Or.inr ⟨method, fields, behind, hhead, hbody, hbroken⟩))
    · exact Or.inl ⟨method, fields, behind, hhead, fun h => absurd h hbody⟩
  · exact Or.inr (Or.inl (Or.inl hbegun))
  · exact Or.inr (Or.inr (Or.inl hbroken))

end Cover

section Values

/-- The last line decides, if it is about the name. -/
theorem carries_concat_iff {fields : List Bytes} {line name value : Bytes} :
    Carries (fields ++ [line]) name value ↔
      Gives line name value ∨ ¬ Names line name ∧ Carries fields name value := by
  constructor
  · rintro ⟨before, l, after, hsplit, hgives, hafter⟩
    -- the line that gives the value is the last one, or the last one is about another name
    rcases List.eq_nil_or_concat after with rfl | ⟨after, last, rfl⟩
    · obtain ⟨rfl, hlast⟩ := List.append_inj' hsplit rfl
      cases hlast
      exact Or.inl hgives
    · rw [List.concat_eq_append] at hsplit hafter
      have hsplit' : fields ++ [line] = (before ++ l :: after) ++ [last] := by
        rw [hsplit, List.append_assoc, List.cons_append]
      obtain ⟨hfields, hlast⟩ := List.append_inj' hsplit' rfl
      cases hlast
      refine Or.inr ⟨hafter line ?_, before, l, after, hfields, hgives, ?_⟩
      · exact List.mem_append_right _ List.mem_cons_self
      · exact fun m hm => hafter m (List.mem_append_left _ hm)
  · rintro (hgives | ⟨hother, before, l, after, rfl, hgives, hafter⟩)
    · exact ⟨fields, line, [], rfl, hgives, fun l hl => absurd hl List.not_mem_nil⟩
    · refine ⟨before, l, after ++ [line], ?_, hgives, ?_⟩
      · rw [List.append_assoc, List.cons_append]
      · intro m hm
        rcases List.mem_append.1 hm with hm | hm
        · exact hafter m hm
        · rw [List.mem_singleton.1 hm]
          exact hother

end Values

end Message

end HttpServer
