import HttpServer.Site.Path

/-!
# Paths as texts

A path is cut at its slashes, so putting one path behind another one with a slash between puts their
pieces one behind the other (`pieces_append_slash`), and slashes in front only add empty pieces.
From this follows what joining a path to a base comes to: as a text (`join_eq`), and in its
components (`components_append_separator`).
-/

namespace HttpServer

namespace Path

/-- What joining puts between a base and a path that does not open with a slash. -/
def separator (base : Bytes) : Bytes :=
  if base = [] ∨ base.getLast? = some Bytes.slash then [] else [Bytes.slash]

theorem pieces_nil : pieces [] = [[]] :=
  List.splitOn_nil Bytes.slash

theorem pieces_ne_nil (p : Bytes) : pieces p ≠ [] := by
  unfold pieces
  rw [List.splitOn_eq_splitOnP]
  exact List.splitOnP_ne_nil _ p

theorem pieces_slash_cons (p : Bytes) : pieces (Bytes.slash :: p) = [] :: pieces p := by
  unfold pieces
  rw [List.splitOn_eq_splitOnP, List.splitOn_eq_splitOnP, List.splitOnP_cons_eq_if_modifyHead,
    if_pos (by decide)]

theorem pieces_cons {b : UInt8} (h : b ≠ Bytes.slash) (p : Bytes) :
    pieces (b :: p) = (pieces p).modifyHead (b :: ·) := by
  unfold pieces
  rw [List.splitOn_eq_splitOnP, List.splitOn_eq_splitOnP, List.splitOnP_cons_eq_if_modifyHead,
    if_neg (by rwa [beq_iff_eq])]

/-- A slash ends a piece. -/
theorem pieces_append_slash (p q : Bytes) :
    pieces (p ++ Bytes.slash :: q) = pieces p ++ pieces q := by
  induction p with
  | nil => rw [List.nil_append, pieces_slash_cons, pieces_nil, List.singleton_append]
  | cons b p ih =>
      by_cases hb : b = Bytes.slash
      · rw [hb, List.cons_append, pieces_slash_cons, pieces_slash_cons, ih, List.cons_append]
      · rw [List.cons_append, pieces_cons hb, pieces_cons hb, ih]
        cases hp : pieces p with
        | nil => exact absurd hp (pieces_ne_nil p)
        | cons first rest => rfl

section Relative

theorem relative_slash_cons (p : Bytes) : relative (Bytes.slash :: p) = relative p := by
  unfold relative
  rw [List.dropWhile_cons, if_pos (by decide)]

theorem relative_cons {b : UInt8} (h : b ≠ Bytes.slash) (p : Bytes) :
    relative (b :: p) = b :: p := by
  unfold relative
  rw [List.dropWhile_cons, if_neg (by rwa [beq_iff_eq])]

/-- Slashes in front are empty pieces. -/
theorem exists_pieces_eq (p : Bytes) :
    ∃ k, pieces p = List.replicate k [] ++ pieces (relative p) := by
  induction p with
  | nil => exact ⟨0, rfl⟩
  | cons b p ih =>
      by_cases hb : b = Bytes.slash
      · obtain ⟨k, hk⟩ := ih
        refine ⟨k + 1, ?_⟩
        rw [hb, pieces_slash_cons, relative_slash_cons, hk, List.replicate_succ, List.cons_append]
      · exact ⟨0, by rw [relative_cons hb, List.replicate_zero, List.nil_append]⟩

theorem parent_mem_pieces_relative (p : Bytes) :
    parent ∈ pieces (relative p) ↔ parent ∈ pieces p := by
  obtain ⟨k, hk⟩ := exists_pieces_eq p
  rw [hk, List.mem_append, List.mem_replicate]
  constructor
  · exact Or.inr
  · rintro (⟨-, h⟩ | h)
    · cases h
    · exact h

theorem components_relative (p : Bytes) : components (relative p) = components p := by
  obtain ⟨k, hk⟩ := exists_pieces_eq p
  unfold components
  rw [hk, List.filter_append]
  have hempty : (List.replicate k ([] : Bytes)).filter (fun c => c ≠ [] ∧ c ≠ here) = [] := by
    rw [List.filter_eq_nil_iff]
    intro c hc
    rw [(List.mem_replicate.1 hc).2]
    decide
  rw [hempty, List.nil_append]

end Relative

section Join

variable {base p : Bytes}

theorem join_eq (h : p.head? ≠ some Bytes.slash) : join base p = base ++ separator base ++ p := by
  unfold join separator
  by_cases hbase : base = []
  · rw [if_pos (Or.inr hbase), if_pos (Or.inl hbase), hbase]
    rfl
  · rw [if_neg (not_or.2 ⟨h, hbase⟩)]
    by_cases hlast : base.getLast? = some Bytes.slash
    · rw [if_pos hlast, if_pos (Or.inr hlast), List.append_nil]
    · rw [if_neg hlast, if_neg (not_or.2 ⟨hbase, hlast⟩), List.append_assoc,
        List.singleton_append]

/-- A base ends where its last slash stands, if no more follows, and the pieces of a path stand
behind those of the base. -/
theorem exists_pieces_append_separator (base p : Bytes) :
    ∃ front, pieces (base ++ separator base ++ p) = front ++ pieces p ∧
      (pieces base = front ∨ pieces base = front ++ [[]]) := by
  unfold separator
  by_cases hbase : base = []
  · rw [if_pos (Or.inl hbase), hbase]
    exact ⟨[], rfl, Or.inr pieces_nil⟩
  · by_cases hlast : base.getLast? = some Bytes.slash
    · obtain ⟨front, rfl⟩ := List.getLast?_eq_some_iff.1 hlast
      rw [if_pos (Or.inr hlast), List.append_nil, List.append_assoc, List.singleton_append]
      refine ⟨pieces front, pieces_append_slash front p, Or.inr ?_⟩
      rw [pieces_append_slash, pieces_nil]
    · rw [if_neg (not_or.2 ⟨hbase, hlast⟩), List.append_assoc, List.singleton_append]
      exact ⟨pieces base, pieces_append_slash base p, Or.inl rfl⟩

theorem components_append_separator (base p : Bytes) :
    components (base ++ separator base ++ p) = components base ++ components p := by
  obtain ⟨front, hwhole, hbase | hbase⟩ := exists_pieces_append_separator base p
  · unfold components
    rw [hwhole, hbase, List.filter_append]
  · unfold components
    have hempty : ([[]] : List Bytes).filter (fun c => c ≠ [] ∧ c ≠ here) = [] := by decide
    rw [hwhole, hbase, List.filter_append, List.filter_append, hempty, List.append_nil]

/-- What stands in front of some components does not change the name that a path ends in. -/
theorem extension?_eq_of_components {p q : Bytes} {front : List Bytes}
    (h : components p = front ++ components q) (hq : components q ≠ []) :
    extension? p = extension? q := by
  have hlast : (components p).getLast? = (components q).getLast? := by
    rw [h, List.getLast?_append, List.getLast?_eq_some_getLast hq]
    rfl
  unfold extension? fileName?
  rw [hlast]

end Join

end Path

end HttpServer
