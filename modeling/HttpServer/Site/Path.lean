import HttpServer.Bytes

/-!
# Paths

A path is a byte string cut at slashes. Empty components and single dots name nothing of their own,
so they are left out of `components`; two dots climb, and `climbs` says that a path has such a
component.

`extension?` is the text behind the last dot of the last component, unless that dot is the first
character of the name.
-/

namespace HttpServer

namespace Path

/-- The component that stays where it is. -/
def here : Bytes := [Bytes.dot]

/-- The component that climbs to the parent. -/
def parent : Bytes := [Bytes.dot, Bytes.dot]

/-- The pieces between slashes. -/
def pieces (p : Bytes) : List Bytes :=
  p.splitOn Bytes.slash

/-- The components that move along the tree. -/
def components (p : Bytes) : List Bytes :=
  (pieces p).filter fun c => c ≠ [] ∧ c ≠ here

/-- Some component climbs to the parent. -/
def climbs (p : Bytes) : Prop :=
  parent ∈ components p

instance (p : Bytes) : Decidable (climbs p) :=
  inferInstanceAs (Decidable (parent ∈ components p))

/-- The name that a path ends in; none for a root and for a path that ends by climbing. -/
def fileName? (p : Bytes) : Option Bytes :=
  match (components p).getLast? with
  | some c => if c = parent then none else some c
  | none => none

/-- The text of a name behind its last dot, unless the dot opens the name. -/
def nameExtension? (name : Bytes) : Option Bytes :=
  match (name.splitOn Bytes.dot).reverse with
  | [] => none
  | [_] => none
  | [_, []] => none
  | ext :: _ => some ext

/-- The extension of the name that a path ends in. -/
def extension? (p : Bytes) : Option Bytes :=
  (fileName? p).bind nameExtension?

/-- A path without the slashes it opens with. -/
def relative (p : Bytes) : Bytes :=
  p.dropWhile (· == Bytes.slash)

/-- The path `p` below the directory `base`. A rooted `p` replaces the base. -/
def join (base p : Bytes) : Bytes :=
  if p.head? = some Bytes.slash ∨ base = [] then p
  else if base.getLast? = some Bytes.slash then base ++ p
  else base ++ Bytes.slash :: p

theorem parent_mem_pieces_iff {p : Bytes} : parent ∈ pieces p ↔ climbs p := by
  simp [climbs, components, parent, here]

theorem head?_relative_ne (p : Bytes) : (relative p).head? ≠ some Bytes.slash := by
  intro h
  have := List.head?_dropWhile_not (· == Bytes.slash) p
  unfold relative at h
  rw [h] at this
  simp at this

end Path

end HttpServer
