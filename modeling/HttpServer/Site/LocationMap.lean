import HttpServer.Table

/-!
# Maps from locations

A location is the list of names that leads to a place from the root of a tree. A map from locations is
itself a tree: a node holds what is kept at its own location, and by name the nodes below it. So what
is kept at a location is found in as many steps as the location has names, however alike the
locations are.

The view is `find?`: `find?_set` says what a map answers after something was put into it.
-/

namespace HttpServer

/-- The names that lead to a place. -/
abbrev Location := List Bytes

/-- Something kept at some locations. -/
inductive LocationMap (α : Type) where
  | node (here : Option α) (below : List (Bytes × LocationMap α))
deriving Repr

namespace LocationMap

/-- The map that keeps nothing. -/
def empty {α : Type} : LocationMap α := .node none []

instance {α : Type} : Inhabited (LocationMap α) := ⟨empty⟩

/-- What is kept at a location. -/
def find? {α : Type} : Location → LocationMap α → Option α
  | [], .node here _ => here
  | name :: l, .node _ below =>
    match Table.find? name below with
    | some m => m.find? l
    | none => none

/-- The map with something kept at a location. -/
def set {α : Type} (a : α) : Location → LocationMap α → LocationMap α
  | [], .node _ below => .node (some a) below
  | name :: l, .node here below =>
    .node here (Table.insert name (((Table.find? name below).getD empty).set a l) below)

/-- The map without what is kept at a location and below it. -/
def erase {α : Type} : Location → LocationMap α → LocationMap α
  | [], _ => empty
  | name :: l, .node here below =>
    match Table.find? name below with
    | some m => .node here (Table.insert name (m.erase l) below)
    | none => .node here below

mutual

/-- All that is kept. -/
def values {α : Type} : LocationMap α → List α
  | .node here below => here.toList ++ valuesBelow below

/-- All that is kept in some nodes. -/
def valuesBelow {α : Type} : List (Bytes × LocationMap α) → List α
  | [] => []
  | (_, m) :: r => m.values ++ valuesBelow r

end

@[simp] theorem find?_empty {α : Type} (l : Location) : (empty : LocationMap α).find? l = none := by
  cases l <;> rfl

theorem find?_set {α : Type} (a : α) (l k : Location) (m : LocationMap α) :
    (m.set a l).find? k = if k = l then some a else m.find? k := by
  induction l generalizing k m with
  | nil =>
    obtain ⟨here, below⟩ := m
    cases k <;> simp [set, find?]
  | cons name l ih =>
    obtain ⟨here, below⟩ := m
    cases k with
    | nil => simp [set, find?]
    | cons n k =>
      simp only [set, find?, Table.find?_insert]
      by_cases hn : n = name
      · subst hn
        simp only [if_true, ih, List.cons.injEq, true_and]
        cases Table.find? n below <;> simp
      · simp [hn]

end LocationMap

end HttpServer
