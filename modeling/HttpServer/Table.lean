import HttpServer.Bytes

/-!
# Tables keyed by byte strings

A table is a list of entries in the order of their keys, byte by byte. Inserting under a key that is
present replaces its entry. `find?` is the view: what a table answers after `insert` follows from
what it answered before.
-/

namespace HttpServer

/-- Whether one byte string stands before another: at the first difference the smaller byte, and
what ends first. -/
def Bytes.before : Bytes → Bytes → Bool
  | [], [] => false
  | [], _ :: _ => true
  | _ :: _, [] => false
  | a :: r, b :: s => a < b || (a == b && Bytes.before r s)

/-- Entries by key. -/
abbrev Table (α : Type) := List (Bytes × α)

namespace Table

/-- The table without entries. -/
def empty {α : Type} : Table α := []

/-- The table with one more entry. -/
def insert {α : Type} (key : Bytes) (value : α) : Table α → Table α
  | [] => [(key, value)]
  | (k, v) :: r =>
    if k = key then (key, value) :: r
    else if Bytes.before key k then (key, value) :: (k, v) :: r
    else (k, v) :: insert key value r

/-- The entry under a key. -/
def find? {α : Type} (key : Bytes) : Table α → Option α
  | [] => none
  | (k, v) :: r => if k = key then some v else find? key r

/-- The keys, in order. -/
def keys {α : Type} (t : Table α) : List Bytes :=
  t.map Prod.fst

@[simp] theorem find?_insert {α : Type} (key : Bytes) (value : α) (t : Table α) (k : Bytes) :
    (t.insert key value).find? k = if k = key then some value else t.find? k := by
  induction t with
  | nil => simp [insert, find?, eq_comm]
  | cons e r ih =>
    obtain ⟨l, v⟩ := e
    unfold insert
    split
    · rename_i h
      subst h
      by_cases hk : k = l
      · simp [find?, hk]
      · simp [find?, hk, Ne.symm hk]
    · split
      · by_cases hk : k = key
        · simp [find?, hk]
        · simp [find?, hk, Ne.symm hk]
      · rename_i h _
        by_cases hk : k = l
        · subst hk
          simp [find?, h]
        · simp [find?, ih, Ne.symm hk]

end Table

end HttpServer
