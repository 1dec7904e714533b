import HttpServer.Proofs.Buffer.Queue

/-!
# How far a buffer grows

A buffer never gives capacity back. It grows only where the free and the consumed space together do
not suffice, that is, where the capacity is smaller than the load: the unread bytes, and those that
come in or are asked for. It then grows by what was asked for, which the load contains, so the new
capacity is less than twice the load (`grown_reserve`).

A read that brings more than there was room for asks for the excess alone, but fills the free space
first, so the load of the call is the same. Over a run the capacity is bounded by twice the greatest
load, however often bytes come in and go out. The block of memory is as large as the buffer's capacity
says, as long as the calls fit.
-/

namespace HttpServer

namespace ByteBuffer

variable {ε : Type}

/-- The bytes that were unread before a call, and those that it adds or asks for. -/
def load (b : ByteBuffer) (c : Call ε) : Nat :=
  b.readable + c.demand b.room

/-- The greatest load of some calls, from a buffer on. -/
def peak (b : ByteBuffer) : List (Call ε) → Nat
  | [] => 0
  | c :: calls => max (b.load c) ((b.call c).2.peak calls)

theorem peak_cons (b : ByteBuffer) (c : Call ε) (calls : List (Call ε)) :
    b.peak (c :: calls) = max (b.load c) ((b.call c).2.peak calls) := rfl

/-- A buffer has grown into another one, at most to twice what it had to hold. -/
structure Grown (b : ByteBuffer) (load : Nat) (d : ByteBuffer) : Prop where
  capacity_le : b.capacity ≤ d.capacity
  le_max : d.capacity ≤ max b.capacity (2 * load)

namespace Grown

variable {b d e : ByteBuffer} {m n : Nat}

theorem of_eq (h : d.capacity = b.capacity) : Grown b n d :=
  ⟨Nat.le_of_eq h.symm, h ▸ Nat.le_max_left _ _⟩

theorem mono (h : Grown b m d) (hmn : m ≤ n) : Grown b n d := by
  have := h.le_max
  exact ⟨h.capacity_le, by omega⟩

theorem trans (h : Grown b n d) (h' : Grown d n e) : Grown b n e := by
  have := h.le_max
  have := h'.le_max
  exact ⟨Nat.le_trans h.capacity_le h'.capacity_le, by omega⟩

end Grown

section Steps

variable {b : ByteBuffer}

/-- The capacity is divided among the consumed, the unread and the free bytes. -/
theorem WellFormed.capacity_eq (h : b.WellFormed) :
    b.capacity = b.reclaimable + b.readable + b.writable := by
  have := h.readPos_le
  have := h.writePos_le
  unfold reclaimable readable writable
  omega

theorem capacity_consume (b : ByteBuffer) (n : Nat) : (b.consume n).capacity = b.capacity := by
  unfold consume
  split
  · rfl
  · rfl

theorem grown_reserve (h : b.WellFormed) (n : Nat) : Grown b (b.readable + n) (b.reserve n) := by
  unfold reserve
  split
  · exact .of_eq rfl
  · split
    · exact .of_eq rfl
    · have hcapacity := h.capacity_eq
      refine ⟨Nat.le_add_right _ _, ?_⟩
      change b.capacity + n ≤ _
      omega

theorem grown_append (h : b.WellFormed) (bs : Bytes) :
    Grown b (b.readable + bs.length) (b.append bs) := by
  have hgrown := grown_reserve h bs.length
  exact ⟨hgrown.capacity_le, hgrown.le_max⟩

theorem grown_accept (h : b.WellFormed) (bs : Bytes) :
    Grown b (b.readable + bs.length) (b.accept bs) := by
  unfold accept
  split
  · exact .of_eq rfl
  · rename_i hover
    have htake : (bs.take b.writable).length = b.writable :=
      List.length_take_of_le (Nat.le_of_not_le hover)
    have hgrown := grown_append (h.put_take bs) (bs.drop b.writable)
    -- the free space is full, and what it holds has become part of the load
    have hreadable : (b.put (bs.take b.writable)).readable = b.readable + b.writable := by
      rw [← length_unread, unread_put h, List.length_append, length_unread, htake]
    have hload : b.readable + b.writable + (bs.length - b.writable) = b.readable + bs.length := by
      omega
    rw [hreadable, List.length_drop, hload] at hgrown
    exact ⟨hgrown.capacity_le, hgrown.le_max⟩

/-- Nothing is taken out while pieces come in, so what is unread in the end is the greatest load. -/
theorem grown_foldl_accept (h : b.WellFormed) (pieces : List Bytes) :
    Grown b (pieces.foldl accept b).readable (pieces.foldl accept b) := by
  induction pieces generalizing b with
  | nil => exact .of_eq rfl
  | cons bs pieces ih =>
      have hload : b.readable + bs.length ≤ ((bs :: pieces).foldl accept b).readable := by
        rw [← length_unread, ← length_unread, unread_foldl_accept h, List.flatten_cons,
          List.length_append, List.length_append]
        omega
      exact ((grown_accept h bs).mono hload).trans (ih (h.accept bs))

/-- No call takes capacity away, and none adds more than its load asks for. -/
theorem grown_call (h : b.WellFormed) (c : Call ε) : Grown b (b.load c) (b.call c).2 := by
  cases c with
  | append bs => exact grown_append h bs
  | appendText text => exact grown_append h _
  | appendBuffer other sound =>
      have hgrown := grown_append h other.toBuffer.unread
      rw [length_unread] at hgrown
      exact hgrown
  | consume n => exact .of_eq (capacity_consume b n)
  | reserve n => exact grown_reserve h n
  | clear => exact .of_eq rfl
  | takeAll => exact .of_eq rfl
  | fill reader =>
      change Grown b _ (b.fill reader.outcome).2
      rw [load, Call.demand]
      cases hr : reader.outcome b.room with
      | error e =>
          rw [fill_error hr]
          exact .of_eq rfl
      | ok bs =>
          rw [fill_ok hr]
          exact grown_accept h bs
  | drainTo writer =>
      change Grown b _ (b.drainTo writer).2
      rw [drainTo]
      split
      · exact .of_eq rfl
      · cases writer b.unread with
        | error e => exact .of_eq rfl
        | ok n => exact .of_eq (capacity_consume b n)

end Steps

section Runs

theorem grown_foldl {b : ByteBuffer} (h : b.WellFormed) (calls : List (Call ε)) :
    Grown b (b.peak calls) (calls.foldl (fun b c => (b.call c).2) b) := by
  induction calls generalizing b with
  | nil => exact .of_eq rfl
  | cons c calls ih =>
      rw [List.foldl_cons, peak_cons]
      have hfirst := (grown_call h c).mono (Nat.le_max_left _ ((b.call c).2.peak calls))
      exact hfirst.trans ((ih (h.call c)).mono (Nat.le_max_right _ _))

/-- The capacity of a buffer after some calls is at most twice the greatest load, unless it was that
large to begin with, and no calls that follow make it smaller. -/
theorem capacity_afterCalls_le (capacity : Nat) (calls more : List (Call ε)) :
    (afterCalls capacity calls).capacity ≤ (afterCalls capacity (calls ++ more)).capacity ∧
      (afterCalls capacity calls).capacity ≤ max capacity (2 * (empty capacity).peak calls) := by
  have hmore := grown_foldl (wellFormed_afterCalls capacity calls) more
  rw [afterCalls, ← List.foldl_append] at hmore
  exact ⟨hmore.capacity_le, (grown_foldl (wellFormed_empty capacity) calls).le_max⟩

/-- So is the size of its block. -/
theorem length_afterCalls?_le {capacity : Nat} {calls more : List (Call ε)}
    (hfits : (empty capacity).Fitting (calls ++ more)) :
    ∃ k m, Block.afterCalls? capacity calls = some k ∧
      Block.afterCalls? capacity (calls ++ more) = some m ∧
      k.data.length ≤ m.data.length ∧
      k.data.length ≤ max capacity (2 * (empty capacity).peak calls) := by
  obtain ⟨k, hk, -, hshows⟩ := sound_afterCalls? hfits.of_append
  obtain ⟨m, hm, -, hshows'⟩ := sound_afterCalls? hfits
  have hle := capacity_afterCalls_le capacity calls more
  rw [← hshows, ← hshows'] at hle
  exact ⟨k, m, hk, hm, hle⟩

end Runs

end ByteBuffer

end HttpServer
