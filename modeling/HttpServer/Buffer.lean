import HttpServer.Buffer.Storage
import HttpServer.Text.Utf8

/-!
# A byte buffer with two cursors

A buffer is a block of bytes with a read cursor and a write cursor. The bytes between the cursors are
unread; the space behind the write cursor, up to the capacity, is free; the space in front of the
read cursor holds bytes that were consumed and may be reclaimed. What lies behind the write cursor is
never looked at, so only its extent is kept.

Appending first makes room: nothing happens when the free space suffices, the unread bytes move to
the front when the free space and the consumed space together suffice, and otherwise the capacity
grows by the number of bytes asked for. `WellFormed` says that the cursors stand in order inside the
capacity. Seen through `unread`, a buffer is a queue of bytes.

Bytes that are appended are in memory, as the block is, so a machine word counts both together, and
memory is taken to suffice. Room can also be asked for by a number alone (`reserve?`), which need not
be that of any bytes. There the sum is the word's, and may come out smaller than the capacity: the
block is cut off then, perhaps in front of a cursor. `Fits` is where nothing of that happens.
-/

namespace HttpServer

/-- A block of bytes with a read cursor and a write cursor. -/
structure ByteBuffer where
  /-- The bytes in front of the write cursor. -/
  storage : Storage
  readPos : Nat
  capacity : Nat

namespace ByteBuffer

/-- The capacity of a buffer for which none is chosen. -/
def defaultCapacity : Nat := 1024

/-- An empty buffer. -/
def empty (capacity : Nat) : ByteBuffer :=
  ⟨ByteArray.empty, 0, capacity⟩

instance : Inhabited ByteBuffer := ⟨empty defaultCapacity⟩

/-- The write cursor. -/
def writePos (b : ByteBuffer) : Nat :=
  b.storage.size

/-- The number of unread bytes. -/
def readable (b : ByteBuffer) : Nat :=
  b.writePos - b.readPos

/-- The free space behind the write cursor. -/
def writable (b : ByteBuffer) : Nat :=
  b.capacity - b.writePos

/-- The consumed space in front of the read cursor. -/
def reclaimable (b : ByteBuffer) : Nat :=
  b.readPos

/-- No byte is unread. -/
def isEmpty (b : ByteBuffer) : Bool :=
  b.readable == 0

/-- The unread bytes. -/
def unread (b : ByteBuffer) : Bytes :=
  b.storage.window b.readPos b.readable []

/-- The unread bytes, unless a cursor has left its place. -/
def peek? (b : ByteBuffer) : Option Bytes :=
  if b.readPos ≤ b.writePos ∧ b.writePos ≤ b.capacity then some b.unread else none

/-- A line break is among the unread bytes. -/
def hasLine (b : ByteBuffer) : Bool :=
  b.storage.hasBreak b.readPos b.readable

/-- The cursors stand in order inside the capacity. -/
structure WellFormed (b : ByteBuffer) : Prop where
  readPos_le : b.readPos ≤ b.writePos
  writePos_le : b.writePos ≤ b.capacity

/-- Forgets all unread bytes. -/
def clear (b : ByteBuffer) : ByteBuffer :=
  { b with storage := ByteArray.empty, readPos := 0 }

/-- Moves the read cursor over `n` bytes; more than there are empties the buffer. -/
def consume (b : ByteBuffer) (n : Nat) : ByteBuffer :=
  if b.readable < n then b.clear else { b with readPos := b.readPos + n }

/-- Moves the unread bytes to the front of the storage. -/
def compact (b : ByteBuffer) : ByteBuffer :=
  { b with storage := b.storage.dropFront b.readPos, readPos := 0 }

/-- Adds `n` bytes of capacity. -/
def grow (b : ByteBuffer) (n : Nat) : ByteBuffer :=
  { b with capacity := b.capacity + n }

/-- Makes room behind the write cursor for `n` bytes, which are in memory. -/
def reserve (b : ByteBuffer) (n : Nat) : ByteBuffer :=
  if n ≤ b.writable then b
  else if n ≤ b.reclaimable + b.writable then b.compact
  else b.grow n

/-- The greatest size of a block. -/
def maxSize : Nat := 9223372036854775807

/-- The sum of two sizes, as a machine word counts it. -/
def sizeSum (m n : Nat) : Nat := (m + n) % UInt64.size

/-- Gives the block another size. The cursors stay where they are, even if the block ends in front of
them; a block of more than `maxSize` bytes cannot be made. -/
def resize? (b : ByteBuffer) (size : Nat) : Option ByteBuffer :=
  if size ≤ maxSize then some { b with capacity := size } else none

/-- Makes room behind the write cursor for as many bytes as are asked for. -/
def reserve? (b : ByteBuffer) (n : Nat) : Option ByteBuffer :=
  if n ≤ b.writable then some b
  else if n ≤ b.reclaimable + b.writable then some b.compact
  else b.resize? (sizeSum b.capacity n)

/-- Where the block has to grow for `n` bytes, it stays within the greatest size. -/
def Fits (b : ByteBuffer) (n : Nat) : Prop :=
  b.reclaimable + b.writable < n → b.capacity + n ≤ maxSize

instance (b : ByteBuffer) (n : Nat) : Decidable (b.Fits n) :=
  inferInstanceAs (Decidable (_ → _))

/-- Writes bytes into the free space and moves the write cursor over them. -/
def put (b : ByteBuffer) (bs : Bytes) : ByteBuffer :=
  { b with storage := b.storage.extend bs }

/-- Appends bytes, making room first. -/
def append (b : ByteBuffer) (bs : Bytes) : ByteBuffer :=
  (b.reserve bs.length).put bs

/-- Appends a text. -/
def appendText (b : ByteBuffer) (text : String) : ByteBuffer :=
  b.append (Utf8.encode text)

/-- Appends the unread bytes of another buffer, which keeps them. -/
def appendBuffer (b other : ByteBuffer) : ByteBuffer :=
  b.append other.unread

/-- Takes all unread bytes out. -/
def takeAll (b : ByteBuffer) : Bytes × ByteBuffer :=
  (b.unread, b.clear)

/-- A sum that a block may have is the word's. -/
theorem sizeSum_eq {m n : Nat} (h : m + n ≤ maxSize) : sizeSum m n = m + n :=
  Nat.mod_eq_of_lt (Nat.lt_of_le_of_lt h (by decide))

/-- Where nothing overflows it makes no difference whether there are bytes behind a number. -/
theorem reserve?_of_fits {b : ByteBuffer} {n : Nat} (h : b.Fits n) :
    b.reserve? n = some (b.reserve n) := by
  unfold reserve? reserve
  split
  · rfl
  · split
    · rfl
    · rename_i hn
      have hsum := h (Nat.lt_of_not_le hn)
      rw [sizeSum_eq hsum]
      exact if_pos hsum

/-- The unread bytes are what the storage holds behind the read cursor. -/
theorem unread_eq (b : ByteBuffer) : b.unread = b.storage.bytes.drop b.readPos := by
  unfold unread readable writePos
  by_cases h : b.readPos ≤ b.storage.size
  · rw [Storage.window_eq _ _ _ _ (by omega), List.append_nil]
    exact List.take_of_length_le (by simp)
  · rw [Nat.sub_eq_zero_of_le (by omega), List.drop_of_length_le (by simp; omega)]
    rfl

@[simp] theorem length_unread (b : ByteBuffer) : b.unread.length = b.readable := by
  simp [unread_eq, readable, writePos]

@[simp] theorem unread_empty (n : Nat) : (empty n).unread = [] := rfl

@[simp] theorem unread_clear (b : ByteBuffer) : b.clear.unread = [] := rfl

@[simp] theorem unread_consume (b : ByteBuffer) (n : Nat) :
    (b.consume n).unread = b.unread.drop n := by
  unfold consume
  split
  · rw [unread_clear, List.drop_of_length_le (by rw [length_unread]; omega)]
  · rw [unread_eq, unread_eq, List.drop_drop]

@[simp] theorem unread_compact (b : ByteBuffer) : b.compact.unread = b.unread := by
  simp [unread_eq, compact]

@[simp] theorem unread_grow (b : ByteBuffer) (n : Nat) : (b.grow n).unread = b.unread := rfl

@[simp] theorem unread_reserve (b : ByteBuffer) (n : Nat) : (b.reserve n).unread = b.unread := by
  unfold reserve
  split
  · rfl
  · split <;> simp

theorem unread_put {b : ByteBuffer} (h : b.WellFormed) (bs : Bytes) :
    (b.put bs).unread = b.unread ++ bs := by
  have := h.readPos_le
  rw [unread_eq, unread_eq, put, Storage.bytes_extend, List.drop_append_of_le_length]
  rwa [Storage.length_bytes]

theorem hasLine_eq {b : ByteBuffer} (h : b.WellFormed) :
    b.hasLine = (Bytes.lineEnd? b.unread).isSome := by
  have := h.readPos_le
  rw [hasLine, Storage.hasBreak_eq, unread_eq]
  unfold readable writePos at *
  omega

theorem wellFormed_empty (n : Nat) : (empty n).WellFormed :=
  ⟨Nat.le_refl 0, Nat.zero_le _⟩

theorem WellFormed.clear (b : ByteBuffer) : b.clear.WellFormed :=
  ⟨Nat.le_refl 0, Nat.zero_le _⟩

theorem WellFormed.consume {b : ByteBuffer} (h : b.WellFormed) (n : Nat) :
    (b.consume n).WellFormed := by
  unfold ByteBuffer.consume
  split
  · exact .clear b
  · have := h.readPos_le
    refine ⟨?_, h.writePos_le⟩
    unfold readable writePos at *
    simp only
    omega

@[simp] theorem writePos_compact (b : ByteBuffer) : b.compact.writePos = b.readable := by
  rw [writePos, ← Storage.length_bytes]
  simp [compact, readable, writePos]

theorem WellFormed.reserve {b : ByteBuffer} (h : b.WellFormed) (n : Nat) :
    (b.reserve n).WellFormed := by
  unfold ByteBuffer.reserve
  split
  · exact h
  · split
    · refine ⟨Nat.zero_le _, ?_⟩
      rw [writePos_compact]
      exact Nat.le_trans (Nat.sub_le _ _) h.writePos_le
    · exact ⟨h.readPos_le, Nat.le_trans h.writePos_le (Nat.le_add_right _ _)⟩

/-- There is room for what was asked. -/
theorem le_writable_reserve {b : ByteBuffer} (h : b.WellFormed) (n : Nat) :
    n ≤ (b.reserve n).writable := by
  have := h.readPos_le
  have := h.writePos_le
  unfold reserve
  split
  · assumption
  · split
    · rename_i hn
      rw [writable, writePos_compact]
      unfold reclaimable writable at hn
      unfold readable
      simp only [compact]
      omega
    · simp only [writable, grow, writePos] at *
      omega

/-- Bytes are put where there is room for them. -/
theorem WellFormed.put {b : ByteBuffer} (h : b.WellFormed) {bs : Bytes}
    (hbs : bs.length ≤ b.writable) : (b.put bs).WellFormed := by
  have hw : (b.put bs).writePos = b.writePos + bs.length := Storage.size_extend _ _
  have := h.readPos_le
  have := h.writePos_le
  unfold writable at hbs
  exact ⟨by rw [hw]; simp only [ByteBuffer.put]; omega, by rw [hw]; simp only [ByteBuffer.put]; omega⟩

theorem WellFormed.append {b : ByteBuffer} (h : b.WellFormed) (bs : Bytes) :
    (b.append bs).WellFormed :=
  (h.reserve bs.length).put (le_writable_reserve h bs.length)

@[simp] theorem unread_append {b : ByteBuffer} (h : b.WellFormed) (bs : Bytes) :
    (b.append bs).unread = b.unread ++ bs := by
  rw [append, unread_put (h.reserve _), unread_reserve]

/-- What is appended behind a clearing is all there is. -/
theorem unread_clear_append (b : ByteBuffer) (bs : Bytes) : (b.clear.append bs).unread = bs := by
  rw [unread_append (.clear b), unread_clear, List.nil_append]

end ByteBuffer

end HttpServer
