import HttpServer.Buffer

/-!
# Moving bytes between a buffer and the outside

`fill` performs one read into a buffer. The reader is offered two segments, the free space of the
buffer and a scratch area of 64 KiB, and answers with the bytes that it placed in order over them.
What lies in the scratch area is appended afterwards, so one read can take more than the buffer
had room for. `drainTo` performs one write of the unread bytes and consumes what the writer took.

A reader or writer that fails leaves the buffer as it was.
-/

namespace HttpServer

namespace ByteBuffer

/-- The size of the scratch area behind the free space. -/
def scratchSize : Nat := 64 * 1024

/-- The lengths of the two segments that a reader is offered. -/
structure Room where
  tail : Nat
  scratch : Nat
deriving DecidableEq, Repr

namespace Room

/-- All the space on offer. -/
def total (r : Room) : Nat :=
  r.tail + r.scratch

/-- The space of the first segment that is not empty. -/
def first (r : Room) : Nat :=
  if r.tail = 0 then r.scratch else r.tail

end Room

/-- What a read into this buffer is offered. -/
def room (b : ByteBuffer) : Room :=
  ⟨b.writable, scratchSize⟩

/-- There is always something on offer. -/
theorem total_room_pos (b : ByteBuffer) : 0 < b.room.total :=
  Nat.add_pos_right _ (show 0 < scratchSize by decide)

/-- Takes in the bytes that a reader placed over the offered segments. -/
def accept (b : ByteBuffer) (bs : Bytes) : ByteBuffer :=
  if bs.length ≤ b.writable then b.put bs
  else (b.put (bs.take b.writable)).append (bs.drop b.writable)

/-- One read. The answer counts the bytes read. -/
def fill {ε : Type} (b : ByteBuffer) (reader : Room → Except ε Bytes) :
    Except ε Nat × ByteBuffer :=
  match reader b.room with
  | .error e => (.error e, b)
  | .ok bs => (.ok bs.length, b.accept bs)

/-- One write of the unread bytes. The writer answers with the number of bytes that it took; it is
not called when nothing is unread. -/
def drainTo {ε : Type} (b : ByteBuffer) (writer : Bytes → Except ε Nat) :
    Except ε Nat × ByteBuffer :=
  if b.isEmpty then (.ok 0, b)
  else
    match writer b.unread with
    | .error e => (.error e, b)
    | .ok n => (.ok n, b.consume n)

/-- A supply of bytes to read from: at most `limit` at a time, and into one segment only when it
cannot scatter a read over several. -/
structure Supply where
  bytes : Bytes
  limit : Option Nat
  scatters : Bool

/-- What a supply places over the segments on offer. -/
def Supply.deliver (s : Supply) (r : Room) : Bytes :=
  let offered := if s.scatters then r.total else r.first
  s.bytes.take (match s.limit with
    | some n => min n offered
    | none => offered)

/-- What a writer that takes at most `limit` bytes takes out of `bs`. -/
def taken (limit : Option Nat) (bs : Bytes) : Bytes :=
  match limit with
  | some n => bs.take n
  | none => bs

theorem fill_error {ε : Type} {b : ByteBuffer} {reader : Room → Except ε Bytes} {e : ε}
    (h : reader b.room = .error e) : b.fill reader = (.error e, b) := by
  simp [fill, h]

theorem fill_ok {ε : Type} {b : ByteBuffer} {reader : Room → Except ε Bytes} {bs : Bytes}
    (h : reader b.room = .ok bs) : b.fill reader = (.ok bs.length, b.accept bs) := by
  simp [fill, h]

end ByteBuffer

end HttpServer
