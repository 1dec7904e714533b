import HttpServer.Buffer.Transfer

/-!
# A buffer in its block of memory

A buffer keeps the bytes in front of its write cursor. Here it is once more with its whole block, what
lies behind the write cursor included, and with every access checked: a slice or a copy that leaves
the block, or a difference that would be negative, fails. On a block whose cursors stand in order
nothing fails, and what the operations do is what they do to the buffer that the block shows.

A reader is handed the space behind the write cursor and the scratch area as they are. It may leave
anything there, before it fails as well as behind the bytes that it placed.

A block grows to a size that a machine word counts, and to none above `maxSize`. Where the sum
overflows the block is cut off, whoever asked; so everything here that makes room does it on the
condition that the sum `Fits`.
-/

namespace HttpServer

namespace ByteBuffer

/-- A difference, unless it would be negative. -/
def minus? (a b : Nat) : Option Nat := if b ≤ a then some (a - b) else none

/-- The bytes from one place to another, unless they leave the block. -/
def slice? (bs : Bytes) (start stop : Nat) : Option Bytes :=
  if start ≤ stop ∧ stop ≤ bs.length then some ((bs.take stop).drop start) else none

/-- Copies bytes to a place, unless they leave the block. -/
def overwrite? (bs : Bytes) (start : Nat) (new : Bytes) : Option Bytes :=
  if start + new.length ≤ bs.length then
    some (bs.take start ++ new ++ bs.drop (start + new.length))
  else none

/-- The two segments that a reader is handed. -/
structure Segments where
  tail : Bytes
  scratch : Bytes

/-- The segments with bytes placed in order over them, as far as there is space. -/
def Segments.place (s : Segments) (bs : Bytes) : Segments :=
  ⟨bs.take s.tail.length ++ s.tail.drop bs.length,
    (bs.drop s.tail.length).take s.scratch.length ++
      s.scratch.drop (bs.length - s.tail.length)⟩

/-- A reader that places at most as many bytes as were offered. The rest of the segments it may
change as it likes, but not their lengths. -/
structure Reader (ε : Type) where
  outcome : Room → Except ε Bytes
  scribble : Segments → Segments
  length_le : ∀ r bs, outcome r = .ok bs → bs.length ≤ r.total
  length_tail : ∀ s, (scribble s).tail.length = s.tail.length
  length_scratch : ∀ s, (scribble s).scratch.length = s.scratch.length

/-- What a reader leaves in the segments, and what it answers. -/
def Reader.act {ε : Type} (r : Reader ε) (s : Segments) : Segments × Except ε Nat :=
  match r.outcome ⟨s.tail.length, s.scratch.length⟩ with
  | .error e => (r.scribble s, .error e)
  | .ok bs => ((r.scribble s).place bs, .ok bs.length)

/-- A block of memory with a read cursor and a write cursor. -/
structure Block where
  data : Bytes
  readPos : Nat
  writePos : Nat

namespace Block

/-- A block without unread bytes. -/
def empty (capacity : Nat) : Block := ⟨List.replicate capacity 0, 0, 0⟩

/-- The cursors stand in order inside the block. -/
structure Sound (k : Block) : Prop where
  readPos_le : k.readPos ≤ k.writePos
  writePos_le : k.writePos ≤ k.data.length

/-- The buffer that a block shows. -/
def toBuffer (k : Block) : ByteBuffer :=
  ⟨⟨(k.data.take k.writePos).toArray⟩, k.readPos, k.data.length⟩

/-- The number of unread bytes. -/
def readable? (k : Block) : Option Nat := minus? k.writePos k.readPos

/-- The free space behind the write cursor. -/
def writable? (k : Block) : Option Nat := minus? k.data.length k.writePos

/-- The unread bytes. -/
def peek? (k : Block) : Option Bytes := slice? k.data k.readPos k.writePos

/-- Forgets all unread bytes. -/
def clear (k : Block) : Block := { k with readPos := 0, writePos := 0 }

/-- Moves the read cursor over `n` bytes; more than there are empty the block. -/
def consume? (k : Block) (n : Nat) : Option Block :=
  k.readable?.map fun r => if r < n then k.clear else { k with readPos := k.readPos + n }

/-- Moves the unread bytes to the front. -/
def compact? (k : Block) : Option Block :=
  k.readable?.bind fun r => k.peek?.bind fun bs => (overwrite? k.data 0 bs).map fun data =>
    ⟨data, 0, r⟩

/-- Gives the block another size: bytes are added or cut off at its end. -/
def resize? (k : Block) (size : Nat) : Option Block :=
  if size ≤ maxSize then
    some { k with data := k.data.take size ++ List.replicate (size - k.data.length) 0 }
  else none

/-- Makes room for `n` bytes behind the write cursor. -/
def reserve? (k : Block) (n : Nat) : Option Block :=
  k.writable?.bind fun w =>
    if n ≤ w then some k
    else if n ≤ k.readPos + w then k.compact?
    else k.resize? (sizeSum k.data.length n)

/-- Appends bytes, making room first. -/
def append? (k : Block) (bs : Bytes) : Option Block :=
  (k.reserve? bs.length).bind fun k => (overwrite? k.data k.writePos bs).map fun data =>
    { k with data := data, writePos := k.writePos + bs.length }

/-- Takes all unread bytes out. -/
def takeAll? (k : Block) : Option (Bytes × Block) := k.peek?.map fun bs => (bs, k.clear)

/-- One read. -/
def fill? {ε : Type} (k : Block) (r : Reader ε) : Option (Except ε Nat × Block) :=
  k.writable?.bind fun w => (slice? k.data k.writePos k.data.length).bind fun tail =>
    let (s, answer) := r.act ⟨tail, List.replicate scratchSize 0⟩
    (overwrite? k.data k.writePos s.tail).bind fun data =>
      match answer with
      | .error e => some (.error e, { k with data := data })
      | .ok n =>
        if n ≤ w then some (.ok n, { k with data := data, writePos := k.writePos + n })
        else
          (slice? s.scratch 0 (n - w)).bind fun bs =>
            (append? { k with data := data, writePos := data.length } bs).map fun k => (.ok n, k)

/-- One write of the unread bytes. -/
def drainTo? {ε : Type} (k : Block) (writer : Bytes → Except ε Nat) :
    Option (Except ε Nat × Block) :=
  k.readable?.bind fun r =>
    if r = 0 then some (.ok 0, k)
    else
      k.peek?.bind fun bs =>
        match writer bs with
        | .error e => some (.error e, k)
        | .ok n => (k.consume? n).map fun k => (.ok n, k)

section Views

variable {k : Block}

@[simp] theorem bytes_toBuffer (k : Block) :
    k.toBuffer.storage.bytes = k.data.take k.writePos := rfl

theorem Sound.writePos_toBuffer (h : k.Sound) : k.toBuffer.writePos = k.writePos := by
  rw [ByteBuffer.writePos, ← Storage.length_bytes, bytes_toBuffer, List.length_take]
  exact Nat.min_eq_left h.writePos_le

theorem Sound.wellFormed (h : k.Sound) : k.toBuffer.WellFormed := by
  refine ⟨?_, ?_⟩
  · rw [h.writePos_toBuffer]
    exact h.readPos_le
  · rw [h.writePos_toBuffer]
    exact h.writePos_le

theorem unread_toBuffer (k : Block) : k.toBuffer.unread = (k.data.take k.writePos).drop k.readPos :=
  unread_eq k.toBuffer

theorem Sound.readable_toBuffer (h : k.Sound) :
    k.toBuffer.readable = k.writePos - k.readPos := by
  rw [ByteBuffer.readable, h.writePos_toBuffer]
  rfl

theorem Sound.writable_toBuffer (h : k.Sound) :
    k.toBuffer.writable = k.data.length - k.writePos := by
  rw [ByteBuffer.writable, h.writePos_toBuffer]
  rfl

/-- What a block shows is told by the bytes in front of its write cursor. -/
theorem toBuffer_eq {b : ByteBuffer} (hbytes : k.data.take k.writePos = b.storage.bytes)
    (hread : k.readPos = b.readPos) (hcapacity : k.data.length = b.capacity) : k.toBuffer = b := by
  obtain ⟨⟨data⟩, readPos, capacity⟩ := b
  rw [toBuffer, hread, hcapacity, hbytes]
  exact congrArg (fun d => (⟨⟨d⟩, readPos, capacity⟩ : ByteBuffer)) (Array.toArray_toList)

end Views

/-- An operation does not fail, and comes to a block that shows a buffer. -/
def Shows (o : Option Block) (b : ByteBuffer) : Prop :=
  ∃ k, o = some k ∧ k.Sound ∧ k.toBuffer = b

section Operations

variable {k : Block} {n : Nat} {bs : Bytes}

theorem sound_empty (capacity : Nat) : (empty capacity).Sound :=
  ⟨Nat.le_refl 0, Nat.zero_le _⟩

theorem toBuffer_empty (capacity : Nat) :
    (empty capacity).toBuffer = ByteBuffer.empty capacity :=
  toBuffer_eq rfl rfl List.length_replicate

theorem minus?_eq {a b : Nat} (h : b ≤ a) : minus? a b = some (a - b) := if_pos h

theorem Sound.readable?_eq (h : k.Sound) : k.readable? = some k.toBuffer.readable := by
  rw [readable?, minus?_eq h.readPos_le, h.readable_toBuffer]

theorem Sound.writable?_eq (h : k.Sound) : k.writable? = some k.toBuffer.writable := by
  rw [writable?, minus?_eq h.writePos_le, h.writable_toBuffer]

theorem Sound.peek?_eq (h : k.Sound) : k.peek? = some k.toBuffer.unread := by
  rw [peek?, slice?, if_pos ⟨h.readPos_le, h.writePos_le⟩, unread_toBuffer]

theorem sound_clear (k : Block) : k.clear.Sound :=
  ⟨Nat.le_refl 0, Nat.zero_le _⟩

theorem toBuffer_clear (k : Block) : k.clear.toBuffer = k.toBuffer.clear :=
  toBuffer_eq rfl rfl rfl

theorem Sound.consume (h : k.Sound) (n : Nat) :
    Shows (k.consume? n) (k.toBuffer.consume n) := by
  rw [consume?, h.readable?_eq, Option.map_some, ByteBuffer.consume]
  split
  · exact ⟨_, rfl, sound_clear k, toBuffer_clear k⟩
  · rename_i hn
    have hle := h.readPos_le
    rw [h.readable_toBuffer] at hn
    refine ⟨_, rfl, ⟨?_, h.writePos_le⟩, toBuffer_eq rfl rfl rfl⟩
    change k.readPos + n ≤ k.writePos
    omega

theorem overwrite?_eq {start : Nat} (h : start + bs.length ≤ k.data.length) :
    overwrite? k.data start bs =
      some (k.data.take start ++ bs ++ k.data.drop (start + bs.length)) := if_pos h

theorem length_overwrite {start : Nat} (h : start + bs.length ≤ k.data.length) :
    (k.data.take start ++ bs ++ k.data.drop (start + bs.length)).length = k.data.length := by
  rw [List.length_append, List.length_append, List.length_take, List.length_drop]
  omega

/-- What stands in front of the end of the bytes that were copied. -/
theorem take_overwrite {start : Nat} (h : start + bs.length ≤ k.data.length) (rest : Bytes) :
    (k.data.take start ++ bs ++ rest).take (start + bs.length) = k.data.take start ++ bs := by
  have hlen : (k.data.take start ++ bs).length = start + bs.length := by
    rw [List.length_append, List.length_take]
    omega
  rw [← hlen]
  exact List.take_left

theorem Sound.compact (h : k.Sound) : Shows k.compact? k.toBuffer.compact := by
  have hreadable : k.toBuffer.unread.length = k.toBuffer.readable := length_unread k.toBuffer
  have hle : 0 + k.toBuffer.unread.length ≤ k.data.length := by
    have hwrite := h.writePos_le
    rw [hreadable, h.readable_toBuffer]
    omega
  rw [compact?, h.readable?_eq, h.peek?_eq, Option.bind_some, Option.bind_some,
    overwrite?_eq hle, Option.map_some]
  refine ⟨_, rfl, ⟨Nat.zero_le _, ?_⟩, toBuffer_eq ?_ rfl (length_overwrite hle)⟩
  · change k.toBuffer.readable ≤ _
    rw [length_overwrite hle, ← hreadable, ← Nat.zero_add (List.length _)]
    exact hle
  · change List.take k.toBuffer.readable _ = _
    rw [← hreadable, ← Nat.zero_add (List.length _), take_overwrite hle, ByteBuffer.compact,
      Storage.bytes_dropFront, unread_eq]
    rfl

/-- Bytes in front of the new end are where they were. -/
theorem take_resize {size i : Nat} (h : i ≤ k.data.length) (hi : i ≤ size) :
    (k.data.take size ++ List.replicate (size - k.data.length) 0).take i = k.data.take i := by
  rw [List.take_append_of_le_length, List.take_take, Nat.min_eq_left hi]
  rw [List.length_take]
  exact Nat.le_min.2 ⟨hi, h⟩

theorem length_resize (k : Block) (size : Nat) :
    (k.data.take size ++ List.replicate (size - k.data.length) 0).length = size := by
  rw [List.length_append, List.length_take, List.length_replicate]
  omega

theorem Sound.grow (h : k.Sound) (hsize : k.data.length + n ≤ maxSize) :
    Shows (k.resize? (sizeSum k.data.length n)) (k.toBuffer.grow n) := by
  rw [sizeSum_eq hsize, resize?, if_pos hsize]
  have hlen := k.length_resize (k.data.length + n)
  have hwrite := Nat.le_trans h.writePos_le (Nat.le_add_right _ n)
  refine ⟨_, rfl, ⟨h.readPos_le, ?_⟩, toBuffer_eq ?_ rfl hlen⟩
  · rw [hlen]
    exact hwrite
  · exact take_resize h.writePos_le hwrite

theorem Sound.reserve (h : k.Sound) (hfits : k.toBuffer.Fits n) :
    Shows (k.reserve? n) (k.toBuffer.reserve n) := by
  rw [reserve?, h.writable?_eq, Option.bind_some, ByteBuffer.reserve]
  split
  · exact ⟨k, rfl, h, rfl⟩
  · change Shows (if n ≤ k.toBuffer.readPos + k.toBuffer.writable then _ else _) _
    rw [ByteBuffer.reclaimable]
    split
    · exact h.compact
    · rename_i hn
      exact h.grow (hfits (Nat.lt_of_not_le hn))

theorem Sound.peek?_toBuffer (h : k.Sound) : k.peek? = k.toBuffer.peek? := by
  have hwell := h.wellFormed
  rw [h.peek?_eq, ByteBuffer.peek?, if_pos ⟨hwell.readPos_le, hwell.writePos_le⟩]

/-- An operation is refused to a block and to a buffer alike, or comes to one size for both, with the
same unread bytes or with none to be seen. -/
def Agree (o : Option Block) (p : Option ByteBuffer) : Prop :=
  (o = none ∧ p = none) ∨
    ∃ m b, o = some m ∧ p = some b ∧ m.data.length = b.capacity ∧ m.peek? = b.peek?

theorem Sound.agree (h : k.Sound) : Agree (some k) (some k.toBuffer) :=
  Or.inr ⟨k, _, rfl, rfl, rfl, h.peek?_toBuffer⟩

theorem Sound.agree_resize (h : k.Sound) (size : Nat) :
    Agree (k.resize? size) (k.toBuffer.resize? size) := by
  rw [resize?, ByteBuffer.resize?]
  split
  · refine Or.inr ⟨_, _, rfl, rfl, k.length_resize size, ?_⟩
    rw [peek?, slice?, ByteBuffer.peek?, k.length_resize size]
    have hwrite : { k.toBuffer with capacity := size }.writePos = k.writePos :=
      h.writePos_toBuffer
    rw [hwrite]
    change ite (k.readPos ≤ k.writePos ∧ k.writePos ≤ size) _ _ =
      ite (k.readPos ≤ k.writePos ∧ k.writePos ≤ size) _ _
    split
    · rename_i hin
      rw [take_resize h.writePos_le hin.2]
      exact congrArg some k.unread_toBuffer.symm
    · rfl
  · exact Or.inl ⟨rfl, rfl⟩

/-- Room that is asked of a buffer is asked of its block alike. -/
theorem Sound.agree_reserve (h : k.Sound) (n : Nat) :
    Agree (k.reserve? n) (k.toBuffer.reserve? n) := by
  have hreclaimable : k.toBuffer.reclaimable = k.readPos := rfl
  rw [reserve?, h.writable?_eq, Option.bind_some, ByteBuffer.reserve?, hreclaimable]
  split
  · exact h.agree
  · split
    · obtain ⟨m, hm, hsound, hshows⟩ := h.compact
      rw [hm, ← hshows]
      exact hsound.agree
    · exact h.agree_resize _

/-- Bytes are copied behind the write cursor, which moves over them. -/
theorem Sound.put (h : k.Sound) (hbs : bs.length ≤ k.toBuffer.writable) (rest : Bytes)
    (hrest : (k.data.take k.writePos ++ bs ++ rest).length = k.data.length) :
    Sound ⟨k.data.take k.writePos ++ bs ++ rest, k.readPos, k.writePos + bs.length⟩ ∧
      toBuffer ⟨k.data.take k.writePos ++ bs ++ rest, k.readPos, k.writePos + bs.length⟩ =
        k.toBuffer.put bs := by
  have hle := h.writePos_le
  rw [h.writable_toBuffer] at hbs
  have hroom : k.writePos + bs.length ≤ k.data.length := by omega
  refine ⟨⟨Nat.le_trans h.readPos_le (Nat.le_add_right _ _), ?_⟩, toBuffer_eq ?_ rfl hrest⟩
  · rw [hrest]
    exact hroom
  · rw [ByteBuffer.put, Storage.bytes_extend, bytes_toBuffer]
    exact take_overwrite hroom rest

theorem Sound.append (h : k.Sound) (hfits : k.toBuffer.Fits bs.length) :
    Shows (k.append? bs) (k.toBuffer.append bs) := by
  obtain ⟨m, hm, hsound, hshows⟩ := h.reserve hfits
  have hroom := le_writable_reserve h.wellFormed bs.length
  rw [← hshows] at hroom
  have hle : m.writePos + bs.length ≤ m.data.length := by
    have hwrite := hsound.writePos_le
    rw [hsound.writable_toBuffer] at hroom
    omega
  obtain ⟨hput, hputs⟩ := hsound.put hroom _ (length_overwrite hle)
  rw [append?, hm, Option.bind_some, overwrite?_eq hle, Option.map_some, ByteBuffer.append,
    ← hshows]
  exact ⟨_, rfl, hput, hputs⟩

theorem Sound.takeAll (h : k.Sound) :
    k.takeAll? = some (k.toBuffer.unread, k.clear) := by
  rw [takeAll?, h.peek?_eq, Option.map_some]

end Operations

section Transfers

variable {ε : Type} {k : Block}

/-- What a transfer answers, and what it leaves. -/
def Answers (o : Option (Except ε Nat × Block)) (r : Except ε Nat × ByteBuffer) : Prop :=
  ∃ k, o = some (r.1, k) ∧ k.Sound ∧ k.toBuffer = r.2

theorem Sound.drainTo (h : k.Sound) (writer : Bytes → Except ε Nat) :
    Answers (k.drainTo? writer) (k.toBuffer.drainTo writer) := by
  rw [drainTo?, h.readable?_eq, Option.bind_some, ByteBuffer.drainTo, ByteBuffer.isEmpty]
  by_cases hempty : k.toBuffer.readable = 0
  · rw [if_pos hempty, if_pos (beq_iff_eq.2 hempty)]
    exact ⟨k, rfl, h, rfl⟩
  · rw [if_neg hempty, if_neg (fun heq => hempty (beq_iff_eq.1 heq)), h.peek?_eq,
      Option.bind_some]
    cases writer k.toBuffer.unread with
    | error e => exact ⟨k, rfl, h, rfl⟩
    | ok n =>
        obtain ⟨m, hm, hsound, hshows⟩ := h.consume n
        simp only [hm, Option.map_some]
        exact ⟨m, rfl, hsound, hshows⟩

/-- The segments that a reader is handed. -/
def segments (k : Block) : Segments :=
  ⟨k.data.drop k.writePos, List.replicate scratchSize 0⟩

theorem Sound.length_tail (h : k.Sound) (r : Reader ε) :
    (r.scribble k.segments).tail.length = k.toBuffer.writable := by
  rw [r.length_tail, segments, List.length_drop, h.writable_toBuffer]

theorem length_scratch (k : Block) (r : Reader ε) :
    (r.scribble k.segments).scratch.length = scratchSize := by
  rw [r.length_scratch]
  exact List.length_replicate

theorem Sound.room_eq (h : k.Sound) :
    (⟨k.segments.tail.length, k.segments.scratch.length⟩ : Room) = k.toBuffer.room := by
  rw [ByteBuffer.room, h.writable_toBuffer, segments, List.length_drop, List.length_replicate]

theorem Sound.act_error (h : k.Sound) {r : Reader ε} {e : ε}
    (hr : r.outcome k.toBuffer.room = .error e) :
    r.act k.segments = (r.scribble k.segments, .error e) := by
  rw [Reader.act, h.room_eq, hr]

theorem Sound.act_ok (h : k.Sound) {r : Reader ε} {bs : Bytes}
    (hr : r.outcome k.toBuffer.room = .ok bs) :
    r.act k.segments = ((r.scribble k.segments).place bs, .ok bs.length) := by
  rw [Reader.act, h.room_eq, hr]

theorem Sound.slice?_tail (h : k.Sound) :
    slice? k.data k.writePos k.data.length = some k.segments.tail := by
  rw [slice?, if_pos ⟨h.writePos_le, Nat.le_refl _⟩, List.take_length]
  rfl

/-- What a reader leaves in the first segment fills the block up to its end. -/
theorem Sound.overwrite?_tail (h : k.Sound) {tail : Bytes}
    (htail : tail.length = k.toBuffer.writable) :
    overwrite? k.data k.writePos tail = some (k.data.take k.writePos ++ tail) ∧
      (k.data.take k.writePos ++ tail).length = k.data.length := by
  have hle := h.writePos_le
  rw [h.writable_toBuffer] at htail
  have hend : k.writePos + tail.length = k.data.length := by omega
  have hover := overwrite?_eq (k := k) (Nat.le_of_eq hend)
  have hlen := length_overwrite (k := k) (Nat.le_of_eq hend)
  rw [hend, List.drop_length, List.append_nil] at hover hlen
  exact ⟨hover, hlen⟩

theorem length_place_tail (s : Segments) (bs : Bytes) :
    (s.place bs).tail.length = s.tail.length := by
  rw [Segments.place, List.length_append, List.length_take, List.length_drop]
  omega

/-- What a reader placed behind the first segment is read from the scratch area. -/
theorem Sound.slice?_scratch (h : k.Sound) {r : Reader ε} {bs : Bytes}
    (hle : bs.length ≤ k.toBuffer.room.total) :
    slice? ((r.scribble k.segments).place bs).scratch 0 (bs.length - k.toBuffer.writable) =
      some (bs.drop k.toBuffer.writable) := by
  have hrest : (bs.drop k.toBuffer.writable).length = bs.length - k.toBuffer.writable :=
    List.length_drop
  have hover : (bs.drop k.toBuffer.writable).length ≤ scratchSize := by
    rw [hrest]
    exact Nat.sub_le_iff_le_add'.2 hle
  rw [Segments.place, h.length_tail, k.length_scratch, List.take_of_length_le hover, ← hrest,
    slice?, if_pos]
  · rw [List.take_left, List.drop_zero]
  · refine ⟨Nat.zero_le _, ?_⟩
    rw [List.length_append]
    exact Nat.le_add_right _ _

theorem Sound.fill_error (h : k.Sound) {r : Reader ε} {e : ε}
    (hr : r.outcome k.toBuffer.room = .error e) :
    Answers (k.fill? r) (.error e, k.toBuffer) := by
  obtain ⟨hover, hlen⟩ := h.overwrite?_tail (h.length_tail r)
  have hact := h.act_error hr
  rw [segments] at hact
  rw [fill?, h.writable?_eq, Option.bind_some, h.slice?_tail, Option.bind_some]
  simp only [segments, hact]
  rw [← segments, hover, Option.bind_some]
  refine ⟨_, rfl, ⟨h.readPos_le, ?_⟩, toBuffer_eq ?_ rfl hlen⟩
  · rw [hlen]
    exact h.writePos_le
  · have hwrite : (k.data.take k.writePos).length = k.writePos := by
      rw [List.length_take]
      exact Nat.min_eq_left h.writePos_le
    exact List.take_left' hwrite

/-- Where a read fits, what it leaves to be appended fits behind the rest. -/
theorem fits_put_take {b : ByteBuffer} {bs : Bytes} (hfits : b.Fits bs.length) :
    (b.put (bs.take b.writable)).Fits (bs.drop b.writable).length := by
  intro hover
  change b.reclaimable + (b.put (bs.take b.writable)).writable < _ at hover
  change b.capacity + _ ≤ maxSize
  rw [List.length_drop] at hover ⊢
  have hsum := hfits (by omega)
  omega

theorem Sound.fill_ok (h : k.Sound) {r : Reader ε} {bs : Bytes}
    (hr : r.outcome k.toBuffer.room = .ok bs) (hsize : k.toBuffer.Fits bs.length) :
    Answers (k.fill? r) (.ok bs.length, k.toBuffer.accept bs) := by
  have htail := h.length_tail r
  obtain ⟨hover, hlen⟩ := h.overwrite?_tail
    ((length_place_tail (r.scribble k.segments) bs).trans htail)
  have hact := h.act_ok hr
  rw [segments] at hact
  rw [fill?, h.writable?_eq, Option.bind_some, h.slice?_tail, Option.bind_some]
  simp only [segments, hact]
  have hplace : ((r.scribble k.segments).place bs).tail =
      bs.take k.toBuffer.writable ++ (r.scribble k.segments).tail.drop bs.length := by
    rw [Segments.place, htail]
  rw [hplace, ← List.append_assoc] at hlen
  rw [← segments, hover, Option.bind_some, ByteBuffer.accept, hplace, ← List.append_assoc]
  split
  · rename_i hfits
    rw [List.take_of_length_le hfits] at hlen ⊢
    obtain ⟨hput, hputs⟩ := h.put hfits _ hlen
    exact ⟨_, rfl, hput, hputs⟩
  · rename_i hfits
    have hfits : k.toBuffer.writable < bs.length := Nat.lt_of_not_le hfits
    have hfull : (bs.take k.toBuffer.writable).length = k.toBuffer.writable := by
      rw [List.length_take]
      exact Nat.min_eq_left (Nat.le_of_lt hfits)
    obtain ⟨hput, hputs⟩ := h.put (Nat.le_of_eq hfull) _ hlen
    -- the write cursor moves to the end, and the rest is appended from the scratch area
    have hend : k.writePos + (bs.take k.toBuffer.writable).length = k.data.length := by
      have hwrite := h.writePos_le
      rw [hfull, h.writable_toBuffer]
      omega
    obtain ⟨m, hm, hsound, hshows⟩ := hput.append (hputs ▸ fits_put_take hsize)
    rw [h.slice?_scratch (r.length_le _ _ hr), Option.bind_some, hlen, ← hend, hm, ← hputs]
    exact ⟨m, rfl, hsound, hshows⟩

theorem Sound.fill (h : k.Sound) (r : Reader ε)
    (hsize : ∀ bs, r.outcome k.toBuffer.room = .ok bs → k.toBuffer.Fits bs.length) :
    Answers (k.fill? r) (k.toBuffer.fill r.outcome) := by
  cases hr : r.outcome k.toBuffer.room with
  | error e =>
      rw [ByteBuffer.fill_error hr]
      exact h.fill_error hr
  | ok bs =>
      rw [ByteBuffer.fill_ok hr]
      exact h.fill_ok hr (hsize bs hr)

end Transfers

end Block

end ByteBuffer

end HttpServer
