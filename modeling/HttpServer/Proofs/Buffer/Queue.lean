import HttpServer.Proofs.Buffer.Block
import Mathlib.Data.List.Induction

/-!
# A buffer is a queue of bytes

Whatever is done to a buffer, its unread bytes are those of a plain list to which the same is done:
bytes come in at the end and go out at the front. Where the cursors stand, when bytes are moved to the
front and when the block grows cannot be told from the list. Only the number of bytes that a read
brings depends on the space that was offered, and the list is told what was read.

The operations are followed on three levels at once: the list, the buffer, and the block of memory in
which every access is checked. The buffer is one with memory enough. The block is as large as that one
as long as it grows to sizes that fit; `peek?_overflowing` has it cut off in front of its write cursor
by a call that asks for more than fits.
-/

namespace HttpServer

namespace ByteBuffer

/-- A call on a buffer. -/
inductive Call (ε : Type) where
  | append (bs : Bytes)
  | appendText (text : String)
  | appendBuffer (other : Block) (sound : other.Sound)
  | consume (n : Nat)
  | reserve (n : Nat)
  | clear
  | takeAll
  | fill (reader : Reader ε)
  | drainTo (writer : Bytes → Except ε Nat)

/-- What a call answers. -/
inductive Answer (ε : Type) where
  | nothing
  | bytes (bs : Bytes)
  | moved (r : Except ε Nat)

variable {ε : Type}

/-- A call, with what it answers, where there is memory enough. -/
def call (b : ByteBuffer) : Call ε → Answer ε × ByteBuffer
  | .append bs => (.nothing, b.append bs)
  | .appendText text => (.nothing, b.appendText text)
  | .appendBuffer other _ => (.nothing, b.appendBuffer other.toBuffer)
  | .consume n => (.nothing, b.consume n)
  | .reserve n => (.nothing, b.reserve n)
  | .clear => (.nothing, b.clear)
  | .takeAll => (.bytes b.takeAll.1, b.takeAll.2)
  | .fill reader => (.moved (b.fill reader.outcome).1, (b.fill reader.outcome).2)
  | .drainTo writer => (.moved (b.drainTo writer).1, (b.drainTo writer).2)

namespace Block

/-- A call on a block, unless it leaves the block. -/
def call? (k : Block) : Call ε → Option (Answer ε × Block)
  | .append bs => (k.append? bs).map fun k => (.nothing, k)
  | .appendText text => (k.append? (Utf8.encode text)).map fun k => (.nothing, k)
  | .appendBuffer other _ =>
    other.peek?.bind fun bs => (k.append? bs).map fun k => (.nothing, k)
  | .consume n => (k.consume? n).map fun k => (.nothing, k)
  | .reserve n => (k.reserve? n).map fun k => (.nothing, k)
  | .clear => some (.nothing, k.clear)
  | .takeAll => k.takeAll?.map fun (bs, k) => (.bytes bs, k)
  | .fill reader => (k.fill? reader).map fun (r, k) => (.moved r, k)
  | .drainTo writer => (k.drainTo? writer).map fun (r, k) => (.moved r, k)

end Block

namespace Call

/-- What a call does to a list of bytes, if a read is offered some space. -/
def effect (room : Room) : Call ε → Bytes → Bytes
  | .append bs, q => q ++ bs
  | .appendText text, q => q ++ Utf8.encode text
  | .appendBuffer other _, q => q ++ other.toBuffer.unread
  | .consume n, q => q.drop (min n q.length)
  | .reserve _, q => q
  | .clear, _ => []
  | .takeAll, _ => []
  | .fill reader, q =>
    match reader.outcome room with
    | .ok bs => q ++ bs
    | .error _ => q
  | .drainTo writer, q =>
    if q = [] then []
    else
      match writer q with
      | .ok n => q.drop n
      | .error _ => q

/-- What a call on a list of bytes answers, if a read is offered some space. -/
def answer (room : Room) : Call ε → Bytes → Answer ε
  | .takeAll, q => .bytes q
  | .fill reader, _ => .moved ((reader.outcome room).map List.length)
  | .drainTo writer, q => .moved (if q = [] then .ok 0 else writer q)
  | _, _ => .nothing

end Call

/-- The number of bytes that a call adds or asks for, if a read is offered some space. -/
def Call.demand (room : Room) : Call ε → Nat
  | .append bs => bs.length
  | .appendText text => (Utf8.encode text).length
  | .appendBuffer other _ => other.toBuffer.readable
  | .reserve n => n
  | .fill reader =>
    match reader.outcome room with
    | .ok bs => bs.length
    | .error _ => 0
  | .consume _ | .clear | .takeAll | .drainTo _ => 0

/-- No call of a run makes the block larger than a block can be. -/
def Fitting (b : ByteBuffer) : List (Call ε) → Prop
  | [] => True
  | c :: calls => b.Fits (c.demand b.room) ∧ (b.call c).2.Fitting calls

instance decidableFitting (b : ByteBuffer) : (calls : List (Call ε)) → Decidable (b.Fitting calls)
  | [] => inferInstanceAs (Decidable True)
  | c :: calls =>
    have := decidableFitting (b.call c).2 calls
    inferInstanceAs (Decidable (_ ∧ _))

theorem fitting_cons {b : ByteBuffer} {c : Call ε} {calls : List (Call ε)} :
    b.Fitting (c :: calls) ↔ b.Fits (c.demand b.room) ∧ (b.call c).2.Fitting calls := Iff.rfl

/-- The calls at the front of a run that fits. -/
theorem Fitting.of_append {b : ByteBuffer} {calls more : List (Call ε)}
    (h : b.Fitting (calls ++ more)) : b.Fitting calls := by
  induction calls generalizing b with
  | nil => exact trivial
  | cons c calls ih =>
      rw [List.cons_append, fitting_cons] at h
      exact ⟨h.1, ih h.2⟩

section Steps

variable {b : ByteBuffer}

/-- The free space holds what is cut to its length. -/
theorem WellFormed.put_take (h : b.WellFormed) (bs : Bytes) :
    (b.put (bs.take b.writable)).WellFormed :=
  h.put (List.length_take_le _ _)

theorem unread_accept (h : b.WellFormed) (bs : Bytes) :
    (b.accept bs).unread = b.unread ++ bs := by
  rw [accept]
  split
  · exact unread_put h bs
  · rw [unread_append (h.put_take bs), unread_put h, List.append_assoc, List.take_append_drop]

theorem WellFormed.accept (h : b.WellFormed) (bs : Bytes) : (b.accept bs).WellFormed := by
  unfold ByteBuffer.accept
  split
  · rename_i hle
    exact h.put hle
  · exact (h.put_take bs).append _

theorem wellFormed_foldl_accept (h : b.WellFormed) (pieces : List Bytes) :
    (pieces.foldl ByteBuffer.accept b).WellFormed := by
  induction pieces generalizing b with
  | nil => exact h
  | cons bs pieces ih => exact ih (h.accept bs)

/-- Pieces that come in one after the other stand one behind the other. -/
theorem unread_foldl_accept (h : b.WellFormed) (pieces : List Bytes) :
    (pieces.foldl ByteBuffer.accept b).unread = b.unread ++ pieces.flatten := by
  induction pieces generalizing b with
  | nil => rw [List.foldl_nil, List.flatten_nil, List.append_nil]
  | cons bs pieces ih =>
      rw [List.foldl_cons, ih (h.accept bs), unread_accept h, List.append_assoc,
        List.flatten_cons]

theorem isEmpty_iff (b : ByteBuffer) : b.isEmpty = true ↔ b.unread = [] := by
  rw [isEmpty, beq_iff_eq, ← length_unread, List.length_eq_zero_iff]

theorem WellFormed.call (h : b.WellFormed) (c : Call ε) : (b.call c).2.WellFormed := by
  cases c with
  | append bs => exact h.append bs
  | appendText text => exact h.append _
  | appendBuffer other sound => exact h.append _
  | consume n => exact h.consume n
  | reserve n => exact h.reserve n
  | clear => exact .clear b
  | takeAll => exact .clear b
  | fill reader =>
      change (b.fill reader.outcome).2.WellFormed
      cases hr : reader.outcome b.room with
      | error e => rwa [fill_error hr]
      | ok bs =>
          rw [fill_ok hr]
          exact h.accept bs
  | drainTo writer =>
      change (b.drainTo writer).2.WellFormed
      rw [drainTo]
      split
      · exact h
      · cases writer b.unread with
        | error e => exact h
        | ok n => exact h.consume n

/-- A call does to the unread bytes what it does to a list. -/
theorem unread_call (h : b.WellFormed) (c : Call ε) :
    (b.call c).2.unread = c.effect b.room b.unread := by
  cases c with
  | append bs => exact unread_append h bs
  | appendText text => exact unread_append h _
  | appendBuffer other sound => exact unread_append h _
  | consume n =>
      change (b.consume n).unread = b.unread.drop (min n b.unread.length)
      rw [unread_consume, List.drop_eq_drop_min]
  | reserve n => exact unread_reserve b n
  | clear => rfl
  | takeAll => rfl
  | fill reader =>
      change (b.fill reader.outcome).2.unread = _
      rw [Call.effect]
      cases hr : reader.outcome b.room with
      | error e => rw [fill_error hr]
      | ok bs =>
          rw [fill_ok hr]
          exact unread_accept h bs
  | drainTo writer =>
      change (b.drainTo writer).2.unread = _
      rw [Call.effect, drainTo]
      by_cases hempty : b.unread = []
      · rw [if_pos ((isEmpty_iff b).2 hempty), if_pos hempty, hempty]
      · rw [if_neg (fun hb => hempty ((isEmpty_iff b).1 hb)), if_neg hempty]
        cases writer b.unread with
        | error e => rfl
        | ok n => exact unread_consume b n

theorem fst_call (b : ByteBuffer) (c : Call ε) : (b.call c).1 = c.answer b.room b.unread := by
  cases c with
  | fill reader =>
      change Answer.moved (b.fill reader.outcome).1 = _
      rw [Call.answer]
      cases hr : reader.outcome b.room with
      | error e =>
          rw [fill_error hr]
          rfl
      | ok bs =>
          rw [fill_ok hr]
          rfl
  | drainTo writer =>
      change Answer.moved (b.drainTo writer).1 = _
      rw [Call.answer, drainTo]
      by_cases hempty : b.unread = []
      · rw [if_pos ((isEmpty_iff b).2 hempty), if_pos hempty]
      · rw [if_neg (fun hb => hempty ((isEmpty_iff b).1 hb)), if_neg hempty]
        cases writer b.unread with
        | error e => rfl
        | ok n => rfl
  | _ => rfl

/-- A reader or writer that fails changes nothing. -/
theorem snd_call_of_error {c : Call ε} {e : ε} (h : (b.call c).1 = .moved (.error e)) :
    (b.call c).2 = b := by
  cases c with
  | fill reader =>
      change Answer.moved (b.fill reader.outcome).1 = _ at h
      change (b.fill reader.outcome).2 = b
      cases hr : reader.outcome b.room with
      | error e => rw [fill_error hr]
      | ok bs =>
          rw [fill_ok hr] at h
          cases h
  | drainTo writer =>
      change Answer.moved (b.drainTo writer).1 = _ at h
      change (b.drainTo writer).2 = b
      rw [drainTo] at h ⊢
      split
      · rfl
      · rename_i hempty
        rw [if_neg hempty] at h
        cases hw : writer b.unread with
        | error e => rfl
        | ok n =>
            rw [hw] at h
            cases h
  | _ => cases h

namespace Block

theorem Shows.nothing {o : Option Block} (h : Shows o b) :
    ∃ m, (o.map fun k => (Answer.nothing, k)) = some ((Answer.nothing : Answer ε), m) ∧
      m.Sound ∧ m.toBuffer = b := by
  obtain ⟨m, rfl, hm⟩ := h
  exact ⟨m, rfl, hm⟩

theorem Answers.moved {o : Option (Except ε Nat × Block)} {r : Except ε Nat × ByteBuffer}
    (h : Answers o r) :
    ∃ m, (o.map fun t => (Answer.moved t.1, t.2)) = some (Answer.moved r.1, m) ∧
      m.Sound ∧ m.toBuffer = r.2 := by
  obtain ⟨m, rfl, hm⟩ := h
  exact ⟨m, rfl, hm⟩

/-- On a block whose cursors stand in order no call that fits leaves the block, and each does what it
does to the buffer. -/
theorem Sound.call {k : Block} (h : k.Sound) {c : Call ε}
    (hfits : k.toBuffer.Fits (c.demand k.toBuffer.room)) :
    ∃ m, k.call? c = some ((k.toBuffer.call c).1, m) ∧ m.Sound ∧
      m.toBuffer = (k.toBuffer.call c).2 := by
  cases c with
  | append bs => exact (h.append hfits).nothing
  | appendText text => exact (h.append hfits).nothing
  | appendBuffer other sound =>
      rw [call?, sound.peek?_eq, Option.bind_some]
      rw [Call.demand, ← length_unread] at hfits
      exact (h.append hfits).nothing
  | consume n => exact (h.consume n).nothing
  | reserve n => exact (h.reserve hfits).nothing
  | clear => exact ⟨k.clear, rfl, sound_clear k, toBuffer_clear k⟩
  | takeAll =>
      rw [call?, h.takeAll]
      exact ⟨k.clear, rfl, sound_clear k, toBuffer_clear k⟩
  | fill reader =>
      refine (h.fill reader fun bs hr => ?_).moved
      rwa [Call.demand, hr] at hfits
  | drainTo writer => exact (h.drainTo writer).moved

/-- The block after some calls. -/
def run? (k : Block) (calls : List (Call ε)) : Option Block :=
  calls.foldlM (fun k c => (k.call? c).map Prod.snd) k

/-- The block after some calls, from a block without unread bytes on. -/
def afterCalls? (capacity : Nat) (calls : List (Call ε)) : Option Block :=
  (empty capacity).run? calls

/-- No call of a run that fits leaves the block. -/
theorem Sound.run {k : Block} (h : k.Sound) {calls : List (Call ε)}
    (hfits : k.toBuffer.Fitting calls) :
    ∃ m, k.run? calls = some m ∧ m.Sound ∧
      m.toBuffer = calls.foldl (fun b c => (b.call c).2) k.toBuffer := by
  induction calls generalizing k with
  | nil => exact ⟨k, rfl, h, rfl⟩
  | cons c calls ih =>
      obtain ⟨hfirst, hrest⟩ := fitting_cons.1 hfits
      obtain ⟨m, hm, hsound, hshows⟩ := h.call hfirst
      obtain ⟨e, he, hsound', hend⟩ := ih hsound (hshows ▸ hrest)
      rw [hshows] at hend
      refine ⟨e, ?_, hsound', hend⟩
      rw [run?, List.foldlM_cons, hm]
      exact he

end Block

/-- The buffer after some calls, from an empty one on. -/
def afterCalls (capacity : Nat) (calls : List (Call ε)) : ByteBuffer :=
  calls.foldl (fun b c => (b.call c).2) (empty capacity)

/-- The list after some calls, from the empty one on. Only the space that a read is offered is taken
from the buffer. -/
def queueAfter (capacity : Nat) (calls : List (Call ε)) : Bytes :=
  (calls.foldl (fun s c => ((s.1.call c).2, c.effect s.1.room s.2)) (empty capacity, [])).2

end Steps

section Runs

variable {capacity : Nat} {calls : List (Call ε)}

theorem afterCalls_append (calls : List (Call ε)) (c : Call ε) :
    afterCalls capacity (calls ++ [c]) = ((afterCalls capacity calls).call c).2 := by
  rw [afterCalls, List.foldl_append]
  rfl

theorem foldl_queue (calls : List (Call ε)) :
    calls.foldl (fun s c => ((s.1.call c).2, c.effect s.1.room s.2)) (empty capacity, []) =
      (afterCalls capacity calls, queueAfter capacity calls) := by
  induction calls using List.reverseRecOn with
  | nil => rfl
  | append_singleton calls c ih =>
      rw [queueAfter, List.foldl_append, ih, afterCalls_append]
      rfl

theorem queueAfter_append (calls : List (Call ε)) (c : Call ε) :
    queueAfter capacity (calls ++ [c]) =
      c.effect (afterCalls capacity calls).room (queueAfter capacity calls) := by
  rw [queueAfter, List.foldl_append, foldl_queue]
  rfl

theorem wellFormed_afterCalls (capacity : Nat) (calls : List (Call ε)) :
    (afterCalls capacity calls).WellFormed := by
  induction calls using List.reverseRecOn with
  | nil => exact wellFormed_empty capacity
  | append_singleton calls c ih =>
      rw [afterCalls_append]
      exact ih.call c

theorem unread_afterCalls (capacity : Nat) (calls : List (Call ε)) :
    (afterCalls capacity calls).unread = queueAfter capacity calls := by
  induction calls using List.reverseRecOn with
  | nil => rfl
  | append_singleton calls c ih =>
      rw [afterCalls_append, unread_call (wellFormed_afterCalls capacity calls),
        queueAfter_append, ih]

/-- The block is the one that shows the buffer. -/
theorem sound_afterCalls? (hfits : (empty capacity).Fitting calls) :
    ∃ k, Block.afterCalls? capacity calls = some k ∧ k.Sound ∧
      k.toBuffer = afterCalls capacity calls := by
  rw [← Block.toBuffer_empty] at hfits
  have hrun := (Block.sound_empty capacity).run hfits
  rwa [Block.toBuffer_empty] at hrun

/-- From any capacity on, whatever the calls, if they fit: no access leaves the block, the cursors
stand in order, and the unread bytes are those of the list. A further call that fits answers what it
would answer on the list, and changes nothing where it fails; where it asks for room, there is as much
as was asked for, and no unread byte has changed. -/
theorem refines_queue (capacity : Nat) (calls : List (Call ε))
    (hfits : (empty capacity).Fitting calls) :
    ∃ k, Block.afterCalls? capacity calls = some k ∧ k.readPos ≤ k.writePos ∧
      k.writePos ≤ k.data.length ∧ k.toBuffer = afterCalls capacity calls ∧
      k.peek? = some (queueAfter capacity calls) ∧
      ∀ c : Call ε, k.toBuffer.Fits (c.demand k.toBuffer.room) → ∃ m,
        k.call? c = some (c.answer k.toBuffer.room (queueAfter capacity calls), m) ∧
        m.readPos ≤ m.writePos ∧ m.writePos ≤ m.data.length ∧
        m.peek? = some (c.effect k.toBuffer.room (queueAfter capacity calls)) ∧
        (∀ e, c.answer k.toBuffer.room (queueAfter capacity calls) = .moved (.error e) →
          m.toBuffer = k.toBuffer) ∧
        ∀ n, c = .reserve n → n ≤ m.data.length - m.writePos := by
  obtain ⟨k, hk, hsound, hshows⟩ := sound_afterCalls? hfits
  have hunread : k.toBuffer.unread = queueAfter capacity calls := by
    rw [hshows, unread_afterCalls]
  refine ⟨k, hk, hsound.readPos_le, hsound.writePos_le, hshows, ?_, fun c hc => ?_⟩
  · rw [hsound.peek?_eq, hunread]
  · obtain ⟨m, hm, hsound', hshows'⟩ := hsound.call hc
    have hanswer := fst_call k.toBuffer c
    have heffect := unread_call hsound.wellFormed c
    rw [hunread] at hanswer heffect
    refine ⟨m, ?_, hsound'.readPos_le, hsound'.writePos_le, ?_, fun e he => ?_, ?_⟩
    · rw [hm, hanswer]
    · rw [hsound'.peek?_eq, hshows', heffect]
    · rw [hshows', snd_call_of_error (hanswer.trans he)]
    · rintro n rfl
      rw [← hsound'.writable_toBuffer, hshows']
      exact le_writable_reserve hsound.wellFormed n

/-- Bytes come in and go out, and room is asked for. -/
def mixed : List (Call Unit) :=
  [.append (Bytes.ascii "abcdef"), .consume 2, .reserve 3, .fill ⟨fun _ => .ok [], id, by simp,
    fun _ => rfl, fun _ => rfl⟩, .drainTo fun _ => .ok 1]

theorem refines_queue_mixed : (empty 4).Fitting mixed ∧
    ∃ k, Block.afterCalls? 4 mixed = some k ∧ k.peek? = some (Bytes.ascii "def") := by
  have hfits : (empty 4).Fitting mixed := by decide +kernel
  have hqueue : queueAfter 4 mixed = Bytes.ascii "def" := by decide +kernel
  obtain ⟨k, hk, -, -, -, hpeek, -⟩ := refines_queue 4 mixed hfits
  exact ⟨hfits, k, hk, hqueue ▸ hpeek⟩

/-- A full block is asked for more than a machine word counts on top of it. -/
def overflowing : List (Call Unit) :=
  [.append (Bytes.ascii "abcdefgh"), .reserve 18446744073709551615]

/-- The block comes out smaller, and ends in front of the write cursor: the unread bytes cannot be
looked at any more. -/
theorem peek?_overflowing : ¬(empty 8).Fitting overflowing ∧
    ∃ k, Block.afterCalls? 8 overflowing = some k ∧ k.data.length < k.writePos ∧
      k.peek? = none := by
  have hview : (Block.afterCalls? 8 overflowing).map
      (fun k => (k.data.length, k.writePos, k.peek?)) = some (7, 8, none) := by
    decide +kernel
  obtain ⟨k, hk, hview⟩ := Option.map_eq_some_iff.1 hview
  obtain ⟨hlength, hview⟩ := Prod.mk.inj hview
  obtain ⟨hwrite, hpeek⟩ := Prod.mk.inj hview
  refine ⟨by decide +kernel, k, hk, ?_, hpeek⟩
  rw [hlength, hwrite]
  decide

end Runs

end ByteBuffer

end HttpServer
