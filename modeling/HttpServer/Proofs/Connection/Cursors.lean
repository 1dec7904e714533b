import HttpServer.Connection.Task

/-!
# The cursors of a response that is being written

What is left of a response is the unread part of the outbound buffer and, behind it, the part of
the attached file from the file cursor on. `Aligned` says where the two cursors may stand: the one
of the file within the file, and at its front as long as the head is not written out. Every write
then takes bytes from the front of what is left, and the number of pending bytes is the length of
it.

`deliver` is a loop over such writes. The bytes that it hands to the stream and what is left behind
it are together what was left before.
-/

namespace HttpServer

namespace Connection

/-- The cursors stand within what they point into, and the file waits for the head. -/
structure Aligned (c : Connection) : Prop where
  fileSent_le : c.fileSent ≤ c.response.fileBytes.length
  fileSent_eq_zero : c.outbound.unread ≠ [] → c.fileSent = 0

/-- Nothing but the cursors of the response differs. -/
structure SameBut (c d : Connection) : Prop where
  closed_eq : d.closed = c.closed
  inbound_eq : d.inbound = c.inbound
  reader_eq : d.reader = c.reader
  response_eq : d.response = c.response

theorem SameBut.refl (c : Connection) : SameBut c c :=
  ⟨rfl, rfl, rfl, rfl⟩

theorem SameBut.trans {c d e : Connection} (h : SameBut c d) (h' : SameBut d e) : SameBut c e :=
  ⟨h'.closed_eq.trans h.closed_eq, h'.inbound_eq.trans h.inbound_eq,
    h'.reader_eq.trans h.reader_eq, h'.response_eq.trans h.response_eq⟩

/-- The number of pending bytes is not cut off at zero. -/
theorem pending_eq_length_unsent {c : Connection} (h : c.Aligned) :
    c.pending = c.unsent.length := by
  have := h.fileSent_le
  unfold pending unsent
  rw [List.length_append, ByteBuffer.length_unread, List.length_drop]
  omega

theorem pending_eq_zero_iff {c : Connection} (h : c.Aligned) : c.pending = 0 ↔ c.unsent = [] := by
  rw [pending_eq_length_unsent h, List.length_eq_zero_iff]

theorem sameBut_advance (c : Connection) (n : Nat) : SameBut c (c.advance n) := by
  unfold advance
  split
  · exact ⟨rfl, rfl, rfl, rfl⟩
  · exact ⟨rfl, rfl, rfl, rfl⟩

/-- Writing leaves all but the cursors as it was. -/
theorem sameBut_write (c : Connection) (taking : Except IoError Nat) :
    SameBut c (c.write taking).2 := by
  unfold Connection.write
  split
  · exact .refl c
  · split
    · exact .refl c
    · cases taking with
      | error e => exact .refl c
      | ok n =>
          simp only
          split
          · exact .refl c
          · exact sameBut_advance c _

/-- What the stream took is gone from the front. -/
theorem unsent_advance (c : Connection) (n : Nat) : (c.advance n).unsent = c.unsent.drop n := by
  have hlen : c.outbound.unread.length = c.outbound.readable := c.outbound.length_unread
  unfold advance unsent
  split
  · rename_i h
    have hnil : c.outbound.unread.drop n = [] := List.drop_of_length_le (hlen.symm ▸ h)
    rw [ByteBuffer.unread_clear, List.nil_append, List.drop_append, hnil, List.nil_append,
      List.drop_drop, hlen]
  · rename_i h
    rw [ByteBuffer.unread_consume, List.drop_append_of_le_length (by omega)]

theorem Aligned.advance {c : Connection} (h : c.Aligned) {n : Nat} (hn : n ≤ c.unsent.length) :
    (c.advance n).Aligned := by
  have hle := h.fileSent_le
  rw [unsent, List.length_append, ByteBuffer.length_unread, List.length_drop] at hn
  unfold Connection.advance
  split
  · refine ⟨?_, ?_⟩
    · simp only
      omega
    · intro hne
      exact absurd (ByteBuffer.unread_clear c.outbound) hne
  · refine ⟨hle, ?_⟩
    intro hne
    apply h.fileSent_eq_zero
    intro hnil
    rw [ByteBuffer.unread_consume, hnil, List.drop_nil] at hne
    exact hne rfl

/-- A write that succeeds takes bytes from the front of what is left. -/
theorem of_write_ok {c d : Connection} {taking : Except IoError Nat} {bs : Bytes}
    (ha : c.Aligned) (h : c.write taking = (.ok bs, d)) :
    SameBut c d ∧ d.Aligned ∧ bs ++ d.unsent = c.unsent := by
  unfold write at h
  split at h
  · cases h
  · split at h
    · cases h
      exact ⟨SameBut.refl c, ha, rfl⟩
    · cases taking with
      | error e => cases h
      | ok n =>
          simp only at h
          split at h
          · cases h
          · cases h
            have hlen : (c.unsent.take n).length ≤ c.unsent.length := by
              rw [List.length_take]
              exact Nat.min_le_right _ _
            refine ⟨sameBut_advance c _, ha.advance hlen, ?_⟩
            have hprefix := List.take_prefix n c.unsent
            rw [unsent_advance]
            exact (List.prefix_iff_eq_append.1 hprefix)

/-- A write that fails changes nothing. -/
theorem of_write_error {c d : Connection} {taking : Except IoError Nat} {e : IoError}
    (h : c.write taking = (.error e, d)) : d = c := by
  unfold write at h
  split at h
  · cases h
    rfl
  · split at h
    · cases h
    · cases taking with
      | error e =>
          cases h
          rfl
      | ok n =>
          simp only at h
          split at h
          · cases h
            rfl
          · cases h

/-- What a loop of writes may come to: bytes from the front are handed over, in order. It is
complete when nothing is left, and waits only when something is. -/
structure Handover (c : Connection) (sent : Bytes) (d : Delivery) (e : Connection) : Prop where
  sameBut : SameBut c e
  aligned : e.Aligned
  append_unsent : sent ++ e.unsent = c.unsent
  of_complete : d = .complete → e.unsent = []
  of_waiting : d = .waiting → e.unsent ≠ []

namespace Handover

/-- Nothing was left. -/
theorem complete {c : Connection} (ha : c.Aligned) (hp : c.pending = 0) :
    Handover c [] .complete c := by
  refine ⟨SameBut.refl c, ha, rfl, fun _ => (pending_eq_zero_iff ha).1 hp, ?_⟩
  intro h
  cases h

/-- Something is left, and is waited for. -/
theorem waiting {c : Connection} (ha : c.Aligned) (hp : c.pending ≠ 0) :
    Handover c [] .waiting c := by
  refine ⟨SameBut.refl c, ha, rfl, ?_, fun _ hnil => hp ((pending_eq_zero_iff ha).2 hnil)⟩
  intro h
  cases h

theorem broken {c : Connection} (ha : c.Aligned) (e : IoError) : Handover c [] (.broken e) c := by
  refine ⟨SameBut.refl c, ha, rfl, ?_, ?_⟩
  · intro h
    cases h
  · intro h
    cases h

/-- One more write in front. -/
theorem cons {c d e : Connection} {bs sent : Bytes} {delivery : Delivery} (hsame : SameBut c d)
    (hbytes : bs ++ d.unsent = c.unsent) (h : Handover d sent delivery e) :
    Handover c (bs ++ sent) delivery e := by
  refine ⟨hsame.trans h.sameBut, h.aligned, ?_, h.of_complete, h.of_waiting⟩
  rw [List.append_assoc, h.append_unsent, hbytes]

end Handover

theorem handover_deliver (takings : List (Except IoError Nat)) {c : Connection} (ha : c.Aligned) :
    Handover c (deliver takings c).1 (deliver takings c).2.1 (deliver takings c).2.2 := by
  induction takings generalizing c with
  | nil =>
      rw [deliver]
      by_cases hp : c.pending = 0
      · rw [if_pos hp]
        exact Handover.complete ha hp
      · rw [if_neg hp]
        exact Handover.waiting ha hp
  | cons taking rest ih =>
      rw [deliver]
      by_cases hp : c.pending = 0
      · rw [if_pos hp]
        exact Handover.complete ha hp
      · rw [if_neg hp]
        simp only
        split
        · rename_i bs d hw
          obtain ⟨hsame, hd, hbytes⟩ := of_write_ok ha hw
          exact Handover.cons hsame hbytes (ih hd)
        · rename_i e d hw
          rw [of_write_error hw]
          -- only an interrupted write goes on
          split
          · exact Handover.waiting ha hp
          · exact ih ha
          · exact Handover.broken ha e

end Connection

end HttpServer
