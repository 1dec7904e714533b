import HttpServer.Proofs.Connection.Processing

/-!
# The turns of a connection

A task has its turn and ends it in one of two ways: the connection is closed, and counted as such, or
it is left open and says what it waits for. A connection that waits to be read from has nothing left
to write, and one that waits to be written to has something left. A task that begins so ends so.

A task that asks a handler may end in its panic instead. The connection is left open then, with
nothing to write, and says nothing.
-/

namespace HttpServer

namespace Connection

/-- How a task ends that found its connection open. But for the requests, only the open connections
are counted anew, when it closes its own. -/
def Turn (stats : Stats) (t : TaskEnd) : Prop :=
  ∃ requests,
    (t.connection.closed = true ∧ t.armed = none ∧
      t.stats = { stats with live := stats.live.decrement 1, requests := requests }) ∨
    (t.connection.closed = false ∧ (∃ d, t.armed = some d) ∧
      t.stats = { stats with requests := requests })

/-- What waits to be read from has nothing left to write, and what waits to be written to has. -/
structure Waits (c : Connection) (d : Direction) : Prop where
  aligned : c.Aligned
  unsent_eq_nil_iff : c.unsent = [] ↔ d = .reading

theorem Waits.unsent_eq_nil {c : Connection} (h : c.Waits .reading) : c.unsent = [] :=
  h.unsent_eq_nil_iff.2 rfl

theorem Waits.unsent_ne_nil {c : Connection} (h : c.Waits .writing) : c.unsent ≠ [] := by
  intro hnil
  cases h.unsent_eq_nil_iff.1 hnil

theorem waits_writing {c : Connection} (ha : c.Aligned) (h : c.unsent ≠ []) :
    c.Waits .writing := by
  refine ⟨ha, fun hnil => absurd hnil h, ?_⟩
  intro hd
  cases hd

/-- What a connection waits for does not depend on what it has read. -/
theorem Waits.of_read {c : Connection} {d : Direction} (h : c.Waits d) (reader : RequestReader)
    (inbound : ByteBuffer) : { c with reader := reader, inbound := inbound }.Waits d :=
  ⟨⟨h.1.1, h.1.2⟩, h.2⟩

theorem waits_fresh (bufferSize : Nat) : (fresh bufferSize).Waits .reading := by
  have hunsent : (fresh bufferSize).unsent = [] := by
    rw [unsent, fresh, ByteBuffer.unread_empty]
    rfl
  exact ⟨⟨Nat.zero_le _, fun _ => rfl⟩, ⟨fun _ => rfl, fun _ => hunsent⟩⟩

section Ends

variable {c : Connection} {stats later : Stats} {requests : Counter}

theorem closed_write (c : Connection) (taking : Except IoError Nat) :
    (c.write taking).2.closed = c.closed :=
  (sameBut_write c taking).closed_eq

theorem closed_deliver (takings : List (Except IoError Nat)) (c : Connection) :
    (deliver takings c).2.2.closed = c.closed := by
  induction takings generalizing c with
  | nil =>
      rw [deliver]
      split <;> rfl
  | cons taking rest ih =>
      have hwrite := closed_write c taking
      rw [deliver]
      split
      · rfl
      · simp only
        split
        · rename_i bs d hw
          rw [hw] at hwrite
          exact (ih d).trans hwrite
        · rename_i e d hw
          rw [hw] at hwrite
          split
          · exact hwrite
          · exact (ih d).trans hwrite
          · exact hwrite

theorem turn_endClosed (hc : c.closed = false) (sent : Bytes) (built : Option Built)
    (hs : later = { stats with requests := requests }) : Turn stats (c.endClosed sent built later) := by
  refine ⟨requests, Or.inl ⟨closed_endClosed _ _ _ _, rfl, ?_⟩⟩
  rw [endClosed, close, hc, hs]
  rfl

theorem turn_endArmed (hc : c.closed = false) (rearms : Bool) (d : Direction) (sent : Bytes)
    (built : Option Built) (hs : later = { stats with requests := requests }) :
    Turn stats (c.endArmed rearms d sent built later) := by
  rw [endArmed]
  split
  · exact ⟨requests, Or.inr ⟨hc, ⟨d, rfl⟩, hs⟩⟩
  · exact turn_endClosed hc sent built hs

theorem turn_endProcessing (hc : c.closed = false) (site : Site) (files : FileTree)
    (rearms : Bool) (sent : Bytes) : Turn stats (c.endProcessing site files rearms sent stats) := by
  rcases endProcessing_cases c site files rearms sent stats with
    ⟨reader, inbound, hend⟩ | ⟨p, hp, hend⟩
  · rw [hend]
    apply turn_endArmed
    · exact hc
    · rfl
  · rw [hend]
    exact turn_endArmed (hp.closed_eq.trans hc) rearms .writing sent _ hp.stats_eq

/-- Every task ends its turn. -/
theorem turn_task (hc : c.closed = false) (site : Site) (files : FileTree) (d : Direction)
    (conduct : Conduct) (stats : Stats) : Turn stats (c.task site files d conduct stats) := by
  cases d with
  | reading =>
      rw [task, readTask, if_neg (hc ▸ Bool.false_ne_true), read_eq c _ hc]
      cases (readAll c.inbound 0 conduct.arrivals).1 with
      | error e =>
          apply turn_endClosed
          · exact hc
          · rfl
      | ok n =>
          apply turn_endProcessing
          exact hc
  | writing =>
      rw [task, writeTask, if_neg (hc ▸ Bool.false_ne_true)]
      have hclosed := (closed_deliver conduct.takings c).trans hc
      split
      · rename_i sent e hdeliver
        rw [hdeliver] at hclosed
        exact turn_endArmed hclosed conduct.rearms .writing sent none rfl
      · rename_i sent error e hdeliver
        rw [hdeliver] at hclosed
        exact turn_endClosed hclosed sent none rfl
      · rename_i sent e hdeliver
        rw [hdeliver] at hclosed
        split
        · have hreset : e.reset.closed = false := hclosed
          exact turn_endProcessing hreset site files conduct.rearms sent
        · exact turn_endClosed hclosed sent none rfl

end Ends

section Panics

variable {c e : Connection} {site : Site} {d : Direction} {conduct : Conduct}

theorem built_endArmed (c : Connection) (rearms : Bool) (d : Direction) (sent : Bytes)
    (built : Option Built) (stats : Stats) :
    (c.endArmed rearms d sent built stats).built = built := by
  rw [endArmed]
  split <;> rfl

theorem call_endProcessing (c : Connection) (site : Site) (files : FileTree) (rearms : Bool)
    (sent : Bytes) (stats : Stats) :
    (c.endProcessing site files rearms sent stats).built.bind Built.call =
      (c.process site files stats).call := by
  rw [endProcessing, built_endArmed, Processed.built?]
  rcases process_cases c site files stats with ⟨reader, inbound, hp⟩ | hp
  · rw [hp]
    rfl
  · rw [if_pos hp.isReady]
    rfl

/-- A task can end in a panic exactly if it would ask a handler. -/
theorem isSome_unwoundTask? (c : Connection) (site : Site) (files : FileTree) (d : Direction)
    (conduct : Conduct) (stats : Stats) :
    (c.unwoundTask? site d conduct).isSome =
      ((c.task site files d conduct stats).built.bind Built.call).isSome := by
  cases hc : c.closed with
  | true =>
      unfold unwoundTask?
      rw [task_of_closed hc, if_pos hc]
      rfl
  | false =>
      unfold unwoundTask?
      rw [if_neg (hc ▸ Bool.false_ne_true)]
      cases d with
      | reading =>
          rw [task, readTask, if_neg (hc ▸ Bool.false_ne_true)]
          rcases c.read conduct.arrivals with ⟨error | n, e⟩
          · rfl
          · simp only [call_endProcessing, isSome_unwound? e site files stats]
      | writing =>
          rw [task, writeTask, if_neg (hc ▸ Bool.false_ne_true)]
          rcases deliver conduct.takings c with ⟨sent, delivery, e⟩
          cases delivery with
          | waiting => simp only [built_endArmed]; rfl
          | broken error => rfl
          | complete =>
              simp only
              split
              · rw [call_endProcessing, isSome_unwound? e.reset site files stats]
              · rfl

/-- A task that ends in a panic found its connection open and leaves it open, with nothing to
write. -/
theorem of_unwoundTask? (h : c.unwoundTask? site d conduct = some e) :
    c.closed = false ∧ e.closed = false ∧ e.unsent = [] := by
  unfold unwoundTask? at h
  split at h
  · cases h
  · rename_i hc
    have hc : c.closed = false := Bool.not_eq_true _ ▸ hc
    refine ⟨hc, ?_⟩
    cases d with
    | reading =>
        rw [read_eq c _ hc] at h
        cases hread : (readAll c.inbound 0 conduct.arrivals).1 with
        | error error =>
            simp only [hread] at h
            cases h
        | ok n =>
            simp only [hread] at h
            obtain ⟨hclosed, hunsent⟩ := of_unwound? h
            exact ⟨hclosed.trans hc, hunsent⟩
    | writing =>
        have hopen := (closed_deliver conduct.takings c).trans hc
        rcases hdeliver : deliver conduct.takings c with ⟨sent, delivery, f⟩
        rw [hdeliver] at hopen
        simp only [hdeliver] at h
        cases delivery with
        | waiting => cases h
        | broken error => cases h
        | complete =>
            simp only at h
            split at h
            · obtain ⟨hclosed, hunsent⟩ := of_unwound? h
              exact ⟨hclosed.trans hopen, hunsent⟩
            · cases h

end Panics

section Waiting

variable {c : Connection} {stats : Stats} {d : Direction}

theorem waits_endArmed (hc : c.Waits d) {rearms : Bool} {sent : Bytes} {built : Option Built}
    {e : Direction} (harmed : (c.endArmed rearms d sent built stats).armed = some e) :
    (c.endArmed rearms d sent built stats).connection.Waits e := by
  rw [endArmed] at harmed ⊢
  split
  · rw [if_pos ‹_›] at harmed
    rw [← Option.some.inj harmed]
    exact hc
  · rw [if_neg ‹_›] at harmed
    cases harmed

theorem waits_endProcessing (hc : c.Waits .reading) {site : Site} {files : FileTree}
    {rearms : Bool} {sent : Bytes} {e : Direction}
    (harmed : (c.endProcessing site files rearms sent stats).armed = some e) :
    (c.endProcessing site files rearms sent stats).connection.Waits e := by
  rcases endProcessing_cases c site files rearms sent stats with
    ⟨reader, inbound, hend⟩ | ⟨p, hp, hend⟩
  · rw [hend] at harmed ⊢
    exact waits_endArmed (hc.of_read reader inbound) harmed
  · rw [hend] at harmed ⊢
    exact waits_endArmed (waits_writing hp.aligned hp.unsent_ne_nil) harmed

/-- What a task leaves waiting waits for the right thing, if the task was the right one. -/
theorem waits_task (ho : c.closed = false) (hc : c.Waits d) {site : Site} {files : FileTree}
    {conduct : Conduct} {e : Direction}
    (harmed : (c.task site files d conduct stats).armed = some e) :
    (c.task site files d conduct stats).connection.Waits e := by
  cases d with
  | reading =>
      rw [task, readTask, if_neg (ho ▸ Bool.false_ne_true), read_eq c _ ho] at harmed ⊢
      cases hread : (readAll c.inbound 0 conduct.arrivals).1 with
      | error error =>
          simp only [hread] at harmed
          cases harmed
      | ok n =>
          simp only [hread] at harmed ⊢
          exact waits_endProcessing (hc.of_read c.reader _) harmed
  | writing =>
      have hand := handover_deliver conduct.takings hc.aligned
      rw [task, writeTask, if_neg (ho ▸ Bool.false_ne_true)] at harmed ⊢
      rcases hdeliver : deliver conduct.takings c with ⟨sent, delivery, f⟩
      rw [hdeliver] at hand
      simp only [hdeliver] at harmed ⊢
      cases delivery with
      | waiting =>
          exact waits_endArmed (waits_writing hand.aligned (hand.of_waiting rfl)) harmed
      | broken error => cases harmed
      | complete =>
          simp only at harmed ⊢
          split
          · rw [if_pos ‹_›] at harmed
            refine waits_endProcessing ⟨⟨Nat.zero_le _, fun _ => rfl⟩, ?_⟩ harmed
            exact ⟨fun _ => rfl, fun _ => unsent_reset f⟩
          · rw [if_neg ‹_›] at harmed
            cases harmed

end Waiting

end Connection

end HttpServer
