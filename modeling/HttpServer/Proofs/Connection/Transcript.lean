import HttpServer.Connection.History
import HttpServer.Proofs.Connection.Processing

/-!
# The transcript of a wire

The stream takes the responses one behind the other. A wire that has begun is in one of three
phases. It listens: all that was built is out, and every response kept the client. It answers: the
last response is out up to some point, what is left of it stands in the connection, and nothing is
read. Or it is over: the connection is closed, and the bytes stop within the last response.

The reading task runs only while the wire listens, and the writing task only while it answers. So a
response is built only behind the end of the one before.
-/

namespace HttpServer

/-- The bytes of some responses, one behind the other. -/
def bytesOf (built : List Built) : Bytes := (built.map Built.bytes).flatten

/-- What was taken of the responses that were built: all of the earlier ones, each of which kept the
client, and of the last one a beginning. Each is an answer of the site, and was counted. -/
structure Delivered (site : Site) (start : Stats) (built : List Built) (sent : Bytes)
    (stats : Stats) : Prop where
  earlier_prefix : bytesOf built.dropLast <+: sent
  prefix_all : sent <+: bytesOf built
  keepAlive : ∀ b ∈ built.dropLast, b.keepAlive = true
  isAnswer : ∀ b ∈ built, b.IsAnswer site
  requests_eq : stats.requests = start.requests.increment (UInt64.ofNat built.length)

namespace Delivered

variable {site : Site} {start stats : Stats} {built : List Built} {sent : Bytes}

/-- Counting one more response. -/
theorem increment_ofNat_succ (c : Counter) (n : Nat) :
    (c.increment (UInt64.ofNat n)).increment 1 = c.increment (UInt64.ofNat (n + 1)) := by
  unfold Counter.increment
  rw [UInt64.ofNat_add, ← UInt64.add_assoc]
  rfl

/-- A response that is built behind the end of the others. -/
theorem append_built (h : Delivered site start built sent stats) {b : Built}
    (hsent : sent = bytesOf built) (hkeep : ∀ e ∈ built, e.keepAlive = true)
    (hb : b.IsAnswer site) :
    Delivered site start (built ++ (some b).toList) (sent ++ [])
      { stats with requests := stats.requests.increment 1 } := by
  rw [Option.toList_some, List.append_nil]
  refine ⟨?_, ?_, ?_, ?_, ?_⟩
  · simp only [List.dropLast_concat, hsent]
    exact List.prefix_rfl
  · rw [hsent, bytesOf, bytesOf, List.map_append, List.flatten_append]
    exact List.prefix_append _ _
  · rw [List.dropLast_concat]
    exact hkeep
  · intro e he
    rcases List.mem_append.1 he with he | he
    · exact h.isAnswer e he
    · rw [List.mem_singleton.1 he]
      exact hb
  · rw [h.requests_eq, List.length_append, List.length_singleton, increment_ofNat_succ]

/-- More bytes that are taken of what is left. -/
theorem append_sent (h : Delivered site start built sent stats) {more rest : Bytes}
    (hrest : sent ++ (more ++ rest) = bytesOf built) :
    Delivered site start (built ++ (none : Option Built).toList) (sent ++ more) stats := by
  rw [Option.toList_none, List.append_nil]
  refine ⟨?_, ?_, h.keepAlive, h.isAnswer, h.requests_eq⟩
  · exact h.earlier_prefix.trans (List.prefix_append _ _)
  · rw [← hrest, ← List.append_assoc]
    exact List.prefix_append _ _

end Delivered

namespace Wire

/-- The bytes of all the responses that were built. -/
def output (w : Wire) : Bytes := bytesOf w.built

/-- A wire after a task. -/
def after (w : Wire) (t : Connection.TaskEnd) : Wire :=
  ⟨t.connection, t.stats, t.armed, w.sent ++ t.sent, w.built ++ t.built.toList⟩

theorem run_eq (w : Wire) (site : Site) (files : FileTree) (conduct : Conduct) :
    w.run site files conduct =
      w.armed.map fun d => w.after (w.connection.task site files d conduct w.stats) := rfl

/-- All that was built is out, and the client is kept. -/
structure Listening (w : Wire) : Prop where
  armed_eq : w.armed = some .reading
  closed_eq : w.connection.closed = false
  aligned : w.connection.Aligned
  unsent_eq_nil : w.connection.unsent = []
  sent_eq : w.sent = w.output
  keepAlive : ∀ b ∈ w.built, b.keepAlive = true

/-- The last response is not out yet. -/
structure Answering (w : Wire) : Prop where
  armed_eq : w.armed = some .writing
  closed_eq : w.connection.closed = false
  aligned : w.connection.Aligned
  unsent_ne_nil : w.connection.unsent ≠ []
  sent_append : w.sent ++ w.connection.unsent = w.output
  last : ∃ earlier b, w.built = earlier ++ [b] ∧ b.keepAlive = w.connection.isKeptAlive
  unread_inbound : w.connection.inbound.unread = []

/-- The connection is closed, and nothing runs any more. -/
structure Over (w : Wire) : Prop where
  armed_eq : w.armed = none
  closed_eq : w.connection.closed = true
  unread_inbound : w.connection.inbound.unread = []

/-- What a wire is at the end of every task. -/
structure Sound (site : Site) (start : Stats) (w : Wire) : Prop where
  delivered : Delivered site start w.built w.sent w.stats
  phase : w.Listening ∨ w.Answering ∨ w.Over

/-- What one task may add to a wire: bytes behind those that were taken, and in a reading task,
where all is out and every client was kept, a response. While something is left nothing is read. -/
structure Extends (v w : Wire) : Prop where
  sent_prefix : v.sent <+: w.sent
  built_eq : w.built = v.built ∨
    ∃ b, w.built = v.built ++ [b] ∧ v.armed = some .reading ∧ v.sent = v.output ∧
      w.sent = v.sent ∧ ∀ e ∈ v.built, e.keepAlive = true
  quiet : v.sent ≠ v.output → w.connection.inbound.unread = []

theorem Answering.sent_ne_output {w : Wire} (h : w.Answering) : w.sent ≠ w.output := by
  intro heq
  have hlen := congrArg List.length h.sent_append
  rw [heq, List.length_append] at hlen
  exact h.unsent_ne_nil (List.length_eq_zero_iff.1 (by omega))

/-- An answer that keeps the client leaves no other that does not. -/
theorem Answering.keepAlive {w : Wire} {site : Site} {start : Stats} (h : w.Answering)
    (hd : Delivered site start w.built w.sent w.stats) (hk : w.connection.isKeptAlive = true) :
    ∀ b ∈ w.built, b.keepAlive = true := by
  obtain ⟨earlier, last, hbuilt, hlast⟩ := h.last
  intro b hb
  rw [hbuilt] at hb
  rcases List.mem_append.1 hb with hb | hb
  · apply hd.keepAlive
    rw [hbuilt, List.dropLast_concat]
    exact hb
  · rw [List.mem_singleton.1 hb, hlast, hk]

section Ends

variable {w : Wire} {c : Connection} {site : Site} {start stats : Stats} {sent : Bytes}
  {built : Option Built}

/-- A task that closes the connection. -/
theorem sound_endClosed (hc : c.closed = false)
    (hd : Delivered site start (w.built ++ built.toList) (w.sent ++ sent) stats) :
    (w.after (c.endClosed sent built stats)).Sound site start := by
  unfold Connection.endClosed Connection.close
  rw [if_neg (hc ▸ Bool.false_ne_true)]
  refine ⟨⟨hd.1, hd.2, hd.3, hd.4, hd.5⟩, Or.inr (Or.inr ⟨rfl, rfl, ?_⟩)⟩
  exact ByteBuffer.unread_clear _

/-- A task that arms the connection, or closes it where that cannot be done. -/
theorem sound_endArmed {d : Direction} (rearms : Bool) (hc : c.closed = false)
    (hd : Delivered site start (w.built ++ built.toList) (w.sent ++ sent) stats)
    (hp : (w.after ⟨sent, built, some d, c, stats⟩).Listening ∨
      (w.after ⟨sent, built, some d, c, stats⟩).Answering) :
    (w.after (c.endArmed rearms d sent built stats)).Sound site start := by
  unfold Connection.endArmed
  split
  · refine ⟨hd, ?_⟩
    rcases hp with hp | hp
    · exact Or.inl hp
    · exact Or.inr (Or.inl hp)
  · exact sound_endClosed hc hd

theorem sent_endArmed (c : Connection) (rearms : Bool) (d : Direction) (sent : Bytes)
    (built : Option Built) (stats : Stats) :
    (c.endArmed rearms d sent built stats).sent = sent := by
  unfold Connection.endArmed
  split <;> rfl

theorem built_endArmed (c : Connection) (rearms : Bool) (d : Direction) (sent : Bytes)
    (built : Option Built) (stats : Stats) :
    (c.endArmed rearms d sent built stats).built = built := by
  unfold Connection.endArmed
  split <;> rfl

theorem unread_endClosed (h : c.inbound.unread = []) :
    (c.endClosed sent built stats).connection.inbound.unread = [] := by
  change (c.close stats).2.1.inbound.unread = []
  unfold Connection.close
  split
  · exact h
  · exact ByteBuffer.unread_clear _

theorem unread_endArmed (h : c.inbound.unread = []) (rearms : Bool) (d : Direction) :
    (c.endArmed rearms d sent built stats).connection.inbound.unread = [] := by
  unfold Connection.endArmed
  split
  · exact h
  · exact unread_endClosed h

/-- A task that builds nothing adds only what it sent. -/
theorem extends_of_built_none {t : Connection.TaskEnd} (h : t.built = none)
    (hquiet : w.sent ≠ w.output → t.connection.inbound.unread = []) :
    w.Extends (w.after t) := by
  refine ⟨List.prefix_append _ _, Or.inl ?_, hquiet⟩
  rw [after, h, Option.toList_none, List.append_nil]

/-- A task that builds nothing and closes the connection. -/
theorem step_endClosed (hc : c.closed = false)
    (hd : Delivered site start (w.built ++ (none : Option Built).toList) (w.sent ++ sent) stats)
    (hquiet : w.sent ≠ w.output → c.inbound.unread = []) :
    (w.after (c.endClosed sent none stats)).Sound site start ∧
      w.Extends (w.after (c.endClosed sent none stats)) := by
  refine ⟨sound_endClosed hc hd, extends_of_built_none rfl ?_⟩
  intro hne
  exact unread_endClosed (hquiet hne)

/-- A task behind which all is out and the client is kept. -/
theorem step_listening (rearms : Bool) (hc : c.closed = false) (ha : c.Aligned)
    (hnil : c.unsent = []) (hout : w.sent ++ sent = w.output)
    (hkeep : ∀ b ∈ w.built, b.keepAlive = true)
    (hd : Delivered site start (w.built ++ (none : Option Built).toList) (w.sent ++ sent) stats)
    (hquiet : w.sent ≠ w.output → c.inbound.unread = []) :
    (w.after (c.endArmed rearms .reading sent none stats)).Sound site start ∧
      w.Extends (w.after (c.endArmed rearms .reading sent none stats)) := by
  refine ⟨sound_endArmed rearms hc hd (Or.inl ⟨rfl, hc, ha, hnil, ?_, ?_⟩),
    extends_of_built_none (built_endArmed _ _ _ _ _ _) ?_⟩
  · simpa [after, output] using hout
  · simpa [after] using hkeep
  · intro hne
    exact unread_endArmed (hquiet hne) _ _

end Ends

section Steps

variable {w : Wire} {site : Site} {start : Stats}

/-- A response that is built where all is out and the client is kept. -/
theorem step_ready {c : Connection} {p : Connection.Processed} (hs : w.Sound site start)
    (hl : w.Listening) (hopen : p.connection.closed = false) (hp : c.Ready site w.stats p)
    (rearms : Bool) :
    let b : Built := ⟨p.connection.unsent, p.connection.isKeptAlive, p.call⟩
    (w.after (p.connection.endArmed rearms .writing [] (some b) p.stats)).Sound site start ∧
      w.Extends (w.after (p.connection.endArmed rearms .writing [] (some b) p.stats)) := by
  intro b
  have hd := hs.delivered.append_built hl.sent_eq hl.keepAlive hp.isAnswer
  rw [← hp.stats_eq] at hd
  refine ⟨sound_endArmed rearms hopen hd (Or.inr ?_), ⟨?_, Or.inr ?_, ?_⟩⟩
  · refine ⟨rfl, hopen, hp.aligned, hp.unsent_ne_nil, ?_, ⟨w.built, b, rfl, rfl⟩, hp.unread_inbound⟩
    simp [after, output, bytesOf, hl.sent_eq, b]
  · exact List.prefix_append _ _
  · refine ⟨b, ?_, hl.armed_eq, hl.sent_eq, ?_, hl.keepAlive⟩
    · rw [after, built_endArmed, Option.toList_some]
    · rw [after, sent_endArmed, List.append_nil]
  · intro hne
    exact absurd hl.sent_eq hne

/-- What the reading task does to a wire that listens. -/
theorem step_reading (hs : w.Sound site start) (hl : w.Listening) (files : FileTree)
    (conduct : Conduct) :
    (w.after (w.connection.readTask site files conduct w.stats)).Sound site start ∧
      w.Extends (w.after (w.connection.readTask site files conduct w.stats)) := by
  have hquiet {P : Prop} (h : w.sent ≠ w.output) : P := absurd hl.sent_eq h
  have hd : Delivered site start (w.built ++ (none : Option Built).toList) (w.sent ++ [])
      w.stats := by
    apply hs.delivered.append_sent
    · rw [hl.sent_eq, List.nil_append, List.append_nil]
      rfl
  unfold Connection.readTask
  rw [if_neg (hl.closed_eq ▸ Bool.false_ne_true), Connection.read_eq _ _ hl.closed_eq]
  generalize Connection.readAll w.connection.inbound 0 conduct.arrivals = r
  obtain ⟨r, inbound⟩ := r
  cases r with
  | error e => exact step_endClosed hl.closed_eq hd hquiet
  | ok n =>
      rcases Connection.endProcessing_cases { w.connection with inbound := inbound } site files
        conduct.rearms [] w.stats with ⟨reader, inbound', ht⟩ | ⟨p, hp, ht⟩
      · simp only [ht]
        refine step_listening _ hl.closed_eq ⟨hl.aligned.1, hl.aligned.2⟩ hl.unsent_eq_nil ?_
          hl.keepAlive hd hquiet
        rw [List.append_nil]
        exact hl.sent_eq
      · simp only [ht]
        have hopen : p.connection.closed = false := hp.closed_eq.trans hl.closed_eq
        exact step_ready hs hl hopen hp _

/-- What the writing task does to a wire that answers. -/
theorem step_writing (hs : w.Sound site start) (ha : w.Answering) (files : FileTree)
    (conduct : Conduct) :
    (w.after (w.connection.writeTask site files conduct w.stats)).Sound site start ∧
      w.Extends (w.after (w.connection.writeTask site files conduct w.stats)) := by
  have hr := Connection.handover_deliver conduct.takings ha.aligned
  unfold Connection.writeTask
  rw [if_neg (ha.closed_eq ▸ Bool.false_ne_true)]
  generalize Connection.deliver conduct.takings w.connection = r at *
  obtain ⟨sent, delivery, c⟩ := r
  have hopen : c.closed = false := hr.sameBut.closed_eq.trans ha.closed_eq
  have hunread : c.inbound.unread = [] := hr.sameBut.inbound_eq ▸ ha.unread_inbound
  have hkept : c.isKeptAlive = w.connection.isKeptAlive :=
    congrArg Response.keepAlive hr.sameBut.response_eq
  have hall : w.sent ++ (sent ++ c.unsent) = w.output := hr.append_unsent ▸ ha.sent_append
  have hd := hs.delivered.append_sent hall
  cases delivery with
  | waiting =>
      refine ⟨sound_endArmed _ hopen hd (Or.inr ?_),
        extends_of_built_none (built_endArmed _ _ _ _ _ _) fun _ => unread_endArmed hunread _ _⟩
      obtain ⟨earlier, b, hbuilt, hb⟩ := ha.last
      refine ⟨rfl, hopen, hr.aligned, hr.of_waiting rfl, ?_, ⟨earlier, b, ?_, ?_⟩, hunread⟩
      · simpa [after, output] using hall
      · simpa [after] using hbuilt
      · exact hb.trans hkept.symm
  | broken e => exact step_endClosed hopen hd fun _ => hunread
  | complete =>
      by_cases hk : c.isKeptAlive = true
      · -- nothing has arrived meanwhile, so reading on builds nothing
        simp only [if_pos hk]
        rw [Connection.endProcessing_of_unread_nil (show c.reset.inbound.unread = [] from hunread)]
        refine step_listening _ hopen ⟨Nat.zero_le _, fun _ => rfl⟩ c.unsent_reset ?_
          (ha.keepAlive hs.delivered (hkept ▸ hk)) hd fun _ => hunread
        have hnil := hr.of_complete rfl
        simp only at hnil
        rw [hnil, List.append_nil] at hall
        exact hall
      · simp only [if_neg hk]
        exact step_endClosed hopen hd fun _ => hunread

theorem sound_start (bufferSize : Nat) : (Wire.start bufferSize start).Sound site start := by
  refine ⟨⟨?_, ?_, ?_, ?_, ?_⟩, Or.inl ⟨rfl, rfl, ⟨Nat.zero_le _, fun _ => rfl⟩, rfl, rfl, ?_⟩⟩
  · exact List.prefix_rfl
  · exact List.prefix_rfl
  · exact fun _ hb => nomatch hb
  · exact fun _ hb => nomatch hb
  · exact congrArg Counter.mk (UInt64.add_zero _).symm
  · exact fun _ hb => nomatch hb

/-- One task keeps a wire sound, and adds to it only what it may. -/
theorem step_run {v : Wire} (hs : w.Sound site start) (files : FileTree) (conduct : Conduct)
    (h : w.run site files conduct = some v) : v.Sound site start ∧ w.Extends v := by
  rw [run_eq] at h
  rcases hs.phase with hl | ha | ho
  · rw [hl.armed_eq] at h
    cases h
    exact step_reading hs hl files conduct
  · rw [ha.armed_eq] at h
    cases h
    exact step_writing hs ha files conduct
  · rw [ho.armed_eq] at h
    cases h

theorem Reachable.sound {bufferSize : Nat} (h : Reachable site bufferSize start w) :
    w.Sound site start := by
  induction h with
  | start => exact sound_start bufferSize
  | step files conduct _ hrun ih => exact (step_run ih files conduct hrun).1

end Steps

/-- What can be said of a wire whatever has happened on it, and of what a further task does to it.
-/
structure Transcript (site : Site) (start : Stats) (w : Wire) : Prop where
  delivered : Delivered site start w.built w.sent w.stats
  rest_eq : w.connection.closed = false → w.sent ++ w.connection.unsent = w.output
  quiet : w.sent ≠ w.output → w.connection.inbound.unread = [] ∧
    ∀ files conduct arrivals,
      w.run site files { conduct with arrivals := arrivals } = w.run site files conduct
  ended : w.sent = w.output → ∀ b ∈ w.built, b.keepAlive = false → w.connection.closed = true
  closed_iff : w.connection.closed = true ↔ w.armed = none
  final : w.connection.closed = true → w.connection.inbound.unread = [] ∧
    ∀ files d conduct, w.connection.task site files d conduct w.stats = .idle w.connection w.stats
  extends_run : ∀ files conduct v, w.run site files conduct = some v → w.Extends v

/-- Whatever the stream does, the responses go out whole, in order, each behind the end of the one
before; and behind one that does not keep the client nothing happens any more. -/
theorem transcript_of_reachable {site : Site} {start : Stats} {bufferSize : Nat} {w : Wire}
    (h : Reachable site bufferSize start w) : Transcript site start w := by
  have hs := h.sound
  refine ⟨hs.delivered, ?_, ?_, ?_, ?_, ?_,
    fun files conduct v hrun => (step_run hs files conduct hrun).2⟩
  · intro hopen
    rcases hs.phase with hl | ha | ho
    · rw [hl.unsent_eq_nil, List.append_nil, hl.sent_eq]
    · exact ha.sent_append
    · rw [ho.closed_eq] at hopen
      cases hopen
  · intro hne
    rcases hs.phase with hl | ha | ho
    · exact absurd hl.sent_eq hne
    · refine ⟨ha.unread_inbound, ?_⟩
      intro files conduct arrivals
      rw [run_eq, run_eq, ha.armed_eq]
      rfl
    · refine ⟨ho.unread_inbound, ?_⟩
      intro files conduct arrivals
      rw [run_eq, run_eq, ho.armed_eq]
      rfl
  · intro heq b hb hk
    rcases hs.phase with hl | ha | ho
    · rw [hl.keepAlive b hb] at hk
      cases hk
    · exact absurd heq ha.sent_ne_output
    · exact ho.closed_eq
  · rcases hs.phase with hl | ha | ho
    · simp [hl.closed_eq, hl.armed_eq]
    · simp [ha.closed_eq, ha.armed_eq]
    · simp [ho.closed_eq, ho.armed_eq]
  · intro hclosed
    refine ⟨?_,
      fun files d conduct => Connection.task_of_closed hclosed site files d conduct w.stats⟩
    rcases hs.phase with hl | ha | ho
    · rw [hl.closed_eq] at hclosed
      cases hclosed
    · exact ha.unread_inbound
    · exact ho.unread_inbound

/-- A site with one reply. -/
def greeter : Site :=
  ⟨[], Routes.empty.addHandler [Bytes.slash] (.constant true (Bytes.ascii "hi"))⟩

/-- A request arrives, and the stream takes five bytes of the response. -/
def begun : Option Wire :=
  ((Wire.start 64 .zero).run greeter .empty
    ⟨[.ok (Bytes.ascii "GET / HTTP/1.0\r\n\r\n")], [], true⟩).bind fun w =>
      w.run greeter .empty ⟨[], [.ok 5], true⟩

theorem reachable_begun {w : Wire} (h : begun = some w) : Reachable greeter 64 .zero w := by
  obtain ⟨v, hv, hw⟩ := Option.bind_eq_some_iff.1 h
  exact Reachable.step _ _ (Reachable.step _ _ Reachable.start hv) hw

/-- Of one response five bytes are out. -/
theorem transcript_begun :
    ∃ w, Reachable greeter 64 .zero w ∧ w.sent = Bytes.ascii "HTTP/" ∧ w.built.length = 1 ∧
      Transcript greeter .zero w := by
  have hview : begun.map (fun w => (w.sent, w.built.length)) = some (Bytes.ascii "HTTP/", 1) := by
    decide +kernel
  obtain ⟨w, hw, hsent⟩ := Option.map_eq_some_iff.1 hview
  obtain ⟨hsent, hbuilt⟩ := Prod.mk.inj hsent
  exact ⟨w, reachable_begun hw, hsent, hbuilt, transcript_of_reachable (reachable_begun hw)⟩

end Wire

end HttpServer
