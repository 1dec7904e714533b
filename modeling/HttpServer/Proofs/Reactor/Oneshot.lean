import HttpServer.Proofs.Reactor.Tokens

/-!
# One hand at a time

While a reactor serves, an open connection is in exactly one hand. A step takes its token out of one
hand and puts it into another; only a connection that is made brings a new token, and one that is
closed may lose its own. A handler that panics puts its connection into the hand that is nobody's.

So no two jobs of one connection are under way, nothing is read while a response is unsent, and an
event reaches the connection for which its descriptor was armed, even where another connection had
the descriptor before.
-/

namespace HttpServer

namespace Handoff

variable {settings : ReactorSettings} {h k : Handoff}

section Inversions

/-! What a step finds, and what it leaves. -/

theorem of_step_accept {now : Nat} {d : Int} {registers : Bool}
    (hk : h.step (.accept now d registers) = some k) :
    h.reactor.holds d = false ∧ k = (h.accept now d registers).2 := by
  rw [step] at hk
  split at hk
  · cases hk
  · rename_i hfree
    cases hk
    exact ⟨Bool.not_eq_true _ ▸ hfree, rfl⟩

theorem of_poll {events : List Event} (hk : h.poll events = some k) :
    h.batch = [] ∧ h.report events = some k := by
  rw [poll] at hk
  split at hk
  · rename_i hbatch
    exact ⟨hbatch, hk⟩
  · cases hk

theorem of_dispatch {now : Nat} (hk : h.dispatch now = some k) :
    ∃ p rest, h.batch = p :: rest ∧ k =
      { h with
        reactor := (h.reactor.dispatch now p.event).2
        batch := rest
        queued := h.queued ++ (h.reactor.dispatch now p.event).1.toList }.dropClosed := by
  rw [Handoff.dispatch] at hk
  split at hk
  · cases hk
  · rename_i p rest hb
    cases hk
    exact ⟨p, rest, hb, rfl⟩

theorem of_take (hk : h.take = some k) :
    ∃ job rest, h.queued = job :: rest ∧
      k = { h with queued := rest, running := h.running ++ [job] } := by
  rw [take] at hk
  split at hk
  · cases hk
  · rename_i job rest hq
    cases hk
    exact ⟨job, rest, hq, rfl⟩

/-- A job has come to its end, and its worker has yet to return. -/
def vacate (h : Handoff) (job : Job) : Handoff :=
  { h with running := h.running.erase job, leaving := h.leaving ++ [job] }

theorem of_unwind {job : Job} {conduct : Conduct} (hk : h.unwind job conduct = some k) :
    job ∈ h.running ∧ ∃ q, h.reactor.unwind job conduct = some q ∧
      k = { h.vacate job with reactor := q, abandoned := job.id :: h.abandoned } := by
  rw [Handoff.unwind] at hk
  split at hk
  · rename_i hj
    obtain ⟨q, hq, rfl⟩ := Option.map_eq_some_iff.1 hk
    exact ⟨hj, q, hq, rfl⟩
  · cases hk

theorem of_leave {job : Job} (hk : h.leave job = some k) :
    k = { h with leaving := h.leaving.erase job } := by
  rw [leave] at hk
  split at hk
  · cases hk
    rfl
  · cases hk

theorem of_expireNext {now : Nat} (hk : h.expireNext now = some k) :
    h.batch = [] ∧ ∃ q, h.reactor.expireNext now = some q ∧
      k = { h with reactor := q }.dropClosed := by
  rw [Handoff.expireNext] at hk
  split at hk
  · rename_i hbatch
    obtain ⟨q, hq, rfl⟩ := Option.map_eq_some_iff.1 hk
    exact ⟨hbatch, q, hq, rfl⟩
  · cases hk

theorem of_expire {now : Nat} (hk : h.expire now = some k) :
    h.batch = [] ∧ k = { h with reactor := (h.reactor.expire now).2 }.dropClosed := by
  rw [Handoff.expire] at hk
  split at hk
  · rename_i hbatch
    cases hk
    exact ⟨hbatch, rfl⟩
  · cases hk

theorem of_applyNext (hk : h.applyNext = some k) :
    ∃ q, h.reactor.applyNext = some q ∧ k = { h with reactor := q } := by
  rw [Handoff.applyNext] at hk
  split at hk
  · obtain ⟨q, hq, rfl⟩ := Option.map_eq_some_iff.1 hk
    exact ⟨q, hq, rfl⟩
  · cases hk

theorem of_applyClosed (hk : h.applyClosed = some k) :
    k = { h with reactor := h.reactor.applyClosed } := by
  rw [Handoff.applyClosed] at hk
  split at hk
  · cases hk
    rfl
  · cases hk

end Inversions

/-- Every open connection is in one hand, and what is in a hand is there for its own connection. -/
structure Handed (settings : ReactorSettings) (h : Handoff) : Prop where
  placed : h.Placed settings
  held : h.Held

section Steps

theorem handed_fresh (settings : ReactorSettings) : (fresh settings).Handed settings := by
  refine ⟨⟨.start, List.nodup_nil, ?_, ?_, ?_, ?_⟩, ?_⟩
  · intro a ha
    cases ha
  · intro p hp
    cases hp
  · intro j hj
    cases hj
  · intro id hid
    cases hid
  · intro id hopen
    cases hopen

theorem handed_report (hh : h.Handed settings) {events : List Event}
    (hk : h.report events = some k) : k.Handed settings := by
  induction events generalizing h with
  | nil =>
      cases hk
      exact hh
  | cons e rest ih =>
      rw [Handoff.report] at hk
      split at hk
      · cases hk
      · rename_i a ha
        split at hk
        · rename_i he
          have hmem := List.mem_of_find?_eq_some ha
          have hd : a.descriptor = e.descriptor := by simpa using List.find?_some ha
          rw [← hd] at hk
          refine ih ⟨hh.placed.report hmem hd.symm he, ?_⟩ hk
          intro id hopen
          exact (hh.placed.tokens_report hmem e).mem_iff.2 (hh.held id hopen)
        · cases hk

/-- Only the reactor takes a step, and makes no connection. -/
theorem Handed.narrow (hh : h.Handed settings) {q : Reactor} (hq : Reactor.Reachable settings q)
    (hn : Reactor.Narrows h.reactor q) (hbatch : ∀ p ∈ h.batch, q.isOpen p.id = true) :
    Handed settings { h with reactor := q }.dropClosed := by
  refine ⟨hh.placed.react hq (Nat.le_of_eq hn.length_eq.symm) (fun id _ => hn.link?_eq id) hbatch, ?_⟩
  intro id hopen
  refine mem_tokens_dropClosed ?_ hopen
  obtain ⟨l, hl, hc⟩ := Reactor.isOpen_eq_true_iff.1 hopen
  exact hh.held id (Reactor.isOpen_eq_true_iff.2 ⟨l, hn.link?_eq id l hl hc, hc⟩)

/-- Only the books of the reactor change. -/
theorem Handed.of_links_eq (hh : h.Handed settings) {q : Reactor}
    (hq : Reactor.Reachable settings q) (hlinks : q.links = h.reactor.links) :
    Handed settings { h with reactor := q } := by
  refine ⟨hh.placed.extend hq ?_, ?_⟩
  · intro id l hl
    rw [Reactor.link?, hlinks]
    exact hl
  · intro id hopen
    apply hh.held id
    rw [← Reactor.isOpen_of_links_eq hlinks]
    exact hopen

theorem handed_take (hh : h.Handed settings) (hk : h.take = some k) : k.Handed settings := by
  obtain ⟨job, rest, hq, rfl⟩ := of_take hk
  have hperm := tokens_take hq
  refine ⟨⟨hh.placed.reachable, hperm.symm.nodup hh.placed.nodup, hh.placed.armed,
    hh.placed.batch, ?_, hh.placed.abandoned⟩, ?_⟩
  · intro j hj
    apply hh.placed.jobs j
    rw [hq]
    have hjobs : (rest ++ (h.running ++ [job])).Perm (job :: (rest ++ h.running)) := by
      rw [← List.append_assoc]
      exact List.perm_append_singleton job (rest ++ h.running)
    exact hjobs.mem_iff.1 hj
  · intro id hopen
    exact hperm.mem_iff.2 (hh.held id hopen)

/-- The event is attended to for the connection whose watching it ended. -/
theorem Placed.occupant?_eq (hp : h.Placed settings) {p : Report} (hpb : p ∈ h.batch) :
    h.reactor.occupant? p.event.descriptor = some p.id := by
  obtain ⟨d, hs, -⟩ := hp.batch p hpb
  exact (Reactor.kept_of_reachable hp.reachable).seated p.id _ hs.isOpen hs.descriptor?_eq

section Dispatch

variable {p : Report} {rest : List Report} {q : Reactor}

/-- Every other connection is still in its hand when a report leaves the batch. -/
theorem mem_tokens_unbatch (hh : h.Held) (hb : h.batch = p :: rest) {id : Nat} (hid : id ≠ p.id)
    (hopen : h.reactor.isOpen id = true) : id ∈ { h with batch := rest }.tokens := by
  have hmem := (tokens_batch hb).mem_iff.1 (hh id hopen)
  exact (List.mem_cons.1 hmem).resolve_left hid

/-- A report of a hangup ends with its connection. -/
theorem Handed.hangUp (hh : h.Handed settings) (hb : h.batch = p :: rest)
    (hq : Reactor.Reachable settings (h.reactor.hangUp p.id)) :
    Handed settings { h with reactor := h.reactor.hangUp p.id, batch := rest }.dropClosed := by
  obtain ⟨hp, hnew⟩ := hh.placed.unbatch hb
  have hopen := Reactor.isOpen_hangUp h.reactor p.id
  have hn := Reactor.narrows_hangUp h.reactor p.id
  refine ⟨hp.react hq (Nat.le_of_eq hn.length_eq.symm) (fun id _ => hn.link?_eq id) ?_, ?_⟩
  · intro x hx
    have hne : x.id ≠ p.id := fun hxp => hnew (hxp ▸ mem_tokens_of_batch hx)
    obtain ⟨e, hsx, -⟩ := hp.batch x hx
    rw [hopen, Function.update_of_ne hne]
    exact hsx.isOpen
  · intro id hid
    refine mem_tokens_dropClosed ?_ hid
    obtain ⟨hne, hid⟩ := Reactor.isOpen_of_shut hopen hid
    exact mem_tokens_unbatch hh.held hb hne hid

/-- Any other report becomes a job. -/
theorem Handed.queue (hh : h.Handed settings) (hb : h.batch = p :: rest)
    (hq : Reactor.Reachable settings q) (hlinks : q.links = h.reactor.links) {d : Direction}
    (hs : h.reactor.Stands p.id p.event.descriptor d) :
    Handed settings { h with
      reactor := q
      batch := rest
      queued := h.queued ++ [Job.mk p.id d] }.dropClosed := by
  obtain ⟨hp, hnew⟩ := hh.placed.unbatch hb
  have hlink (id : Nat) (l : Link) (hl : h.reactor.link? id = some l) : q.link? id = some l := by
    rw [Reactor.link?, hlinks]
    exact hl
  have hstands : q.Stands p.id p.event.descriptor d := by
    obtain ⟨l, hl, hrest⟩ := hs
    exact ⟨l, hlink _ l hl, hrest⟩
  refine ⟨((hp.extend hq hlink).enqueue hnew hstands).dropClosed, ?_⟩
  intro id hid
  refine mem_tokens_dropClosed ?_ hid
  have hperm := tokens_enqueue { h with batch := rest, reactor := q } ⟨p.id, d⟩
  refine hperm.mem_iff.2 (List.mem_cons.2 ?_)
  have hid : q.isOpen id = true := hid
  rw [Reactor.isOpen_of_links_eq hlinks] at hid
  by_cases hne : id = p.id
  · exact Or.inl hne
  · exact Or.inr (mem_tokens_unbatch hh.held hb hne hid)

end Dispatch

theorem handed_dispatch (hh : h.Handed settings) {now : Nat} (hk : h.dispatch now = some k) :
    k.Handed settings := by
  obtain ⟨p, rest, hb, rfl⟩ := of_dispatch hk
  have hpb : p ∈ h.batch := hb ▸ List.mem_cons_self
  have hoccupant := hh.placed.occupant?_eq hpb
  obtain ⟨d, hs, hd⟩ := hh.placed.batch p hpb
  have hreach : Reactor.Reachable settings (h.reactor.dispatch now p.event).2 :=
    .step (.dispatch now p.event) hh.placed.reachable rfl
  rcases h.reactor.dispatch_cases now p.event with
    ⟨hnone, -⟩ | ⟨id, hid, ⟨-, hq⟩ | ⟨e, hhangup, he, hq⟩⟩
  · rcases hnone with hnone | ⟨hhangup, hnone⟩
    · rw [hoccupant] at hnone
      cases hnone
    · rw [hd hhangup] at hnone
      cases hnone
  · rw [hoccupant] at hid
    obtain rfl := Option.some.inj hid
    rw [hq] at hreach ⊢
    rw [Option.toList_none, List.append_nil]
    exact hh.hangUp hb hreach
  · rw [hoccupant] at hid
    obtain rfl := Option.some.inj hid
    rw [hd hhangup] at he
    obtain rfl := Option.some.inj he
    rw [hq] at hreach ⊢
    exact hh.queue hb hreach (Reactor.links_extendTimer _ _ _) hs

theorem complete_of_closed {files : FileTree} {job : Job} {conduct : Conduct} {q : Reactor}
    (hj : job ∈ h.running) (hq : (h.reactor.perform files job conduct).2 = q)
    (harmed : (h.reactor.perform files job conduct).1.bind Connection.TaskEnd.armed = none) :
    (h.complete files job conduct).map Prod.snd =
      some { h.vacate job with reactor := q }.dropClosed := by
  rw [Handoff.complete, if_pos hj]
  simp only [harmed, hq]
  rfl

theorem complete_of_armed {files : FileTree} {job : Job} {conduct : Conduct} {q : Reactor}
    {d : Direction} {l : Link} (hj : job ∈ h.running)
    (hq : (h.reactor.perform files job conduct).2 = q)
    (harmed : (h.reactor.perform files job conduct).1.bind Connection.TaskEnd.armed = some d)
    (hl : q.link? job.id = some l) :
    (h.complete files job conduct).map Prod.snd =
      some ({ h.vacate job with reactor := q }.dropClosed.arm ⟨l.descriptor, d, job.id⟩) := by
  rw [Handoff.complete, if_pos hj]
  simp only [harmed, hq, hl]
  rfl

theorem Placed.vacate (hp : h.Placed settings) {job : Job} (hj : job ∈ h.running) :
    (h.vacate job).Placed settings ∧ job.id ∉ (h.vacate job).tokens :=
  hp.unrun hj (h.leaving ++ [job])

/-- Every other connection is still in its hand. -/
theorem mem_tokens_vacate (hh : h.Held) {job : Job} (hj : job ∈ h.running) {id : Nat}
    (hid : id ≠ job.id) (hopen : h.reactor.isOpen id = true) : id ∈ (h.vacate job).tokens := by
  have hmem := (tokens_running hj (h.leaving ++ [job])).mem_iff.1 (hh id hopen)
  exact (List.mem_cons.1 hmem).resolve_left hid

section Turn

variable {job : Job} {q : Reactor} {l : Link} {c : Connection} {stats : Stats}

/-- The connection of a job may change, if nothing else does. -/
theorem Placed.turn (hp : h.Placed settings) (hnew : job.id ∉ h.tokens)
    (hq : Reactor.Reachable settings q) (hl : h.reactor.link? job.id = some l)
    (hlinks : q.links = (h.reactor.update job.id l c stats).links) :
    Placed settings { h with reactor := q }.dropClosed := by
  have hlink : q.link? =
      Function.update h.reactor.link? job.id (some { l with connection := c }) := by
    rw [← Reactor.link?_update hl c stats]
    funext x
    rw [Reactor.link?, hlinks]
    rfl
  have hopen : q.isOpen = Function.update h.reactor.isOpen job.id (!c.closed) := by
    rw [Reactor.isOpen_of_links_eq hlinks, Reactor.isOpen_update hl]
  refine hp.react hq ?_ ?_ ?_
  · rw [hlinks]
    exact Nat.le_of_eq (List.length_set ..).symm
  · intro id hid m hm _
    have hne : id ≠ job.id := fun heq => hnew (heq ▸ hid)
    rw [hlink, Function.update_of_ne hne] at hm
    exact hm
  · intro p hpb
    have hne : p.id ≠ job.id := fun heq => hnew (heq ▸ mem_tokens_of_batch hpb)
    obtain ⟨d, hs, -⟩ := hp.batch p hpb
    rw [hopen, Function.update_of_ne hne]
    exact hs.isOpen

/-- The other connections stay in their hands then. -/
theorem mem_tokens_turn (hh : h.Held) (hj : job ∈ h.running) (hl : h.reactor.link? job.id = some l)
    (hlinks : q.links = (h.reactor.update job.id l c stats).links) {id : Nat} (hid : id ≠ job.id)
    (hopen : q.isOpen id = true) :
    id ∈ { h.vacate job with reactor := q }.dropClosed.tokens := by
  refine mem_tokens_dropClosed ?_ hopen
  rw [Reactor.isOpen_of_links_eq hlinks, Reactor.isOpen_update hl, Function.update_of_ne hid]
    at hopen
  exact mem_tokens_vacate hh hj hid hopen

/-- A job that closes its connection gives up its token. -/
theorem Handed.shut (hh : h.Handed settings) (hj : job ∈ h.running)
    (hq : Reactor.Reachable settings q) (hl : h.reactor.link? job.id = some l)
    (hlinks : q.links = (h.reactor.update job.id l c stats).links) (hc : c.closed = true) :
    Handed settings { h.vacate job with reactor := q }.dropClosed := by
  obtain ⟨hp, hnew⟩ := hh.placed.vacate hj
  refine ⟨hp.turn hnew hq hl hlinks, ?_⟩
  intro id hopen
  have hne : id ≠ job.id := by
    rintro rfl
    have hopen : q.isOpen job.id = true := hopen
    rw [Reactor.isOpen_of_links_eq hlinks, Reactor.isOpen_update hl, Function.update_self, hc]
      at hopen
    cases hopen
  exact mem_tokens_turn hh.held hj hl hlinks hne hopen

/-- A job that leaves its connection open hands it over to the kernel. -/
theorem Handed.rearm (hh : h.Handed settings) (hj : job ∈ h.running)
    (hq : Reactor.Reachable settings q) (hl : h.reactor.link? job.id = some l)
    (hlinks : q.links = (h.reactor.update job.id l c stats).links) {d : Direction}
    (hs : q.Stands job.id l.descriptor d) :
    Handed settings ({ h.vacate job with reactor := q }.dropClosed.arm
      ⟨l.descriptor, d, job.id⟩) := by
  obtain ⟨hp, hnew⟩ := hh.placed.vacate hj
  have hplaced := hp.turn hnew hq hl hlinks
  have hfree : job.id ∉ { h.vacate job with reactor := q }.dropClosed.tokens :=
    fun hmem => hnew ((tokens_dropClosed { h.vacate job with reactor := q }).subset hmem)
  refine ⟨hplaced.arm hfree hs, ?_⟩
  intro id hopen
  rw [hplaced.tokens_arm (a := ⟨l.descriptor, d, job.id⟩) hfree hs]
  by_cases hne : id = job.id
  · exact List.mem_cons.2 (Or.inl hne)
  · exact List.mem_cons_of_mem _ (mem_tokens_turn hh.held hj hl hlinks hne hopen)

end Turn

/-- A job whose connection is closed has no token to give up. -/
theorem Handed.idle (hh : h.Handed settings) {job : Job} (hj : job ∈ h.running)
    (hclosed : h.reactor.isOpen job.id = false) : (h.vacate job).dropClosed.Handed settings := by
  obtain ⟨hp, -⟩ := hh.placed.vacate hj
  refine ⟨hp.dropClosed, ?_⟩
  intro id hopen
  have hne : id ≠ job.id := by
    rintro rfl
    have hopen : h.reactor.isOpen job.id = true := hopen
    rw [hclosed] at hopen
    cases hopen
  exact mem_tokens_dropClosed (mem_tokens_vacate hh.held hj hne hopen) hopen

theorem handed_complete (hh : h.Handed settings) {files : FileTree} {job : Job} {conduct : Conduct}
    (hk : (h.complete files job conduct).map Prod.snd = some k) : k.Handed settings := by
  by_cases hj : job ∈ h.running
  · have hreach : Reactor.Reachable settings (h.reactor.perform files job conduct).2 :=
      .step (.perform files job conduct) hh.placed.reachable rfl
    rcases h.reactor.perform_cases files job conduct with
      ⟨hclosed, hq, harmed⟩ | ⟨l, t, hl, hc, ht, hfst, hend⟩
    · rw [complete_of_closed hj hq harmed] at hk
      cases hk
      exact hh.idle hj hclosed
    · have hturn := Connection.turn_task hc h.reactor.settings.site files job.direction conduct
        h.reactor.stats
      rw [← ht] at hturn
      have hbind : (h.reactor.perform files job conduct).1.bind Connection.TaskEnd.armed =
          t.armed := by
        rw [hfst]
        rfl
      obtain ⟨requests, ⟨htclosed, harmed, -⟩ | ⟨htopen, ⟨d, harmed⟩, -⟩⟩ := hturn
      · obtain ⟨hfalse, -⟩ | ⟨-, hq⟩ := hend
        · rw [htclosed] at hfalse
          cases hfalse
        · have hlinks : (h.reactor.perform files job conduct).2.links =
              (h.reactor.update job.id l t.connection t.stats).links := by
            rw [hq]
            rfl
          rw [complete_of_closed hj rfl (hbind.trans harmed)] at hk
          cases hk
          exact hh.shut hj hreach hl hlinks htclosed
      · obtain ⟨-, hq⟩ | ⟨htrue, -⟩ := hend
        · have hlinks := congrArg Reactor.links hq
          have hself : (h.reactor.perform files job conduct).2.link? job.id =
              some { l with connection := t.connection } := by
            rw [hq, Reactor.link?_update hl, Function.update_self]
          rw [complete_of_armed hj rfl (hbind.trans harmed) hself] at hk
          cases hk
          refine hh.rearm hj hreach hl hlinks ⟨_, hself, rfl, htopen, ?_⟩
          rw [ht] at harmed ⊢
          exact Connection.waits_task hc
            ((hh.placed.jobs job (List.mem_append_right _ hj)).2 l hl hc) harmed
        · rw [htopen] at htrue
          cases htrue
  · rw [Handoff.complete, if_neg hj] at hk
    cases hk

/-- Where all stay open nobody's watching ends. -/
theorem Placed.dropClosed_eq (hp : h.Placed settings) {q : Reactor}
    (hopen : q.isOpen = h.reactor.isOpen) :
    { h with reactor := q }.dropClosed = { h with reactor := q } := by
  have harmed : (h.armed.filter fun a => q.isOpen a.id) = h.armed := by
    rw [List.filter_eq_self]
    intro a ha
    rw [hopen]
    exact (hp.armed a ha).isOpen
  rw [Handoff.dropClosed]
  exact congrArg (fun armed => { h with reactor := q, armed := armed }) harmed

/-- A job whose handler panics leaves its connection to nobody. -/
theorem handed_unwind (hh : h.Handed settings) {job : Job} {conduct : Conduct}
    (hk : h.unwind job conduct = some k) : k.Handed settings := by
  obtain ⟨hj, q, hq, rfl⟩ := of_unwind hk
  have hreach : Reactor.Reachable settings q :=
    .step (.unwind job conduct) hh.placed.reachable hq
  obtain ⟨hopen, -⟩ := Reactor.isOpen_unwind hq
  obtain ⟨l, c, hl, -, -, hqr⟩ := Reactor.unwind_cases hq
  have hlinks := congrArg Reactor.links hqr
  obtain ⟨hp, hnew⟩ := hh.placed.vacate hj
  have hplaced := hp.turn hnew hreach hl hlinks
  rw [hp.dropClosed_eq hopen] at hplaced
  refine ⟨hplaced.abandon hnew ?_, ?_⟩
  · have hlt := (hh.placed.jobs job (List.mem_append_right _ hj)).1
    rwa [hlinks, Reactor.update, List.length_set]
  · intro id hid
    refine (tokens_abandon { h.vacate job with reactor := q } job.id).mem_iff.2 ?_
    rw [List.mem_cons]
    by_cases hne : id = job.id
    · exact Or.inl hne
    · refine Or.inr (mem_tokens_vacate hh.held hj hne ?_)
      rw [← hopen]
      exact hid

section Arrivals

variable {q : Reactor}

theorem Placed.add (hp : h.Placed settings) (hq : Reactor.Reachable settings q) {l : Link}
    (hlinks : q.links = h.reactor.links ++ [l]) : Placed settings { h with reactor := q } := by
  refine hp.extend hq ?_
  intro id m hm
  have hne : id ≠ h.reactor.links.length := by
    rintro rfl
    rw [Reactor.link?_length] at hm
    cases hm
  rw [Reactor.link?_append hlinks, Function.update_of_ne hne]
  exact hm

/-- A connection that is made comes into the hand of the kernel. -/
theorem Handed.admit (hh : h.Handed settings) (hq : Reactor.Reachable settings q) {d : Int}
    {bufferSize : Nat} (hlinks : q.links = h.reactor.links ++ [⟨d, .fresh bufferSize⟩]) :
    Handed settings ({ h with reactor := q }.arm ⟨d, .reading, h.reactor.links.length⟩) := by
  have hplaced := hh.placed.add hq hlinks
  have hfree : h.reactor.links.length ∉ { h with reactor := q }.tokens :=
    fun hmem => Nat.lt_irrefl _ (hh.placed.lt_length hmem)
  have hstands : q.Stands h.reactor.links.length d .reading := by
    refine ⟨⟨d, .fresh bufferSize⟩, ?_, rfl, rfl, Connection.waits_fresh bufferSize⟩
    rw [Reactor.link?_append hlinks, Function.update_self]
  refine ⟨hplaced.arm hfree hstands, ?_⟩
  intro id hopen
  rw [hplaced.tokens_arm (a := ⟨d, .reading, h.reactor.links.length⟩) hfree hstands]
  by_cases hne : id = h.reactor.links.length
  · exact List.mem_cons.2 (Or.inl hne)
  · have hopen : q.isOpen id = true := hopen
    rw [Reactor.isOpen_append hlinks, Function.update_of_ne hne] at hopen
    exact List.mem_cons_of_mem _ (hh.held id hopen)

/-- A connection that cannot be watched comes into no hand. -/
theorem Handed.refuse (hh : h.Handed settings) (hq : Reactor.Reachable settings q) {d : Int}
    {c : Connection} (hlinks : q.links = h.reactor.links ++ [⟨d, c⟩]) (hc : c.closed = true) :
    Handed settings { h with reactor := q } := by
  refine ⟨hh.placed.add hq hlinks, ?_⟩
  intro id hopen
  have hopen : q.isOpen id = true := hopen
  have hshut := Reactor.update_isOpen_eq_self
    (Reactor.isOpen_eq_false_of_none h.reactor.link?_length)
  simp only [Reactor.isOpen_append hlinks, hc, Bool.not_true, hshut] at hopen
  exact hh.held id hopen

end Arrivals

theorem handed_accept (hh : h.Handed settings) (now : Nat) {d : Int}
    (hfree : h.reactor.holds d = false) (registers : Bool) :
    (h.accept now d registers).2.Handed settings := by
  have hreach : Reactor.Reachable settings (h.reactor.accept now d registers).2 := by
    refine .step (.accept now d registers) hh.placed.reachable ?_
    rw [Reactor.step, hfree]
    rfl
  rw [Handoff.accept]
  by_cases hfull : h.reactor.isFull = true
  · have hq : h.reactor.accept now d registers = (.rejected, { h.reactor with
        stats := { h.reactor.stats with
          rejected := h.reactor.stats.rejected.increment 1 } }) := by
      rw [Reactor.accept, if_pos hfull]
    rw [hq] at hreach ⊢
    exact hh.of_links_eq hreach rfl
  · have hconnect : h.reactor.accept now d registers = h.reactor.connect now d registers := by
      rw [Reactor.accept, if_neg hfull]
    rw [hconnect] at hreach ⊢
    rcases h.reactor.connect_cases now d registers with ⟨-, hq⟩ | ⟨-, c, hc, hq⟩
    · rw [hq] at hreach ⊢
      exact hh.admit hreach rfl
    · rw [hq] at hreach ⊢
      exact hh.refuse hreach rfl hc

/-- Every step leaves an open connection in one hand. -/
theorem handed_step (hh : h.Handed settings) {s : Step} (hs : h.step s = some k) :
    k.Handed settings := by
  cases s with
  | accept now d registers =>
      obtain ⟨hfree, rfl⟩ := of_step_accept hs
      exact handed_accept hh now hfree registers
  | poll events => exact handed_report hh (of_poll hs).2
  | dispatch now => exact handed_dispatch hh hs
  | take => exact handed_take hh hs
  | complete files job conduct => exact handed_complete hh hs
  | unwind job conduct => exact handed_unwind hh hs
  | leave job =>
      obtain rfl := of_leave hs
      exact ⟨⟨hh.placed.reachable, hh.placed.nodup, hh.placed.armed, hh.placed.batch,
        hh.placed.jobs, hh.placed.abandoned⟩, hh.held⟩
  | expireNext now =>
      obtain ⟨hbatch, q, hq, rfl⟩ := of_expireNext hs
      refine hh.narrow (.step (.expireNext now) hh.placed.reachable hq)
        (Reactor.narrows_expireNext hq) ?_
      rw [hbatch]
      exact List.forall_mem_nil _
  | expire now =>
      obtain ⟨hbatch, rfl⟩ := of_expire hs
      refine hh.narrow (.step (.expire now) hh.placed.reachable rfl)
        (Reactor.narrows_expire _ now) ?_
      rw [hbatch]
      exact List.forall_mem_nil _
  | applyNext =>
      obtain ⟨q, hq, rfl⟩ := of_applyNext hs
      exact hh.of_links_eq (.step .applyNext hh.placed.reachable hq) (Reactor.links_applyNext hq)
  | applyClosed =>
      obtain rfl := of_applyClosed hs
      exact hh.of_links_eq (.step .applyClosed hh.placed.reachable rfl)
        (Reactor.links_applyClosed _)

theorem handed_of_reachable (hr : Reachable settings h) : h.Handed settings := by
  induction hr with
  | start => exact handed_fresh settings
  | step s _ hs ih => exact handed_step ih hs

end Steps

section Situations

/-- The watchings of a connection for a direction. -/
def watched (h : Handoff) (id : Nat) (d : Direction) : Nat :=
  h.armed.countP fun a => a.id == id && a.direction == d

end Situations

end Handoff

end HttpServer
