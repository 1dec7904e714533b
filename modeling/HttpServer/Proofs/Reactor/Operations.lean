import HttpServer.Proofs.Connection.Turns
import HttpServer.Proofs.Reactor.Links

/-!
# What the operations of a reactor come to

Closing a connection, making one, running a job and attending to an event have one lemma each for
what they can come to; the equations behind them say which parts of a reactor an operation leaves as
they are.

Expiring timers and attending to notices are taken apart into single ones. What a single one keeps,
all of them keep.
-/

namespace HttpServer

/-- The direction in which an event that is no hangup is attended to. -/
def Event.direction? (e : Event) : Option Direction :=
  if e.isReadable then some .reading else if e.isWritable then some .writing else none

namespace Reactor

variable {r q : Reactor} {id : Nat} {l : Link}

section Cases

/-- The connection after it was closed. -/
def shutLink (r : Reactor) (l : Link) : Connection := (l.connection.close r.stats).2.1

theorem closed_shutLink (r : Reactor) (l : Link) : (r.shutLink l).closed = true :=
  Connection.closed_close _ _

/-- The counters after a connection was closed. -/
def countClosed (r : Reactor) : Stats := { r.stats with live := r.stats.live.decrement 1 }

/-- Closing does nothing, or closes a connection that was open. -/
theorem closeLink_cases (r : Reactor) (id : Nat) (closer : Closer) :
    (r.isOpen id = false ∧ r.closeLink id closer = (false, r)) ∨
    ∃ l, r.link? id = some l ∧ l.connection.closed = false ∧
      r.closeLink id closer =
        (true, (r.update id l (r.shutLink l) r.countClosed).recordClosing id closer) := by
  rw [closeLink]
  cases hl : r.link? id with
  | none => exact Or.inl ⟨isOpen_eq_false_of_none hl, rfl⟩
  | some l =>
      cases hc : l.connection.closed with
      | true =>
          left
          refine ⟨by rw [isOpen_eq hl, hc]; rfl, ?_⟩
          simp only [Connection.close_of_closed hc, update_self hl]
          rfl
      | false =>
          right
          refine ⟨l, rfl, hc, ?_⟩
          simp only [Connection.close, hc, shutLink, countClosed]
          rfl

/-- Making a connection puts it into the books, or closes it if it cannot be watched. -/
theorem connect_cases (r : Reactor) (now : Nat) (d : Int) (registers : Bool) :
    (registers = true ∧ r.connect now d registers =
      (.admitted r.links.length, { r with
        links := r.links ++ [⟨d, .fresh r.settings.bufferSize⟩]
        table := (r.seat d r.links.length).table
        timers := (r.startTimer now r.links.length).timers
        stats := { r.stats with
          live := r.stats.live.increment 1
          accepted := r.stats.accepted.increment 1 } })) ∨
    (registers = false ∧ ∃ c, c.closed = true ∧ r.connect now d registers =
      (.failed, { r with
        links := r.links ++ [⟨d, c⟩]
        stats := { r.stats with live := (r.stats.live.increment 1).decrement 1 }
        closings := r.closings ++ [(r.links.length, .refusal)] })) := by
  cases registers with
  | true =>
      refine Or.inl ⟨rfl, ?_⟩
      simp only [connect, startTimer, if_true]
      cases r.settings.idleTimeout <;> rfl
  | false =>
      refine Or.inr ⟨rfl, ?_⟩
      have hlink : (r.links ++ [Link.mk d (Connection.fresh r.settings.bufferSize)])[
          r.links.length]? = some ⟨d, .fresh r.settings.bufferSize⟩ :=
        List.getElem?_concat_length
      have hset (l : Link) : (r.links ++ [Link.mk d (Connection.fresh r.settings.bufferSize)]).set
          r.links.length l = r.links ++ [l] := by
        rw [List.set_append_right _ _ (Nat.le_refl _), Nat.sub_self]
        rfl
      simp only [connect, closeLink, link?, Connection.establish, hlink]
      refine ⟨_, Connection.closed_close (.fresh r.settings.bufferSize)
        { r.stats with live := r.stats.live.increment 1 }, ?_⟩
      simp only [update, hset]
      rfl

/-- A job does nothing, leaves its connection open, or closes it and leaves a notice. -/
theorem perform_cases (r : Reactor) (files : FileTree) (job : Job) (conduct : Conduct) :
    (r.isOpen job.id = false ∧ (r.perform files job conduct).2 = r ∧
      (r.perform files job conduct).1.bind Connection.TaskEnd.armed = none) ∨
    ∃ l t, r.link? job.id = some l ∧ l.connection.closed = false ∧
      t = l.connection.task r.settings.site files job.direction conduct r.stats ∧
      (r.perform files job conduct).1 = some t ∧
      ((t.connection.closed = false ∧
          (r.perform files job conduct).2 = r.update job.id l t.connection t.stats) ∨
        (t.connection.closed = true ∧ (r.perform files job conduct).2 =
          ((r.update job.id l t.connection t.stats).recordClosing job.id .worker).notify job.id
            l.descriptor)) := by
  rw [perform]
  cases hl : r.link? job.id with
  | none => exact Or.inl ⟨isOpen_eq_false_of_none hl, rfl, rfl⟩
  | some l =>
      cases hc : l.connection.closed with
      | true =>
          left
          refine ⟨by rw [isOpen_eq hl, hc]; rfl, ?_⟩
          simp only [Connection.task_of_closed hc, Connection.TaskEnd.idle, update_self hl, hc]
          exact ⟨rfl, rfl⟩
      | false =>
          right
          refine ⟨l, _, rfl, hc, rfl, rfl, ?_⟩
          simp only [hc]
          cases (l.connection.task r.settings.site files job.direction conduct
            r.stats).connection.closed with
          | false => exact Or.inl ⟨rfl, rfl⟩
          | true => exact Or.inr ⟨rfl, rfl⟩

/-- A job whose handler panics changes its own connection alone, which was open and stays so. -/
theorem unwind_cases {job : Job} {conduct : Conduct} (h : r.unwind job conduct = some q) :
    ∃ l c, r.link? job.id = some l ∧ l.connection.closed = false ∧ c.closed = false ∧
      q = r.update job.id l c r.stats := by
  obtain ⟨l, hl, h⟩ := Option.bind_eq_some_iff.1 h
  obtain ⟨c, hc, rfl⟩ := Option.map_eq_some_iff.1 h
  obtain ⟨hopen, hstays, -⟩ := Connection.of_unwoundTask? hc
  exact ⟨l, c, hl, hopen, hstays, rfl⟩

/-- Nothing can be seen of a panic from the outside of its connection. -/
theorem isOpen_unwind {job : Job} {conduct : Conduct} (h : r.unwind job conduct = some q) :
    q.isOpen = r.isOpen ∧ q.descriptor? = r.descriptor? := by
  obtain ⟨l, c, hl, hopen, hstays, rfl⟩ := unwind_cases h
  refine ⟨?_, descriptor?_update hl c r.stats⟩
  rw [isOpen_update hl, hstays, ← hopen, ← isOpen_eq hl, Function.update_eq_self]

/-- A client that hangs up is out of the books before its connection is closed. -/
theorem hangUp_eq (h : r.link? id = some l) :
    r.hangUp id = ((r.applyOne ⟨id, l.descriptor⟩).closeLink id .reactor).2 := by
  rw [hangUp, h]
  rfl

/-- An event is passed over, closes the connection for its descriptor, or gives that one a job. -/
theorem dispatch_cases (r : Reactor) (now : Nat) (e : Event) :
    ((r.occupant? e.descriptor = none ∨ e.isHangup = false ∧ e.direction? = none) ∧
      r.dispatch now e = (none, r)) ∨
    ∃ id, r.occupant? e.descriptor = some id ∧
      ((e.isHangup = true ∧ r.dispatch now e = (none, r.hangUp id)) ∨
        ∃ d, e.isHangup = false ∧ e.direction? = some d ∧
          r.dispatch now e = (some ⟨id, d⟩, r.extendTimer now id)) := by
  rw [dispatch]
  cases ho : r.occupant? e.descriptor with
  | none => exact Or.inl ⟨Or.inl rfl, rfl⟩
  | some id =>
      simp only [Event.direction?]
      cases hh : e.isHangup with
      | true => exact Or.inr ⟨id, rfl, Or.inl ⟨rfl, rfl⟩⟩
      | false =>
          cases e.isReadable with
          | true => exact Or.inr ⟨id, rfl, Or.inr ⟨.reading, rfl, rfl, rfl⟩⟩
          | false =>
              cases e.isWritable with
              | true => exact Or.inr ⟨id, rfl, Or.inr ⟨.writing, rfl, rfl, rfl⟩⟩
              | false => exact Or.inl ⟨Or.inr ⟨rfl, rfl⟩, rfl⟩

end Cases

section Fields

/-- Closing touches the links, the counters and the account of closings. -/
theorem closeLink_eq (r : Reactor) (id : Nat) (closer : Closer) :
    (r.closeLink id closer).2 = { r with
      links := (r.closeLink id closer).2.links
      stats := (r.closeLink id closer).2.stats
      closings := (r.closeLink id closer).2.closings } := by
  rcases r.closeLink_cases id closer with ⟨-, hq⟩ | ⟨l, -, -, hq⟩
  · rw [hq]
  · rw [hq]
    rfl

@[simp] theorem settings_closeLink (r : Reactor) (id : Nat) (closer : Closer) :
    (r.closeLink id closer).2.settings = r.settings := by
  rw [closeLink_eq]

@[simp] theorem table_closeLink (r : Reactor) (id : Nat) (closer : Closer) :
    (r.closeLink id closer).2.table = r.table := by
  rw [closeLink_eq]

@[simp] theorem timers_closeLink (r : Reactor) (id : Nat) (closer : Closer) :
    (r.closeLink id closer).2.timers = r.timers := by
  rw [closeLink_eq]

@[simp] theorem notices_closeLink (r : Reactor) (id : Nat) (closer : Closer) :
    (r.closeLink id closer).2.notices = r.notices := by
  rw [closeLink_eq]

@[simp] theorem isOpen_closeLink (r : Reactor) (id : Nat) (closer : Closer) :
    (r.closeLink id closer).2.isOpen = Function.update r.isOpen id false := by
  rcases r.closeLink_cases id closer with ⟨hclosed, hq⟩ | ⟨l, hl, -, hq⟩
  · rw [hq, update_isOpen_eq_self hclosed]
  · rw [hq]
    have hopen := isOpen_update hl (r.shutLink l) r.countClosed
    rw [closed_shutLink, Bool.not_true] at hopen
    exact hopen

@[simp] theorem descriptor?_closeLink (r : Reactor) (id : Nat) (closer : Closer) :
    (r.closeLink id closer).2.descriptor? = r.descriptor? := by
  rcases r.closeLink_cases id closer with ⟨-, hq⟩ | ⟨l, hl, -, hq⟩
  · rw [hq]
  · rw [hq]
    exact descriptor?_update hl (r.shutLink l) r.countClosed

/-- A timer that expires closes its connection and leaves a notice. -/
theorem expireOne_eq (h : r.link? id = some l) :
    r.expireOne id = { (r.closeLink id .timer).2 with
      notices := r.notices ++ [⟨id, l.descriptor⟩]
      stats := (r.expireOne id).stats } := by
  have hnotices := r.notices_closeLink id .timer
  rw [expireOne, h]
  cases hdone : (r.closeLink id .timer).1 with
  | true => rw [← hnotices]; simp only [hdone]; rfl
  | false => rw [← hnotices]; simp only [hdone]; rfl

/-- Attending to a notice touches the table and the timers. -/
theorem applyOne_eq (r : Reactor) (n : ClosedNotice) :
    r.applyOne n = { r with
      table := (r.applyOne n).table
      timers := (r.dropTimer n.id).timers } := by
  rw [applyOne, forget_eq]
  rfl

@[simp] theorem settings_applyOne (r : Reactor) (n : ClosedNotice) :
    (r.applyOne n).settings = r.settings := by
  rw [applyOne_eq]

@[simp] theorem links_applyOne (r : Reactor) (n : ClosedNotice) :
    (r.applyOne n).links = r.links := by
  rw [applyOne_eq]

@[simp] theorem notices_applyOne (r : Reactor) (n : ClosedNotice) :
    (r.applyOne n).notices = r.notices := by
  rw [applyOne_eq]

@[simp] theorem timers_applyOne (r : Reactor) (n : ClosedNotice) :
    (r.applyOne n).timers = (r.dropTimer n.id).timers := by
  rw [applyOne_eq]

theorem occupant?_applyOne_eq_some_iff {n : ClosedNotice} {d : Int} :
    (r.applyOne n).occupant? d = some id ↔
      r.occupant? d = some id ∧ ¬(d = n.descriptor ∧ id = n.id) :=
  occupant?_forget_eq_some_iff

theorem nodup_rows_applyOne (h : (r.table.map Prod.fst).Nodup) (n : ClosedNotice) :
    ((r.applyOne n).table.map Prod.fst).Nodup :=
  nodup_rows_forget (r := r.dropTimer n.id) h n.id n.descriptor

end Fields

section Passes

/-- Closing does not look at the timers. -/
theorem closeLink_timers (r : Reactor) (t : TimerHeap Nat) (id : Nat) (closer : Closer) :
    ({ r with timers := t } : Reactor).closeLink id closer =
      ((r.closeLink id closer).1, { (r.closeLink id closer).2 with timers := t }) := by
  simp only [closeLink, link?]
  cases r.links[id]? with
  | none => rfl
  | some l =>
      cases hc : l.connection.closed with
      | true =>
          simp only [Connection.close_of_closed hc]
          rfl
      | false =>
          simp only [Connection.close, hc]
          rfl

theorem expireOne_timers (r : Reactor) (t : TimerHeap Nat) (id : Nat) :
    ({ r with timers := t } : Reactor).expireOne id = { r.expireOne id with timers := t } := by
  simp only [expireOne, closeLink_timers, link?]
  cases r.links[id]? with
  | none => rfl
  | some l => cases (r.closeLink id .timer).1 <;> rfl

theorem timers_expireOne (r : Reactor) (id : Nat) : (r.expireOne id).timers = r.timers := by
  have h : r.expireOne id = { r.expireOne id with timers := r.timers } :=
    expireOne_timers r r.timers id
  rw [h]

/-- The first timer expires, and then the others that are due. -/
theorem expire_of_expireNext {now : Nat} (h : r.expireNext now = some q) :
    (r.expire now).2 = (q.expire now).2 := by
  obtain ⟨⟨n, rest⟩, hpop, rfl⟩ := Option.map_eq_some_iff.1 h
  simp only [expire, TimerHeap.nextWait, TimerHeap.fireDue_of_popDue?_eq_some hpop,
    List.foldl_cons, expireOne_timers]

theorem expire_of_expireNext_eq_none {now : Nat} (h : r.expireNext now = none) :
    (r.expire now).2 = r := by
  have hpop := Option.map_eq_none_iff.1 h
  simp only [expire, TimerHeap.nextWait, TimerHeap.fireDue_of_popDue?_eq_none hpop,
    List.foldl_nil]

/-- What every single expiry keeps, all of them keep. -/
theorem expire_induction {P : Reactor → Prop} {now : Nat}
    (hstep : ∀ r q, P r → r.expireNext now = some q → P q) (h : P r) : P (r.expire now).2 := by
  induction hn : r.timers.size using Nat.strongRecOn generalizing r with
  | _ n ih =>
      cases hnext : r.expireNext now with
      | none =>
          rw [expire_of_expireNext_eq_none hnext]
          exact h
      | some q =>
          rw [expire_of_expireNext hnext]
          refine ih q.timers.size ?_ (hstep r q h hnext) rfl
          obtain ⟨⟨m, rest⟩, hpop, rfl⟩ := Option.map_eq_some_iff.1 hnext
          rw [timers_expireOne, ← hn]
          exact size_of_popDue? hpop

theorem applyOne_notices (r : Reactor) (ns : List ClosedNotice) (n : ClosedNotice) :
    ({ r with notices := ns } : Reactor).applyOne n = { r.applyOne n with notices := ns } := by
  have hcongr : ∀ s : Reactor, ({ s with notices := ns } : Reactor).forget n.id n.descriptor =
      { s.forget n.id n.descriptor with notices := ns } := by
    intro s
    rw [forget, forget]
    by_cases h : s.occupant? n.descriptor = some n.id
    · rw [if_pos h]
      exact if_pos h
    · rw [if_neg h]
      exact if_neg h
  exact hcongr (r.dropTimer n.id)

theorem applyClosed_of_cons {n : ClosedNotice} {ns : List ClosedNotice} (h : r.notices = n :: ns) :
    r.applyClosed = (({ r with notices := ns } : Reactor).applyOne n).applyClosed := by
  rw [applyClosed, applyClosed, h, List.foldl_cons, applyOne_notices r ns n,
    applyOne_notices r [] n]

theorem applyClosed_of_nil (h : r.notices = []) : r.applyClosed = r := by
  rw [applyClosed, h, List.foldl_nil, ← h]

/-- What attending to a single notice keeps, attending to all of them keeps. -/
theorem applyClosed_induction {P : Reactor → Prop}
    (hstep : ∀ r q, P r → r.applyNext = some q → P q) (h : P r) :
    P r.applyClosed ∧ r.applyClosed.notices = [] := by
  induction hn : r.notices generalizing r with
  | nil =>
      rw [applyClosed_of_nil hn]
      exact ⟨h, hn⟩
  | cons n ns ih =>
      rw [applyClosed_of_cons hn]
      apply ih
      · apply hstep r _ h
        rw [applyNext, hn]
      · rw [applyOne_notices]

end Passes

section Settings

theorem settings_connect (r : Reactor) (now : Nat) (d : Int) (registers : Bool) :
    (r.connect now d registers).2.settings = r.settings := by
  rcases r.connect_cases now d registers with ⟨-, hq⟩ | ⟨-, c, -, hq⟩
  · rw [hq]
  · rw [hq]

theorem settings_accept (r : Reactor) (now : Nat) (d : Int) (registers : Bool) :
    (r.accept now d registers).2.settings = r.settings := by
  rw [accept]
  split
  · rfl
  · exact settings_connect r now d registers

theorem settings_extendTimer (r : Reactor) (now id : Nat) :
    (r.extendTimer now id).settings = r.settings := by
  rw [extendTimer]
  split <;> rfl

theorem settings_hangUp (r : Reactor) (id : Nat) : (r.hangUp id).settings = r.settings := by
  cases h : r.link? id with
  | none => rw [hangUp, h]
  | some l => rw [hangUp_eq h, settings_closeLink, settings_applyOne]

theorem settings_dispatch (r : Reactor) (now : Nat) (e : Event) :
    (r.dispatch now e).2.settings = r.settings := by
  rcases r.dispatch_cases now e with ⟨-, hq⟩ | ⟨id, -, ⟨-, hq⟩ | ⟨d, -, -, hq⟩⟩
  · rw [hq]
  · rw [hq]
    exact settings_hangUp r id
  · rw [hq]
    exact settings_extendTimer r now id

theorem settings_perform (r : Reactor) (files : FileTree) (job : Job) (conduct : Conduct) :
    (r.perform files job conduct).2.settings = r.settings := by
  rcases r.perform_cases files job conduct with ⟨-, hq, -⟩ | ⟨l, t, -, -, -, -, ⟨-, hq⟩ | ⟨-, hq⟩⟩
  · rw [hq]
  · rw [hq]
    rfl
  · rw [hq]
    rfl

theorem settings_unwind {job : Job} {conduct : Conduct} (h : r.unwind job conduct = some q) :
    q.settings = r.settings := by
  obtain ⟨l, c, -, -, -, rfl⟩ := unwind_cases h
  rfl

theorem settings_expireOne (r : Reactor) (id : Nat) :
    (r.expireOne id).settings = r.settings := by
  cases h : r.link? id with
  | none => rw [expireOne, h]
  | some l =>
      rw [expireOne_eq h]
      exact settings_closeLink r id .timer

theorem settings_expireNext {now : Nat} (h : r.expireNext now = some q) :
    q.settings = r.settings := by
  obtain ⟨⟨n, rest⟩, -, rfl⟩ := Option.map_eq_some_iff.1 h
  exact settings_expireOne { r with timers := rest } n.action

theorem settings_applyNext (h : r.applyNext = some q) : q.settings = r.settings := by
  rw [applyNext] at h
  split at h
  · cases h
  · cases h
    exact settings_applyOne _ _

/-- No step changes the settings. -/
theorem settings_step {s : Step} (h : r.step s = some q) : q.settings = r.settings := by
  cases s with
  | accept now d registers =>
      rw [step] at h
      split at h
      · cases h
      · cases h
        exact settings_accept r now d registers
  | dispatch now e =>
      cases h
      exact settings_dispatch r now e
  | perform files job conduct =>
      cases h
      exact settings_perform r files job conduct
  | unwind job conduct => exact settings_unwind h
  | expireNext now => exact settings_expireNext h
  | expire now =>
      cases h
      exact expire_induction (P := fun p => p.settings = r.settings)
        (fun _ _ hp hs => (settings_expireNext hs).trans hp) rfl
  | applyNext => exact settings_applyNext h
  | applyClosed =>
      cases h
      exact (applyClosed_induction (P := fun p => p.settings = r.settings)
        (fun _ _ hp hs => (settings_applyNext hs).trans hp) rfl).1

theorem settings_of_reachable {settings : ReactorSettings} (h : Reachable settings r) :
    r.settings = settings := by
  induction h with
  | start => rfl
  | step s _ hs ih => rw [settings_step hs, ih]

end Settings

section Narrows

/-- No connection was made, and those that are open are as they were. -/
structure Narrows (r q : Reactor) : Prop where
  length_eq : q.links.length = r.links.length
  link?_eq : ∀ id l, q.link? id = some l → l.connection.closed = false → r.link? id = some l

theorem Narrows.refl (r : Reactor) : Narrows r r :=
  ⟨rfl, fun _ _ hl _ => hl⟩

theorem Narrows.trans {p : Reactor} (h : Narrows p r) (h' : Narrows r q) : Narrows p q :=
  ⟨h'.length_eq.trans h.length_eq, fun id l hl hc => h.link?_eq id l (h'.link?_eq id l hl hc) hc⟩

/-- A connection is as it was, or closed. -/
theorem Narrows.link?_eq_or (h : Narrows r q) (id : Nat) :
    q.link? id = r.link? id ∨ q.isOpen id = false := by
  cases hopen : q.isOpen id with
  | false => exact Or.inr rfl
  | true =>
      obtain ⟨l, hl, hc⟩ := isOpen_eq_true_iff.1 hopen
      exact Or.inl (hl.trans (h.link?_eq id l hl hc).symm)

theorem narrows_of_links_eq (h : q.links = r.links) : Narrows r q := by
  refine ⟨congrArg List.length h, ?_⟩
  intro id l hl _
  rw [link?, ← h]
  exact hl

theorem narrows_closeLink (r : Reactor) (id : Nat) (closer : Closer) :
    Narrows r (r.closeLink id closer).2 := by
  rcases r.closeLink_cases id closer with ⟨-, hq⟩ | ⟨l, hl, -, hq⟩
  · rw [hq]
    exact .refl r
  · rw [hq]
    refine ⟨List.length_set .., ?_⟩
    intro x m hm hc
    have hlink := link?_update hl (r.shutLink l) r.countClosed
    by_cases hx : x = id
    · have hm : (r.update id l (r.shutLink l) r.countClosed).link? x = some m := hm
      rw [hlink, hx, Function.update_self] at hm
      obtain rfl := Option.some.inj hm
      rw [closed_shutLink] at hc
      cases hc
    · have hm : (r.update id l (r.shutLink l) r.countClosed).link? x = some m := hm
      rw [hlink, Function.update_of_ne hx] at hm
      exact hm

theorem narrows_hangUp (r : Reactor) (id : Nat) : Narrows r (r.hangUp id) := by
  cases hl : r.link? id with
  | none =>
      rw [hangUp, hl]
      exact .refl r
  | some l =>
      rw [hangUp_eq hl]
      exact (narrows_of_links_eq (links_applyOne r _)).trans (narrows_closeLink _ id .reactor)

theorem isOpen_hangUp (r : Reactor) (id : Nat) :
    (r.hangUp id).isOpen = Function.update r.isOpen id false := by
  cases hl : r.link? id with
  | none =>
      rw [hangUp, hl]
      exact (update_isOpen_eq_self (isOpen_eq_false_of_none hl)).symm
  | some l => rw [hangUp_eq hl, isOpen_closeLink, isOpen_of_links_eq (links_applyOne _ _)]

theorem narrows_expireNext {now : Nat} (h : r.expireNext now = some q) : Narrows r q := by
  obtain ⟨⟨n, rest⟩, -, rfl⟩ := Option.map_eq_some_iff.1 h
  simp only [expireOne_timers]
  cases hl : r.link? n.action with
  | none =>
      rw [expireOne, hl]
      exact narrows_of_links_eq rfl
  | some l =>
      rw [expireOne_eq hl]
      exact (narrows_closeLink r n.action .timer).trans (narrows_of_links_eq rfl)

theorem narrows_expire (r : Reactor) (now : Nat) : Narrows r (r.expire now).2 :=
  expire_induction (P := Narrows r) (fun _ _ h hs => h.trans (narrows_expireNext hs)) (.refl r)

theorem links_applyNext (h : r.applyNext = some q) : q.links = r.links := by
  rw [applyNext] at h
  split at h
  · cases h
  · cases h
    exact links_applyOne _ _

theorem links_applyClosed (r : Reactor) : r.applyClosed.links = r.links :=
  (applyClosed_induction (P := fun p => p.links = r.links)
    (fun _ _ hp hs => (links_applyNext hs).trans hp) rfl).1

theorem links_extendTimer (r : Reactor) (now id : Nat) :
    (r.extendTimer now id).links = r.links := by
  rw [extendTimer]
  split <;> rfl

end Narrows

section Others

/-! Hanging up and running a job leave all connections but their own as they are. -/

variable {x : Nat}

theorem link?_update_of_ne (h : r.link? id = some l) (hx : x ≠ id) (c : Connection)
    (stats : Stats) : (r.update id l c stats).link? x = r.link? x := by
  rw [link?_update h, Function.update_of_ne hx]

theorem link?_hangUp_of_ne (r : Reactor) (hx : x ≠ id) : (r.hangUp id).link? x = r.link? x := by
  cases hl : r.link? id with
  | none => rw [hangUp, hl]
  | some l =>
      have hbooks : (r.applyOne ⟨id, l.descriptor⟩).link? = r.link? := by
        funext y
        rw [link?, link?, links_applyOne]
      rw [hangUp_eq hl, ← hbooks]
      generalize r.applyOne ⟨id, l.descriptor⟩ = p
      rcases p.closeLink_cases id .reactor with ⟨-, hq⟩ | ⟨m, hm, -, hq⟩
      · rw [hq]
      · rw [hq]
        exact link?_update_of_ne hm hx (p.shutLink m) p.countClosed

theorem link?_perform_of_ne (r : Reactor) (files : FileTree) {job : Job} (conduct : Conduct)
    (hx : x ≠ job.id) : (r.perform files job conduct).2.link? x = r.link? x := by
  rcases r.perform_cases files job conduct with
    ⟨-, hq, -⟩ | ⟨l, t, hl, -, -, -, ⟨-, hq⟩ | ⟨-, hq⟩⟩
  · rw [hq]
  · rw [hq, link?_update_of_ne hl hx]
  · rw [hq]
    exact link?_update_of_ne hl hx t.connection t.stats

theorem link?_unwind_of_ne {job : Job} {conduct : Conduct} (h : r.unwind job conduct = some q)
    (hx : x ≠ job.id) : q.link? x = r.link? x := by
  obtain ⟨l, c, hl, -, -, rfl⟩ := unwind_cases h
  exact link?_update_of_ne hl hx c r.stats

end Others

end Reactor

end HttpServer
