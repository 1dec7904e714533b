import HttpServer.Proofs.Reactor.Upkeep

/-!
# Connections that are idle

The timer of an open connection is due when the idle time has passed since its last activity. It is
set when the connection is made and moved at each event that gives the connection a job; whatever
else happens closes connections, and leaves the timers of those that stay open where they are
(`KeepsTimers`).

So the timers that are due belong to connections that have been idle for long enough, or to closed
ones of which the notice is still unread. The first are closed and counted as timed out (`Swept`),
the others only leave another notice.
-/

namespace HttpServer

namespace Reactor

variable {r p q : Reactor} {id : Nat} {activity : Nat → Nat} {idle : Nat}

section KeepsTimers

/-- What is open was open before, and has the same timer. -/
def KeepsTimers (r q : Reactor) : Prop :=
  ∀ id, q.isOpen id = true → r.isOpen id = true ∧ q.timers.find? id = r.timers.find? id

theorem KeepsTimers.refl (r : Reactor) : r.KeepsTimers r :=
  fun _ hid => ⟨hid, rfl⟩

theorem KeepsTimers.trans (h : p.KeepsTimers r) (h' : r.KeepsTimers q) : p.KeepsTimers q := by
  intro id hid
  obtain ⟨hr, htimer⟩ := h' id hid
  obtain ⟨hp, htimer'⟩ := h id hr
  exact ⟨hp, htimer.trans htimer'⟩

/-- A connection is shut, and perhaps its timer dropped. -/
theorem keepsTimers_of_shut (hopen : q.isOpen = Function.update r.isOpen id false)
    (htimers : ∀ x, x ≠ id → q.timers.find? x = r.timers.find? x) : r.KeepsTimers q := by
  intro x hx
  obtain ⟨hne, hr⟩ := isOpen_of_shut hopen hx
  exact ⟨hr, htimers x hne⟩

theorem isOpen_expireOne {l : Link} (hl : r.link? id = some l) :
    (r.expireOne id).isOpen = Function.update r.isOpen id false := by
  rw [expireOne_eq hl]
  exact isOpen_closeLink r id .timer

theorem keepsTimers_hangUp (h : r.Kept) (id : Nat) : r.KeepsTimers (r.hangUp id) := by
  apply keepsTimers_of_shut (isOpen_hangUp r id)
  intro x hx
  cases hl : r.link? id with
  | none => rw [hangUp, hl]
  | some l =>
      rw [hangUp_eq hl, timers_closeLink, timers_applyOne, (dropTimer_find? h.consistent id).2,
        Function.update_of_ne hx]

theorem keepsTimers_perform (r : Reactor) (files : FileTree) (job : Job) (conduct : Conduct) :
    r.KeepsTimers (r.perform files job conduct).2 := by
  rcases r.perform_cases files job conduct with
    ⟨-, hq, -⟩ | ⟨l, t, hl, hc, -, -, ⟨hopen, hq⟩ | ⟨hclosed, hq⟩⟩
  · rw [hq]
    exact .refl r
  · have hisOpen := isOpen_update hl t.connection t.stats
    rw [hopen, ← hc, ← isOpen_eq hl, Function.update_eq_self] at hisOpen
    rw [hq]
    exact fun x hx => ⟨hisOpen ▸ hx, rfl⟩
  · have hisOpen := isOpen_update hl t.connection t.stats
    rw [hclosed] at hisOpen
    rw [hq]
    exact keepsTimers_of_shut hisOpen fun _ _ => rfl

theorem keepsTimers_unwind {job : Job} {conduct : Conduct} (h : r.unwind job conduct = some q) :
    r.KeepsTimers q := by
  obtain ⟨hopen, -⟩ := isOpen_unwind h
  obtain ⟨l, c, -, -, -, rfl⟩ := unwind_cases h
  exact fun x hx => ⟨hopen ▸ hx, rfl⟩

theorem keepsTimers_expireNext (h : r.Kept) {now : Nat} (hq : r.expireNext now = some q) :
    r.KeepsTimers q := by
  obtain ⟨⟨n, rest⟩, hpop, rfl⟩ := Option.map_eq_some_iff.1 hq
  obtain ⟨-, hfind, -, htimers⟩ := popDue?_find? h.consistent hpop
  obtain ⟨haction, d, hd, -⟩ := h.timer n.id n hfind
  obtain ⟨l, hl, -⟩ := descriptor?_eq_some_iff.1 hd
  simp only [haction, expireOne_timers]
  refine keepsTimers_of_shut (isOpen_expireOne hl) ?_
  intro x hx
  change rest.find? x = r.timers.find? x
  rw [htimers, Function.update_of_ne hx]

theorem keepsTimers_applyNext (h : r.Kept) (hq : r.applyNext = some q) : r.KeepsTimers q := by
  have hopen := isOpen_of_links_eq (links_applyNext hq)
  rw [applyNext] at hq
  cases hn : r.notices with
  | nil =>
      rw [hn] at hq
      cases hq
  | cons n rest =>
      rw [hn] at hq
      obtain rfl := Option.some.inj hq
      -- a notice speaks of a connection that is closed
      obtain ⟨hclosed, -⟩ := h.notice n (hn ▸ List.mem_cons_self)
      rw [← update_isOpen_eq_self hclosed] at hopen
      apply keepsTimers_of_shut hopen
      intro x hx
      rw [applyOne_notices]
      change (r.applyOne n).timers.find? x = r.timers.find? x
      rw [timers_applyOne, (dropTimer_find? h.consistent n.id).2, Function.update_of_ne hx]

theorem keepsTimers_expire (h : r.Kept) (now : Nat) : r.KeepsTimers (r.expire now).2 :=
  (expire_induction (P := fun p => p.Kept ∧ r.KeepsTimers p)
    (fun _ _ hp hs => ⟨kept_expireNext hp.1 hs, hp.2.trans (keepsTimers_expireNext hp.1 hs)⟩)
    ⟨h, .refl r⟩).2

theorem keepsTimers_applyClosed (h : r.Kept) : r.KeepsTimers r.applyClosed :=
  (applyClosed_induction (P := fun p => p.Kept ∧ r.KeepsTimers p)
    (fun _ _ hp hs => ⟨kept_applyNext hp.1 hs, hp.2.trans (keepsTimers_applyNext hp.1 hs)⟩)
    ⟨h, .refl r⟩).1.2

end KeepsTimers

section Punctual

/-- The timer of every open connection is due at the end of the idle time after its last
activity. -/
def Punctual (r : Reactor) (idle : Nat) (activity : Nat → Nat) : Prop :=
  ∀ id, r.isOpen id = true → r.timers.deadline? id = some (activity id + idle)

theorem Punctual.of_keepsTimers (h : r.Punctual idle activity) (hkeeps : r.KeepsTimers q) :
    q.Punctual idle activity := by
  intro id hid
  obtain ⟨hr, htimer⟩ := hkeeps id hid
  rw [← h id hr, TimerHeap.deadline?, TimerHeap.deadline?, htimer]

theorem activityAfter_of_none {s : Step} (h : r.active? s = none) (activity : Nat → Nat)
    (now : Nat) : r.activityAfter activity now s = activity := by
  funext id
  rw [activityAfter, h]
  exact if_neg nofun

theorem activityAfter_of_some {s : Step} (h : r.active? s = some id) (activity : Nat → Nat)
    (now : Nat) : r.activityAfter activity now s = Function.update activity id now := by
  funext x
  rw [activityAfter, h, Function.update_apply]
  exact if_congr ⟨fun hx => (Option.some.inj hx).symm, congrArg some ∘ Eq.symm⟩ rfl rfl

theorem isSome_direction? (e : Event) :
    e.direction?.isSome = (e.isReadable || e.isWritable) := by
  rw [Event.direction?]
  cases e.isReadable <;> cases e.isWritable <;> rfl

/-- The connection for which an event is an activity is the one that gets a job. -/
theorem active?_dispatch (r : Reactor) (now : Nat) (e : Event) :
    r.active? (.dispatch now e) =
      if e.isHangup = false ∧ e.direction?.isSome = true then r.occupant? e.descriptor
      else none := by
  rw [active?, ← isSome_direction?]
  cases e.isHangup <;> simp

theorem punctual_extendTimer (h : r.Punctual idle activity) (hk : r.Kept)
    (hidle : r.settings.idleTimeout = some idle) (now id : Nat) :
    (r.extendTimer now id).Punctual idle (Function.update activity id now) := by
  intro x hx
  rw [isOpen_of_links_eq (links_extendTimer r now id)] at hx
  obtain ⟨-, -, hfind⟩ := hk.consistent.adjustTo id (now + idle)
  have hdeadline := h x hx
  rw [extendTimer, hidle]
  change ((r.timers.adjustTo id (now + idle)).2.find? x).map Timer.deadline = _
  rw [hfind]
  by_cases hxid : x = id
  · subst hxid
    obtain ⟨n, hn, -⟩ := Option.map_eq_some_iff.1 hdeadline
    rw [Function.update_self, Function.update_self, hn]
    rfl
  · rw [Function.update_of_ne hxid, Function.update_of_ne hxid]
    exact hdeadline

theorem punctual_dispatch (h : r.Punctual idle activity) (hk : r.Kept)
    (hidle : r.settings.idleTimeout = some idle) (now : Nat) (e : Event) :
    (r.dispatch now e).2.Punctual idle
      (r.activityAfter activity now (.dispatch now e)) := by
  have hactive := active?_dispatch r now e
  rcases r.dispatch_cases now e with ⟨hpassed, hq⟩ | ⟨id, ho, ⟨hh, hq⟩ | ⟨d, hh, hd, hq⟩⟩
  · rw [activityAfter_of_none, hq]
    · exact h
    · rcases hpassed with ho | ⟨-, hd⟩
      · rw [hactive, ho, ite_self]
      · rw [hactive, hd]
        exact if_neg fun hboth => Bool.false_ne_true hboth.2
  · rw [activityAfter_of_none, hq]
    · exact h.of_keepsTimers (keepsTimers_hangUp hk id)
    · rw [hactive, hh]
      exact if_neg fun hboth => Bool.false_ne_true hboth.1.symm
  · have hreached : r.active? (.dispatch now e) = some id := by
      rw [hactive, hh, hd, ho]
      rfl
    rw [activityAfter_of_some hreached, hq]
    exact punctual_extendTimer h hk hidle now id

theorem punctual_accept (h : r.Punctual idle activity) (hk : r.Kept)
    (hidle : r.settings.idleTimeout = some idle) (now : Nat) (d : Int) (registers : Bool) :
    (r.accept now d registers).2.Punctual idle
      (r.activityAfter activity now (.accept now d registers)) := by
  rw [accept]
  split
  · rename_i hfull
    rw [activityAfter_of_none]
    · exact h
    · rw [active?, hfull]
      rfl
  rename_i hroom
  rw [Bool.not_eq_true] at hroom
  rcases r.connect_cases now d registers with ⟨hregisters, hq⟩ | ⟨hregisters, c, hc, hq⟩
  · obtain ⟨-, hfind⟩ :=
      hk.consistent.scheduleAt r.links.length (now + idle) r.links.length
    have hadmitted : r.active? (.accept now d registers) = some r.links.length := by
      rw [active?, hregisters, hroom]
      rfl
    rw [activityAfter_of_some hadmitted, hq]
    intro x hx
    rw [isOpen_append (r := r) rfl] at hx
    simp only [startTimer, hidle]
    rw [TimerHeap.deadline?, TimerHeap.schedule, hfind]
    by_cases hxn : x = r.links.length
    · rw [hxn, Function.update_self, Function.update_self]
      rfl
    · rw [Function.update_of_ne hxn] at hx
      rw [Function.update_of_ne hxn, Function.update_of_ne hxn]
      exact h x hx
  · rw [activityAfter_of_none, hq]
    · intro x hx
      -- the connection that could not be watched is closed already
      rw [isOpen_append (r := r) rfl] at hx
      simp only [hc, Bool.not_true] at hx
      rw [update_isOpen_eq_self (isOpen_eq_false_of_none r.link?_length)] at hx
      exact h x hx
    · rw [active?, hregisters, Bool.and_false]
      rfl

/-- Every step keeps the timers in time with the activity. -/
theorem punctual_step (h : r.Punctual idle activity) (hk : r.Kept)
    (hidle : r.settings.idleTimeout = some idle) {now : Nat} {s : Step} (hs : r.step s = some q) :
    q.Punctual idle (r.activityAfter activity (s.time?.getD now) s) := by
  cases s with
  | accept t d registers =>
      rw [step] at hs
      split at hs
      · cases hs
      · cases hs
        exact punctual_accept h hk hidle t d registers
  | dispatch t e =>
      cases hs
      exact punctual_dispatch h hk hidle t e
  | perform files job conduct =>
      cases hs
      rw [activityAfter_of_none rfl]
      exact h.of_keepsTimers (keepsTimers_perform r files job conduct)
  | unwind job conduct =>
      rw [activityAfter_of_none rfl]
      exact h.of_keepsTimers (keepsTimers_unwind hs)
  | expireNext t =>
      rw [activityAfter_of_none rfl]
      exact h.of_keepsTimers (keepsTimers_expireNext hk hs)
  | expire t =>
      cases hs
      rw [activityAfter_of_none rfl]
      exact h.of_keepsTimers (keepsTimers_expire hk t)
  | applyNext =>
      rw [activityAfter_of_none rfl]
      exact h.of_keepsTimers (keepsTimers_applyNext hk hs)
  | applyClosed =>
      cases hs
      rw [activityAfter_of_none rfl]
      exact h.of_keepsTimers (keepsTimers_applyClosed hk)

theorem punctual_of_timed {settings : ReactorSettings} {now : Nat}
    (hidle : settings.idleTimeout = some idle) (h : Timed settings now activity r) :
    r.Punctual idle activity := by
  induction h with
  | start =>
      intro id hid
      cases hid
  | step s hr _ hs ih =>
      have hsettings := settings_of_reachable hr.reachable
      exact punctual_step ih (kept_of_reachable hr.reachable) (hsettings ▸ hidle) hs

end Punctual

section Swept

/-- The connections of a list were open, and were closed and counted as timed out, each of them once.
No other connection was touched. -/
structure Swept (r q : Reactor) (ids : List Nat) : Prop where
  nodup : ids.Nodup
  was_open : ∀ id ∈ ids, r.isOpen id = true
  now_closed : ∀ id ∈ ids, q.isOpen id = false
  link?_eq : ∀ id, id ∉ ids → q.link? id = r.link? id
  closings_eq : q.closings = r.closings ++ ids.map fun id => (id, Closer.timer)
  timeouts_eq : q.stats.timeouts.value = r.stats.timeouts.value + UInt64.ofNat ids.length

theorem isOpen_congr (h : q.link? id = r.link? id) : q.isOpen id = r.isOpen id := by
  rw [isOpen, isOpen, h]

theorem Swept.refl (r : Reactor) : r.Swept r [] := by
  refine ⟨List.nodup_nil, nofun, nofun, fun _ _ => rfl, ?_, ?_⟩
  · rw [List.map_nil, List.append_nil]
  · exact (UInt64.add_zero _).symm

/-- What is closed stays closed. -/
theorem Swept.isOpen_of (h : r.Swept q ids) (hid : q.isOpen id = true) : r.isOpen id = true := by
  by_cases hmem : id ∈ ids
  · exact h.was_open id hmem
  · rw [← isOpen_congr (h.link?_eq id hmem)]
    exact hid

theorem Swept.trans {ids ids' : List Nat} (h : p.Swept r ids) (h' : r.Swept q ids') :
    p.Swept q (ids ++ ids') := by
  refine ⟨?_, ?_, ?_, ?_, ?_, ?_⟩
  · refine List.nodup_append.2 ⟨h.nodup, h'.nodup, ?_⟩
    rintro id hid _ hid' rfl
    have hclosed := h.now_closed id hid
    rw [h'.was_open id hid'] at hclosed
    cases hclosed
  · intro id hid
    rcases List.mem_append.1 hid with hid | hid
    · exact h.was_open id hid
    · exact h.isOpen_of (h'.was_open id hid)
  · intro id hid
    rcases List.mem_append.1 hid with hid | hid
    · rw [← Bool.not_eq_true]
      intro hopen
      have hclosed := h.now_closed id hid
      rw [h'.isOpen_of hopen] at hclosed
      cases hclosed
    · exact h'.now_closed id hid
  · intro id hid
    rw [List.mem_append, not_or] at hid
    rw [h'.link?_eq id hid.2, h.link?_eq id hid.1]
  · rw [h'.closings_eq, h.closings_eq, List.append_assoc, ← List.map_append]
  · rw [h'.timeouts_eq, h.timeouts_eq, List.length_append, UInt64.ofNat_add, UInt64.add_assoc]

/-- A timer that expires closes its connection if that is open, and otherwise counts nothing. -/
theorem swept_expireOne (r : Reactor) {l : Link} (hl : r.link? id = some l) :
    (r.isOpen id = true ∧ r.Swept (r.expireOne id) [id]) ∨
      (r.isOpen id = false ∧ r.Swept (r.expireOne id) []) := by
  rcases r.closeLink_cases id .timer with ⟨hclosed, hq⟩ | ⟨m, hm, hc, hq⟩
  · right
    refine ⟨hclosed, ?_⟩
    rw [expireOne, hl]
    simp only [hq]
    have hswept := Swept.refl r
    exact ⟨hswept.nodup, List.forall_mem_nil _, List.forall_mem_nil _, fun _ _ => rfl,
      hswept.closings_eq, hswept.timeouts_eq⟩
  · left
    refine ⟨isOpen_eq_true_iff.2 ⟨m, hm, hc⟩, List.nodup_singleton id, ?_, ?_, ?_, ?_, ?_⟩
    · intro x hx
      rw [List.mem_singleton.1 hx]
      exact isOpen_eq_true_iff.2 ⟨m, hm, hc⟩
    · intro x hx
      rw [List.mem_singleton.1 hx, isOpen_expireOne hl, Function.update_self]
    · intro x hx
      rw [expireOne, hl]
      simp only [hq]
      change (r.update id m (r.shutLink m) r.countClosed).link? x = r.link? x
      rw [link?_update hm, Function.update_of_ne (fun h => hx (List.mem_singleton.2 h))]
    · rw [expireOne, hl]
      simp only [hq]
      rfl
    · rw [expireOne, hl]
      simp only [hq]
      rfl

/-- The first timer that is due expires. -/
theorem swept_expireNext (h : r.Kept) {now : Nat} (hq : r.expireNext now = some q) :
    ∃ n, r.timers.find? n.id = some n ∧ n.deadline ≤ now ∧
      ((r.isOpen n.id = true ∧ r.Swept q [n.id]) ∨ (r.isOpen n.id = false ∧ r.Swept q [])) := by
  obtain ⟨⟨n, rest⟩, hpop, rfl⟩ := Option.map_eq_some_iff.1 hq
  obtain ⟨hdue, hfind, -, -⟩ := popDue?_find? h.consistent hpop
  obtain ⟨haction, d, hd, -⟩ := h.timer n.id n hfind
  obtain ⟨l, hl, -⟩ := descriptor?_eq_some_iff.1 hd
  refine ⟨n, hfind, hdue, ?_⟩
  simp only [haction, expireOne_timers]
  -- the timers do not matter for what was swept
  rcases swept_expireOne r hl with ⟨hopen, hs⟩ | ⟨hclosed, hs⟩
  · exact Or.inl ⟨hopen, hs.nodup, hs.was_open, hs.now_closed, hs.link?_eq, hs.closings_eq,
      hs.timeouts_eq⟩
  · exact Or.inr ⟨hclosed, hs.nodup, hs.was_open, hs.now_closed, hs.link?_eq, hs.closings_eq,
      hs.timeouts_eq⟩

/-- A connection that is closed by its timer was due. -/
theorem swept_expire (h : r.Kept) (now : Nat) :
    ∃ ids, r.Swept (r.expire now).2 ids ∧
      ∀ id ∈ ids, ∃ d, r.timers.deadline? id = some d ∧ d ≤ now := by
  refine (expire_induction (P := fun p => p.Kept ∧ r.KeepsTimers p ∧ ∃ ids, r.Swept p ids ∧
    ∀ id ∈ ids, ∃ d, r.timers.deadline? id = some d ∧ d ≤ now) ?_
    ⟨h, .refl r, [], .refl r, nofun⟩).2.2
  rintro p q ⟨hp, hkeeps, ids, hswept, hdue⟩ hq
  refine ⟨kept_expireNext hp hq, hkeeps.trans (keepsTimers_expireNext hp hq), ?_⟩
  obtain ⟨n, hfind, hn, ⟨hopen, hs⟩ | ⟨-, hs⟩⟩ := swept_expireNext hp hq
  · refine ⟨ids ++ [n.id], hswept.trans hs, ?_⟩
    intro id hid
    rcases List.mem_append.1 hid with hid | hid
    · exact hdue id hid
    · rw [List.mem_singleton.1 hid]
      rw [(hkeeps n.id hopen).2] at hfind
      exact ⟨n.deadline, congrArg (Option.map Timer.deadline) hfind, hn⟩
  · refine ⟨ids, ?_, hdue⟩
    rw [← List.append_nil ids]
    exact hswept.trans hs

theorem timers_expire (r : Reactor) (now : Nat) :
    (r.expire now).2.timers = (r.timers.fireDue now).2 := by
  have hfold (ns : List (Timer Nat)) (p : Reactor) :
      (ns.foldl (fun r n => r.expireOne n.action) p).timers = p.timers := by
    induction ns generalizing p with
    | nil => rfl
    | cons n ns ih => rw [List.foldl_cons, ih, timers_expireOne]
  exact hfold _ _

/-- No timer that is left is due. -/
theorem lt_deadline_of_expire (h : r.Kept) {now d : Nat}
    (hd : (r.expire now).2.timers.deadline? id = some d) : now < d := by
  have hfired := h.consistent.fireDue now
  rw [timers_expire] at hd
  obtain ⟨n, hfind, rfl⟩ := Option.map_eq_some_iff.1 hd
  exact hfired.later n (hfired.consistent.indexed.find?_eq_some_iff.1 hfind).1

/-- As long as a timer is due one expires. -/
theorem lt_deadline_of_expireNext (h : r.Kept) {now d : Nat} (hnone : r.expireNext now = none)
    (hd : r.timers.deadline? id = some d) : now < d := by
  rw [← expire_of_expireNext_eq_none hnone] at hd
  exact lt_deadline_of_expire h hd

end Swept

section Idle

/-- A connection is open, and has been idle for long enough at a time. -/
def Overdue (r : Reactor) (idle : Nat) (activity : Nat → Nat) (now id : Nat) : Prop :=
  r.isOpen id = true ∧ activity id + idle ≤ now

theorem Punctual.overdue_iff (h : r.Punctual idle activity) (hopen : r.isOpen id = true)
    {now : Nat} : r.Overdue idle activity now id ↔
      ∃ d, r.timers.deadline? id = some d ∧ d ≤ now := by
  rw [h id hopen]
  constructor
  · rintro ⟨-, hdue⟩
    exact ⟨_, rfl, hdue⟩
  · rintro ⟨d, hd, hdue⟩
    rw [← Option.some.inj hd] at hdue
    exact ⟨hopen, hdue⟩

/-- What a pass over the timers closes was idle for long enough, and nothing that was is left. -/
theorem Punctual.expire (h : r.Punctual idle activity) (hk : r.Kept) (now : Nat) :
    ∃ ids, r.Swept (r.expire now).2 ids ∧
      (∀ id, id ∈ ids ↔ r.Overdue idle activity now id) ∧
      ∀ id, (r.expire now).2.isOpen id = true →
        ∃ d, (r.expire now).2.timers.deadline? id = some d ∧ now < d := by
  have hleft (id : Nat) (hid : (r.expire now).2.isOpen id = true) :
      (r.expire now).2.timers.deadline? id = some (activity id + idle) ∧
        now < activity id + idle := by
    have hdeadline := h.of_keepsTimers (keepsTimers_expire hk now) id hid
    exact ⟨hdeadline, lt_deadline_of_expire hk hdeadline⟩
  obtain ⟨ids, hswept, hdue⟩ := swept_expire hk now
  refine ⟨ids, hswept, ?_, fun id hid => ⟨_, hleft id hid⟩⟩
  intro id
  constructor
  · intro hid
    exact (h.overdue_iff (hswept.was_open id hid)).2 (hdue id hid)
  · rintro ⟨hopen, hpast⟩
    by_contra hid
    rw [← isOpen_congr (hswept.link?_eq id hid)] at hopen
    exact absurd (hleft id hopen).2 (Nat.not_lt.2 hpast)

/-- A single timer that expires closes a connection that was idle for long enough, or belongs to one
that is closed already. -/
theorem Punctual.expireNext (h : r.Punctual idle activity) (hk : r.Kept) {now : Nat}
    (hq : r.expireNext now = some q) :
    ∃ id, (r.timers.find? id).isSome = true ∧
      ((r.Overdue idle activity now id ∧ r.Swept q [id]) ∨
        (r.isOpen id = false ∧ r.Swept q [])) := by
  obtain ⟨n, hfind, hdue, hswept⟩ := swept_expireNext hk hq
  refine ⟨n.id, Option.isSome_of_eq_some hfind, hswept.imp_left ?_⟩
  rintro ⟨hopen, hs⟩
  have hdeadline : r.timers.deadline? n.id = some n.deadline :=
    congrArg (Option.map Timer.deadline) hfind
  exact ⟨(h.overdue_iff hopen).2 ⟨_, hdeadline, hdue⟩, hs⟩

/-- Whatever happened, connections are closed for being idle when they are overdue and not before,
be it by a whole pass over the timers or one timer at a time while workers go on, and each of them is
counted once. -/
theorem idle_of_timed {settings : ReactorSettings} {now : Nat}
    (hidle : settings.idleTimeout = some idle) (h : Timed settings now activity r) :
    r.Punctual idle activity ∧
      (∀ t, ∃ ids, r.Swept (r.expire t).2 ids ∧
        (∀ id, id ∈ ids ↔ r.Overdue idle activity t id) ∧
        ∀ id, (r.expire t).2.isOpen id = true →
          ∃ d, (r.expire t).2.timers.deadline? id = some d ∧ t < d) ∧
      (∀ t q, r.expireNext t = some q →
        ∃ id, (r.timers.find? id).isSome = true ∧
          ((r.Overdue idle activity t id ∧ r.Swept q [id]) ∨
            (r.isOpen id = false ∧ r.Swept q []))) ∧
      ∀ t, r.expireNext t = none → ∀ id, ¬r.Overdue idle activity t id := by
  have hk := kept_of_reachable h.reachable
  have hpunctual := punctual_of_timed hidle h
  refine ⟨hpunctual, hpunctual.expire hk, fun t q => hpunctual.expireNext hk, ?_⟩
  rintro t hnone id ⟨hopen, hpast⟩
  exact absurd (lt_deadline_of_expireNext hk hnone (hpunctual id hopen)) (Nat.not_lt.2 hpast)

/-- Connections may be idle for ten. -/
def patient : ReactorSettings := ⟨⟨[], .empty⟩, some 10, 4, 64⟩

/-- Two clients have come, and the first one has sent something. -/
def visited : Reactor :=
  ((((fresh patient).accept 0 5 true).2.accept 1 6 true).2.dispatch 4
    ⟨5, Interest.readable.bits⟩).2

theorem timed_visited : ∃ activity, Timed patient 4 activity visited ∧
    activity 0 = 4 ∧ activity 1 = 1 := by
  have hstart : Timed patient 0 (fun _ => 0) (fresh patient) := .start
  have hfirst := Timed.step (.accept 0 5 true) hstart (by decide) rfl
  have hsecond := Timed.step (.accept 1 6 true) hfirst (by decide) rfl
  have hthird := Timed.step (.dispatch 4 ⟨5, Interest.readable.bits⟩) hsecond (by decide) rfl
  exact ⟨_, hthird, by decide +kernel, by decide +kernel⟩

/-- A pass at twelve closes the second connection, and not the first. -/
theorem idle_visited : ∃ activity, Timed patient 4 activity visited ∧
    visited.Punctual 10 activity ∧
    ∃ ids, visited.Swept (visited.expire 12).2 ids ∧ 0 ∉ ids ∧ 1 ∈ ids := by
  obtain ⟨activity, htimed, hfirst, hsecond⟩ := timed_visited
  obtain ⟨hpunctual, hpass, -, -⟩ := idle_of_timed rfl htimed
  obtain ⟨ids, hswept, hmem, -⟩ := hpass 12
  refine ⟨activity, htimed, hpunctual, ids, hswept, ?_, ?_⟩
  · rw [hmem]
    rintro ⟨-, hpast⟩
    rw [hfirst] at hpast
    exact absurd hpast (by decide)
  · rw [hmem, Overdue, hsecond]
    exact ⟨by decide +kernel, by decide⟩

end Idle

end Reactor

end HttpServer
