import HttpServer.Log
import Mathlib.Data.List.Induction
import Mathlib.Logic.Relation

/-!
# A queued log agrees with a direct one

What was asked of a queued log is written, held by the writer, or in the channel, in this order
(`Accounted`). So what is written is at any time the beginning of what a direct log has written
after the same calls. A flush is the last entry while its caller waits for it, and it is answered
when it is written. By then nothing is left, and both logs have written the same.

Nobody waits forever: the writer can always go on until nothing is left (`exists_works`), which
answers a flush and makes room for a call.
-/

namespace HttpServer

/-- The line that a call adds to a log. -/
def LogCall.line? (f : LogFilter) : LogCall → Option String
  | .log r time => if f.passes r.severity then some (r.line time) else none
  | .flush => none

/-- The lines of a direct log are those of the records that pass, in the order of the calls. -/
theorem lines_directLog (f : LogFilter) (calls : List LogCall) :
    LogEntry.lines (directLog f calls) = calls.filterMap (LogCall.line? f) := by
  rw [LogEntry.lines, directLog, List.filterMap_filterMap]
  congr 1
  funext c
  cases c with
  | log r time =>
      rw [LogCall.entry?, LogCall.line?]
      cases f.passes r.severity <;> rfl
  | flush => rfl

namespace QueuedLog

/-- The rules for a queued log. -/
inductive Moves (q : QueuedLog) : Step → QueuedLog → Prop where
  | passedOver {c : LogCall} : q.caller = .free → c.entry? q.filter = none →
      Moves q (.call c) { q with calls := q.calls ++ [c] }
  | queued {c : LogCall} {e : LogEntry} : q.caller = .free → c.entry? q.filter = some e →
      q.channel.length < q.capacity → Moves q (.call c) { q with
        channel := q.channel ++ [e]
        calls := q.calls ++ [c]
        caller := if e = .flush then .waiting else .free }
  | took {e : LogEntry} {rest : List LogEntry} : q.held = none → q.channel = e :: rest →
      Moves q .take { q with channel := rest, held := some e }
  | wrote {e : LogEntry} : q.held = some e → Moves q .write { q with
      held := none
      written := q.written ++ [e]
      caller := if e = .flush then .answered else q.caller }
  | resumed : q.caller = .answered → Moves q .resume { q with caller := .free }

section Rules

variable {q r : QueuedLog} {s : Step}

theorem Moves.step_eq (h : q.Moves s r) : q.step s = some r := by
  cases h with
  | passedOver hfree hnone => simp [step, call, hfree, hnone]
  | queued hfree hentry hroom => simp [step, call, hfree, hentry, hroom]
  | took hheld hchannel => simp [step, take, hheld, hchannel]
  | wrote hheld => simp [step, write, hheld]
  | resumed hanswered => simp [step, resume, hanswered]

/-- A log makes a step exactly by the rules. -/
theorem moves_of_step (h : q.step s = some r) : q.Moves s r := by
  cases s with
  | call c =>
      simp only [step, call] at h
      split at h
      · rename_i hfree
        split at h
        · rename_i hnone
          cases h
          exact .passedOver hfree hnone
        · rename_i e hentry
          split at h
          · rename_i hroom
            cases h
            exact .queued hfree hentry hroom
          · cases h
      · cases h
  | take =>
      simp only [step, take] at h
      split at h
      · rename_i hheld hchannel
        cases h
        exact .took hheld hchannel
      · cases h
  | write =>
      simp only [step, write] at h
      split at h
      · cases h
      · rename_i e hheld
        cases h
        exact .wrote hheld
  | resume =>
      simp only [step, resume] at h
      split at h
      · rename_i hanswered
        cases h
        exact .resumed hanswered
      · cases h

end Rules

section Accounts

/-- The entries that the writer has not dealt with. -/
def pending (q : QueuedLog) : List LogEntry :=
  q.held.toList ++ q.channel

/-- What may be left for the writer while the caller is at something: a flush only as the last entry
and only if it is waited for, and nothing once it is answered. -/
def Leaves : LogCaller → List LogEntry → Prop
  | .free, es => .flush ∉ es
  | .waiting, es => ∃ ls, es = ls ++ [.flush] ∧ .flush ∉ ls
  | .answered, es => es = []

/-- What was asked of a log is written or left for the writer. -/
structure Accounted (f : LogFilter) (capacity : Nat) (q : QueuedLog) : Prop where
  filter_eq : q.filter = f
  capacity_eq : q.capacity = capacity
  written_append_pending : q.written ++ q.pending = directLog f q.calls
  leaves : Leaves q.caller q.pending

variable {f : LogFilter} {capacity : Nat} {q r : QueuedLog} {s : Step}

theorem accounted_fresh (f : LogFilter) (capacity : Nat) :
    (fresh f capacity).Accounted f capacity :=
  ⟨rfl, rfl, rfl, List.not_mem_nil⟩

theorem directLog_concat (f : LogFilter) (calls : List LogCall) (c : LogCall) :
    directLog f (calls ++ [c]) = directLog f calls ++ (c.entry? f).toList := by
  have hsingle : directLog f [c] = (c.entry? f).toList := by
    rw [directLog, List.filterMap_cons]
    cases c.entry? f <;> rfl
  rw [directLog_append, hsingle]

/-- One more entry behind all others. -/
theorem leaves_concat {es : List LogEntry} (h : Leaves .free es) (e : LogEntry) :
    Leaves (if e = .flush then .waiting else .free) (es ++ [e]) := by
  by_cases hflush : e = .flush
  · rw [if_pos hflush, hflush]
    exact ⟨es, rfl, h⟩
  · rw [if_neg hflush]
    rintro hmem
    rcases List.mem_append.1 hmem with hmem | hmem
    · exact h hmem
    · exact hflush (List.mem_singleton.1 hmem).symm

/-- The first entry is dealt with. -/
theorem leaves_tail {caller : LogCaller} {e : LogEntry} {es : List LogEntry}
    (h : Leaves caller (e :: es)) :
    Leaves (if e = .flush then .answered else caller) es ∧ (e = .flush → caller = .waiting) := by
  cases caller with
  | free =>
      obtain ⟨hne, hes⟩ := not_or.1 (mt List.mem_cons.2 h)
      rw [if_neg (Ne.symm hne)]
      exact ⟨hes, fun heq => absurd heq.symm hne⟩
  | waiting =>
      obtain ⟨ls, heq, hls⟩ := h
      refine ⟨?_, fun _ => rfl⟩
      cases ls with
      | nil =>
          -- the flush is the only entry
          cases heq
          rw [if_pos rfl]
          rfl
      | cons l ls =>
          obtain ⟨rfl, rfl⟩ := List.cons.inj heq
          obtain ⟨hne, hls⟩ := not_or.1 (mt List.mem_cons.2 hls)
          rw [if_neg (Ne.symm hne)]
          exact ⟨ls, rfl, hls⟩
  | answered => cases h

theorem Moves.accounted (h : q.Moves s r) (hq : q.Accounted f capacity) :
    r.Accounted f capacity := by
  obtain ⟨hfilter, hcapacity, hwritten, hleaves⟩ := hq
  cases h with
  | @passedOver c _ hnone =>
      refine ⟨hfilter, hcapacity, ?_, hleaves⟩
      rw [hfilter] at hnone
      rw [directLog_concat, hnone, Option.toList_none, List.append_nil]
      exact hwritten
  | @queued c e hfree hentry =>
      rw [hfilter] at hentry
      rw [hfree] at hleaves
      refine ⟨hfilter, hcapacity, ?_, ?_⟩
      · rw [directLog_concat, hentry, Option.toList_some, ← hwritten, pending, pending,
          ← List.append_assoc, ← List.append_assoc, ← List.append_assoc]
      · rw [pending, ← List.append_assoc]
        exact leaves_concat hleaves e
  | @took e rest hheld hchannel =>
      have hsame : pending { q with channel := rest, held := some e } = q.pending := by
        rw [pending, pending, hheld, hchannel]
        rfl
      refine ⟨hfilter, hcapacity, ?_, ?_⟩
      · rw [hsame]
        exact hwritten
      · rw [hsame]
        exact hleaves
  | @wrote e hheld =>
      have hpending : q.pending = e :: q.channel := by
        rw [pending, hheld]
        rfl
      rw [hpending] at hwritten hleaves
      refine ⟨hfilter, hcapacity, ?_, (leaves_tail hleaves).1⟩
      calc q.written ++ [e] ++ q.channel
          = q.written ++ e :: q.channel := (List.append_cons _ _ _).symm
        _ = directLog f q.calls := hwritten
  | resumed hanswered =>
      rw [hanswered] at hleaves
      refine ⟨hfilter, hcapacity, hwritten, ?_⟩
      have hnil : q.pending = [] := hleaves
      show LogEntry.flush ∉ q.pending
      rw [hnil]
      exact List.not_mem_nil

theorem Reachable.accounted (h : Reachable f capacity q) : q.Accounted f capacity := by
  induction h with
  | start => exact accounted_fresh f capacity
  | step s _ hs ih => exact (moves_of_step hs).accounted ih

end Accounts

section Progress

/-- The writer works for some steps. -/
def Works : QueuedLog → QueuedLog → Prop :=
  Relation.ReflTransGen fun q r => q.Moves .take r ∨ q.Moves .write r

variable {f : LogFilter} {capacity : Nat} {q r : QueuedLog} {c : LogCall}

theorem Works.reachable (h : Works q r) (hq : Reachable f capacity q) : Reachable f capacity r := by
  induction h with
  | refl => exact hq
  | tail _ hmoves ih =>
      rcases hmoves with hmoves | hmoves
      · exact .step _ ih hmoves.step_eq
      · exact .step _ ih hmoves.step_eq

/-- The writer can work until nothing is left for it. -/
theorem exists_works (hq : q.Accounted f capacity) :
    ∃ r, Works q r ∧ r.pending = [] ∧ r.calls = q.calls ∧
      (r.caller = .free ↔ q.caller = .free) := by
  -- an entry in the channel takes two steps, and one that the writer holds takes one
  induction hn : 2 * q.channel.length + q.held.toList.length using Nat.strongRecOn
    generalizing q with
  | ind n ih =>
      cases hheld : q.held with
      | some e =>
          have hmoves := Moves.wrote hheld
          obtain ⟨r, hworks, hnil, hcalls, hfree⟩ := ih (2 * q.channel.length)
            (by rw [← hn, hheld, Option.toList_some, List.length_singleton]; omega)
            (hmoves.accounted hq) rfl
          refine ⟨r, .head (Or.inr hmoves) hworks, hnil, hcalls, hfree.trans ?_⟩
          have hleaves := hq.leaves
          rw [pending, hheld] at hleaves
          by_cases hflush : e = .flush
          · simp [hflush, (leaves_tail hleaves).2 hflush]
          · simp [hflush]
      | none =>
          cases hchannel : q.channel with
          | nil =>
              refine ⟨q, .refl, ?_, rfl, Iff.rfl⟩
              rw [pending, hheld, hchannel]
              rfl
          | cons e rest =>
              have hmoves := Moves.took hheld hchannel
              obtain ⟨r, hworks, hnil, hcalls, hfree⟩ := ih (2 * rest.length + 1)
                (by rw [← hn, hchannel, List.length_cons]; omega) (hmoves.accounted hq) rfl
              exact ⟨r, .head (Or.inl hmoves) hworks, hnil, hcalls, hfree⟩

/-- What the writer leaves behind once nothing is left for it. -/
theorem written_eq_of_pending (hq : q.Accounted f capacity) (hnil : q.pending = []) :
    q.written = directLog f q.calls := by
  have hwritten := hq.written_append_pending
  rw [hnil, List.append_nil] at hwritten
  exact hwritten

/-- Nobody waits for a flush once nothing is left. -/
theorem caller_ne_waiting (hq : q.Accounted f capacity) (hnil : q.pending = []) :
    q.caller ≠ .waiting := by
  intro hwaiting
  obtain ⟨ls, heq, -⟩ : Leaves .waiting [] := by
    rw [← hnil, ← hwaiting]
    exact hq.leaves
  exact List.append_ne_nil_of_right_ne_nil ls (List.cons_ne_nil _ _) heq.symm

theorem reachable_drain (hq : Reachable f capacity q) : Reachable f capacity q.drain := by
  obtain ⟨r, hworks, hnil, hcalls, -⟩ := exists_works hq.accounted
  have hr := hworks.reachable hq
  have hwritten : r.written = q.written ++ q.pending := by
    rw [written_eq_of_pending hr.accounted hnil, hcalls, hq.accounted.written_append_pending]
  obtain ⟨hheld, hchannel⟩ := List.append_eq_nil_iff.1 hnil
  have hdrain : { r with caller := .free } = q.drain := by
    rw [drain, ← pending, ← hwritten, ← hcalls, hq.accounted.filter_eq, hq.accounted.capacity_eq,
      ← hr.accounted.filter_eq, ← hr.accounted.capacity_eq, ← hchannel,
      ← Option.toList_eq_nil_iff.1 hheld]
  rw [← hdrain]
  cases hcaller : r.caller with
  | free =>
      rw [← hcaller]
      exact hr
  | waiting => exact absurd hcaller (caller_ne_waiting hr.accounted hnil)
  | answered => exact .step .resume hr (Moves.step_eq (.resumed hcaller))

/-- A call can be made if there is room. -/
theorem exists_call (hfree : q.caller = .free) (hroom : q.channel.length < q.capacity)
    (c : LogCall) : ∃ r, q.Moves (.call c) r := by
  cases hentry : c.entry? q.filter with
  | none => exact ⟨_, .passedOver hfree hentry⟩
  | some e => exact ⟨_, .queued hfree hentry hroom⟩

theorem Moves.calls_eq (h : q.Moves (.call c) r) : r.calls = q.calls ++ [c] := by
  cases h with
  | passedOver | queued => rfl

/-- The calls have been made, and the last one has returned. -/
structure Made (f : LogFilter) (capacity : Nat) (calls : List LogCall) (q : QueuedLog) : Prop where
  reachable : Reachable f capacity q
  calls_eq : q.calls = calls
  caller_eq : q.caller = .free

variable {calls : List LogCall}

theorem made_settle (hq : Reachable f capacity q) (hcalls : q.calls = calls) :
    q.settle.Made f capacity calls := by
  unfold settle
  split
  · rename_i hfree
    exact ⟨hq, hcalls, hfree⟩
  · exact ⟨reachable_drain hq, hcalls, rfl⟩

/-- A call is made at once, or after the writer has made room for it. -/
theorem Made.perform_eq (hcap : 0 < capacity) (hq : q.Made f capacity calls) (c : LogCall) :
    ∃ p r, Reachable f capacity p ∧ p.calls = calls ∧ p.Moves (.call c) r ∧
      q.perform c = r.settle := by
  cases hcall : q.call c with
  | some r =>
      refine ⟨q, r, hq.reachable, hq.calls_eq, moves_of_step hcall, ?_⟩
      rw [perform, hcall]
  | none =>
      have hdrained := reachable_drain hq.reachable
      have hroom : q.drain.channel.length < q.drain.capacity := by
        rw [hdrained.accounted.capacity_eq]
        exact hcap
      obtain ⟨r, hmoves⟩ := exists_call rfl hroom c
      have hlater : q.drain.call c = some r := hmoves.step_eq
      refine ⟨q.drain, r, hdrained, hq.calls_eq, hmoves, ?_⟩
      simp only [perform, hcall, hlater]

theorem Made.perform (hcap : 0 < capacity) (hq : q.Made f capacity calls) (c : LogCall) :
    (q.perform c).Made f capacity (calls ++ [c]) := by
  obtain ⟨p, r, hp, hcalls, hmoves, heq⟩ := hq.perform_eq hcap c
  rw [heq]
  refine made_settle (.step (.call c) hp hmoves.step_eq) ?_
  rw [hmoves.calls_eq, hcalls]

theorem made_foldl (hcap : 0 < capacity) (calls : List LogCall) :
    (calls.foldl QueuedLog.perform (fresh f capacity)).Made f capacity calls := by
  induction calls using List.reverseRecOn with
  | nil => exact ⟨.start, rfl, rfl⟩
  | append_singleton calls c ih =>
      rw [List.foldl_append]
      exact ih.perform hcap c

/-- Who flushes waits until nothing is left. -/
theorem settle_of_flush (h : q.Moves (.call .flush) r) : r.settle = r.drain := by
  cases h with
  | passedOver _ hnone => cases hnone
  | queued _ hentry =>
      cases hentry
      rfl

/-- After a flush, a log has written what a direct one has. -/
theorem logged_eq_directLog (f : LogFilter) (capacity : Nat) (calls : List LogCall) :
    logged f capacity calls = directLog f (calls ++ [.flush]) := by
  unfold logged
  by_cases hcap : capacity = 0
  · exact if_pos hcap
  · have hcap' : 0 < capacity := Nat.pos_of_ne_zero hcap
    have hmade := made_foldl (f := f) hcap' calls
    obtain ⟨p, r, -, -, hmoves, heq⟩ := hmade.perform_eq hcap' .flush
    have hlast := hmade.perform hcap' .flush
    have hnil :
        ((calls.foldl QueuedLog.perform (fresh f capacity)).perform .flush).pending = [] := by
      rw [heq, settle_of_flush hmoves]
      rfl
    rw [if_neg hcap, List.foldl_append, List.foldl_cons, List.foldl_nil,
      written_eq_of_pending hlast.reachable.accounted hnil, hlast.calls_eq]

end Progress

section Results

variable {f : LogFilter} {capacity : Nat} {q : QueuedLog}

/-- Whatever the caller and the writer have done, what is written is the beginning of what a direct
log has written after the same calls. When a flush returns it is all of that: the lines of all
records that pass, whole and in the order in which they were logged. The writer can always go on
until the flush that is waited for is answered, or until there is room for any call. Run call by
call and flushed in the end, a log with a queue has written the same as one without. -/
theorem agrees_of_reachable (hcap : 0 < capacity) (h : Reachable f capacity q) :
    q.written <+: directLog f q.calls ∧
    (∀ r, q.step .resume = some r → r.calls = q.calls ∧ r.written = directLog f r.calls ∧
      LogEntry.lines r.written = r.calls.filterMap (LogCall.line? f)) ∧
    (∃ r, Works q r ∧ r.written = directLog f q.calls ∧
      (q.caller = .waiting → r.caller = .answered) ∧
      (q.caller = .free → ∀ c, ∃ r', r.step (.call c) = some r')) ∧
    ∀ calls, logged f capacity calls = logged f 0 calls := by
  have hq := h.accounted
  refine ⟨⟨q.pending, hq.written_append_pending⟩, ?_, ?_, ?_⟩
  · intro r hr
    have hmoves := moves_of_step hr
    cases hmoves with
    | resumed hanswered =>
        have hleaves := hq.leaves
        rw [hanswered] at hleaves
        have hwritten := written_eq_of_pending hq hleaves
        refine ⟨rfl, hwritten, ?_⟩
        rw [← lines_directLog]
        exact congrArg LogEntry.lines hwritten
  · obtain ⟨r, hworks, hnil, hcalls, hfree⟩ := exists_works hq
    have hr := (hworks.reachable h).accounted
    refine ⟨r, hworks, by rw [written_eq_of_pending hr hnil, hcalls], ?_, ?_⟩
    · intro hwaiting
      cases hcaller : r.caller with
      | answered => rfl
      | free =>
          rw [hfree.1 hcaller] at hwaiting
          cases hwaiting
      | waiting => exact absurd hcaller (caller_ne_waiting hr hnil)
    · intro hidle c
      have hroom : r.channel.length < r.capacity := by
        rw [(List.append_eq_nil_iff.1 hnil).2, hr.capacity_eq]
        exact hcap
      obtain ⟨r', hmoves⟩ := exists_call (hfree.2 hidle) hroom c
      exact ⟨r', hmoves.step_eq⟩
  · intro calls
    rw [logged_eq_directLog, logged_eq_directLog]

theorem reachable_of_foldlM {r : QueuedLog} {steps : List Step} (hq : Reachable f capacity q)
    (h : steps.foldlM step q = some r) : Reachable f capacity r := by
  induction steps generalizing q with
  | nil =>
      cases h
      exact hq
  | cons s steps ih =>
      obtain ⟨p, hs, hrest⟩ := Option.bind_eq_some_iff.1 h
      exact ih (.step s hq hs) hrest

/-- Two records, one that does not pass between them, and a flush. -/
def crowdedCalls : List LogCall :=
  [.log ⟨.info, "server", "first"⟩ "9:00", .log ⟨.debug, "server", "passed over"⟩ "9:01",
    .log ⟨.error, "server", "second"⟩ "9:02", .flush]

/-- They go through a channel of one entry, which is full while the writer holds the first line, and
again while it holds the second one. -/
def crowded : List Step :=
  [.call (.log ⟨.info, "server", "first"⟩ "9:00"), .take,
    .call (.log ⟨.debug, "server", "passed over"⟩ "9:01"),
    .call (.log ⟨.error, "server", "second"⟩ "9:02"), .write, .take, .call .flush, .write, .take,
    .write]

/-- When the flush returns both lines are written. -/
theorem agrees_crowded :
    ∃ q r : QueuedLog, 0 < 1 ∧ Reachable (some .info) 1 q ∧ q.step .resume = some r ∧
      r.calls = crowdedCalls ∧ r.written = directLog (some .info) crowdedCalls ∧
      LogEntry.lines r.written =
        ["9:00 [INFO ] server: first\n", "9:02 [ERROR] server: second\n"] := by
  have hrun : crowded.foldlM step (fresh (some .info) 1) = some ⟨some .info, 1, [], none,
      [.line "9:00 [INFO ] server: first\n", .line "9:02 [ERROR] server: second\n", .flush],
      crowdedCalls, .answered⟩ := by
    decide +kernel
  have hreachable := reachable_of_foldlM .start hrun
  obtain ⟨hcalls, hwritten, -⟩ := (agrees_of_reachable Nat.one_pos hreachable).2.1 _ rfl
  exact ⟨_, _, Nat.one_pos, hreachable, rfl, hcalls, hwritten, rfl⟩

end Results

end QueuedLog

end HttpServer
