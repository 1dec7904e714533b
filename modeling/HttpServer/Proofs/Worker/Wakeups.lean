import HttpServer.Proofs.Worker.Completion

/-!
# No wake-up is lost

A task is queued under the lock, and a sleeper is told of it later. In between the queue may be
emptied by somebody else, a worker may fall asleep, and another may stir unbidden. `Attended` says
that this does no harm: while anybody sleeps, there are at least as many sleepers still to be told
and workers about to look at the queue as there are tasks in it. A worker falls asleep only when the
queue is empty, and nobody is told only when nobody sleeps, so each step keeps the count.

The shutdown tells all sleepers at once, after the queue is closed. From then on a worker that finds
the queue empty leaves, and nobody sleeps any more.
-/

namespace HttpServer

namespace WorkerPool

variable {τ : Type}

/-- The workers that are awake and about to look at the queue. -/
def checkers (p : WorkerPool τ) : Nat :=
  p.workers.countP WorkerState.isChecking

/-- Somebody sleeps. -/
def HasSleeper (p : WorkerPool τ) : Prop :=
  ∃ w ∈ p.workers, w.isAsleep = true

/-- While somebody sleeps, somebody will look at the queue for each task in it. -/
def Attended (p : WorkerPool τ) : Prop :=
  p.HasSleeper → p.queued ≤ p.wakeupsDue + p.checkers

section Counts

variable {p : WorkerPool τ} {i : Nat} {v w : WorkerState τ}

theorem checkers_setWorker (h : p.workers[i]? = some w) (v : WorkerState τ) :
    (p.setWorker i v).checkers + w.isChecking.toNat = p.checkers + v.isChecking.toNat := by
  obtain ⟨hi, rfl⟩ := List.getElem?_eq_some_iff.1 h
  obtain ⟨front, back, hwhole, -, hset⟩ := @List.exists_of_set _ i v p.workers hi
  have hcons (x : WorkerState τ) : (x :: back).countP WorkerState.isChecking =
      back.countP WorkerState.isChecking + x.isChecking.toNat := by
    rw [List.countP_cons]
    cases x.isChecking <;> rfl
  have hold : p.checkers = front.countP WorkerState.isChecking +
      (back.countP WorkerState.isChecking + (p.workers[i]).isChecking.toNat) := by
    rw [checkers]
    conv => lhs; rw [hwhole]
    rw [List.countP_append, hcons]
  rw [hold, checkers, workers_setWorker, hset, List.countP_append, hcons]
  omega

/-- A worker that goes on awake leaves the other sleepers. -/
theorem HasSleeper.of_setWorker (hv : v.isAsleep = false) (h : (p.setWorker i v).HasSleeper) :
    p.HasSleeper := by
  obtain ⟨x, hx, hasleep⟩ := h
  rcases List.mem_or_eq_of_mem_set hx with hx | rfl
  · exact ⟨x, hx, hasleep⟩
  · rw [hv] at hasleep
    cases hasleep

theorem not_hasSleeper_iff : ¬ p.HasSleeper ↔ ∀ w ∈ p.workers, w.isAsleep = false := by
  simp [HasSleeper]

/-- A worker that was not about to look at the queue, and is now. -/
theorem Attended.turn (hp : p.Attended) (hw : p.workers[i]? = some w) (hbusy : w.isChecking = false)
    (h : (p.setWorker i .checking).HasSleeper) :
    p.queued + 1 ≤ p.wakeupsDue + (p.setWorker i .checking).checkers := by
  have hold := hp (h.of_setWorker rfl)
  have hcount := checkers_setWorker hw .checking
  rw [hbusy] at hcount
  simp only [WorkerState.isChecking, Bool.toNat_true, Bool.toNat_false] at hcount
  omega

end Counts

section Runs

variable {n : Nat} {p q : WorkerPool τ} {s : Step τ} {log : List (τ × Bool)}

theorem attended_ofSize (n : Nat) : (ofSize n : WorkerPool τ).Attended :=
  fun _ => Nat.zero_le _

theorem Moves.attended (h : p.Moves s q) (hp : p.Attended) : q.Attended := by
  cases h with
  | @accepted task _ =>
      intro hsleeper
      have hold : p.queue.length ≤ p.wakeupsDue + p.checkers := hp hsleeper
      show (p.queue ++ [task]).length ≤ p.wakeupsDue + 1 + p.checkers
      rw [List.length_append, List.length_singleton]
      omega
  | unneeded _ hawake => exact fun hsleeper => absurd hsleeper (not_hasSleeper_iff.2 hawake)
  | @woken i hdue hw =>
      intro hsleeper
      have hnew := hp.turn hw rfl hsleeper
      show p.queued ≤ p.wakeupsDue - 1 + (p.setWorker i .checking).checkers
      omega
  | @stirred i hw =>
      intro hsleeper
      exact Nat.le_of_succ_le (hp.turn hw rfl hsleeper)
  | @took i task rest hw hqueue =>
      intro hsleeper
      have hold : p.queue.length ≤ p.wakeupsDue + p.checkers :=
        hp (HasSleeper.of_setWorker (v := .running task) rfl hsleeper)
      have hcount := checkers_setWorker hw (.running task)
      simp only [WorkerState.isChecking, Bool.toNat_true, Bool.toNat_false] at hcount
      rw [hqueue, List.length_cons] at hold
      show rest.length ≤ p.wakeupsDue + (p.setWorker i (.running task)).checkers
      omega
  | @rested i _ hqueue =>
      intro _
      rw [queued, queue_setWorker, hqueue]
      exact Nat.zero_le _
  | left _ hqueue =>
      intro _
      rw [queued, queue_setWorker, hqueue]
      exact Nat.zero_le _
  | @ended i _ _ hw =>
      intro hsleeper
      exact Nat.le_of_succ_le (hp.turn hw rfl hsleeper)
  | announced =>
      intro hsleeper
      refine absurd hsleeper (not_hasSleeper_iff.2 fun w hw => ?_)
      obtain ⟨x, -, rfl⟩ := List.mem_map.1 hw
      exact WorkerState.isAsleep_awakened x
  | refused | closed | closedAgain | joined => exact hp

/-- That the sleepers were told is not undone. -/
theorem Moves.told (h : p.Moves s q) (hp : p.shutdown = .announced ∨ p.shutdown = .over) :
    q.shutdown = .announced ∨ q.shutdown = .over := by
  cases h with
  | closed hnotBegun =>
      rw [hnotBegun] at hp
      rcases hp with hp | hp
      · cases hp
      · cases hp
  | announced => exact Or.inl rfl
  | joined => exact Or.inr rfl
  | _ => exact hp

/-- What can be reached is what runs come to. -/
theorem reachable_iff_exists_runs : Reachable n p ↔ ∃ log, Runs (ofSize n) log p := by
  constructor
  · intro h
    induction h with
    | start => exact ⟨[], .refl⟩
    | step s _ hs ih =>
        obtain ⟨log, hruns⟩ := ih
        exact ⟨_, .step s hruns hs⟩
  · rintro ⟨log, h⟩
    induction h with
    | refl => exact .start
    | step s _ hs ih => exact .step s ih hs

end Runs

section Results

variable {n : Nat} {p : WorkerPool τ}

/-- A worker that is awake and not gone has a step to make as soon as its task lets it. -/
def GoesOn (p : WorkerPool τ) (i : Nat) (w : WorkerState τ) : Prop :=
  (w = .checking ∧ ∃ q, p.check i = some q) ∨
    ∃ task, w = .running task ∧ ∀ ending, ∃ q, p.finish i ending = some q

theorem goesOn_of_awake {i : Nat} {w : WorkerState τ} (hw : p.workers[i]? = some w)
    (hawake : w.isAsleep = false) (hstays : w ≠ .exited) : p.GoesOn i w := by
  cases w with
  | checking =>
      refine Or.inl ⟨rfl, ?_⟩
      rw [check, hw]
      cases p.queue with
      | nil => exact ⟨_, rfl⟩
      | cons task rest => exact ⟨_, rfl⟩
  | running task => exact Or.inr ⟨task, rfl, fun ending => ⟨_, Moves.step_eq (.ended hw)⟩⟩
  | asleep => cases hawake
  | exited => exact absurd rfl hstays

/-- As long as anybody sleeps, there are at least as many sleepers still to be told of a task and
workers about to look at the queue as there are tasks in it. So in an open pool a task waits only
for such a waking, for such a worker, or because all workers are at tasks. Once the shutdown has
told all sleepers nobody sleeps, whatever happens, and each worker that is waited for can go on. -/
theorem attended_of_reachable (h : Reachable n p) :
    (p.HasSleeper → p.queued ≤ p.wakeupsDue + p.checkers) ∧
    (p.isClosed = false → 0 < p.queued → p.wakeupsDue + p.checkers = 0 →
      ∀ w ∈ p.workers, ∃ task, w = .running task) ∧
    (p.shutdown = .announced ∨ p.shutdown = .over → ∀ log q, Runs p log q →
      ¬ q.HasSleeper ∧ ∀ i w, q.workers[i]? = some w → w ≠ .exited → q.GoesOn i w) := by
  obtain ⟨log, hruns⟩ := reachable_iff_exists_runs.1 h
  have hattended : p.Attended := hruns.induction Moves.attended (attended_ofSize n)
  refine ⟨hattended, ?_, ?_⟩
  · intro hopen hqueued hnone w hw
    cases w with
    | running task => exact ⟨task, rfl⟩
    | asleep =>
        have := hattended ⟨_, hw, rfl⟩
        omega
    | checking =>
        have : 0 < p.checkers := List.countP_pos_iff.2 ⟨_, hw, rfl⟩
        omega
    | exited =>
        rw [(hruns.staffed.exited _ hw rfl).1] at hopen
        cases hopen
  · intro htold more q hq
    have htold' : q.shutdown = .announced ∨ q.shutdown = .over := hq.induction Moves.told htold
    have hawake := (hruns.trans hq).staffed.awake htold'
    refine ⟨not_hasSleeper_iff.2 hawake, fun i w hw hstays => ?_⟩
    exact goesOn_of_awake hw (hawake w (List.mem_of_getElem? hw)) hstays

/-- Two workers fall asleep, two tasks are queued, and one sleeper is told. -/
def drowsy : List (Step Nat) :=
  [.check 0, .check 1, .submit 7, .submit 8, .wakeOne (some 0)]

/-- One worker sleeps on while two tasks are queued: for one of them a waking is due, and for the
other a worker is about to look. After the shutdown has told all sleepers, nobody sleeps. -/
theorem attended_drowsy :
    ∃ p q : WorkerPool Nat, Reachable 2 p ∧ p.isClosed = false ∧ p.HasSleeper ∧ p.queued = 2 ∧
      p.wakeupsDue = 1 ∧ p.checkers = 1 ∧ p.queued ≤ p.wakeupsDue + p.checkers ∧
      Reachable 2 q ∧ q.shutdown = .announced ∧ ¬ q.HasSleeper := by
  have hrun : (ofSize 2).run? drowsy = some
      (⟨[7, 8], [.checking, .asleep], .notBegun, 1, [7, 8], [], []⟩, [(7, true), (8, true)]) := by
    decide
  have hend : (ofSize 2).run? (drowsy ++ [.close, .wakeAll]) = some
      (⟨[7, 8], [.checking, .checking], .announced, 1, [7, 8], [], []⟩,
        [(7, true), (8, true)]) := by
    decide
  have hp := reachable_iff_exists_runs.2 ⟨_, runs_of_run? hrun⟩
  have hq := reachable_iff_exists_runs.2 ⟨_, runs_of_run? hend⟩
  have hsleeper : HasSleeper (τ := Nat)
      ⟨[7, 8], [.checking, .asleep], .notBegun, 1, [7, 8], [], []⟩ :=
    ⟨.asleep, List.mem_cons_of_mem _ List.mem_cons_self, rfl⟩
  exact ⟨_, _, hp, rfl, hsleeper, rfl, rfl, rfl, (attended_of_reachable hp).1 hsleeper, hq, rfl,
    ((attended_of_reachable hq).2.2 (Or.inl rfl) [] _ .refl).1⟩

end Results

end WorkerPool

end HttpServer
