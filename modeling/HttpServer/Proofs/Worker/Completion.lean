import HttpServer.Proofs.Worker.Account
import Mathlib.Logic.Relation

/-!
# Every accepted task is completed

A pool is shut down while tasks are queued, while workers run and sleep, and while tasks are still
being submitted. Once the shutdown is over the workers are gone, and since none of them leaves while
something is queued, every task that was accepted has finished, once. Nothing happens after that, and
shutting down again changes nothing.

A shutdown does come to its end if the tasks do: the effort that a pool has left is less after each
step of a schedule, and where no step is left to make the shutdown is over.

`Starting` are the states of a pool whose workers are started one by one. Those that were started
work already, so when one cannot be started they may be anywhere. But they may as well have been
started all at once, and then what holds of any pool holds of them.
-/

namespace HttpServer

namespace WorkerPool

variable {τ : Type}

section Drained

/-- Where the tasks and the workers are, after some submissions. -/
structure Accounts (n : Nat) (log : List (τ × Bool)) (p : WorkerPool τ) : Prop where
  partitioned : (acceptedIn log).Perm (p.queue ++ p.running ++ p.finished.map Prod.fst)
  inOrder : p.started ++ p.queue = acceptedIn log
  length_workers : p.workers.length = n
  exited : ∀ w ∈ p.workers, w.hasExited = true → p.isClosed = true ∧ p.queue = []

/-- Everything is done, and it stays so. -/
structure Drained (log : List (τ × Bool)) (p : WorkerPool τ) : Prop where
  exited : ∀ w ∈ p.workers, w = .exited
  queue_eq : p.queue = []
  finished : (p.finished.map Prod.fst).Perm (acceptedIn log)
  close_eq : p.close = some p
  eq_of_runs : ∀ more q, Runs p more q → q = { p with wakeupsDue := q.wakeupsDue }

variable {n : Nat} {p q : WorkerPool τ} {s : Step τ} {log more : List (τ × Bool)}

theorem Runs.ordered (h : Runs (ofSize n) log p) : p.Ordered :=
  h.induction Moves.ordered (ordered_ofSize n)

theorem Runs.staffed (h : Runs (ofSize n) log p) : p.Staffed n :=
  h.induction Moves.staffed (staffed_ofSize n)

theorem Runs.started_append_queue (h : Runs (ofSize n) log p) :
    p.started ++ p.queue = acceptedIn log := by
  rw [h.ordered.started_append_queue, h.accepted_eq]
  rfl

theorem Runs.accounts (h : Runs (ofSize n) log p) : p.Accounts n log := by
  refine ⟨?_, h.started_append_queue, h.staffed.length_workers, h.staffed.exited⟩
  rw [← h.started_append_queue, List.append_assoc]
  exact List.perm_append_comm.trans (h.ordered.perm_started.append_left _)

theorem Runs.isPrefix (h : Runs p log q) : p.started <+: q.started ∧ p.finished <+: q.finished := by
  refine h.induction (P := fun q => p.started <+: q.started ∧ p.finished <+: q.finished) ?_
    ⟨List.prefix_rfl, List.prefix_rfl⟩
  intro q r s hmoves hq
  exact ⟨hq.1.trans hmoves.isPrefix.1, hq.2.trans hmoves.isPrefix.2⟩

theorem eq_exited_of_hasExited {w : WorkerState τ} (h : w.hasExited = true) : w = .exited := by
  cases w with
  | exited => rfl
  | checking | asleep | running => cases h

/-- After the shutdown there is nobody to do anything, and only wakings that come too late are left
to be seen to. -/
theorem Moves.eq_of_over (h : p.Moves s q) (hover : p.shutdown = .over)
    (hexited : ∀ w ∈ p.workers, w = .exited) : q = { p with wakeupsDue := q.wakeupsDue } := by
  have hgone {i : Nat} {w : WorkerState τ} (hw : p.workers[i]? = some w) : w = .exited :=
    hexited w (List.mem_of_getElem? hw)
  have hnot {phase : Shutdown} (hp : p.shutdown = phase) (hne : phase ≠ .over) : False :=
    hne (hp.symm.trans hover)
  cases h with
  | accepted hopen => exact (hnot (isClosed_eq_false_iff.1 hopen) (by decide)).elim
  | woken hdue hw => cases hgone hw
  | stirred hw => cases hgone hw
  | took hw => cases hgone hw
  | rested hw => cases hgone hw
  | left hw => cases hgone hw
  | ended hw => cases hgone hw
  | closed hp => exact (hnot hp (by decide)).elim
  | announced hp => exact (hnot hp (by decide)).elim
  | joined hp => exact (hnot hp (by decide)).elim
  | refused | unneeded | closedAgain => rfl

/-- A pool that has workers, or was given nothing to do, has nothing queued in the end. -/
theorem Runs.drained (h : Runs (ofSize n) log p) (hover : p.shutdown = .over)
    (hn : 0 < n ∨ acceptedIn log = []) : p.Drained log := by
  have hexited : ∀ w ∈ p.workers, w = .exited :=
    fun w hw => eq_exited_of_hasExited (h.staffed.gone hover w hw)
  have hqueue : p.queue = [] := by
    rcases hn with hn | hnone
    · have hlength := h.staffed.length_workers
      obtain ⟨w, hw⟩ := List.exists_mem_of_length_pos (hlength ▸ hn)
      exact (h.staffed.exited w hw (h.staffed.gone hover w hw)).2
    · have horder := h.started_append_queue
      rw [hnone, List.append_eq_nil_iff] at horder
      exact horder.2
  refine ⟨hexited, hqueue, ?_, close_of_over hover, ?_⟩
  · have hidle : p.running = [] := by
      rw [running, List.filterMap_eq_nil_iff]
      intro w hw
      rw [hexited w hw]
      rfl
    have hperm := h.accounts.partitioned
    rw [hqueue, hidle] at hperm
    exact hperm.symm
  · intro more q hq
    refine hq.induction (P := fun q => q = { p with wakeupsDue := q.wakeupsDue }) ?_ rfl
    intro q r s hmoves hsame
    have hq : q.shutdown = .over := by
      rw [hsame]
      exact hover
    have hr := hmoves.eq_of_over hq fun w hw => hexited w (by rw [hsame] at hw; exact hw)
    rw [hr, hsame]

end Drained

section Schedules

variable {b : Behaviour τ} {n i : Nat} {p q : WorkerPool τ} {s : Step τ}

theorem workersEffort_set {ws : List (WorkerState τ)} {w : WorkerState τ} (h : ws[i]? = some w)
    (w' : WorkerState τ) :
    workersEffort (ws.set i w') + workerEffort w = workersEffort ws + workerEffort w' := by
  induction ws generalizing i with
  | nil => cases h
  | cons x ws ih =>
      cases i with
      | zero =>
          cases h
          simp only [List.set_cons_zero, workersEffort]
          omega
      | succ i =>
          have hrest := ih (i := i) h
          simp only [List.set_cons_succ, workersEffort]
          omega

/-- Telling a sleeper to wake costs one step of that worker. -/
theorem workersEffort_map_awakened_le (ws : List (WorkerState τ)) :
    workersEffort (ws.map WorkerState.awakened) ≤ workersEffort ws + ws.length := by
  induction ws with
  | nil => exact Nat.le_refl _
  | cons w ws ih =>
      have hw : workerEffort w.awakened ≤ workerEffort w + 1 := by
        cases w with
        | asleep => exact Nat.le_refl _
        | checking | running | exited => exact Nat.le_succ _
      simp only [List.map_cons, workersEffort, List.length_cons]
      omega

/-- The next step of a schedule, or what it means that there is none. -/
theorem nextStep_cases (b : Behaviour τ) (p : WorkerPool τ) :
    (0 < p.wakeupsDue ∧ nextStep b p = some (.wakeOne p.firstAsleep)) ∨
    (p.shutdown = .closed ∧ nextStep b p = some .wakeAll) ∨
    (∃ i w s, p.workers[i]? = some w ∧ workerStep b i w = some s ∧ nextStep b p = some s) ∨
    (p.shutdown = .announced ∧ (∀ w ∈ p.workers, w.hasExited = true) ∧
      nextStep b p = some .join) ∨
    (p.shutdown ≠ .closed ∧ (∀ i w, p.workers[i]? = some w → workerStep b i w = none) ∧
      ¬ (p.shutdown = .announced ∧ ∀ w ∈ p.workers, w.hasExited = true) ∧
      nextStep b p = none) := by
  by_cases hdue : 0 < p.wakeupsDue
  · left
    refine ⟨hdue, ?_⟩
    rw [nextStep, if_pos hdue]
  · by_cases hclosed : p.shutdown = .closed
    · right; left
      refine ⟨hclosed, ?_⟩
      rw [nextStep, if_neg hdue, if_pos hclosed]
    · right; right
      rw [nextStep, if_neg hdue, if_neg hclosed]
      split
      · rename_i s hs
        obtain ⟨⟨w, i⟩, hmem, hstep⟩ := List.exists_of_findSome?_eq_some hs
        exact Or.inl ⟨i, w, s, List.mk_mem_zipIdx_iff_getElem?.1 hmem, hstep, rfl⟩
      · rename_i hnone
        right
        have hidle (i : Nat) (w : WorkerState τ) (hw : p.workers[i]? = some w) :
            workerStep b i w = none :=
          List.findSome?_eq_none_iff.1 hnone (w, i) (List.mk_mem_zipIdx_iff_getElem?.2 hw)
        by_cases hjoin : p.shutdown = .announced ∧ ∀ w ∈ p.workers, w.hasExited = true
        · refine Or.inl ⟨hjoin.1, hjoin.2, ?_⟩
          rw [if_pos]
          simpa using hjoin
        · refine Or.inr ⟨hclosed, hidle, hjoin, ?_⟩
          rw [if_neg]
          simpa using hjoin

/-- A step of a worker can be made, and takes effort. -/
theorem exists_of_workerStep {w : WorkerState τ} (hw : p.workers[i]? = some w)
    (hs : workerStep b i w = some s) :
    ∃ q, p.Moves s q ∧ q.effort < p.effort ∧ p.submission? s = none := by
  cases w with
  | checking =>
      cases hs
      cases hqueue : p.queue with
      | cons task rest =>
          have heffort := workersEffort_set hw (.running task)
          refine ⟨_, .took hw hqueue, ?_, rfl⟩
          simp only [effort, hqueue, setWorker, List.length_cons, List.length_set, workerEffort]
            at heffort ⊢
          omega
      | nil =>
          cases hclosed : p.isClosed with
          | true =>
              have heffort := workersEffort_set hw .exited
              refine ⟨_, .left hw hqueue hclosed, ?_, rfl⟩
              simp only [effort, setWorker, List.length_set, workerEffort] at heffort ⊢
              omega
          | false =>
              have heffort := workersEffort_set hw .asleep
              refine ⟨_, .rested hw hqueue hclosed, ?_, rfl⟩
              simp only [effort, setWorker, List.length_set, workerEffort] at heffort ⊢
              omega
  | running task =>
      simp only [workerStep] at hs
      split at hs
      · cases hs
      · cases hs
        have heffort := workersEffort_set hw .checking
        refine ⟨_, .ended hw, ?_, rfl⟩
        simp only [effort, setWorker, List.length_set, workerEffort] at heffort ⊢
        omega
  | asleep | exited => cases hs

/-- The steps of a schedule can be made, and each takes some of the effort that is left. -/
theorem exists_of_nextStep (h : nextStep b p = some s) :
    ∃ q, p.Moves s q ∧ q.effort < p.effort ∧ p.submission? s = none := by
  rcases nextStep_cases b p with ⟨hdue, hs⟩ | ⟨hclosed, hs⟩ | ⟨i, w, s', hw, hstep, hs⟩ |
    ⟨hannounced, hall, hs⟩ | ⟨-, -, -, hs⟩
  · obtain rfl := Option.some.inj (hs.symm.trans h)
    cases hfirst : p.firstAsleep with
    | none =>
        have hawake := List.findIdx?_eq_none_iff.1 hfirst
        refine ⟨_, .unneeded hdue hawake, ?_, rfl⟩
        simp only [effort]
        omega
    | some i =>
        obtain ⟨hi, hasleep, -⟩ := List.findIdx?_eq_some_iff_getElem.1 hfirst
        have hw : p.workers[i]? = some .asleep := by
          rw [List.getElem?_eq_getElem hi]
          cases hstate : p.workers[i] with
          | asleep => rfl
          | checking | running | exited =>
              rw [hstate] at hasleep
              cases hasleep
        have heffort := workersEffort_set hw .checking
        refine ⟨_, .woken hdue hw, ?_, rfl⟩
        simp only [effort, setWorker, List.length_set, workerEffort] at heffort ⊢
        omega
  · obtain rfl := Option.some.inj (hs.symm.trans h)
    have heffort := workersEffort_map_awakened_le p.workers
    refine ⟨_, .announced hclosed, ?_, rfl⟩
    simp only [effort, hclosed]
    omega
  · obtain rfl := Option.some.inj (hs.symm.trans h)
    exact exists_of_workerStep hw hstep
  · obtain rfl := Option.some.inj (hs.symm.trans h)
    refine ⟨_, .joined hannounced hall, ?_, rfl⟩
    simp only [effort, hannounced]
    omega
  · rw [hs] at h
    cases h

/-- With as many steps as there is effort, a schedule comes to where no step is left. -/
theorem settleWithin_settles (b : Behaviour τ) (h : p.effort ≤ n) :
    Runs p [] (settleWithin b n p) ∧ nextStep b (settleWithin b n p) = none := by
  induction n generalizing p with
  | zero =>
      refine ⟨.refl, ?_⟩
      rw [settleWithin]
      cases hs : nextStep b p with
      | none => rfl
      | some s =>
          obtain ⟨q, -, hlt, -⟩ := exists_of_nextStep hs
          omega
  | succ n ih =>
      rw [settleWithin]
      cases hs : nextStep b p with
      | none => exact ⟨.refl, hs⟩
      | some s =>
          obtain ⟨q, hmoves, hlt, hnone⟩ := exists_of_nextStep hs
          simp only [hmoves.step_eq]
          obtain ⟨hruns, hsettled⟩ := ih (p := q) (by omega)
          have hstep := Runs.step s .refl hmoves.step_eq
          rw [hnone] at hstep
          exact ⟨hstep.trans hruns, hsettled⟩

/-- Where the tasks end, the shutdown of a closed pool is all that a schedule can stop at. -/
theorem over_of_nextStep_eq_none (h : p.Staffed n) (hclosed : p.isClosed = true)
    (hends : ∀ task ∈ p.running, b.isHeld task = false) (hnone : nextStep b p = none) :
    p.shutdown = .over := by
  rcases nextStep_cases b p with ⟨-, hs⟩ | ⟨-, hs⟩ | ⟨i, w, s, -, -, hs⟩ | ⟨-, -, hs⟩ |
    ⟨hnotClosed, hidle, hjoin, -⟩
  · rw [hs] at hnone
    cases hnone
  · rw [hs] at hnone
    cases hnone
  · rw [hs] at hnone
    cases hnone
  · rw [hs] at hnone
    cases hnone
  · cases hshutdown : p.shutdown with
    | notBegun =>
        rw [isClosed_eq_false_iff.2 hshutdown] at hclosed
        cases hclosed
    | closed => exact absurd hshutdown hnotClosed
    | announced =>
        refine absurd ⟨hshutdown, fun w hw => ?_⟩ hjoin
        obtain ⟨i, hi⟩ := List.mem_iff_getElem?.1 hw
        have hstuck := hidle i w hi
        -- a worker that has no step to make sleeps, is held up, or is gone
        cases w with
        | exited => rfl
        | checking => cases hstuck
        | asleep => cases h.awake (Or.inl hshutdown) _ hw
        | running task =>
            have hrunning : task ∈ p.running := List.mem_filterMap.2 ⟨_, hw, rfl⟩
            rw [workerStep, hends task hrunning] at hstuck
            cases hstuck
    | _ => rfl

/-- A shutdown comes to its end if the tasks do. -/
theorem Runs.shutDown {log : List (τ × Bool)} (h : Runs (ofSize n) log p)
    (hends : ∀ task ∈ acceptedIn log, b.isHeld task = false) :
    Runs (ofSize n) log (shutDown b p) ∧ (shutDown b p).shutdown = .over := by
  obtain ⟨q, hq, hclosed, hsettle⟩ : ∃ q, Runs p [] q ∧ q.isClosed = true ∧
      WorkerPool.shutDown b p = settle b q := by
    unfold WorkerPool.shutDown
    cases hclose : p.close with
    | some q =>
        have hmoves : p.Moves .close q := moves_of_step hclose
        refine ⟨q, Runs.step .close .refl hclose, ?_, rfl⟩
        cases hmoves with
        | closed => rfl
        | closedAgain hover =>
            rw [isClosed, hover]
            rfl
    | none =>
        refine ⟨p, .refl, ?_, rfl⟩
        cases hopen : p.isClosed with
        | true => rfl
        | false =>
            rw [close, isClosed_eq_false_iff.1 hopen] at hclose
            cases hclose
  obtain ⟨hruns, hsettled⟩ := settleWithin_settles b (Nat.le_refl q.effort)
  have hall : Runs (ofSize n) log (settle b q) := by
    have htrans := (h.trans hq).trans hruns
    rw [List.append_nil, List.append_nil] at htrans
    exact htrans
  rw [hsettle]
  refine ⟨hall, over_of_nextStep_eq_none hall.staffed ?_ (fun task htask => hends task ?_) hsettled⟩
  · exact hruns.induction (P := fun q => q.isClosed = true) Moves.isClosed hclosed
  · rw [hall.accounts.partitioned.mem_iff, List.mem_append, List.mem_append]
    exact Or.inl (Or.inr htask)

end Schedules

section Starting

/-- A step that a worker makes by itself. -/
def Step.isByWorker : Step τ → Bool
  | .wakeUnbidden _ | .check _ | .finish _ _ => true
  | _ => false

/-- A worker makes a step. -/
def Works (p q : WorkerPool τ) : Prop :=
  ∃ s : Step τ, s.isByWorker = true ∧ p.Moves s q

/-- The pool with one worker more. -/
def hire (p : WorkerPool τ) : WorkerPool τ :=
  { p with workers := p.workers ++ [.checking] }

/-- What a pool can come to while its workers are started one by one, with the number of those that
were started. Nobody can submit a task yet. -/
inductive Starting (spawn : Nat → Except IoError Unit) : Nat → WorkerPool τ → Prop where
  | empty : Starting spawn 0 (ofSize 0)
  | spawned {i : Nat} {p : WorkerPool τ} : Starting spawn i p → spawn i = .ok () →
      Starting spawn (i + 1) p.hire
  | worked {i : Nat} {p q : WorkerPool τ} : Starting spawn i p → Works p q → Starting spawn i q

variable {spawn : Nat → Except IoError Unit} {i : Nat} {p q : WorkerPool τ}

theorem Works.runs (h : Works p q) : Runs p [] q := by
  obtain ⟨s, hs, hmoves⟩ := h
  have hnone : p.submission? s = none := by
    cases s with
    | submit => cases hs
    | _ => rfl
  have hstep := Runs.step s .refl hmoves.step_eq
  rw [hnone] at hstep
  exact hstep

theorem hire_setWorker {w : WorkerState τ} (h : p.workers[i]? = some w) (w' : WorkerState τ) :
    (p.setWorker i w').hire = p.hire.setWorker i w' := by
  obtain ⟨hi, -⟩ := List.getElem?_eq_some_iff.1 h
  simp only [hire, setWorker, List.set_append_left i w' hi]

/-- A worker does not notice that another one is started. -/
theorem Works.hire (h : Works p q) : Works p.hire q.hire := by
  have hold {i : Nat} {w : WorkerState τ} (hw : p.workers[i]? = some w) :
      p.hire.workers[i]? = some w := by
    obtain ⟨hi, -⟩ := List.getElem?_eq_some_iff.1 hw
    exact (List.getElem?_append_left hi).trans hw
  obtain ⟨s, hs, hmoves⟩ := h
  refine ⟨s, hs, ?_⟩
  cases hmoves with
  | stirred hw =>
      rw [hire_setWorker hw]
      exact .stirred (hold hw)
  | @took i task rest hw hqueue =>
      have hset := congrArg WorkerPool.workers (hire_setWorker hw (.running task))
      have hmoves := Moves.took (hold hw) hqueue
      rw [setWorker, ← workers_setWorker, ← hset] at hmoves
      exact hmoves
  | rested hw hqueue hopen =>
      rw [hire_setWorker hw]
      exact .rested (hold hw) hqueue hopen
  | left hw hqueue hclosed =>
      rw [hire_setWorker hw]
      exact .left (hold hw) hqueue hclosed
  | @ended i task ending hw =>
      have hset := congrArg WorkerPool.workers (hire_setWorker hw .checking)
      have hmoves : Moves p.hire (.finish i ending) _ := .ended (hold hw)
      rw [setWorker, ← workers_setWorker, ← hset] at hmoves
      exact hmoves
  | accepted | refused | unneeded | woken | closed | closedAgain | announced | joined => cases hs

/-- It makes no difference whether the workers are started one by one or all at once. -/
theorem Starting.reflTransGen (h : Starting spawn i p) :
    Relation.ReflTransGen Works (ofSize i) p := by
  induction h with
  | empty => exact .refl
  | @spawned i p _ _ ih =>
      have hsize : (ofSize (i + 1) : WorkerPool τ) = (ofSize i).hire := by
        rw [ofSize, hire, ofSize, List.replicate_succ']
      rw [hsize]
      exact ih.lift hire fun _ _ => Works.hire
  | worked _ hworks ih => exact ih.tail hworks

theorem Starting.runs (h : Starting spawn i p) : Runs (ofSize i) [] p := by
  have hworks := h.reflTransGen
  clear h
  induction hworks with
  | refl => exact .refl
  | tail _ hworks ih => exact ih.trans hworks.runs

theorem firstUnstarted_eq {e : IoError} (hspawn : spawn i = .error e) {n k : Nat} (hk : k ≤ i)
    (hn : i < k + n) (hbefore : ∀ j, k ≤ j → j < i → spawn j = .ok ()) :
    firstUnstarted spawn n k = some (i, e) := by
  induction n generalizing k with
  | zero => omega
  | succ n ih =>
      rw [firstUnstarted]
      rcases Nat.eq_or_lt_of_le hk with rfl | hlt
      · rw [hspawn]
      · rw [hbefore k (Nat.le_refl k) hlt]
        exact ih hlt (by omega) fun j hj => hbefore j (by omega)

end Starting

section Results

variable {n : Nat} {p : WorkerPool τ} {log : List (τ × Bool)}

/-- At all times an accepted task is queued, run, or finished, and they are begun in the order in
which they were accepted. A worker outlives its task, however that ends. Once the pool is closed it
refuses all tasks, and those that it runs were accepted before. Once its shutdown is over, which it
comes to if the tasks end, the workers are gone, all accepted tasks are finished, and nothing
changes any more. The same is true of the workers that had been started when one could not be: the
pool is shut down, and they are waited for. -/
theorem drained_of_runs (hn : 0 < n) (h : Runs (ofSize n) log p) :
    p.Accounts n log ∧
    (∀ i task ending, p.workers[i]? = some (.running task) →
      ∃ q, p.finish i ending = some q ∧ q.workers = p.workers.set i .checking) ∧
    (∀ more q, Runs p more q → p.started <+: q.started ∧ p.finished <+: q.finished) ∧
    (p.isClosed = true → (∀ task, p.submit task = (false, p)) ∧
      ∀ more q, Runs p more q → (∀ m ∈ more, m.2 = false) ∧
        q.started ++ q.queue = acceptedIn log) ∧
    (p.shutdown = .over → p.Drained log) ∧
    (∀ b : Behaviour τ, (∀ task ∈ acceptedIn log, b.isHeld task = false) →
      Runs (ofSize n) log (shutDown b p) ∧ (shutDown b p).shutdown = .over) ∧
    ∀ (spawn : Nat → Except IoError Unit) (i : Nat),
      (∀ (q r : WorkerPool τ), Starting spawn i q → Runs q [] r →
        r.Accounts i [] ∧ (r.shutdown = .over → r.Drained [])) ∧
      ∀ (b : Behaviour τ) (m : Nat) (e : IoError), i < m → (∀ j < i, spawn j = .ok ()) →
        spawn i = .error e → ∃ q, start b m spawn = (.error (.spawnFailed i e), q) ∧
          q.workers = List.replicate i .exited ∧ q.Drained [] := by
  refine ⟨h.accounts, ?_, fun more q hq => hq.isPrefix, ?_, fun hover => h.drained hover (Or.inl hn),
    fun b hends => h.shutDown hends, fun spawn i => ⟨?_, ?_⟩⟩
  · intro i task ending hw
    exact ⟨_, Moves.step_eq (.ended hw), rfl⟩
  · intro hclosed
    refine ⟨fun task => submit_of_isClosed task hclosed, fun more q hq => ?_⟩
    have hrefused := hq.refused hclosed
    refine ⟨hrefused, ?_⟩
    rw [(h.trans hq).started_append_queue, acceptedIn_append, acceptedIn_of_refused hrefused,
      List.append_nil]
  · intro q r hq hr
    have hruns := hq.runs.trans hr
    exact ⟨hruns.accounts, fun hover => hruns.drained hover (Or.inr rfl)⟩
  · intro b m e hi hbefore hspawn
    have hfirst : firstUnstarted spawn m 0 = some (i, e) :=
      firstUnstarted_eq hspawn (Nat.zero_le i) (by omega) fun j _ hj => hbefore j hj
    have hm : m ≠ 0 := Nat.ne_of_gt (Nat.lt_of_le_of_lt (Nat.zero_le i) hi)
    obtain ⟨hruns, hover⟩ :=
      Runs.shutDown (b := b) (.refl : Runs (ofSize i : WorkerPool τ) [] (ofSize i))
        (fun task htask => absurd htask List.not_mem_nil)
    have hdrained := hruns.drained hover (Or.inr rfl)
    refine ⟨shutDown b (ofSize i), ?_, ?_, hdrained⟩
    · rw [start, if_neg hm, hfirst]
    · exact List.eq_replicate_iff.2 ⟨hruns.staffed.length_workers, hdrained.exited⟩

/-- The run of some steps, if they can be made one after the other. -/
def run? (p : WorkerPool τ) : List (Step τ) → Option (WorkerPool τ × List (τ × Bool))
  | [] => some (p, [])
  | s :: steps => (p.step s).bind fun q =>
      (q.run? steps).map fun (r, log) => (r, (p.submission? s).toList ++ log)

theorem runs_of_run? {p q : WorkerPool τ} {steps : List (Step τ)} {log : List (τ × Bool)}
    (h : p.run? steps = some (q, log)) : Runs p log q := by
  induction steps generalizing p log with
  | nil =>
      cases h
      exact .refl
  | cons s steps ih =>
      obtain ⟨r, hr, hrest⟩ := Option.bind_eq_some_iff.1 h
      obtain ⟨⟨q', log'⟩, hq, heq⟩ := Option.map_eq_some_iff.1 hrest
      cases heq
      exact (Runs.step s .refl hr).trans (ih hq)

/-- Two tasks are submitted to one worker, the first of which panics. The pool is closed while the
second is queued, and a third is refused. -/
def panicking : List (Step Nat) :=
  [.check 0, .submit 7, .submit 8, .wakeOne (some 0), .check 0, .finish 0 .panicked, .close,
    .submit 9, .check 0, .wakeAll, .finish 0 .returned, .check 0, .join]

/-- Both accepted tasks have finished. -/
theorem drained_panicking :
    ∃ p, Runs (ofSize 1) [(7, true), (8, true), (9, false)] p ∧ p.shutdown = .over ∧
      p.finished = [(7, .panicked), (8, .returned)] ∧
      p.Accounts 1 [(7, true), (8, true), (9, false)] ∧
      p.Drained [(7, true), (8, true), (9, false)] := by
  have hrun : (ofSize 1).run? panicking = some (⟨[], [.exited], .over, 1, [7, 8], [7, 8],
      [(7, .panicked), (8, .returned)]⟩, [(7, true), (8, true), (9, false)]) := by
    decide
  have hruns := runs_of_run? hrun
  obtain ⟨haccounts, -, -, -, hdrained, -⟩ := drained_of_runs (by decide) hruns
  exact ⟨_, hruns, rfl, rfl, haccounts, hdrained rfl⟩

end Results

end WorkerPool

end HttpServer
