import HttpServer.Worker.Schedule
import Mathlib.Data.List.Perm.Basic

/-!
# The account of the tasks of a pool

`Moves` are the rules for a pool: what each step needs, and what becomes of the pool by it. From
them alone follows what any number of steps preserves, whoever makes them and in whatever order.

A task that was accepted is queued, run by a worker, or finished. It is taken from the queue in the
order in which the tasks were accepted, and whichever way it ends, its worker looks at the queue
again. A worker leaves only when the pool is closed and nothing is queued. Since nothing is accepted
any more by then, the queue stays empty.
-/

namespace HttpServer

namespace WorkerPool

variable {τ : Type}

/-- The rules for a pool. -/
inductive Moves (p : WorkerPool τ) : Step τ → WorkerPool τ → Prop where
  | accepted {task : τ} : p.isClosed = false → Moves p (.submit task) { p with
      queue := p.queue ++ [task]
      wakeupsDue := p.wakeupsDue + 1
      accepted := p.accepted ++ [task] }
  | refused {task : τ} : p.isClosed = true → Moves p (.submit task) p
  | unneeded : 0 < p.wakeupsDue → (∀ w ∈ p.workers, w.isAsleep = false) →
      Moves p (.wakeOne none) { p with wakeupsDue := p.wakeupsDue - 1 }
  | woken {i : Nat} : 0 < p.wakeupsDue → p.workers[i]? = some .asleep →
      Moves p (.wakeOne (some i)) { p.setWorker i .checking with wakeupsDue := p.wakeupsDue - 1 }
  | stirred {i : Nat} : p.workers[i]? = some .asleep →
      Moves p (.wakeUnbidden i) (p.setWorker i .checking)
  | took {i : Nat} {task : τ} {rest : List τ} : p.workers[i]? = some .checking →
      p.queue = task :: rest → Moves p (.check i) { p.setWorker i (.running task) with
        queue := rest
        started := p.started ++ [task] }
  | rested {i : Nat} : p.workers[i]? = some .checking → p.queue = [] → p.isClosed = false →
      Moves p (.check i) (p.setWorker i .asleep)
  | left {i : Nat} : p.workers[i]? = some .checking → p.queue = [] → p.isClosed = true →
      Moves p (.check i) (p.setWorker i .exited)
  | ended {i : Nat} {task : τ} {ending : Ending} : p.workers[i]? = some (.running task) →
      Moves p (.finish i ending)
        { p.setWorker i .checking with finished := p.finished ++ [(task, ending)] }
  | closed : p.shutdown = .notBegun → Moves p .close { p with shutdown := .closed }
  | closedAgain : p.shutdown = .over → Moves p .close p
  | announced : p.shutdown = .closed → Moves p .wakeAll { p with
      shutdown := .announced
      workers := p.workers.map WorkerState.awakened }
  | joined : p.shutdown = .announced → (∀ w ∈ p.workers, w.hasExited = true) →
      Moves p .join { p with shutdown := .over }

section Rules

variable {p q : WorkerPool τ} {s : Step τ}

theorem isClosed_eq_false_iff : p.isClosed = false ↔ p.shutdown = .notBegun := by
  rw [isClosed, bne_eq_false_iff_eq]

theorem Moves.step_eq (h : p.Moves s q) : p.step s = some q := by
  cases h with
  | accepted hopen => simp [step, submit, hopen]
  | refused hclosed => simp [step, submit_of_isClosed _ hclosed]
  | unneeded hdue hawake =>
      have hnone : p.workers.any WorkerState.isAsleep = false := by
        rw [List.any_eq_false]
        exact fun w hw => Bool.not_eq_true _ ▸ hawake w hw
      simp [step, wakeOne, Nat.pos_iff_ne_zero.1 hdue, hnone]
  | woken hdue hw => simp [step, wakeOne, Nat.pos_iff_ne_zero.1 hdue, hw, setWorker]
  | stirred hw => simp [step, wakeUnbidden, hw]
  | took hw hqueue => simp [step, check, hw, hqueue]
  | rested hw hqueue hopen => simp [step, check, hw, hqueue, hopen]
  | left hw hqueue hclosed => simp [step, check, hw, hqueue, hclosed]
  | ended hw => simp [step, finish, hw]
  | closed hshutdown => simp [step, close, hshutdown]
  | closedAgain hshutdown => simp [step, close, hshutdown]
  | announced hshutdown => simp [step, wakeAll, hshutdown]
  | joined hshutdown hall =>
      have hexited : p.workers.all WorkerState.hasExited = true := List.all_eq_true.2 hall
      simp [step, join, hshutdown, hexited]

/-- A pool makes a step exactly by the rules. -/
theorem moves_of_step (h : p.step s = some q) : p.Moves s q := by
  cases s with
  | submit task =>
      cases h
      cases hclosed : p.isClosed with
      | true =>
          rw [submit_of_isClosed _ hclosed]
          exact .refused hclosed
      | false =>
          simp only [submit, hclosed, Bool.false_eq_true, if_false]
          exact .accepted hclosed
  | wakeOne sleeper =>
      simp only [step, wakeOne] at h
      split at h
      · cases h
      · rename_i hdue
        have hdue := Nat.pos_of_ne_zero hdue
        split at h
        · split at h
          · cases h
          · rename_i hnone
            cases h
            refine .unneeded hdue fun w hw => ?_
            exact Bool.not_eq_true _ ▸ List.any_eq_false.1 (Bool.not_eq_true _ ▸ hnone) w hw
        · split at h
          · rename_i hw
            cases h
            exact .woken hdue hw
          · cases h
  | wakeUnbidden worker =>
      simp only [step, wakeUnbidden] at h
      split at h
      · rename_i hw
        cases h
        exact .stirred hw
      · cases h
  | check worker =>
      simp only [step, check] at h
      split at h
      · rename_i hw
        split at h
        · rename_i hqueue
          cases h
          exact .took hw hqueue
        · rename_i hqueue
          cases h
          cases hclosed : p.isClosed with
          | true => exact .left hw hqueue hclosed
          | false => exact .rested hw hqueue hclosed
      · cases h
  | finish worker ending =>
      simp only [step, finish] at h
      split at h
      · rename_i hw
        cases h
        exact .ended hw
      · cases h
  | close =>
      simp only [step, close] at h
      split at h
      · rename_i hshutdown
        cases h
        exact .closed hshutdown
      · rename_i hshutdown
        cases h
        exact .closedAgain hshutdown
      · cases h
  | wakeAll =>
      simp only [step, wakeAll] at h
      split at h
      · rename_i hshutdown
        cases h
        exact .announced hshutdown
      · cases h
  | join =>
      simp only [step, join] at h
      split at h
      · rename_i hshutdown
        split at h
        · rename_i hall
          cases h
          exact .joined hshutdown (List.all_eq_true.1 hall)
        · cases h
      · cases h

/-- Once a pool is closed it stays closed. -/
theorem Moves.isClosed (h : p.Moves s q) (hp : p.isClosed = true) : q.isClosed = true := by
  cases h with
  | closed | announced | joined => rfl
  | _ => exact hp

end Rules

section Runs

/-- The answer to a submission, if a step is one. -/
def submission? (p : WorkerPool τ) : Step τ → Option (τ × Bool)
  | .submit task => some (task, (p.submit task).1)
  | _ => none

/-- What a pool can come to by steps in any order, with the tasks that were submitted meanwhile and
whether they were accepted. -/
inductive Runs (p : WorkerPool τ) : List (τ × Bool) → WorkerPool τ → Prop where
  | refl : Runs p [] p
  | step {q r : WorkerPool τ} {log : List (τ × Bool)} (s : Step τ) :
      Runs p log q → q.step s = some r → Runs p (log ++ (q.submission? s).toList) r

/-- The submitted tasks that were accepted. -/
def acceptedIn (log : List (τ × Bool)) : List τ :=
  (log.filter Prod.snd).map Prod.fst

variable {p q r : WorkerPool τ} {s : Step τ} {log more : List (τ × Bool)}

theorem acceptedIn_append (log more : List (τ × Bool)) :
    acceptedIn (log ++ more) = acceptedIn log ++ acceptedIn more := by
  rw [acceptedIn, List.filter_append, List.map_append]
  rfl

theorem Runs.trans (h : Runs p log q) (h' : Runs q more r) : Runs p (log ++ more) r := by
  induction h' with
  | refl =>
      rw [List.append_nil]
      exact h
  | step s _ hs ih =>
      rw [← List.append_assoc]
      exact .step s ih hs

/-- Whatever every step keeps, a run keeps. -/
theorem Runs.induction {P : WorkerPool τ → Prop}
    (hstep : ∀ {q r : WorkerPool τ} {s : Step τ}, q.Moves s r → P q → P r) (h : Runs p log q)
    (hp : P p) : P q := by
  induction h with
  | refl => exact hp
  | step s _ hs ih => exact hstep (moves_of_step hs) ih

/-- The account of accepted tasks is that of the answers. -/
theorem Moves.accepted_eq (h : p.Moves s q) :
    q.accepted = p.accepted ++ acceptedIn (p.submission? s).toList := by
  cases h with
  | accepted hopen => simp [submission?, submit, hopen, acceptedIn]
  | refused hclosed => simp [submission?, submit_of_isClosed _ hclosed, acceptedIn]
  | _ => exact (List.append_nil _).symm

theorem Runs.accepted_eq (h : Runs p log q) : q.accepted = p.accepted ++ acceptedIn log := by
  induction h with
  | refl => exact (List.append_nil _).symm
  | step s _ hs ih =>
      rw [(moves_of_step hs).accepted_eq, ih, acceptedIn_append, List.append_assoc]

/-- A closed pool refuses all tasks. -/
theorem Runs.refused (h : Runs p log q) (hp : p.isClosed = true) : ∀ m ∈ log, m.2 = false := by
  induction h with
  | refl => simp
  | @step q r log s hrun _ ih =>
      have hclosed := hrun.induction (P := fun q => q.isClosed = true) Moves.isClosed hp
      intro m hm
      rcases List.mem_append.1 hm with hm | hm
      · exact ih m hm
      · cases s with
        | submit task =>
            rw [submission?, submit_of_isClosed _ hclosed, Option.toList_some,
              List.mem_singleton] at hm
            rw [hm]
        | _ => cases hm

theorem acceptedIn_of_refused (h : ∀ m ∈ log, m.2 = false) : acceptedIn log = [] := by
  have hnone : log.filter Prod.snd = [] := by
    rw [List.filter_eq_nil_iff]
    intro m hm
    rw [h m hm]
    exact Bool.false_ne_true
  rw [acceptedIn, hnone, List.map_nil]

end Runs

section Tasks

/-- One worker in another state. -/
theorem perm_running_setWorker {p : WorkerPool τ} {i : Nat} {w : WorkerState τ}
    (h : p.workers[i]? = some w) (w' : WorkerState τ) :
    ((p.setWorker i w').running ++ w.task?.toList).Perm (p.running ++ w'.task?.toList) := by
  obtain ⟨hi, rfl⟩ := List.getElem?_eq_some_iff.1 h
  obtain ⟨front, back, hwhole, -, hset⟩ := @List.exists_of_set _ i w' p.workers hi
  have hcons (x : WorkerState τ) : (x :: back).filterMap WorkerState.task? =
      x.task?.toList ++ back.filterMap WorkerState.task? := by
    rw [List.filterMap_cons]
    cases x.task? <;> rfl
  rw [running, running, workers_setWorker, hset]
  conv => enter [2, 1]; rw [hwhole]
  simp only [List.filterMap_append, hcons, List.append_assoc]
  refine List.Perm.append_left _ ?_
  generalize (p.workers[i]).task?.toList = a
  generalize w'.task?.toList = b
  generalize back.filterMap WorkerState.task? = c
  calc (b ++ (c ++ a)).Perm ((c ++ a) ++ b) := List.perm_append_comm
    List.Perm _ ((a ++ c) ++ b) := List.perm_append_comm.append_right b
    _ = a ++ (c ++ b) := List.append_assoc _ _ _

/-- Where no task begins or ends, the tasks at hand are the same. -/
theorem perm_running_of_idle {p : WorkerPool τ} {i : Nat} {w w' : WorkerState τ}
    (h : p.workers[i]? = some w) (hw : w.task? = none) (hw' : w'.task? = none) :
    (p.setWorker i w').running.Perm p.running := by
  have hperm := perm_running_setWorker h w'
  rw [hw, hw', Option.toList_none, List.append_nil, List.append_nil] at hperm
  exact hperm

/-- Every accepted task is in one place, and they are started in the order in which they were
accepted. -/
structure Ordered (p : WorkerPool τ) : Prop where
  started_append_queue : p.started ++ p.queue = p.accepted
  perm_started : p.started.Perm (p.running ++ p.finished.map Prod.fst)

theorem ordered_ofSize (n : Nat) : (ofSize n : WorkerPool τ).Ordered := by
  refine ⟨rfl, ?_⟩
  have hnone : (ofSize n : WorkerPool τ).running = [] := by
    rw [running, List.filterMap_eq_nil_iff]
    intro w hw
    rw [(List.mem_replicate.1 hw).2]
    rfl
  rw [hnone]
  exact .refl _

variable {p q : WorkerPool τ} {s : Step τ}

theorem Moves.ordered (h : p.Moves s q) (hp : p.Ordered) : q.Ordered := by
  have hidle {i : Nat} {w w' : WorkerState τ} (hw : p.workers[i]? = some w)
      (hnone : w.task? = none) (hnone' : w'.task? = none) :
      p.started.Perm ((p.setWorker i w').running ++ p.finished.map Prod.fst) :=
    hp.perm_started.trans ((perm_running_of_idle hw hnone hnone').symm.append_right _)
  cases h with
  | accepted hopen =>
      refine ⟨?_, hp.perm_started⟩
      rw [← List.append_assoc, hp.started_append_queue]
  | woken hdue hw => exact ⟨hp.started_append_queue, hidle hw rfl rfl⟩
  | stirred hw => exact ⟨hp.started_append_queue, hidle hw rfl rfl⟩
  | rested hw => exact ⟨hp.started_append_queue, hidle hw rfl rfl⟩
  | left hw => exact ⟨hp.started_append_queue, hidle hw rfl rfl⟩
  | @took i task rest hw hqueue =>
      refine ⟨?_, ?_⟩
      · have horder := hp.started_append_queue
        rw [hqueue] at horder
        rw [List.append_assoc]
        exact horder
      · have hperm := perm_running_setWorker hw (.running task)
        have hperm : (p.setWorker i (.running task)).running.Perm (p.running ++ [task]) := by
          simpa [WorkerState.task?] using hperm
        calc (p.started ++ [task]).Perm ((p.running ++ p.finished.map Prod.fst) ++ [task]) :=
              hp.perm_started.append_right _
          List.Perm _ ((p.running ++ [task]) ++ p.finished.map Prod.fst) := by
              rw [List.append_assoc, List.append_assoc]
              exact List.perm_append_comm.append_left _
          List.Perm _ ((p.setWorker i (.running task)).running ++ p.finished.map Prod.fst) :=
              hperm.symm.append_right _
  | @ended i task ending hw =>
      refine ⟨hp.started_append_queue, ?_⟩
      have hperm := perm_running_setWorker hw .checking
      have hperm : ((p.setWorker i .checking).running ++ [task]).Perm p.running := by
        simpa [WorkerState.task?] using hperm
      calc p.started.Perm (p.running ++ p.finished.map Prod.fst) := hp.perm_started
        List.Perm _ (((p.setWorker i .checking).running ++ [task]) ++ p.finished.map Prod.fst) :=
            hperm.symm.append_right _
        List.Perm _ ((p.setWorker i .checking).running ++
            (p.finished ++ [(task, ending)]).map Prod.fst) := by
            rw [List.append_assoc, List.map_append]
            exact List.perm_append_comm.append_left _
  | announced hshutdown =>
      refine ⟨hp.started_append_queue, ?_⟩
      have hsame : (p.workers.map WorkerState.awakened).filterMap WorkerState.task? =
          p.running := by
        rw [List.filterMap_map, running]
        congr 1
        funext w
        exact WorkerState.task?_awakened w
      rw [running, hsame]
      exact hp.perm_started
  | refused | unneeded | closed | closedAgain | joined =>
      exact ⟨hp.started_append_queue, hp.perm_started⟩

/-- What was started stays started, and what was finished stays finished, each in its order. -/
theorem Moves.isPrefix (h : p.Moves s q) :
    p.started <+: q.started ∧ p.finished <+: q.finished := by
  cases h with
  | took => exact ⟨List.prefix_append _ _, List.prefix_rfl⟩
  | ended => exact ⟨List.prefix_rfl, List.prefix_append _ _⟩
  | _ => exact ⟨List.prefix_rfl, List.prefix_rfl⟩

end Tasks

section Workers

/-- The workers of a pool: none is lost, and none leaves as long as something is left to do. -/
structure Staffed (n : Nat) (p : WorkerPool τ) : Prop where
  length_workers : p.workers.length = n
  exited : ∀ w ∈ p.workers, w.hasExited = true → p.isClosed = true ∧ p.queue = []
  /-- Once the sleepers were told, nobody sleeps. -/
  awake : p.shutdown = .announced ∨ p.shutdown = .over → ∀ w ∈ p.workers, w.isAsleep = false
  gone : p.shutdown = .over → ∀ w ∈ p.workers, w.hasExited = true

theorem staffed_ofSize (n : Nat) : (ofSize n : WorkerPool τ).Staffed n := by
  refine ⟨List.length_replicate, ?_, ?_, ?_⟩
  · intro w hw hexited
    rw [(List.mem_replicate.1 hw).2] at hexited
    cases hexited
  · rintro (h | h)
    · cases h
    · cases h
  · intro h
    cases h

variable {n : Nat} {p q : WorkerPool τ} {s : Step τ}

/-- A worker that is not gone yet, after the shutdown: there is none. -/
theorem Staffed.not_over (h : p.Staffed n) {i : Nat} {w : WorkerState τ}
    (hw : p.workers[i]? = some w) (hstays : w.hasExited = false) : p.shutdown ≠ .over := by
  intro hover
  rw [h.gone hover w (List.mem_of_getElem? hw)] at hstays
  cases hstays

/-- A worker goes over to another state, and stays. -/
theorem Staffed.setWorker (h : p.Staffed n) {i : Nat} {w v : WorkerState τ}
    (hw : p.workers[i]? = some w) (hstays : w.hasExited = false)
    (hleaves : v.hasExited = true → p.isClosed = true ∧ p.queue = [])
    (hawake : p.isClosed = true → v.isAsleep = false) : (p.setWorker i v).Staffed n := by
  have hmem {x : WorkerState τ} (hx : x ∈ (p.setWorker i v).workers) : x = v ∨ x ∈ p.workers :=
    Or.symm (List.mem_or_eq_of_mem_set hx)
  have hover := h.not_over hw hstays
  refine ⟨?_, ?_, ?_, fun hdone => absurd hdone hover⟩
  · rw [workers_setWorker, List.length_set, h.length_workers]
  · intro x hx hexited
    rcases hmem hx with rfl | hx
    · exact hleaves hexited
    · exact h.exited x hx hexited
  · intro hdone x hx
    rcases hmem hx with rfl | hx
    · apply hawake
      rcases hdone with hdone | hdone
      · rw [isClosed, ← shutdown_setWorker p i x, hdone]
        rfl
      · exact absurd hdone hover
    · exact h.awake hdone x hx

theorem Moves.staffed (h : p.Moves s q) (hp : p.Staffed n) : q.Staffed n := by
  cases h with
  | accepted hopen =>
      refine ⟨hp.length_workers, ?_, hp.awake, hp.gone⟩
      intro w hw hexited
      obtain ⟨hclosed, -⟩ := hp.exited w hw hexited
      rw [hopen] at hclosed
      cases hclosed
  | unneeded => exact ⟨hp.length_workers, hp.exited, hp.awake, hp.gone⟩
  | woken hdue hw =>
      obtain ⟨hlength, hexited, hawake, hover⟩ :=
        hp.setWorker (v := .checking) hw rfl (fun h => (by cases h)) (fun _ => rfl)
      exact ⟨hlength, hexited, hawake, hover⟩
  | stirred hw => exact hp.setWorker hw rfl (fun h => (by cases h)) (fun _ => rfl)
  | @took i task rest hw hqueue =>
      obtain ⟨hlength, hexited, hawake, hover⟩ :=
        hp.setWorker (v := .running task) hw rfl (fun h => (by cases h)) (fun _ => rfl)
      refine ⟨hlength, ?_, hawake, hover⟩
      intro w hw hgone
      obtain ⟨-, hnil⟩ := hexited w hw hgone
      rw [queue_setWorker, hqueue] at hnil
      cases hnil
  | rested hw hqueue hopen =>
      refine hp.setWorker hw rfl (fun h => (by cases h)) fun hclosed => ?_
      rw [hopen] at hclosed
      cases hclosed
  | left hw hqueue hclosed =>
      exact hp.setWorker hw rfl (fun _ => ⟨hclosed, hqueue⟩) (fun _ => rfl)
  | ended hw =>
      obtain ⟨hlength, hexited, hawake, hover⟩ :=
        hp.setWorker (v := .checking) hw rfl (fun h => (by cases h)) (fun _ => rfl)
      exact ⟨hlength, hexited, hawake, hover⟩
  | closed hshutdown =>
      refine ⟨hp.length_workers, ?_, ?_, ?_⟩
      · exact fun w hw hexited => ⟨rfl, (hp.exited w hw hexited).2⟩
      · rintro (h | h)
        · cases h
        · cases h
      · intro h
        cases h
  | announced hshutdown =>
      have hmem {w : WorkerState τ} (hw : w ∈ p.workers.map WorkerState.awakened) :
          ∃ x ∈ p.workers, x.awakened = w := List.mem_map.1 hw
      refine ⟨?_, ?_, ?_, ?_⟩
      · rw [List.length_map, hp.length_workers]
      · intro w hw hexited
        obtain ⟨x, hx, rfl⟩ := hmem hw
        cases x with
        | exited => exact ⟨rfl, (hp.exited _ hx rfl).2⟩
        | checking | asleep | running => cases hexited
      · intro _ w hw
        obtain ⟨x, -, rfl⟩ := hmem hw
        exact WorkerState.isAsleep_awakened x
      · intro h
        cases h
  | joined hshutdown hall =>
      refine ⟨hp.length_workers, ?_, ?_, fun _ => hall⟩
      · intro w hw hexited
        exact ⟨rfl, (hp.exited w hw hexited).2⟩
      · exact fun _ => hp.awake (Or.inl hshutdown)
  | refused | closedAgain => exact hp

end Workers

end WorkerPool

end HttpServer
