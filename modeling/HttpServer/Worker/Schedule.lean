import HttpServer.Worker.Pool

/-!
# Running a pool of workers

A schedule makes the steps that a pool has left, one after the other, until it has none: sleepers
are woken as they should be, workers take tasks and finish them, in the order in which the workers
were started. Tasks that are held do not finish, and keep their workers. Every step costs part of
the effort that a pool has left, so a schedule comes to an end.

Starting a pool starts its workers one by one. When one cannot be started, those before it are shut
down, and there is no pool.
-/

namespace HttpServer

/-- What the tasks of a pool do. -/
structure Behaviour (τ : Type) where
  /-- The task does not end for now. -/
  isHeld : τ → Bool
  ending : τ → Ending

namespace WorkerPool

variable {τ : Type}

/-- The step that a worker has to make. -/
def workerStep (b : Behaviour τ) (worker : Nat) : WorkerState τ → Option (Step τ)
  | .checking => some (.check worker)
  | .running task => if b.isHeld task then none else some (.finish worker (b.ending task))
  | _ => none

/-- The first worker that sleeps. -/
def firstAsleep (p : WorkerPool τ) : Option Nat :=
  p.workers.findIdx? WorkerState.isAsleep

/-- The next step that has to be made. -/
def nextStep (b : Behaviour τ) (p : WorkerPool τ) : Option (Step τ) :=
  if 0 < p.wakeupsDue then some (.wakeOne p.firstAsleep)
  else if p.shutdown = .closed then some .wakeAll
  else
    match p.workers.zipIdx.findSome? fun (w, i) => workerStep b i w with
    | some s => some s
    | none =>
      if p.shutdown = .announced && p.workers.all WorkerState.hasExited then some .join else none

/-- How many steps a worker can make before the queue has to be looked at again. -/
def workerEffort : WorkerState τ → Nat
  | .checking => 1
  | .running _ => 2
  | _ => 0

/-- How many steps some workers can make before the queue has to be looked at again. -/
def workersEffort : List (WorkerState τ) → Nat
  | [] => 0
  | w :: rest => workerEffort w + workersEffort rest

/-- More steps than this cannot be made without new tasks. -/
def effort (p : WorkerPool τ) : Nat :=
  3 * p.queue.length + 3 * p.wakeupsDue + workersEffort p.workers +
    match p.shutdown with
    | .closed => p.workers.length + 2
    | .announced => 1
    | _ => 0

/-- Makes at most `n` of the steps that have to be made. -/
def settleWithin (b : Behaviour τ) : Nat → WorkerPool τ → WorkerPool τ
  | 0, p => p
  | n + 1, p =>
    match nextStep b p with
    | none => p
    | some s =>
      match p.step s with
      | some q => settleWithin b n q
      | none => p

/-- Makes all the steps that have to be made. -/
def settle (b : Behaviour τ) (p : WorkerPool τ) : WorkerPool τ :=
  settleWithin b p.effort p

/-- Shuts a pool down. -/
def shutDown (b : Behaviour τ) (p : WorkerPool τ) : WorkerPool τ :=
  match p.close with
  | some q => settle b q
  | none => settle b p

/-- The first worker that cannot be started, and why. -/
def firstUnstarted (spawn : Nat → Except IoError Unit) : Nat → Nat → Option (Nat × IoError)
  | 0, _ => none
  | n + 1, i =>
    match spawn i with
    | .ok () => firstUnstarted spawn n (i + 1)
    | .error e => some (i, e)

/-- Starts a pool of `n` workers. Where that fails, the workers that were started have been shut
down. -/
def start (b : Behaviour τ) (n : Nat) (spawn : Nat → Except IoError Unit) :
    Except PoolError Unit × WorkerPool τ :=
  if n = 0 then (.error .noWorkers, shutDown b (ofSize 0))
  else
    match firstUnstarted spawn n 0 with
    | none => (.ok (), ofSize n)
    | some (i, e) => (.error (.spawnFailed i e), shutDown b (ofSize i))

/-- Every state of a schedule can be reached. -/
theorem Reachable.settleWithin {b : Behaviour τ} {k n : Nat} {p : WorkerPool τ}
    (h : Reachable k p) : Reachable k (WorkerPool.settleWithin b n p) := by
  induction n generalizing p with
  | zero => exact h
  | succ n ih =>
    unfold WorkerPool.settleWithin
    split
    · exact h
    · split
      · rename_i hs
        exact ih (.step _ h hs)
      · exact h

theorem Reachable.settle {b : Behaviour τ} {k : Nat} {p : WorkerPool τ}
    (h : Reachable k p) : Reachable k (WorkerPool.settle b p) :=
  h.settleWithin

theorem Reachable.shutDown {b : Behaviour τ} {k : Nat} {p : WorkerPool τ}
    (h : Reachable k p) : Reachable k (WorkerPool.shutDown b p) := by
  unfold WorkerPool.shutDown
  split
  · rename_i q hq
    exact (Reachable.step .close h hq).settle
  · exact h.settle

end WorkerPool

end HttpServer
