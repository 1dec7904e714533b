import HttpServer.Error

/-!
# A pool of workers

A fixed number of workers takes tasks from one queue, first in, first out. What the workers, those
who submit tasks and the one who shuts the pool down do under the lock of the queue is one step;
waking sleeping workers is a step of its own that comes later, so that anything may happen in
between.

A worker that is awake checks the queue: it takes the first task, or exits when the queue is empty
and closed, or falls asleep. It wakes when it is told to, or unbidden. A task ends by returning or
by panicking, and either way its worker checks the queue again.

A pool is shut down once: the queue is closed, then the sleepers are told, then all workers are
waited for. From the closing on, tasks are refused.

The state keeps account of the tasks: which were accepted, which were started and which have
finished, each in the order in which it happened.
-/

namespace HttpServer

/-- How a task ends. -/
inductive Ending where
  | returned
  | panicked
deriving DecidableEq, Repr

/-- What a worker is doing. -/
inductive WorkerState (τ : Type) where
  /-- Awake, and about to look at the queue. -/
  | checking
  | asleep
  | running (task : τ)
  | exited
deriving DecidableEq, Repr

namespace WorkerState

variable {τ : Type}

/-- The task that a worker is at. -/
def task? : WorkerState τ → Option τ
  | running t => some t
  | _ => none

/-- The worker waits to be woken. -/
def isAsleep : WorkerState τ → Bool
  | asleep => true
  | _ => false

/-- The worker is about to look at the queue. -/
def isChecking : WorkerState τ → Bool
  | checking => true
  | _ => false

/-- The worker is gone. -/
def hasExited : WorkerState τ → Bool
  | exited => true
  | _ => false

/-- The worker as it is after everybody was told to wake. -/
def awakened : WorkerState τ → WorkerState τ
  | asleep => checking
  | w => w

@[simp] theorem isAsleep_awakened (w : WorkerState τ) : w.awakened.isAsleep = false := by
  cases w <;> rfl

@[simp] theorem task?_awakened (w : WorkerState τ) : w.awakened.task? = w.task? := by
  cases w <;> rfl

end WorkerState

/-- How far the shutdown of a pool has come. -/
inductive Shutdown where
  | notBegun
  /-- The queue is closed; the sleepers have not been told. -/
  | closed
  /-- The sleepers were told; the workers are waited for. -/
  | announced
  | over
deriving DecidableEq, Repr

/-- Workers, their queue, and the account of their tasks. -/
structure WorkerPool (τ : Type) where
  queue : List τ
  workers : List (WorkerState τ)
  shutdown : Shutdown
  /-- Tasks were queued for which no worker has been told to wake yet. -/
  wakeupsDue : Nat
  accepted : List τ
  started : List τ
  finished : List (τ × Ending)
deriving DecidableEq, Repr

namespace WorkerPool

variable {τ : Type}

/-- A pool of workers that are awake, with an empty queue. -/
def ofSize (n : Nat) : WorkerPool τ :=
  ⟨[], List.replicate n .checking, .notBegun, 0, [], [], []⟩

/-- Tasks are refused. -/
def isClosed (p : WorkerPool τ) : Bool :=
  p.shutdown != .notBegun

/-- The number of tasks that wait for a worker. -/
def queued (p : WorkerPool τ) : Nat :=
  p.queue.length

/-- The number of workers not yet waited for. -/
def size (p : WorkerPool τ) : Nat :=
  match p.shutdown with
  | .over => 0
  | _ => p.workers.length

/-- The tasks that workers are at. -/
def running (p : WorkerPool τ) : List τ :=
  p.workers.filterMap WorkerState.task?

/-- The pool with one worker in another state. -/
def setWorker (p : WorkerPool τ) (worker : Nat) (w : WorkerState τ) : WorkerPool τ :=
  { p with workers := p.workers.set worker w }

/-- Queues a task. The answer tells whether the task was accepted. -/
def submit (p : WorkerPool τ) (task : τ) : Bool × WorkerPool τ :=
  if p.isClosed then (false, p)
  else
    (true, { p with
      queue := p.queue ++ [task]
      wakeupsDue := p.wakeupsDue + 1
      accepted := p.accepted ++ [task] })

/-- Tells one sleeper to wake, for a task queued earlier. Nobody is told only if nobody sleeps. -/
def wakeOne (p : WorkerPool τ) (sleeper : Option Nat) : Option (WorkerPool τ) :=
  if p.wakeupsDue = 0 then none
  else
    let p' := { p with wakeupsDue := p.wakeupsDue - 1 }
    match sleeper with
    | none => if p.workers.any WorkerState.isAsleep then none else some p'
    | some i =>
      match p.workers[i]? with
      | some .asleep => some (p'.setWorker i .checking)
      | _ => none

/-- A sleeper wakes unbidden. -/
def wakeUnbidden (p : WorkerPool τ) (worker : Nat) : Option (WorkerPool τ) :=
  match p.workers[worker]? with
  | some .asleep => some (p.setWorker worker .checking)
  | _ => none

/-- A worker that is awake looks at the queue: it takes the first task, or exits, or falls
asleep. -/
def check (p : WorkerPool τ) (worker : Nat) : Option (WorkerPool τ) :=
  match p.workers[worker]? with
  | some .checking =>
    match p.queue with
    | task :: rest =>
      some { p.setWorker worker (.running task) with
        queue := rest
        started := p.started ++ [task] }
    | [] => some (p.setWorker worker (if p.isClosed then .exited else .asleep))
  | _ => none

/-- The task of a worker ends. -/
def finish (p : WorkerPool τ) (worker : Nat) (ending : Ending) : Option (WorkerPool τ) :=
  match p.workers[worker]? with
  | some (.running task) =>
    some { p.setWorker worker .checking with finished := p.finished ++ [(task, ending)] }
  | _ => none

/-- Begins the shutdown by closing the queue. Shutting down a second time changes nothing. -/
def close (p : WorkerPool τ) : Option (WorkerPool τ) :=
  match p.shutdown with
  | .notBegun => some { p with shutdown := .closed }
  | .over => some p
  | _ => none

/-- Tells all sleepers that the queue is closed. -/
def wakeAll (p : WorkerPool τ) : Option (WorkerPool τ) :=
  match p.shutdown with
  | .closed =>
    some { p with shutdown := .announced, workers := p.workers.map WorkerState.awakened }
  | _ => none

/-- All workers have been waited for: the shutdown is over. -/
def join (p : WorkerPool τ) : Option (WorkerPool τ) :=
  match p.shutdown with
  | .announced =>
    if p.workers.all WorkerState.hasExited then some { p with shutdown := .over } else none
  | _ => none

/-- A step of the pool, of a submitter, of a worker or of the one who shuts it down. -/
inductive Step (τ : Type) where
  | submit (task : τ)
  | wakeOne (sleeper : Option Nat)
  | wakeUnbidden (worker : Nat)
  | check (worker : Nat)
  | finish (worker : Nat) (ending : Ending)
  | close
  | wakeAll
  | join
deriving DecidableEq, Repr

/-- The pool after a step, unless the step cannot be made. -/
def step (p : WorkerPool τ) : Step τ → Option (WorkerPool τ)
  | .submit task => some (p.submit task).2
  | .wakeOne sleeper => p.wakeOne sleeper
  | .wakeUnbidden worker => p.wakeUnbidden worker
  | .check worker => p.check worker
  | .finish worker ending => p.finish worker ending
  | .close => p.close
  | .wakeAll => p.wakeAll
  | .join => p.join

/-- What a pool of `n` workers can come to. -/
inductive Reachable (n : Nat) : WorkerPool τ → Prop where
  | start : Reachable n (ofSize n)
  | step {p q : WorkerPool τ} (s : Step τ) : Reachable n p → p.step s = some q → Reachable n q

@[simp] theorem workers_setWorker (p : WorkerPool τ) (i : Nat) (w : WorkerState τ) :
    (p.setWorker i w).workers = p.workers.set i w := rfl

@[simp] theorem queue_setWorker (p : WorkerPool τ) (i : Nat) (w : WorkerState τ) :
    (p.setWorker i w).queue = p.queue := rfl

@[simp] theorem shutdown_setWorker (p : WorkerPool τ) (i : Nat) (w : WorkerState τ) :
    (p.setWorker i w).shutdown = p.shutdown := rfl

theorem submit_of_isClosed {p : WorkerPool τ} (task : τ) (h : p.isClosed = true) :
    p.submit task = (false, p) := by
  simp [submit, h]

theorem close_of_over {p : WorkerPool τ} (h : p.shutdown = .over) : p.close = some p := by
  simp [close, h]

end WorkerPool

end HttpServer
