import HttpServer.Reactor

/-!
# Handing connections over

While a reactor serves, a connection passes from hand to hand. The kernel watches it for one
direction; one report of readiness ends the watching, and stands in a batch until the reactor attends
to it; the reactor queues a job; a worker takes the job, and at its end has the connection watched
again. The worker then still has to return, and meanwhile the next report may come and be attended
to. The reactor attends to a whole batch before it looks at its timers and asks for the next one,
while the workers go on at any time.

A job whose handler panics hands its connection to nobody. The worker goes on to the next job, and the
connection is left behind, open and not watched.

Of the kernel it is only assumed that a report is for a descriptor that is watched, of the direction
for which it is watched or of a hangup, that a batch has at most one report for a descriptor, and
that closing a descriptor ends its watching. Watching and reports carry the id of the connection for
which the descriptor was armed; nothing depends on it.
-/

namespace HttpServer

/-- A descriptor that is watched, for the connection that armed it. -/
structure Arming where
  descriptor : Int
  direction : Direction
  id : Nat
deriving DecidableEq, Repr

/-- An event, and the connection for which its descriptor was armed. -/
structure Report where
  event : Event
  id : Nat
deriving DecidableEq, Repr

/-- The readiness that a direction waits for. -/
def Direction.ready : Direction → Interest
  | .reading => .readable
  | .writing => .writable

/-- A reactor with the parts of its connections' passage that are not its own. -/
structure Handoff where
  reactor : Reactor
  armed : List Arming
  batch : List Report
  queued : List Job
  /-- Jobs that were taken and have not handed their connections on. -/
  running : List Job
  /-- Jobs that are at their end, and whose workers have yet to return. -/
  leaving : List Job
  /-- Connections that were left behind by handlers that panicked. -/
  abandoned : List Nat

namespace Handoff

/-- A reactor without connections. -/
def fresh (settings : ReactorSettings) : Handoff :=
  ⟨.fresh settings, [], [], [], [], [], []⟩

/-- The watching of a descriptor. -/
def arming? (h : Handoff) (descriptor : Int) : Option Arming :=
  h.armed.find? fun a => a.descriptor == descriptor

/-- A connection that is open. -/
def isOpen (h : Handoff) (id : Nat) : Bool :=
  match h.reactor.link? id with
  | some l => !l.connection.closed
  | none => false

/-- Ends the watching of all descriptors whose connections are closed. -/
def dropClosed (h : Handoff) : Handoff :=
  { h with armed := h.armed.filter fun a => h.isOpen a.id }

/-- Has a descriptor watched. -/
def arm (h : Handoff) (a : Arming) : Handoff :=
  { h with armed := a :: h.armed.filter fun x => x.descriptor != a.descriptor }

/-- A client asks for a connection. -/
def accept (h : Handoff) (now : Nat) (descriptor : Int) (registers : Bool) :
    Reactor.Admission × Handoff :=
  let (admission, r) := h.reactor.accept now descriptor registers
  let h := { h with reactor := r }
  (admission,
    match admission with
    | .admitted id => h.arm ⟨descriptor, .reading, id⟩
    | _ => h)

/-- An event can be reported for an arming: it is of its descriptor, and what it says is that the
direction is ready, or a hangup. -/
def reportable (a : Arming) (e : Event) : Bool :=
  e.descriptor == a.descriptor && e.mask != 0 &&
    e.mask &&& ~~~(a.direction.ready.bits ||| Event.hangupMask) == 0

/-- Reports events, if each of them can be, and no two are of one descriptor. Every report ends the
watching of its descriptor. -/
def report (h : Handoff) : List Event → Option Handoff
  | [] => some h
  | e :: rest =>
    match h.arming? e.descriptor with
    | none => none
    | some a =>
      if reportable a e then
        { h with
          armed := h.armed.filter fun x => x.descriptor != e.descriptor
          batch := h.batch ++ [Report.mk e a.id] }.report rest
      else none

/-- The reactor asks for the next batch, having attended to all of the last one. -/
def poll (h : Handoff) (events : List Event) : Option Handoff :=
  if h.batch = [] then h.report events else none

/-- The reactor attends to the next report. -/
def dispatch (h : Handoff) (now : Nat) : Option Handoff :=
  match h.batch with
  | [] => none
  | report :: rest =>
    let (job, r) := h.reactor.dispatch now report.event
    some { h with reactor := r, batch := rest, queued := h.queued ++ job.toList }.dropClosed

/-- A worker takes the next job. -/
def take (h : Handoff) : Option Handoff :=
  match h.queued with
  | [] => none
  | job :: rest => some { h with queued := rest, running := h.running ++ [job] }

/-- A worker ends a job, and with it has the connection watched again, unless it closed it. -/
def complete (h : Handoff) (files : FileTree) (job : Job) (conduct : Conduct) :
    Option (Option Connection.TaskEnd × Handoff) :=
  if job ∈ h.running then
    let (t, r) := h.reactor.perform files job conduct
    let h := { h with
      reactor := r
      running := h.running.erase job
      leaving := h.leaving ++ [job] }.dropClosed
    some (t,
      match t.bind Connection.TaskEnd.armed, r.link? job.id with
      | some d, some l => h.arm ⟨l.descriptor, d, job.id⟩
      | _, _ => h)
  else none

/-- A handler panics, which ends the job. -/
def unwind (h : Handoff) (job : Job) (conduct : Conduct) : Option Handoff :=
  if job ∈ h.running then
    (h.reactor.unwind job conduct).map fun r =>
      { h with
        reactor := r
        running := h.running.erase job
        leaving := h.leaving ++ [job]
        abandoned := job.id :: h.abandoned }
  else none

/-- A worker returns from a job. -/
def leave (h : Handoff) (job : Job) : Option Handoff :=
  if job ∈ h.leaving then some { h with leaving := h.leaving.erase job } else none

/-- The reactor lets the first timer expire, between batches. -/
def expireNext (h : Handoff) (now : Nat) : Option Handoff :=
  if h.batch = [] then
    (h.reactor.expireNext now).map fun r => { h with reactor := r }.dropClosed
  else none

/-- The reactor lets timers expire, between batches. -/
def expire (h : Handoff) (now : Nat) : Option Handoff :=
  if h.batch = [] then some { h with reactor := (h.reactor.expire now).2 }.dropClosed else none

/-- The reactor attends to the next notice, between batches. -/
def applyNext (h : Handoff) : Option Handoff :=
  if h.batch = [] then h.reactor.applyNext.map fun r => { h with reactor := r } else none

/-- The reactor attends to notices, between batches. -/
def applyClosed (h : Handoff) : Option Handoff :=
  if h.batch = [] then some { h with reactor := h.reactor.applyClosed } else none

/-- A step while a reactor serves. -/
inductive Step where
  | accept (now : Nat) (descriptor : Int) (registers : Bool)
  | poll (events : List Event)
  | dispatch (now : Nat)
  | take
  | complete (files : FileTree) (job : Job) (conduct : Conduct)
  | unwind (job : Job) (conduct : Conduct)
  | leave (job : Job)
  | expireNext (now : Nat)
  | expire (now : Nat)
  | applyNext
  | applyClosed

/-- The state after a step, unless the step cannot be made. A descriptor that an open connection has
is not given out. -/
def step (h : Handoff) : Step → Option Handoff
  | .accept now d registers =>
    if h.reactor.holds d then none else some (h.accept now d registers).2
  | .poll events => h.poll events
  | .dispatch now => h.dispatch now
  | .take => h.take
  | .complete files job conduct => (h.complete files job conduct).map Prod.snd
  | .unwind job conduct => h.unwind job conduct
  | .leave job => h.leave job
  | .expireNext now => h.expireNext now
  | .expire now => h.expire now
  | .applyNext => h.applyNext
  | .applyClosed => h.applyClosed

/-- The state after some steps, one after the other. -/
def run (h : Handoff) (steps : List Step) : Option Handoff := steps.foldlM step h

/-- What a serving reactor can come to. -/
inductive Reachable (settings : ReactorSettings) : Handoff → Prop where
  | start : Reachable settings (fresh settings)
  | step {h k : Handoff} (s : Step) :
      Reachable settings h → h.step s = some k → Reachable settings k

end Handoff

end HttpServer
