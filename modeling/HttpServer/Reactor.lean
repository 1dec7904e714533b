import HttpServer.Connection.Task
import HttpServer.Event.Interest
import HttpServer.Time.TimerHeap

/-!
# The reactor

The reactor owns the table of connections by descriptor and the idle timers, and hands the reading
and writing out as jobs. Three parties close connections: the reactor when the client hangs up, a
worker at the end of a task, and a timer that expires. The reactor puts its table and its timers in
order at once when it closes a connection itself. The other two leave a notice, to which the reactor
attends later; the descriptor may by then belong to a newer connection, which keeps its place.

A connection's id is its place in the list of all connections ever made. The state keeps account of
who closed which connection, in the order in which it happened.
-/

namespace HttpServer

/-- A connection and its descriptor. -/
structure Link where
  descriptor : Int
  connection : Connection

/-- What does not change while a reactor runs. -/
structure ReactorSettings where
  site : Site
  /-- Idle time after which a connection is closed. -/
  idleTimeout : Option Nat
  maxConnections : UInt64
  bufferSize : Nat

/-- A task to be run for a connection. -/
structure Job where
  id : Nat
  direction : Direction
deriving DecidableEq, Repr

/-- A connection was closed by a worker or by a timer. -/
structure ClosedNotice where
  id : Nat
  descriptor : Int
deriving DecidableEq, Repr

/-- Who closed a connection. -/
inductive Closer where
  /-- The reactor, because the client hung up. -/
  | reactor
  /-- A worker, at the end of a task. -/
  | worker
  /-- The idle timer. -/
  | timer
  /-- The reactor, because the connection could not be watched. -/
  | refusal
  /-- The reactor, when it stopped. -/
  | stopping
deriving DecidableEq, Repr

/-- Connections, the table and the timers for them, notices not yet attended to, and counters. -/
structure Reactor where
  settings : ReactorSettings
  links : List Link
  table : List (Int × Nat)
  timers : TimerHeap Nat
  notices : List ClosedNotice
  stats : Stats
  /-- The connections that were closed, and who closed them. -/
  closings : List (Nat × Closer)

namespace Reactor

/-- A reactor without connections. -/
def fresh (settings : ReactorSettings) : Reactor :=
  ⟨settings, [], [], .empty, [], .zero, []⟩

/-- The connection with an id. -/
def link? (r : Reactor) (id : Nat) : Option Link := r.links[id]?

/-- The connection that the table has for a descriptor. -/
def occupant? (r : Reactor) (descriptor : Int) : Option Nat :=
  (r.table.find? fun row => row.1 == descriptor).map Prod.snd

/-- The number of connections in the table. -/
def size (r : Reactor) : Nat := r.table.length

/-- Some connection that is open has a descriptor. -/
def holds (r : Reactor) (descriptor : Int) : Bool :=
  r.links.any fun l => !l.connection.closed && l.descriptor == descriptor

/-- Puts a connection into the table, in place of the one for its descriptor. -/
def seat (r : Reactor) (descriptor : Int) (id : Nat) : Reactor :=
  { r with table := (descriptor, id) :: r.table.filter fun row => row.1 != descriptor }

/-- Takes a connection out of the table, unless its descriptor belongs to another one. -/
def forget (r : Reactor) (id : Nat) (descriptor : Int) : Reactor :=
  if r.occupant? descriptor = some id then
    { r with table := r.table.filter fun row => row.1 != descriptor }
  else r

/-- Drops the timer of a connection. -/
def dropTimer (r : Reactor) (id : Nat) : Reactor :=
  { r with timers := (r.timers.remove id).2 }

/-- Sets a connection's state and the counters. -/
def update (r : Reactor) (id : Nat) (l : Link) (c : Connection) (stats : Stats) : Reactor :=
  { r with links := r.links.set id { l with connection := c }, stats := stats }

/-- Takes down who closed a connection. -/
def recordClosing (r : Reactor) (id : Nat) (closer : Closer) : Reactor :=
  { r with closings := r.closings ++ [(id, closer)] }

/-- Closes a connection. The answer tells whether this call did it. -/
def closeLink (r : Reactor) (id : Nat) (closer : Closer) : Bool × Reactor :=
  match r.link? id with
  | none => (false, r)
  | some l =>
    let (done, c, stats) := l.connection.close r.stats
    let r := r.update id l c stats
    (done, if done then r.recordClosing id closer else r)

/-- What becomes of a client that asks for a connection. -/
inductive Admission where
  /-- The server is full. -/
  | rejected
  /-- The connection could not be watched. -/
  | failed
  | admitted (id : Nat)
deriving DecidableEq, Repr

/-- As many connections are open as may be. -/
def isFull (r : Reactor) : Bool := r.settings.maxConnections ≤ r.stats.live.value

/-- Sets the idle timer of a new connection. -/
def startTimer (r : Reactor) (now id : Nat) : Reactor :=
  match r.settings.idleTimeout with
  | none => r
  | some t => { r with timers := r.timers.schedule now id t id }

/-- Counts a connection as accepted. -/
def countAccepted (r : Reactor) : Reactor :=
  { r with stats := { r.stats with accepted := r.stats.accepted.increment 1 } }

/-- Makes a connection for a client, which is watched from then on, if that can be done. -/
def connect (r : Reactor) (now : Nat) (descriptor : Int) (registers : Bool) : Admission × Reactor :=
  let id := r.links.length
  let (c, stats) := Connection.establish r.settings.bufferSize r.stats
  let r := { r with links := r.links ++ [Link.mk descriptor c], stats := stats }
  if registers then
    (.admitted id, ((r.startTimer now id).seat descriptor id).countAccepted)
  else (.failed, (r.closeLink id .refusal).2)

/-- Takes in a client, or turns it away when the server is full. -/
def accept (r : Reactor) (now : Nat) (descriptor : Int) (registers : Bool) : Admission × Reactor :=
  if r.isFull then
    (.rejected, { r with stats := { r.stats with rejected := r.stats.rejected.increment 1 } })
  else r.connect now descriptor registers

/-- Starts the idle time of a connection anew. -/
def extendTimer (r : Reactor) (now id : Nat) : Reactor :=
  match r.settings.idleTimeout with
  | none => r
  | some t => { r with timers := (r.timers.adjust now id t).2 }

/-- Closes a connection whose client hung up. -/
def hangUp (r : Reactor) (id : Nat) : Reactor :=
  match r.link? id with
  | none => r
  | some l => (((r.dropTimer id).forget id l.descriptor).closeLink id .reactor).2

/-- Attends to an event. A hangup closes the connection; otherwise being readable comes before being
writable, and the job is to be queued. -/
def dispatch (r : Reactor) (now : Nat) (e : Event) : Option Job × Reactor :=
  match r.occupant? e.descriptor with
  | none => (none, r)
  | some id =>
    if e.isHangup then (none, r.hangUp id)
    else if e.isReadable then (some ⟨id, .reading⟩, r.extendTimer now id)
    else if e.isWritable then (some ⟨id, .writing⟩, r.extendTimer now id)
    else (none, r)

/-- Leaves a notice that a connection is closed. -/
def notify (r : Reactor) (id : Nat) (descriptor : Int) : Reactor :=
  { r with notices := r.notices ++ [⟨id, descriptor⟩] }

/-- A worker runs a job. A connection that is closed by it leaves a notice. -/
def perform (r : Reactor) (files : FileTree) (job : Job) (conduct : Conduct) :
    Option Connection.TaskEnd × Reactor :=
  match r.link? job.id with
  | none => (none, r)
  | some l =>
    let t := l.connection.task r.settings.site files job.direction conduct r.stats
    let r := r.update job.id l t.connection t.stats
    (some t,
      if !l.connection.closed && t.connection.closed then
        (r.recordClosing job.id .worker).notify job.id l.descriptor
      else r)

/-- A worker runs a job whose handler panics. The connection is neither closed nor heard of. -/
def unwind (r : Reactor) (job : Job) (conduct : Conduct) : Option Reactor :=
  (r.link? job.id).bind fun l =>
    (l.connection.unwoundTask? r.settings.site job.direction conduct).map fun c =>
      r.update job.id l c r.stats

/-- Counts a connection as closed for being idle. -/
def countTimeout (r : Reactor) : Reactor :=
  { r with stats := { r.stats with timeouts := r.stats.timeouts.increment 1 } }

/-- The timer of a connection expires: the connection is closed if it is not, and a notice is left
in either case. -/
def expireOne (r : Reactor) (id : Nat) : Reactor :=
  match r.link? id with
  | none => r
  | some l =>
    let (done, r) := r.closeLink id .timer
    (if done then r.countTimeout else r).notify id l.descriptor

/-- Lets the timers that are due expire, and tells the time until the next deadline. -/
def expire (r : Reactor) (now : Nat) : Option Nat × Reactor :=
  let (fired, wait, timers) := r.timers.nextWait now
  (wait, fired.foldl (fun r n => r.expireOne n.action) { r with timers := timers })

/-- The first timer expires, if it is due. -/
def expireNext (r : Reactor) (now : Nat) : Option Reactor :=
  (r.timers.popDue? now).map fun (n, rest) => { r with timers := rest }.expireOne n.action

/-- Attends to one notice. -/
def applyOne (r : Reactor) (n : ClosedNotice) : Reactor :=
  (r.dropTimer n.id).forget n.id n.descriptor

/-- Attends to all notices. -/
def applyClosed (r : Reactor) : Reactor :=
  r.notices.foldl applyOne { r with notices := [] }

/-- Attends to the next notice. -/
def applyNext (r : Reactor) : Option Reactor :=
  match r.notices with
  | [] => none
  | n :: rest => some ({ r with notices := rest }.applyOne n)

/-- Closes every connection in the table and drops the timers. -/
def stop (r : Reactor) : Reactor :=
  let r := r.table.foldl (fun r row => (r.closeLink row.2 .stopping).2) r
  { r with table := [], timers := .empty, notices := [] }

/-- The workers run the jobs that they still have, and then the reactor stops. -/
def windUp (r : Reactor) (rest : List (FileTree × Job × Conduct)) : Reactor :=
  (rest.foldl (fun r t => (r.perform t.1 t.2.1 t.2.2).2) r).stop

@[simp] theorem occupant?_seat (r : Reactor) (d : Int) (id : Nat) (x : Int) :
    (r.seat d id).occupant? x = if x = d then some id else r.occupant? x := by
  unfold seat occupant?
  by_cases h : x = d
  · subst h
    simp
  · have hd : (d == x) = false := by simpa using Ne.symm h
    simp only [List.find?_cons, hd, h, if_false]
    rw [List.find?_filter]
    congr 2
    funext row
    by_cases hr : row.1 = x
    · simp [hr, h]
    · simp [hr]

end Reactor

end HttpServer
