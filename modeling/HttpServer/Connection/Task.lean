import HttpServer.Connection

/-!
# The tasks of a connection

A connection is served by two tasks. The reading task takes in what has arrived and reads on in it;
the writing task writes until nothing is left, and then reads on in what had arrived before. Each
task ends by saying what the connection has to wait for next: to be read from, or to be written to.
Otherwise the task has closed the connection, or has found it closed.

A handler that panics ends the task where it stands (`unwoundTask?`): the connection stays open, and
waits for nothing.

What the outside does during a task is its `Conduct`.
-/

namespace HttpServer

/-- What a connection waits for. -/
inductive Direction where
  | reading
  | writing
deriving DecidableEq, Repr

/-- What the outside does during a task. -/
structure Conduct where
  /-- What reads come to. -/
  arrivals : Script
  /-- What writes come to; where it ends, a write would block. -/
  takings : List (Except IoError Nat)
  /-- The connection can be armed again. -/
  rearms : Bool

/-- A response as it was built. -/
structure Built where
  /-- The head and the body, that of an attached file included. -/
  bytes : Bytes
  keepAlive : Bool
  /-- The handler that was asked for it. -/
  call : Option Site.Call

namespace Connection

/-- The response that was built, if one was. -/
def Processed.built? (p : Processed) : Option Built :=
  if p.isReady then some ⟨p.connection.unsent, p.connection.isKeptAlive, p.call⟩ else none

/-- What a task came to. -/
structure TaskEnd where
  /-- The bytes that the stream took. -/
  sent : Bytes
  /-- The response that was built. -/
  built : Option Built
  /-- What the connection waits for, unless it is closed. -/
  armed : Option Direction
  connection : Connection
  stats : Stats

namespace TaskEnd

/-- A task that found the connection closed. -/
def idle (c : Connection) (stats : Stats) : TaskEnd :=
  ⟨[], none, none, c, stats⟩

end TaskEnd

/-- Ends a task by closing the connection. -/
def endClosed (c : Connection) (sent : Bytes) (built : Option Built) (stats : Stats) : TaskEnd :=
  let (_, c, stats) := c.close stats
  ⟨sent, built, none, c, stats⟩

/-- Ends a task by arming the connection, which is closed if that cannot be done. -/
def endArmed (c : Connection) (rearms : Bool) (d : Direction) (sent : Bytes)
    (built : Option Built) (stats : Stats) : TaskEnd :=
  if rearms then ⟨sent, built, some d, c, stats⟩ else c.endClosed sent built stats

/-- What a connection waits for after reading on: to be written to if a response is ready. -/
def Processed.direction (p : Processed) : Direction :=
  if p.isReady then .writing else .reading

/-- Ends a task by reading on in what has arrived. -/
def endProcessing (c : Connection) (site : Site) (files : FileTree) (rearms : Bool)
    (sent : Bytes) (stats : Stats) : TaskEnd :=
  let p := c.process site files stats
  p.connection.endArmed rearms p.direction sent p.built? p.stats

/-- The reading task. -/
def readTask (c : Connection) (site : Site) (files : FileTree) (conduct : Conduct)
    (stats : Stats) : TaskEnd :=
  if c.closed then .idle c stats
  else
    match c.read conduct.arrivals with
    | (.error _, c) => c.endClosed [] none stats
    | (.ok _, c) => c.endProcessing site files conduct.rearms [] stats

/-- How writing ends. -/
inductive Delivery where
  | complete
  | waiting
  | broken (e : IoError)
deriving DecidableEq, Repr

/-- Writes until nothing is pending, a write would block, or one fails. Interrupted writes are tried
again. -/
def deliver : List (Except IoError Nat) → Connection → Bytes × Delivery × Connection
  | takings, c =>
    if c.pending = 0 then ([], .complete, c)
    else
      match takings with
      | [] => ([], .waiting, c)
      | taking :: rest =>
        match c.write taking with
        | (.ok bs, c) =>
          let (more, d, c) := deliver rest c
          (bs ++ more, d, c)
        | (.error e, c) =>
          match e.kind with
          | .wouldBlock => ([], .waiting, c)
          | .interrupted => deliver rest c
          | _ => ([], .broken e, c)

/-- The writing task. -/
def writeTask (c : Connection) (site : Site) (files : FileTree) (conduct : Conduct)
    (stats : Stats) : TaskEnd :=
  if c.closed then .idle c stats
  else
    match deliver conduct.takings c with
    | (sent, .waiting, c) => c.endArmed conduct.rearms .writing sent none stats
    | (sent, .broken _, c) => c.endClosed sent none stats
    | (sent, .complete, c) =>
      if c.isKeptAlive then c.reset.endProcessing site files conduct.rearms sent stats
      else c.endClosed sent none stats

/-- The task for a direction. -/
def task (c : Connection) (site : Site) (files : FileTree) (d : Direction) (conduct : Conduct)
    (stats : Stats) : TaskEnd :=
  match d with
  | .reading => c.readTask site files conduct stats
  | .writing => c.writeTask site files conduct stats

/-- The connection that a task leaves whose handler panics; `none` for a task that asks no handler. -/
def unwoundTask? (c : Connection) (site : Site) (d : Direction) (conduct : Conduct) :
    Option Connection :=
  if c.closed then none
  else
    match d with
    | .reading =>
      match c.read conduct.arrivals with
      | (.error _, _) => none
      | (.ok _, c) => c.unwound? site
    | .writing =>
      match deliver conduct.takings c with
      | (_, .complete, c) => if c.isKeptAlive then c.reset.unwound? site else none
      | _ => none

theorem closed_endClosed (c : Connection) (sent : Bytes) (built : Option Built) (stats : Stats) :
    (c.endClosed sent built stats).connection.closed = true :=
  closed_close c stats

/-- A closed connection stays as it is. -/
theorem task_of_closed {c : Connection} (h : c.closed = true) (site : Site) (files : FileTree)
    (d : Direction) (conduct : Conduct) (stats : Stats) :
    c.task site files d conduct stats = .idle c stats := by
  cases d <;> simp [task, readTask, writeTask, h]

end Connection

end HttpServer
