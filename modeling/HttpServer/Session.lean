import HttpServer.Reactor.Handoff
import HttpServer.Server

/-!
# A serving reactor and its clients

A session has a server that serves, and clients with names, each at the far end of a stream. After
every act of a client the server does all that it can do at once: it attends to reports, runs jobs,
and asks what is ready. Time passes only while a client waits for something, and then it leaps to the
next deadline of the server's timers.

A client that finds the server full is sent a short text and is left.
-/

namespace HttpServer

/-- A client, its stream, and the connection that the server has made for it. -/
structure Client where
  name : String
  stream : StreamPair
  id : Option Nat

/-- Why a session cannot go on. -/
inductive SessionError where
  /-- The server cannot be reached. -/
  | unreachable (cause : IoError)
  | unknownClient (name : String)
  /-- A client waits for what will not come. -/
  | stuck
deriving Repr

/-- A serving reactor, its clients, the files that it serves, and the clock. -/
structure Session where
  network : Network
  listener : Listener
  handoff : Handoff
  clients : List Client
  files : FileTree
  now : Nat

namespace Session

/-- A server that has begun to serve. -/
def start (n : Network) (l : Listener) (r : Reactor) (files : FileTree) : Session :=
  ⟨n, l, { Handoff.fresh r.settings with reactor := r }, [], files, 0⟩

/-- The reactor that serves. -/
def reactor (s : Session) : Reactor := s.handoff.reactor

/-- The stream of a connection. -/
def stream (s : Session) (id : Nat) : StreamPair :=
  match s.clients.find? fun c => c.id == some id with
  | some c => c.stream
  | none => .fresh

/-- Changes the streams of the clients. -/
def mapStreams (s : Session) (f : Client → StreamPair) : Session :=
  { s with clients := s.clients.map fun c => { c with stream := f c } }

/-- Closes the streams of the connections that the server has closed. -/
def closeStreams (s : Session) : Session :=
  s.mapStreams fun c =>
    match c.id with
    | some id => if s.handoff.isOpen id then c.stream else c.stream.close
    | none => c.stream

/-- The conditions for which the descriptor of an arming is watched. -/
def watchedMask (a : Arming) : UInt32 :=
  a.direction.ready.bits ||| Event.hangupMask

/-- The events that can be reported now. -/
def readyEvents (s : Session) : List Event :=
  s.handoff.armed.filterMap fun a =>
    let mask := (s.stream a.id).conditions &&& watchedMask a
    if mask = 0 then none else some ⟨a.descriptor, mask⟩

/-- What the stream of a connection does during a task. -/
def conduct (stream : StreamPair) (c : Connection) : Conduct :=
  ⟨stream.script, [stream.takes c.unsent.length], true⟩

/-- A worker runs a job from beginning to end. -/
def runJob (s : Session) (job : Job) : Option Session :=
  (s.reactor.link? job.id).bind fun l =>
    let stream := s.stream job.id
    (s.handoff.complete s.files job (conduct stream l.connection)).bind fun (t, h) =>
      (h.leave job).map fun h =>
        let stream := match job.direction with
          | .reading => stream.drained
          | .writing => stream.write ((t.map Connection.TaskEnd.sent).getD [])
        let s := s.mapStreams fun c => if c.id = some job.id then stream else c.stream
        { s with handoff := h }.closeStreams

/-- The next thing that the server can do at once. -/
def turn (s : Session) : Option Session :=
  let advance (h : Handoff) : Session := { s with handoff := h }.closeStreams
  match s.handoff.batch, s.handoff.queued with
  | _ :: _, _ => (s.handoff.dispatch s.now).map advance
  | [], job :: _ => s.handoff.take.bind fun h => (advance h).runJob job
  | [], [] =>
    match s.readyEvents with
    | [] => none
    | events => (s.handoff.applyClosed.bind fun h => h.poll events).map advance

/-- At most `n` of the things that the server can do at once. -/
def settleWithin : Nat → Session → Session
  | 0, s => s
  | n + 1, s =>
    match s.turn with
    | some t => settleWithin n t
    | none => s

/-- More things than this cannot be done at once. -/
def effort (s : Session) : Nat :=
  s.clients.foldl (fun n c => n + 16 + 4 * c.stream.incoming.length) 16

/-- All that the server can do at once. -/
def settle (s : Session) : Session :=
  settleWithin s.effort s

/-- The earliest deadline. -/
def nextDeadline (s : Session) : Option Nat :=
  s.reactor.timers.nodes[0]?.map Timer.deadline

/-- Time passes until the next deadline. -/
def leap (s : Session) : Option Session :=
  s.nextDeadline.bind fun t =>
    let now := max s.now t
    (s.handoff.expire now).bind fun h => h.applyClosed.map fun h =>
      { s with handoff := h, now := now }.closeStreams.settle

/-- Time passes until something holds, for at most `n` deadlines. -/
def waitWithin (holds : Session → Bool) : Nat → Session → Option Session
  | n, s =>
    if holds s then some s
    else
      match n with
      | 0 => none
      | n + 1 => s.leap.bind (waitWithin holds n)

/-- Time passes until something holds. -/
def waitFor (s : Session) (holds : Session → Bool) : Except SessionError Session :=
  match waitWithin holds (s.clients.length + 1) s with
  | some t => .ok t
  | none => .error .stuck

/-- The text for a client that finds the server full. -/
def busyText : Bytes := Bytes.ascii "Server Busy!"

/-- A descriptor that no connection has had. -/
def freshDescriptor (s : Session) : Int := s.reactor.links.length + 8

/-- A client connects. A later one of the same name takes its place. -/
def connect (s : Session) (name : String) : Except SessionError Session :=
  match s.network.reach s.listener.address with
  | .error e => .error (.unreachable (.os e))
  | .ok () =>
    let (admission, h) := s.handoff.accept s.now s.freshDescriptor true
    let client : Client :=
      match admission with
      | .admitted id => ⟨name, .fresh, some id⟩
      | _ => ⟨name, (StreamPair.fresh.write busyText).close, none⟩
    let others := s.clients.filter fun c => c.name != name
    .ok { s with handoff := h, clients := client :: others }.settle

/-- The client of a name. -/
def client (s : Session) (name : String) : Except SessionError Client :=
  match s.clients.find? fun c => c.name == name with
  | some c => .ok c
  | none => .error (.unknownClient name)

/-- The session with the stream of a client changed. -/
def setStream (s : Session) (name : String) (stream : StreamPair) : Session :=
  s.mapStreams fun c => if c.name = name then stream else c.stream

/-- Something happens at the far end of a client's stream. -/
def act (s : Session) (name : String) (f : StreamPair → StreamPair) :
    Except SessionError Session := do
  let c ← s.client name
  return (s.setStream name (f c.stream)).settle

/-- A client sends. -/
def send (s : Session) (name : String) (bs : Bytes) : Except SessionError Session :=
  s.act name fun stream => (stream.send bs).2

/-- The position behind a head. -/
def headEnd? : Bytes → Option Nat
  | [] => none
  | b :: r =>
    if Bytes.strip? (Bytes.crlf ++ Bytes.crlf) (b :: r) = none then (headEnd? r).map (· + 1)
    else some 4

/-- The name in front of the length of a body. -/
def lengthName : Bytes := Bytes.ascii "Content-Length: "

/-- The length of a body that a head announces. -/
def announced? : Bytes → Option Nat
  | [] => none
  | b :: r =>
    match Bytes.strip? lengthName (b :: r) with
    | some v => some (Bytes.decimalValue (v.takeWhile Bytes.isDigit))
    | none => announced? r

/-- The length of the response that some bytes open with, if all of it is there. -/
def responseLength? (bs : Bytes) : Option Nat :=
  (headEnd? bs).bind fun n =>
    let total := n + (announced? (bs.take n)).getD 0
    if total ≤ bs.length then some total else none

/-- The bytes that a client can receive. -/
def outgoing (s : Session) (name : String) : Bytes :=
  match s.client name with
  | .ok c => c.stream.outgoing
  | .error _ => []

/-- The server has closed the stream of a client. -/
def isClosed (s : Session) (name : String) : Bool :=
  match s.client name with
  | .ok c => c.stream.closed
  | .error _ => false

/-- A client receives `n` bytes. -/
def takeOutgoing (s : Session) (name : String) (n : Nat) : Bytes × Session :=
  let bs := s.outgoing name
  (bs.take n, s.mapStreams fun c =>
    if c.name = name then { c.stream with outgoing := bs.drop n } else c.stream)

/-- What a client receives. -/
inductive Received where
  | response (bs : Bytes)
  /-- The server closed before a response was there. -/
  | closedAfter (bs : Bytes)
deriving Repr

/-- A client receives one response. -/
def receive (s : Session) (name : String) : Except SessionError (Received × Session) := do
  let _ ← s.client name
  let s ← s.waitFor fun s => (responseLength? (s.outgoing name)).isSome || s.isClosed name
  match responseLength? (s.outgoing name) with
  | some n =>
    let (bs, s) := s.takeOutgoing name n
    return (.response bs, s)
  | none =>
    let (bs, s) := s.takeOutgoing name (s.outgoing name).length
    return (.closedAfter bs, s)

/-- A client receives all that comes until the server closes. -/
def receiveAll (s : Session) (name : String) : Except SessionError (Bytes × Session) := do
  let _ ← s.client name
  let s ← s.waitFor fun s => s.isClosed name
  return s.takeOutgoing name (s.outgoing name).length

/-- Time passes until a counter has a value. -/
def waitForCount (s : Session) (counter : Stats → Counter) (n : UInt64) :
    Except SessionError Session :=
  s.waitFor fun s => (counter s.reactor.stats).value == n

/-- The server stops. -/
def stop (s : Session) : Reactor := s.reactor.applyClosed.stop

end Session

end HttpServer
