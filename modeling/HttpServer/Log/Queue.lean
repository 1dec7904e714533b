import HttpServer.Log.Record

/-!
# A log with a background writer

A queued log hands lines and requests to flush over to a background writer, through a channel of
bounded length. A caller waits while the channel is full, and who flushes waits until the writer has
come to that request and has answered. Caller and writer are interleaved in any order, one step at a
time. The writer takes an entry out of the channel first and does what it says later, so that the
channel may fill up again in between.
-/

namespace HttpServer

/-- What the caller of a queued log is at. -/
inductive LogCaller where
  /-- At no flush. -/
  | free
  /-- A flush was asked for and is not answered. -/
  | waiting
  /-- The flush is answered, and has not returned. -/
  | answered
deriving DecidableEq, Repr

/-- A log with a background writer. -/
structure QueuedLog where
  filter : LogFilter
  /-- The entries that may wait for the writer. -/
  capacity : Nat
  channel : List LogEntry
  /-- The entry that the writer has taken and not dealt with. -/
  held : Option LogEntry
  written : List LogEntry
  /-- The calls made so far, the one that waits included. -/
  calls : List LogCall
  caller : LogCaller
deriving DecidableEq, Repr

namespace QueuedLog

/-- A log of which nothing was asked. -/
def fresh (filter : LogFilter) (capacity : Nat) : QueuedLog :=
  ⟨filter, capacity, [], none, [], [], .free⟩

/-- The caller makes a call, unless it is at a flush or the channel has no room for it. -/
def call (q : QueuedLog) (c : LogCall) : Option QueuedLog :=
  match q.caller with
  | .free =>
    match c.entry? q.filter with
    | none => some { q with calls := q.calls ++ [c] }
    | some e =>
      if q.channel.length < q.capacity then
        some { q with
          channel := q.channel ++ [e]
          calls := q.calls ++ [c]
          caller := if e = .flush then .waiting else .free }
      else none
  | _ => none

/-- The writer takes the next entry. -/
def take (q : QueuedLog) : Option QueuedLog :=
  match q.held, q.channel with
  | none, e :: rest => some { q with channel := rest, held := some e }
  | _, _ => none

/-- The writer does what the entry says that it has taken. A flush is answered. -/
def write (q : QueuedLog) : Option QueuedLog :=
  match q.held with
  | none => none
  | some e =>
    some { q with
      held := none
      written := q.written ++ [e]
      caller := if e = .flush then .answered else q.caller }

/-- The flush that was answered returns. -/
def resume (q : QueuedLog) : Option QueuedLog :=
  match q.caller with
  | .answered => some { q with caller := .free }
  | _ => none

/-- A step of the caller or of the writer. -/
inductive Step where
  | call (c : LogCall)
  | take
  | write
  | resume
deriving DecidableEq, Repr

/-- The log after a step, unless the step cannot be made. -/
def step (q : QueuedLog) : Step → Option QueuedLog
  | .call c => q.call c
  | .take => q.take
  | .write => q.write
  | .resume => q.resume

/-- What a log with a filter and a capacity can come to. -/
inductive Reachable (f : LogFilter) (capacity : Nat) : QueuedLog → Prop where
  | start : Reachable f capacity (fresh f capacity)
  | step {q r : QueuedLog} (s : Step) :
      Reachable f capacity q → q.step s = some r → Reachable f capacity r

/-- The writer works until nothing is left, and a flush that was asked for returns. -/
def drain (q : QueuedLog) : QueuedLog :=
  { q with
    channel := []
    held := none
    written := q.written ++ (q.held.toList ++ q.channel)
    caller := .free }

/-- Who asked for a flush waits for it. -/
def settle (q : QueuedLog) : QueuedLog :=
  match q.caller with
  | .free => q
  | _ => q.drain

/-- The caller makes a call, for which the writer makes room where there is none, and waits for
what it has to wait for. -/
def perform (q : QueuedLog) (c : LogCall) : QueuedLog :=
  match q.call c with
  | some r => r.settle
  | none =>
    match q.drain.call c with
    | some r => r.settle
    | none => q

end QueuedLog

end HttpServer
