import HttpServer.Buffer.Transfer
import HttpServer.Message.RequestReader
import HttpServer.Site
import HttpServer.Stats
import HttpServer.Stream

/-!
# A connection

A connection reads requests into one buffer, builds each response into another one, and writes it,
followed by the content of the attached file. Two cursors say how much of a response was written: the
read cursor of the outbound buffer, and behind the head the number of bytes of the file. Reading,
building and writing are separate acts, and may come in any order.

Once the end of a request was seen, what else has arrived is dropped. A request that failed is
answered with an error and ends the connection, since the stream is out of step with the client.

Closing is final: all that the connection held is let go of, and reading and writing fail from then
on. The counters of the server count connections that are open and responses that were built.
-/

namespace HttpServer

/-- What a connection holds. -/
structure Connection where
  closed : Bool
  inbound : ByteBuffer
  outbound : ByteBuffer
  reader : RequestReader
  response : Response
  /-- Bytes of the attached file that were written. -/
  fileSent : Nat

namespace Connection

/-- A connection on which nothing has happened. -/
def fresh (bufferSize : Nat) : Connection :=
  ⟨false, .empty bufferSize, .empty bufferSize, .start, .blank, 0⟩

/-- A new connection, counted as open. -/
def establish (bufferSize : Nat) (stats : Stats) : Connection × Stats :=
  (fresh bufferSize, { stats with live := stats.live.increment 1 })

/-- Reads into a buffer until a read would block, or the other end has stopped sending. The answer
counts the bytes read, of which `total` were read before. Interrupted reads are tried again. -/
def readAll (b : ByteBuffer) (total : Nat) (arrivals : Script) : Except IoError Nat × ByteBuffer :=
  match arrivals with
  | [] => (.ok total, b)
  | r :: rest =>
    let arrival := Script.next b.room.total (r :: rest)
    match arrival.1 with
    | .error e =>
      match e.kind with
      | .wouldBlock => (.ok total, b)
      | .interrupted => readAll b total arrival.2
      | _ => (.error e, b)
    | .ok bs =>
      if bs = [] then (if total = 0 then .error .peerClosed else .ok total, b)
      else readAll (b.accept bs) (total + bs.length) arrival.2
termination_by arrivals.weight
decreasing_by
  all_goals exact Script.weight_next_lt b.total_room_pos r rest

/-- Reads all that has arrived. The answer counts the bytes; having nothing to read is an error only
if the other end has stopped sending. -/
def read (c : Connection) (arrivals : Script) : Except IoError Nat × Connection :=
  if c.closed then (.error .notConnected, c)
  else
    let (r, inbound) := readAll c.inbound 0 arrivals
    (r, { c with inbound := inbound })

/-- What came of reading on in what has arrived. -/
structure Processed where
  /-- A response is ready to be written. -/
  isReady : Bool
  /-- The handler that was asked for it. -/
  call : Option Site.Call
  connection : Connection
  stats : Stats

/-- The code that is settled before a response is built: a request that failed is an error. -/
def settledCode : Outcome → Option Nat
  | .error => some Status.internalError.code
  | _ => none

/-- The response to a request that was read to its end, or failed, before it is built. -/
def prepared (c : Connection) (outcome : Outcome) : Response :=
  let request := c.reader.request
  let keepAlive := outcome == .success && request.isKeepAlive
  c.response.begin request.path keepAlive (settledCode outcome)

/-- Builds the response to a request that was read to its end, or failed. -/
def respond (c : Connection) (site : Site) (files : FileTree) (outcome : Outcome) (stats : Stats) :
    Processed :=
  let a := site.answer files c.reader.request (c.prepared outcome)
  { isReady := true
    call := a.call
    connection := { c with
      outbound := c.outbound.clear.append a.text
      response := a.response
      fileSent := 0 }
    stats := { stats with requests := stats.requests.increment 1 } }

/-- Reads on in what has arrived and, where a request ends, drops the rest of it and builds the
response. -/
def process (c : Connection) (site : Site) (files : FileTree) (stats : Stats) : Processed :=
  let reader := if c.reader.isFinished then .start else c.reader
  if c.inbound.isEmpty then ⟨false, none, { c with reader := reader }, stats⟩
  else
    let (outcome, reader, inbound) := reader.read c.inbound
    if outcome = .incomplete then
      ⟨false, none, { c with reader := reader, inbound := inbound }, stats⟩
    else
      respond { c with reader := reader, inbound := inbound.clear } site files outcome stats

/-- What is left of a connection whose handler panics while it reads on: the request was read to its
end, and of the response there is no more than was prepared. `none` where no handler is asked. -/
def unwound? (c : Connection) (site : Site) : Option Connection :=
  let reader := if c.reader.isFinished then .start else c.reader
  let (outcome, reader, inbound) := reader.read c.inbound
  if c.inbound.isEmpty ∨ outcome = .incomplete then none
  else
    let c := { c with reader := reader, inbound := inbound.clear, outbound := c.outbound.clear }
    let response := (c.prepared outcome).detach
    (site.handlerFor? response).map fun _ => { c with response := response }

/-- The part of a response that was not written. -/
def unsent (c : Connection) : Bytes :=
  c.outbound.unread ++ c.response.fileBytes.drop c.fileSent

/-- The number of bytes that are still to be written. -/
def pending (c : Connection) : Nat :=
  c.outbound.readable + c.response.fileBytes.length - c.fileSent

/-- The connection after the stream took `n` bytes. -/
def advance (c : Connection) (n : Nat) : Connection :=
  if c.outbound.readable ≤ n then
    { c with outbound := c.outbound.clear, fileSent := c.fileSent + (n - c.outbound.readable) }
  else { c with outbound := c.outbound.consume n }

/-- One write of what is left of the head and of the file. `taking` is what the stream makes of it:
it takes at most so many bytes, or fails. The answer has the bytes that it took; where nothing is
left it is not asked. -/
def write (c : Connection) (taking : Except IoError Nat) : Except IoError Bytes × Connection :=
  if c.closed then (.error .notConnected, c)
  else if c.unsent = [] then (.ok [], c)
  else
    match taking with
    | .error e => (.error e, c)
    | .ok n =>
      let taken := c.unsent.take n
      if taken = [] then (.error .tookNothing, c) else (.ok taken, c.advance taken.length)

/-- The client is kept for another request after this response. -/
def isKeptAlive (c : Connection) : Bool := c.response.keepAlive

/-- Lets go of the response; what was read of a following request stays. -/
def reset (c : Connection) : Connection :=
  { c with
    reader := .start
    outbound := c.outbound.clear
    response := c.response.detach
    fileSent := 0 }

/-- Closes the connection, unless it is closed. The answer tells whether this call did it. -/
def close (c : Connection) (stats : Stats) : Bool × Connection × Stats :=
  if c.closed then (false, c, stats)
  else
    (true, { c.reset with closed := true, inbound := c.inbound.clear },
      { stats with live := stats.live.decrement 1 })

theorem close_of_closed {c : Connection} (h : c.closed = true) (stats : Stats) :
    c.close stats = (false, c, stats) := by
  simp [close, h]

theorem closed_close (c : Connection) (stats : Stats) : (c.close stats).2.1.closed = true := by
  unfold close
  split
  · assumption
  · rfl

theorem read_of_closed {c : Connection} (h : c.closed = true) (arrivals : Script) :
    c.read arrivals = (.error .notConnected, c) := by
  simp [read, h]

/-- Reading only fills the inbound buffer. -/
theorem read_eq (c : Connection) (arrivals : Script) (ho : c.closed = false) :
    c.read arrivals =
      ((readAll c.inbound 0 arrivals).1,
        { c with inbound := (readAll c.inbound 0 arrivals).2 }) := by
  unfold read
  rw [ho]
  rfl

theorem write_of_closed {c : Connection} (h : c.closed = true) (taking : Except IoError Nat) :
    c.write taking = (.error .notConnected, c) := by
  simp [write, h]

@[simp] theorem unsent_reset (c : Connection) : c.reset.unsent = [] := by
  simp [reset, unsent]

end Connection

end HttpServer
