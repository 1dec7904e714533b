import HttpServer.Error
import HttpServer.Event.Interest

/-!
# Streams between two ends

A read from a stream comes to one of three things: some bytes, nothing because the other end has
stopped sending, or an error, of which "would block" and "interrupted" only ask for patience. A
`Script` lists what successive reads come to; where it ends, a read would block. Each entry gives at
most what a read offers to take, and keeps the rest for the next one.

A write says how many bytes the stream takes, or fails.

A `StreamPair` is such a stream in memory, with both of its ends. What one end sends, the other one
takes whenever it wants, and nothing is lost on the way.
-/

namespace HttpServer

/-- What successive reads come to. Nothing at all is the end of what the other end sends. -/
abbrev Script := List (Except IoError Bytes)

namespace Script

/-- A bound on the reads that a script can serve. -/
def weight : Script → Nat
  | [] => 0
  | .ok bs :: rest => bs.length + 1 + weight rest
  | .error _ :: rest => 1 + weight rest

@[simp] theorem weight_ok (bs : Bytes) (rest : Script) :
    weight (.ok bs :: rest) = bs.length + 1 + weight rest := rfl

@[simp] theorem weight_error (e : IoError) (rest : Script) :
    weight (.error e :: rest) = 1 + weight rest := rfl

/-- What one read of at most `room` bytes comes to, and what is left for later ones. -/
def next (room : Nat) : Script → Except IoError Bytes × Script
  | [] => (.error .wouldBlock, [])
  | .error e :: rest => (.error e, rest)
  | .ok bs :: rest =>
    if bs.length ≤ room then (.ok bs, rest) else (.ok (bs.take room), .ok (bs.drop room) :: rest)

theorem next_ok_of_le {room : Nat} {bs : Bytes} (h : bs.length ≤ room) (rest : Script) :
    next room (.ok bs :: rest) = (.ok bs, rest) := by
  simp [next, h]

theorem next_ok_of_lt {room : Nat} {bs : Bytes} (h : room < bs.length) (rest : Script) :
    next room (.ok bs :: rest) = (.ok (bs.take room), .ok (bs.drop room) :: rest) := by
  simp [next, Nat.not_le.2 h]

/-- Every read uses up part of a script. -/
theorem weight_next_lt {room : Nat} (hr : 0 < room) (r : Except IoError Bytes) (rest : Script) :
    weight (next room (r :: rest)).2 < weight (r :: rest) := by
  cases r with
  | error e =>
    simp only [next, weight_error]
    omega
  | ok bs =>
    rcases Nat.lt_or_ge room bs.length with h | h
    · rw [next_ok_of_lt h]
      simp only [weight_ok, List.length_drop]
      omega
    · rw [next_ok_of_le h]
      simp only [weight_ok]
      omega

end Script

/-- Both ends of a stream in memory: the near one, and the far one of the peer. -/
structure StreamPair where
  /-- Sent by the peer and not yet read. -/
  incoming : Bytes
  /-- Written for the peer and not yet received. -/
  outgoing : Bytes
  /-- The peer sends no more. -/
  peerEnded : Bool
  /-- The peer has gone. -/
  peerGone : Bool
  /-- The near end is closed. -/
  closed : Bool
deriving DecidableEq, Repr

namespace StreamPair

/-- A stream on which nothing has happened. -/
def fresh : StreamPair := ⟨[], [], false, false, false⟩

instance : Inhabited StreamPair := ⟨fresh⟩

/-- The peer can still send. -/
def accepts (s : StreamPair) : Bool :=
  !(s.peerEnded || s.peerGone || s.closed)

/-- The peer sends. -/
def send (s : StreamPair) (bs : Bytes) : Bool × StreamPair :=
  if s.accepts then (true, { s with incoming := s.incoming ++ bs }) else (false, s)

/-- The peer ends its sending. -/
def endSending (s : StreamPair) : StreamPair :=
  { s with peerEnded := true }

/-- The peer goes. -/
def hangUp (s : StreamPair) : StreamPair :=
  { s with peerEnded := true, peerGone := true }

/-- The near end is closed. -/
def close (s : StreamPair) : StreamPair :=
  { s with closed := true }

/-- What reads at the near end come to. -/
def script (s : StreamPair) : Script :=
  (if s.incoming = [] then [] else [.ok s.incoming]) ++ if s.peerEnded then [.ok []] else []

/-- The stream after everything sent so far was read. -/
def drained (s : StreamPair) : StreamPair :=
  { s with incoming := [] }

/-- What a write at the near end comes to: all is taken, unless nobody is there to take it. -/
def takes (s : StreamPair) (n : Nat) : Except IoError Nat :=
  if s.peerGone then .error .peerGone else .ok n

/-- The stream after bytes were written at the near end. -/
def write (s : StreamPair) (bs : Bytes) : StreamPair :=
  { s with outgoing := s.outgoing ++ bs }

/-- The peer receives what was written so far. -/
def receive (s : StreamPair) : Bytes × StreamPair :=
  (s.outgoing, { s with outgoing := [] })

/-- The conditions that hold at the near end. It can always be written. -/
def conditions (s : StreamPair) : UInt32 :=
  Interest.writable.bits |||
    (if s.incoming = [] ∧ !s.peerEnded then 0 else Interest.readable.bits) |||
    (if s.peerEnded then Interest.hangup.bits else 0) |||
    (if s.peerGone then Event.closedBit else 0)

end StreamPair

end HttpServer
