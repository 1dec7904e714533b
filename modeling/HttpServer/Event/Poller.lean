import HttpServer.Error
import HttpServer.Event.Interest

/-!
# Waiting for readiness

A poller watches descriptors, each for a set of conditions of its own. That the peer is gone, or the
connection in error, is always among them.

Descriptors for which something was heard stand in a line. News of data is heard by those that watch
for it, news that the peer has stopped or gone by all that watch anything.

A poll takes descriptors from the front of the line, up to the capacity of the poller, and reports
those of which a watched condition holds at that time. Those reported go to the end of the line
again, unless they are watched for the edge only; those for which nothing holds leave the line until
something is heard of them. A descriptor that is watched for one report is not watched after it until
it is armed again.
-/

namespace HttpServer

/-- What is watched of one descriptor. -/
structure Registration where
  descriptor : Int
  interest : Interest
deriving DecidableEq, Repr

namespace Registration

/-- How the conditions are reported, as opposed to which. -/
def manner : Interest := Interest.edge ||| Interest.oneshot

/-- The conditions that are watched whether they are asked for or not. -/
def always : UInt32 := Event.closedBit ||| Event.errorBit

/-- The registration of a set. -/
def ofInterest (descriptor : Int) (interest : Interest) : Registration :=
  ⟨descriptor, ⟨interest.bits ||| always⟩⟩

/-- The registration after its one report: no condition is watched any more. -/
def spend (r : Registration) : Registration :=
  { r with interest := ⟨r.interest.bits &&& manner.bits⟩ }

/-- Those of the conditions that are watched. -/
def watched (r : Registration) (conditions : UInt32) : UInt32 :=
  conditions &&& r.interest.bits

/-- One report only. -/
def isOneshot (r : Registration) : Bool := r.interest.contains .oneshot

/-- Nothing is watched any more. -/
def isSpent (r : Registration) : Bool := r.watched (~~~manner.bits) == 0

/-- A report only when something was heard. -/
def isEdge (r : Registration) : Bool := r.interest.contains .edge

end Registration

/-- What is heard of a descriptor. -/
inductive News where
  /-- Data has come. -/
  | data
  /-- The peer has stopped sending, or has gone. -/
  | change
deriving DecidableEq, Repr

/-- News of data is for those who watch for it; news of a change is for all who watch anything. -/
def Registration.hears (r : Registration) : News → Bool
  | .data => r.watched Interest.readable.bits != 0
  | .change => !r.isSpent

/-- Descriptors that are watched, and the line of those of which something was heard. -/
structure Poller where
  capacity : Nat
  registrations : List Registration
  line : List Int
deriving Repr

namespace Poller

/-- A poller that reports at most `capacity` events at a time, but at least one. -/
def ofCapacity (capacity : Nat) : Poller :=
  ⟨max capacity 1, [], []⟩

/-- The registration of a descriptor. -/
def find? (p : Poller) (d : Int) : Option Registration :=
  p.registrations.find? fun r => r.descriptor == d

/-- The poller with a descriptor at the end of the line, if it does not stand there already. -/
def enqueue (p : Poller) (d : Int) : Poller :=
  if d ∈ p.line then p else { p with line := p.line ++ [d] }

/-- The poller with a registration in place of the one of that descriptor. -/
def setRegistration (p : Poller) (r : Registration) : Poller :=
  { p with
    registrations := p.registrations.map fun x => if x.descriptor = r.descriptor then r else x }

/-- Puts a descriptor in line if one of the conditions that hold is watched. -/
def enqueueIf (p : Poller) (r : Registration) (conditions : UInt32) : Poller :=
  if r.watched conditions = 0 then p else p.enqueue r.descriptor

/-- Starts to watch a descriptor, of which `conditions` hold. -/
def register (p : Poller) (conditions : UInt32) (d : Int) (interest : Interest) :
    Except ServerError Poller :=
  if d < 0 then .error (.invalidDescriptor d)
  else
    match p.find? d with
    | some _ => .error (.io (.os .fileExists))
    | none =>
      let r := Registration.ofInterest d interest
      .ok ({ p with registrations := p.registrations ++ [r] }.enqueueIf r conditions)

/-- Watches a descriptor for another set, which also arms it again. -/
def modify (p : Poller) (conditions : UInt32) (d : Int) (interest : Interest) :
    Except ServerError Poller :=
  if d < 0 then .error (.invalidDescriptor d)
  else
    match p.find? d with
    | none => .error (.io (.os .noSuchFile))
    | some _ =>
      let r := Registration.ofInterest d interest
      .ok ((p.setRegistration r).enqueueIf r conditions)

/-- Stops watching a descriptor. -/
def deregister (p : Poller) (d : Int) : Except ServerError Poller :=
  if d < 0 then .error (.invalidDescriptor d)
  else
    match p.find? d with
    | none => .error (.io (.os .noSuchFile))
    | some _ =>
      .ok { p with
        registrations := p.registrations.filter fun r => r.descriptor != d
        line := p.line.filter fun x => x != d }

/-- Something is heard of a descriptor. -/
def hear (p : Poller) (d : Int) (news : News) : Poller :=
  match p.find? d with
  | none => p
  | some r => if r.hears news then p.enqueue d else p

/-- What a poll has come to: events in order, registrations, and those that line up again. -/
structure Sweep where
  events : List Event
  registrations : List Registration
  again : List Int
  /-- The part of the line that was not looked at. -/
  rest : List Int

/-- Takes descriptors from a line until `room` events are there. -/
def sweep (conditions : Int → UInt32) : Nat → List Int → List Registration → Sweep
  | _, [], rs => ⟨[], rs, [], []⟩
  | 0, line, rs => ⟨[], rs, [], line⟩
  | room + 1, d :: line, rs =>
    match rs.find? fun r => r.descriptor == d with
    | none => sweep conditions (room + 1) line rs
    | some r =>
      let mask := r.watched (conditions d)
      if mask = 0 then sweep conditions (room + 1) line rs
      else
        let rs := if r.isOneshot then
            rs.map fun x => if x.descriptor = d then r.spend else x
          else rs
        let s := sweep conditions room line rs
        { s with
          events := ⟨d, mask⟩ :: s.events
          again := if r.isOneshot || r.isEdge then s.again else d :: s.again }

/-- Reports the conditions that hold now. -/
def poll (p : Poller) (conditions : Int → UInt32) : List Event × Poller :=
  let s := sweep conditions p.capacity p.line p.registrations
  (s.events, { p with registrations := s.registrations, line := s.rest ++ s.again })

end Poller

end HttpServer
