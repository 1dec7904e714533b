/-!
# Interest sets and readiness events

A set of conditions is a mask of 32 bits, one bit a condition; sets are united bit by bit. The
kernel reports an event as such a mask for one descriptor: it is readable or writable when that bit
is set, and a hangup when the peer stopped sending, the connection is gone, or it is in error.
-/

namespace HttpServer

/-- A set of readiness conditions. -/
structure Interest where
  bits : UInt32
deriving DecidableEq, Repr

namespace Interest

/-- The set without conditions. -/
def none : Interest := ⟨0⟩

/-- Data can be read. -/
def readable : Interest := ⟨0x1⟩

/-- Data can be written. -/
def writable : Interest := ⟨0x4⟩

/-- The peer has stopped sending. -/
def hangup : Interest := ⟨0x2000⟩

/-- A condition is reported when it begins to hold, not as long as it holds. -/
def edge : Interest := ⟨0x80000000⟩

/-- One report, and then none until the registration is armed again. -/
def oneshot : Interest := ⟨0x40000000⟩

/-- Both sets together. -/
def union (a b : Interest) : Interest := ⟨a.bits ||| b.bits⟩

instance : OrOp Interest := ⟨union⟩

/-- All sets of a list together. -/
def unionAll (sets : List Interest) : Interest :=
  sets.foldl union none

/-- Every condition of `b` is in `a`. -/
def contains (a b : Interest) : Bool :=
  a.bits &&& b.bits == b.bits

/-- The named conditions, in the order in which they are listed. -/
def named : List (Interest × String) :=
  [(readable, "READABLE"), (writable, "WRITABLE"), (hangup, "HANGUP"), (edge, "EDGE"),
   (oneshot, "ONESHOT")]

/-- The condition with a given name. -/
def ofName? (name : String) : Option Interest :=
  (named.find? fun row => row.2 == name).map Prod.fst

/-- The conditions of a set by name. -/
def describe (a : Interest) : String :=
  "Interest(" ++ " | ".intercalate ((named.filter fun row => a.contains row.1).map Prod.snd) ++ ")"

end Interest

/-- The conditions that hold for one descriptor. -/
structure Event where
  descriptor : Int
  mask : UInt32
deriving DecidableEq, Repr

namespace Event

/-- The peer closed both directions. -/
def closedBit : UInt32 := 0x10

/-- The connection is in error. -/
def errorBit : UInt32 := 0x8

/-- The conditions of which each is a hangup. -/
def hangupMask : UInt32 := Interest.hangup.bits ||| closedBit ||| errorBit

/-- Data can be read. -/
def isReadable (e : Event) : Bool :=
  e.mask &&& Interest.readable.bits != 0

/-- Data can be written. -/
def isWritable (e : Event) : Bool :=
  e.mask &&& Interest.writable.bits != 0

/-- The peer hung up, or the connection is in error. -/
def isHangup (e : Event) : Bool :=
  e.mask &&& hangupMask != 0

end Event

end HttpServer
