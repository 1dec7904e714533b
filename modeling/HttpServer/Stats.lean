/-!
# Counters

A counter holds 64 bits. Counting up wraps around; counting down stops at zero. The server keeps
five of them and prints them one a line.
-/

namespace HttpServer

/-- A count that wraps upwards and stops at zero downwards. -/
structure Counter where
  value : UInt64
deriving DecidableEq, Repr

namespace Counter

/-- The counter at zero. -/
def zero : Counter := ⟨0⟩

instance : Inhabited Counter := ⟨zero⟩

/-- Counts up, around 2^64. -/
def increment (c : Counter) (n : UInt64) : Counter :=
  ⟨c.value + n⟩

/-- Counts down, no further than zero. -/
def decrement (c : Counter) (n : UInt64) : Counter :=
  ⟨if c.value < n then 0 else c.value - n⟩

theorem toNat_increment (c : Counter) (n : UInt64) :
    (c.increment n).value.toNat = (c.value.toNat + n.toNat) % 18446744073709551616 :=
  UInt64.toNat_add c.value n

theorem toNat_decrement (c : Counter) (n : UInt64) :
    (c.decrement n).value.toNat = c.value.toNat - n.toNat := by
  unfold decrement
  split
  · rename_i h
    have := UInt64.lt_iff_toNat_lt.1 h
    simp only [UInt64.toNat_zero]
    omega
  · rename_i h
    have : n ≤ c.value := UInt64.not_lt.1 h
    exact UInt64.toNat_sub_of_le _ _ this

end Counter

/-- What the server counts. -/
structure Stats where
  /-- Connections now open. -/
  live : Counter
  accepted : Counter
  /-- Connections turned away because the server was full. -/
  rejected : Counter
  requests : Counter
  /-- Connections closed for being idle. -/
  timeouts : Counter
deriving DecidableEq, Repr

namespace Stats

/-- All counters at zero. -/
def zero : Stats := ⟨.zero, .zero, .zero, .zero, .zero⟩

instance : Inhabited Stats := ⟨zero⟩

/-- One line a counter. -/
def format (s : Stats) : String :=
  let live := toString s.live.value.toNat
  let accepted := toString s.accepted.value.toNat
  let rejected := toString s.rejected.value.toNat
  let timeouts := toString s.timeouts.value.toNat
  let requests := toString s.requests.value.toNat
  "connections.live: " ++ live ++ "\nconnections.accepted: " ++ accepted ++
    "\nconnections.rejected: " ++ rejected ++ "\nconnections.timed_out: " ++ timeouts ++
    "\nrequests: " ++ requests ++ "\n"

end Stats

end HttpServer
