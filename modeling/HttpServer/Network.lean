import HttpServer.Config
import HttpServer.Network.Address

/-!
# The network of a host

A host knows some names and some interfaces, can listen on some addresses, and can reach some
addresses. Listening checks the port first, then finds the address, and then takes it; where no port
was chosen the system gives one.

`isolated` is a host that is cut off. It may listen on every IPv4 address, however it is written, and
on the address that stands for any, but nobody is reached, not even the host itself.
-/

namespace HttpServer

/-- What a host can do on its network. -/
structure Network where
  /-- The address of a name in lower case. -/
  named : String → Option Address
  /-- The number of an interface. -/
  interface : List Char → Option UInt32
  /-- Listens on an address. -/
  listen : Address → Except OsError Unit
  /-- Reaches an address. -/
  reach : Address → Except OsError Unit
  /-- The port that is given where none was chosen. -/
  freePort : UInt16

namespace Network

/-- The one name that every host knows. -/
def localNames (name : String) : Option Address :=
  if name = "localhost" then some (.v4 .loopback) else none

/-- The number of the interface to the host itself. -/
def loopbackInterface : UInt32 := 1

/-- The one interface that every host has. -/
def localInterfaces (name : List Char) : Option UInt32 :=
  if name = ['l', 'o'] then some loopbackInterface else none

/-- Listening on a host that is cut off. -/
def listenCutOff : Address → Except OsError Unit
  | .v4 _ => .ok ()
  | .v6 ip zone =>
    if ip = .unspecified ∨ ip.mapped?.isSome then .ok ()
    else if ip.isMulticast then .error .invalidArgument
    else if ip.isLinkLocal ∧ zone = 0 then .error .invalidArgument
    else if ip.isLinkLocal ∧ zone ≠ loopbackInterface then .error .noSuchDevice
    else .error .addressNotAvailable

/-- Reaching somebody from a host that is cut off. -/
def reachCutOff : Address → Except OsError Unit
  | .v4 _ => .error .networkUnreachable
  | .v6 ip zone =>
    if ip.mapped?.isSome ∨ ip.isMulticast then .error .networkUnreachable
    else if ip.isLinkLocal ∧ zone = 0 then .error .invalidArgument
    else .error .addressNotAvailable

/-- A host that is cut off. -/
def isolated : Network :=
  ⟨localNames, localInterfaces, listenCutOff, reachCutOff, 32768⟩

/-- The address of a host that is given by number or by name. -/
def resolve (n : Network) (host : String) : Except IoError Address :=
  if '\x00' ∈ host.toList then .error .zeroByte
  else
    match (Address.ofBare? n.interface host.toList).or (n.named host.toLower) with
    | some a => .ok a
    | none => .error .unknownHost

/-- Connects to a host. -/
def connect (n : Network) (host : String) : Except IoError Unit := do
  let a ← n.resolve host
  (n.reach a).mapError .os

end Network

/-- A place to listen at. -/
structure Listener where
  address : Address
  port : UInt16
deriving DecidableEq, Repr

namespace Listener

/-- Address and port as one text. -/
def socketText (l : Listener) : String :=
  l.address.hostText ++ ":" ++ toString l.port.toNat

/-- The address to listen on. It may stand in brackets. -/
def addressFor (n : Network) (text : String) : Except IoError Address :=
  match Address.ofBracketed? text.toList with
  | some a => .ok a
  | none => n.resolve text

/-- Listens where the settings say. -/
def open? (n : Network) (c : ServerConfig) : Except StartupError Listener :=
  if c.portReserved then .error (.portOutOfRange c.port.toNat)
  else
    match addressFor n c.listenAddress with
    | .error e => .error (.unresolved c.socketAddress e)
    | .ok a =>
      match n.listen a with
      | .ok () => .ok ⟨a, if c.port = 0 then n.freePort else c.port⟩
      | .error e => .error (.cannotListen (socketText ⟨a, c.port⟩) (.os e))

/-- Takes the next of the clients that wait. -/
def accept {α : Type} (waiting : List α) : Except IoError (α × List α) :=
  match waiting with
  | [] => .error .wouldBlock
  | client :: rest => .ok (client, rest)

end Listener

end HttpServer
