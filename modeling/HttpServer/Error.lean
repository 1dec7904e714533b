import HttpServer.Json.Reader

/-!
# Errors

An error is a value that says what went wrong; `message` is the one place where it is worded. The
errors of the operating system carry the number under which it reports them.
-/

namespace HttpServer

/-- The class of an input or output error. -/
inductive IoKind where
  | wouldBlock
  | interrupted
  | unexpectedEof
  | notConnected
  | brokenPipe
  | connectionReset
  | writeZero
  | notFound
  | permissionDenied
  | alreadyExists
  | notADirectory
  | isADirectory
  | invalidInput
  | invalidData
  | invalidFilename
  | tooManyLinks
  | networkUnreachable
  | addressNotAvailable
  | other
deriving DecidableEq, Repr

/-- What the operating system refuses. -/
inductive OsError where
  | noSuchFile
  | permissionDenied
  | fileExists
  | noSuchDevice
  | notADirectory
  | isADirectory
  | invalidArgument
  | nameTooLong
  | tooManyLinks
  | addressNotAvailable
  | networkUnreachable
deriving DecidableEq, Repr

namespace OsError

/-- The number under which it is reported. -/
def number : OsError → Nat
  | noSuchFile => 2
  | permissionDenied => 13
  | fileExists => 17
  | noSuchDevice => 19
  | notADirectory => 20
  | isADirectory => 21
  | invalidArgument => 22
  | nameTooLong => 36
  | tooManyLinks => 40
  | addressNotAvailable => 99
  | networkUnreachable => 101

/-- The system's wording. -/
def wording : OsError → String
  | noSuchFile => "No such file or directory"
  | permissionDenied => "Permission denied"
  | fileExists => "File exists"
  | noSuchDevice => "No such device"
  | notADirectory => "Not a directory"
  | isADirectory => "Is a directory"
  | invalidArgument => "Invalid argument"
  | nameTooLong => "File name too long"
  | tooManyLinks => "Too many levels of symbolic links"
  | addressNotAvailable => "Cannot assign requested address"
  | networkUnreachable => "Network is unreachable"

/-- Its class. -/
def kind : OsError → IoKind
  | noSuchFile => .notFound
  | permissionDenied => .permissionDenied
  | fileExists => .alreadyExists
  | noSuchDevice => .other
  | notADirectory => .notADirectory
  | isADirectory => .isADirectory
  | invalidArgument => .invalidInput
  | nameTooLong => .invalidFilename
  | tooManyLinks => .tooManyLinks
  | addressNotAvailable => .addressNotAvailable
  | networkUnreachable => .networkUnreachable

/-- The wording and the number. -/
def message (e : OsError) : String :=
  e.wording ++ " (os error " ++ toString e.number ++ ")"

end OsError

/-- An input or output error: one of the system, or one raised above it. -/
inductive IoError where
  | os (e : OsError)
  | raised (kind : IoKind) (text : String)
deriving DecidableEq, Repr

namespace IoError

/-- The class of an error. -/
def kind : IoError → IoKind
  | os e => e.kind
  | raised k _ => k

/-- The wording of an error. -/
def message : IoError → String
  | os e => e.message
  | raised _ text => text

/-- Reading or writing after the connection was closed. -/
def notConnected : IoError := raised .notConnected "connection already closed"

/-- The peer closed without sending anything. -/
def peerClosed : IoError := raised .unexpectedEof "peer closed"

/-- The socket took nothing of what was written. -/
def tookNothing : IoError := raised .writeZero "socket accepted no bytes"

/-- A read or a write has to wait. -/
def wouldBlock : IoError := raised .wouldBlock "operation would block"

/-- A write with nobody to receive it. -/
def peerGone : IoError := raised .brokenPipe "broken pipe"

/-- A host whose name nobody can be asked about. -/
def unknownHost : IoError :=
  raised .other "failed to lookup address information: Temporary failure in name resolution"

/-- A file that should hold text does not. -/
def notText : IoError := raised .invalidData "stream did not contain valid UTF-8"

/-- A name with a zero byte. -/
def zeroByte : IoError := raised .invalidInput "file name contained an unexpected NUL byte"

end IoError

/-- A setting that a server cannot start with. -/
inductive ConfigError where
  | reservedPort (port lowest : Nat)
  | noWorkers
  | noEvents
  | noConnections
  | backlogNotPositive
deriving DecidableEq, Repr

namespace ConfigError

/-- The wording. -/
def message : ConfigError → String
  | reservedPort port lowest =>
    "Port " ++ toString port ++ " is reserved; use 0 or " ++ toString lowest ++ "..=65535"
  | noWorkers => "worker_threads must be at least 1"
  | noEvents => "max_events must be at least 1"
  | noConnections => "max_connections must be at least 1"
  | backlogNotPositive => "backlog must be positive"

end ConfigError

/-- Why listening could not begin. -/
inductive StartupError where
  | portOutOfRange (port : Nat)
  | unresolved (address : String) (cause : IoError)
  | cannotListen (address : String) (cause : IoError)
deriving DecidableEq, Repr

namespace StartupError

/-- The wording. -/
def message : StartupError → String
  | portOutOfRange port => "Port " ++ toString port ++ " is out of range"
  | unresolved address cause => "Cannot resolve " ++ address ++ ": " ++ cause.message
  | cannotListen address cause => "Cannot listen on " ++ address ++ ": " ++ cause.message

end StartupError

/-- What a pool of workers refuses. -/
inductive PoolError where
  | noWorkers
  | spawnFailed (worker : Nat) (cause : IoError)
  | refused (reason : String)
deriving DecidableEq, Repr

namespace PoolError

/-- The wording. -/
def message : PoolError → String
  | noWorkers => "Worker count must be at least 1"
  | spawnFailed worker cause =>
    "Failed to spawn worker " ++ toString worker ++ ": " ++ cause.message
  | refused reason => reason

end PoolError

/-- What the server reports. -/
inductive ServerError where
  | io (cause : IoError)
  | config (cause : ConfigError)
  | startup (cause : StartupError)
  | invalidDescriptor (descriptor : Int)
  | pool (cause : PoolError)
  | store (reason : String)
  /-- Opening a connection to the store failed, for a reason of its own. -/
  | storeConnection (index : Nat) (url : String) (cause : ServerError)
  | json (fault : Json.Scan.Fault)
  /-- A process has one logger. -/
  | loggerInstalled
deriving DecidableEq, Repr

namespace ServerError

/-- The wording. -/
def message : ServerError → String
  | io cause => "IO error: " ++ cause.message
  | config cause => "Configuration error: " ++ cause.message
  | startup cause => "Startup error: " ++ cause.message
  | invalidDescriptor d => "Event loop error: Invalid descriptor " ++ toString d
  | pool cause => "Thread pool error: " ++ cause.message
  | store reason => "Store error: " ++ reason
  | storeConnection index url cause =>
    "Store error: Connection " ++ toString index ++ " to " ++ url ++ " failed: " ++ cause.message
  | json _ => "JSON error"
  | loggerInstalled =>
    "Logger error: attempted to set a logger after the logging system was already initialized"

end ServerError

end HttpServer
