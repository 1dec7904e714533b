import HttpServer.Error

/-!
# Settings of a server

A configuration is a record in which every field has a default; that of the workers is the number of
processors, which is the machine's to say. `validate` names the first setting
that a server cannot start with. An idle timeout is kept in whole milliseconds, and zero switches
expiry off.
-/

namespace HttpServer

/-- The least severe records that are written to the log. -/
inductive LogLevel where
  | debug
  | info
  | warn
  | error
deriving DecidableEq, Repr

namespace LogLevel

/-- The levels with the names under which they are configured. -/
def names : List (LogLevel × String) :=
  [(debug, "debug"), (info, "info"), (warn, "warn"), (error, "error")]

/-- The name of a level in a configuration. -/
def name : LogLevel → String
  | debug => "debug"
  | info => "info"
  | warn => "warn"
  | error => "error"

end LogLevel

/-- How the data store is reached. -/
structure StoreConfig where
  host : String
  port : UInt16
  user : String
  password : String
  database : String
  /-- Connections opened at the start; none switches the store off. -/
  poolSize : UInt64
deriving DecidableEq, Repr

namespace StoreConfig

/-- A local store, switched off. -/
def default : StoreConfig :=
  ⟨"localhost", 3306, "root", "", "webserver", 0⟩

instance : Inhabited StoreConfig := ⟨default⟩

/-- The address of the store as it stands in messages. -/
def url (c : StoreConfig) : String :=
  "tcp://" ++ c.host ++ ":" ++ toString c.port.toNat

end StoreConfig

/-- The nanoseconds of a second. -/
def nanosPerSecond : Nat := 1000000000

/-- The nanoseconds of a millisecond. -/
def nanosPerMilli : Nat := 1000000

/-- A span of time in seconds and nanoseconds. -/
structure Duration where
  seconds : UInt64
  nanos : UInt32
  nanos_lt : nanos.toNat < nanosPerSecond
deriving DecidableEq, Repr

namespace Duration

/-- The span in nanoseconds. -/
def toNanos (d : Duration) : Nat :=
  d.seconds.toNat * nanosPerSecond + d.nanos.toNat

/-- The whole milliseconds of a span. -/
def toMillis (d : Duration) : Nat :=
  d.seconds.toNat * 1000 + d.nanos.toNat / nanosPerMilli

theorem toMillis_eq (d : Duration) : d.toMillis = d.toNanos / nanosPerMilli := by
  simp only [toMillis, toNanos, nanosPerSecond, nanosPerMilli]
  omega

/-- The span of `n` parts of a second, of which `perSecond` make up one. -/
def ofParts (perSecond : Nat) (n : UInt64) (h : 0 < perSecond) (hp : perSecond ∣ nanosPerSecond) :
    Duration where
  seconds := UInt64.ofNat (n.toNat / perSecond)
  nanos := UInt32.ofNat (n.toNat % perSecond * (nanosPerSecond / perSecond))
  nanos_lt := by
    obtain ⟨k, hk⟩ := hp
    have hm : n.toNat % perSecond < perSecond := Nat.mod_lt _ h
    have hd : nanosPerSecond / perSecond = k := by rw [hk]; exact Nat.mul_div_cancel_left k h
    have hlt : n.toNat % perSecond * k < nanosPerSecond := by
      have hk0 : 0 < k := by
        rcases Nat.eq_zero_or_pos k with h0 | h0
        · subst h0; simp [nanosPerSecond] at hk
        · exact h0
      calc n.toNat % perSecond * k < perSecond * k := Nat.mul_lt_mul_of_pos_right hm hk0
        _ = nanosPerSecond := hk.symm
    rw [hd, UInt32.toNat_ofNat']
    exact Nat.lt_of_le_of_lt (Nat.mod_le _ _) hlt

/-- A span of seconds. -/
def ofSeconds (n : UInt64) : Duration :=
  ofParts 1 n (by decide) (by decide)

/-- A span of milliseconds. -/
def ofMillis (n : UInt64) : Duration :=
  ofParts 1000 n (by decide) (by decide)

/-- A span of microseconds. -/
def ofMicros (n : UInt64) : Duration :=
  ofParts 1000000 n (by decide) (by decide)

end Duration

/-- The settings of a server. -/
structure ServerConfig where
  listenAddress : String
  /-- Zero lets the system choose. -/
  port : UInt16
  backlog : Int32
  /-- Readiness is reported when it begins, not as long as it lasts. -/
  edgeTriggered : Bool
  /-- Idle time before a connection is closed; zero switches expiry off. -/
  idleTimeoutMs : UInt64
  /-- Closing waits a moment for data still under way. -/
  lingerOnClose : Bool
  maxConnections : UInt64
  maxEvents : UInt64
  initialBufferSize : UInt64
  /-- The directory below which files are served. -/
  documentRoot : Bytes
  workerThreads : UInt64
  store : StoreConfig
  logLevel : LogLevel
  /-- Records that may wait for the writer; with none, each is written at once. -/
  logQueueCapacity : UInt64
  logFile : Option Bytes
deriving DecidableEq, Repr

namespace ServerConfig

/-- The settings of a server about which nothing was said: there is a worker for each processor of the
machine. -/
def default (processors : UInt64) : ServerConfig where
  listenAddress := "0.0.0.0"
  port := 8080
  backlog := 1024
  edgeTriggered := true
  idleTimeoutMs := 60000
  lingerOnClose := false
  maxConnections := 65536
  maxEvents := 512
  initialBufferSize := 1024
  documentRoot := Bytes.ascii "resources"
  workerThreads := processors
  store := StoreConfig.default
  logLevel := .info
  logQueueCapacity := 1024
  logFile := none

/-- The lowest port that may be chosen. -/
def lowestPort : UInt16 := 1024

/-- Listens at another address. -/
def withAddress (c : ServerConfig) (address : String) (port : UInt16) : ServerConfig :=
  { c with listenAddress := address, port := port }

/-- Closes idle connections after another time. The milliseconds are cut off to whole ones, and to
their lowest 64 bits. -/
def withIdleTimeout (c : ServerConfig) (d : Duration) : ServerConfig :=
  { c with idleTimeoutMs := UInt64.ofNat d.toMillis }

/-- The idle time after which a connection is closed; `none` when expiry is off. -/
def idleTimeout (c : ServerConfig) : Option Duration :=
  if c.idleTimeoutMs = 0 then none else some (Duration.ofMillis c.idleTimeoutMs)

/-- Address and port as one text. -/
def socketAddress (c : ServerConfig) : String :=
  c.listenAddress ++ ":" ++ toString c.port.toNat

/-- The port is one that only the system may use. -/
def portReserved (c : ServerConfig) : Prop :=
  c.port ≠ 0 ∧ c.port < lowestPort

instance (c : ServerConfig) : Decidable c.portReserved :=
  inferInstanceAs (Decidable (c.port ≠ 0 ∧ c.port < lowestPort))

/-- The first setting that a server cannot start with. -/
def validate (c : ServerConfig) : Except ConfigError Unit :=
  if c.portReserved then .error (.reservedPort c.port.toNat lowestPort.toNat)
  else if c.workerThreads = 0 then .error .noWorkers
  else if c.maxEvents = 0 then .error .noEvents
  else if c.maxConnections = 0 then .error .noConnections
  else if c.backlog ≤ 0 then .error .backlogNotPositive
  else .ok ()

end ServerConfig

end HttpServer
