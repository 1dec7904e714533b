import HttpServer.Config
import HttpServer.Json.Record

/-!
# Configuration documents

A configuration is kept as a JSON document. It is written with all its members, one a line, in a
fixed order. It is read as a record: missing members have their defaults, here and inside the store,
and unknown members are passed over.

A path that is not a text cannot be written.
-/

namespace HttpServer

open Json.Scan

namespace StoreConfig

/-- The members of the store's settings. -/
def fields : List (RecordField StoreConfig) :=
  [.set "host" text fun c v => { c with host := Utf8.toText v },
   .set "port" (wholeBetween 0 65535) fun c v => { c with port := UInt16.ofNat v.toNat },
   .set "user" text fun c v => { c with user := Utf8.toText v },
   .set "password" text fun c v => { c with password := Utf8.toText v },
   .set "database" text fun c v => { c with database := Utf8.toText v },
   .set "pool_size" (wholeBetween 0 maxWord) fun c v =>
     { c with poolSize := UInt64.ofNat v.toNat }]

/-- The store's settings in a document. -/
def read (bs : Bytes) : Result StoreConfig :=
  record fields default bs

/-- The store's settings of a document. -/
def ofDocument (bs : Bytes) : Except Fault StoreConfig :=
  complete (read bs)

/-- The store's settings as a value. -/
def toJson (c : StoreConfig) : Json :=
  .object
    [(Bytes.ascii "host", .text (Utf8.encode c.host)),
     (Bytes.ascii "port", .number (.whole c.port.toNat)),
     (Bytes.ascii "user", .text (Utf8.encode c.user)),
     (Bytes.ascii "password", .text (Utf8.encode c.password)),
     (Bytes.ascii "database", .text (Utf8.encode c.database)),
     (Bytes.ascii "pool_size", .number (.whole c.poolSize.toNat))]

end StoreConfig

namespace LogLevel

/-- A level in a document. -/
def read (bs : Bytes) : Result LogLevel :=
  choice (names.map fun row => (Bytes.ascii row.2, row.1)) bs

end LogLevel

namespace ServerConfig

/-- A size in a document. -/
def size (bs : Bytes) : Result UInt64 :=
  (wholeBetween 0 maxWord bs).map fun (n, r) => (UInt64.ofNat n.toNat, r)

/-- The members of a server's settings. -/
def fields : List (RecordField ServerConfig) :=
  [.set "listen_address" text fun c v => { c with listenAddress := Utf8.toText v },
   .set "port" (wholeBetween 0 65535) fun c v => { c with port := UInt16.ofNat v.toNat },
   .set "backlog" (wholeBetween (-2147483648) 2147483647) fun c v =>
     { c with backlog := Int32.ofInt v },
   .set "edge_triggered" truth fun c v => { c with edgeTriggered := v },
   .set "idle_timeout_ms" size fun c v => { c with idleTimeoutMs := v },
   .set "linger_on_close" truth fun c v => { c with lingerOnClose := v },
   .set "max_connections" size fun c v => { c with maxConnections := v },
   .set "max_events" size fun c v => { c with maxEvents := v },
   .set "initial_buffer_size" size fun c v => { c with initialBufferSize := v },
   .set "document_root" text fun c v => { c with documentRoot := v },
   .set "worker_threads" size fun c v => { c with workerThreads := v },
   .set "store" StoreConfig.read fun c v => { c with store := v },
   .set "log_level" LogLevel.read fun c v => { c with logLevel := v },
   .set "log_queue_capacity" size fun c v => { c with logQueueCapacity := v },
   .set "log_file" (optional text) fun c v => { c with logFile := v }]

/-- A server's settings in a document, on a machine with some processors. -/
def read (processors : UInt64) (bs : Bytes) : Result ServerConfig :=
  record fields (default processors) bs

/-- The settings of a document. -/
def ofDocument (processors : UInt64) (bs : Bytes) : Except Fault ServerConfig :=
  complete (read processors bs)

/-- The settings in the content of a file, which has to be text. -/
def ofFile (processors : UInt64) (content : Bytes) : Except ServerError ServerConfig :=
  if Utf8.isValid content then (ofDocument processors content).mapError .json
  else .error (.io .notText)

/-- Every path among the settings is a text. -/
def PathsValid (c : ServerConfig) : Prop :=
  Utf8.Valid c.documentRoot ∧ ∀ p ∈ c.logFile, Utf8.Valid p

instance (c : ServerConfig) : Decidable c.PathsValid :=
  inferInstanceAs (Decidable (_ ∧ _))

/-- The settings as a value. -/
def toJson (c : ServerConfig) : Json :=
  .object
    [(Bytes.ascii "listen_address", .text (Utf8.encode c.listenAddress)),
     (Bytes.ascii "port", .number (.whole c.port.toNat)),
     (Bytes.ascii "backlog", .number (.whole c.backlog.toInt)),
     (Bytes.ascii "edge_triggered", .bool c.edgeTriggered),
     (Bytes.ascii "idle_timeout_ms", .number (.whole c.idleTimeoutMs.toNat)),
     (Bytes.ascii "linger_on_close", .bool c.lingerOnClose),
     (Bytes.ascii "max_connections", .number (.whole c.maxConnections.toNat)),
     (Bytes.ascii "max_events", .number (.whole c.maxEvents.toNat)),
     (Bytes.ascii "initial_buffer_size", .number (.whole c.initialBufferSize.toNat)),
     (Bytes.ascii "document_root", .text c.documentRoot),
     (Bytes.ascii "worker_threads", .number (.whole c.workerThreads.toNat)),
     (Bytes.ascii "store", c.store.toJson),
     (Bytes.ascii "log_level", .text (Bytes.ascii c.logLevel.name)),
     (Bytes.ascii "log_queue_capacity", .number (.whole c.logQueueCapacity.toNat)),
     (Bytes.ascii "log_file", match c.logFile with
       | some p => .text p
       | none => .null)]

/-- The document of the settings. -/
def toDocument (c : ServerConfig) : Except Fault Bytes :=
  if c.PathsValid then .ok c.toJson.pretty else .error .unfit

end ServerConfig

end HttpServer
