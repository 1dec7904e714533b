import HttpServer.Config.Document
import HttpServer.Proofs.Json.Records

/-!
# The members of a configuration

`saved` lists the names under which settings are saved, with the texts of their values. The store is
a value like the others there, so that its own text can be another one than the saved one.

`keeping` has the settings of some names as they are, and those of all other names at their
defaults. It is the account by which both records are told: a field takes its member for one name
more.
-/

namespace HttpServer

open Json Json.Scan

/-- A setting whose name was kept, or else its default. -/
def pick {α : Type} (names : List Bytes) (name : String) (kept default : α) : α :=
  if names.contains (Bytes.ascii name) then kept else default

section Pick

variable {α : Type} {names names' : List Bytes} {name other : String} {a b : α}

theorem pick_cons_self : pick (Bytes.ascii name :: names) name a b = a :=
  if_pos (List.contains_iff_mem.2 List.mem_cons_self)

theorem pick_cons_of_ne (h : Bytes.ascii name ≠ Bytes.ascii other) :
    pick (Bytes.ascii other :: names) name a b = pick names name a b := by
  unfold pick
  simp only [List.contains_iff_mem, List.mem_cons, h, false_or]

theorem pick_of_mem (h : Bytes.ascii name ∈ names) : pick names name a b = a :=
  if_pos (List.contains_iff_mem.2 h)

theorem pick_congr (h : ∀ name, name ∈ names ↔ name ∈ names') :
    pick names name a b = pick names' name a b := by
  unfold pick
  simp only [List.contains_iff_mem, h]

end Pick

section Values

variable {t : Bytes}

/-- What is read may be turned into something else. -/
theorem reads_map {α β : Type} {read : Bytes → Result α} {a : α} (h : Reads read t a) (f : α → β) :
    Reads (fun bs => (read bs).map fun (v, r) => (f v, r)) t (f a) := by
  intro g rest hg hrest
  simp only [h g rest hg hrest]
  rfl

theorem reads_natural {n : Nat} {high : Int} (h : (n : Int) ≤ high) (hword : high ≤ maxWord) :
    Reads (wholeBetween 0 high) (wholeText n) n := by
  have hdebt : -(greatestDebt : Int) ≤ n := by
    unfold greatestDebt
    omega
  exact reads_wholeBetween (Int.natCast_nonneg n) h hdebt (Int.le_trans h hword)

theorem reads_port (n : UInt16) : Reads (wholeBetween 0 65535) (wholeText n.toNat) n.toNat := by
  have hlt : n.toNat < 65536 := n.toNat_lt
  exact reads_natural (by omega) (by decide)

theorem reads_word (n : UInt64) : Reads (wholeBetween 0 maxWord) (wholeText n.toNat) n.toNat := by
  have hlt : n.toNat < 18446744073709551616 := n.toNat_lt
  refine reads_natural ?_ (Int.le_refl _)
  unfold maxWord
  omega

theorem reads_size (n : UInt64) : Reads ServerConfig.size (wholeText n.toNat) n := by
  have hread := reads_map (reads_word n) fun n => UInt64.ofNat n.toNat
  rw [Int.toNat_natCast, UInt64.ofNat_toNat] at hread
  exact hread

theorem reads_backlog (n : Int32) :
    Reads (wholeBetween (-2147483648) 2147483647) (wholeText n.toInt) n.toInt := by
  have hlow : -2147483648 ≤ n.toInt := n.minValue_le_toInt
  have hhigh : n.toInt ≤ 2147483647 := n.toInt_le
  apply reads_wholeBetween hlow hhigh
  · unfold greatestDebt
    omega
  · unfold maxWord
    omega

theorem reads_level (l : LogLevel) : Reads LogLevel.read (quote (Bytes.ascii l.name)) l := by
  have hvalid : Utf8.Valid (Bytes.ascii l.name) := by
    apply Utf8.valid_ascii
    cases l <;> decide +kernel
  apply reads_choice hvalid
  cases l <;> rfl

end Values

namespace StoreConfig

/-- The names of the store's settings. -/
def names : List Bytes :=
  ["host", "port", "user", "password", "database", "pool_size"].map Bytes.ascii

/-- The members under which the store's settings are saved. -/
def saved (c : StoreConfig) : List (Bytes × Bytes) :=
  [(Bytes.ascii "host", quote (Utf8.encode c.host)),
   (Bytes.ascii "port", wholeText c.port.toNat),
   (Bytes.ascii "user", quote (Utf8.encode c.user)),
   (Bytes.ascii "password", quote (Utf8.encode c.password)),
   (Bytes.ascii "database", quote (Utf8.encode c.database)),
   (Bytes.ascii "pool_size", wholeText c.poolSize.toNat)]

/-- The settings of some names, and defaults for the others. -/
def keeping (c : StoreConfig) (kept : List Bytes) : StoreConfig where
  host := pick kept "host" c.host default.host
  port := pick kept "port" c.port default.port
  user := pick kept "user" c.user default.user
  password := pick kept "password" c.password default.password
  database := pick kept "database" c.database default.database
  poolSize := pick kept "pool_size" c.poolSize default.poolSize

theorem nodup_names : names.Nodup := by
  decide

theorem valid_names : ∀ name ∈ names, Utf8.Valid name := by
  have hascii : ∀ name ∈ names, ∀ b ∈ name, b < 0x80 := by
    decide +kernel
  exact fun name hname => Utf8.valid_ascii (hascii name hname)

theorem keeping_names (c : StoreConfig) : c.keeping names = c := by
  simp (disch := decide) only [keeping, pick_of_mem]

theorem keeping_congr (c : StoreConfig) {kept kept' : List Bytes}
    (h : ∀ name, name ∈ kept ↔ name ∈ kept') : c.keeping kept = c.keeping kept' := by
  simp only [keeping, pick_congr h]

/-- Every field takes the member that was saved for it. -/
theorem fits_saved (c : StoreConfig) : List.Forall₂ (Fits c.keeping) fields c.saved := by
  have htext (s : String) : Reads text (quote (Utf8.encode s)) (Utf8.encode s) :=
    reads_text (Utf8.valid_encode s)
  refine .cons (fits_set (htext c.host) fun seen => ?_) <|
    .cons (fits_set (reads_port c.port) fun seen => ?_) <|
    .cons (fits_set (htext c.user) fun seen => ?_) <|
    .cons (fits_set (htext c.password) fun seen => ?_) <|
    .cons (fits_set (htext c.database) fun seen => ?_) <|
    .cons (fits_set (reads_word c.poolSize) fun seen => ?_) .nil
  all_goals
    simp (disch := decide) only [keeping, pick_cons_self, pick_cons_of_ne, Utf8.toText_encode,
      Int.toNat_natCast, UInt16.ofNat_toNat, UInt64.ofNat_toNat]

/-- The store's settings are read from their members, whichever were kept. -/
theorem reads_edited (c : StoreConfig) {kept : List (Bytes × Bytes)} {t : Bytes}
    (h : EditedText c.saved kept t) : Reads read t (c.keeping (namesOf kept)) :=
  h.reads c.fits_saved nodup_names c.keeping_congr

theorem value_saved (c : StoreConfig) : ∀ m ∈ c.saved, Value m.2 := by
  simp only [saved, List.forall_mem_cons]
  exact ⟨value_quote (Utf8.valid_encode _), value_wholeText _, value_quote (Utf8.valid_encode _),
    value_quote (Utf8.valid_encode _), value_quote (Utf8.valid_encode _), value_wholeText _, nofun⟩

end StoreConfig

namespace ServerConfig

/-- The names of a server's settings. -/
def names : List Bytes :=
  ["listen_address", "port", "backlog", "edge_triggered", "idle_timeout_ms", "linger_on_close",
    "max_connections", "max_events", "initial_buffer_size", "document_root", "worker_threads",
    "store", "log_level", "log_queue_capacity", "log_file"].map Bytes.ascii

/-- The text of a path that may be left open. -/
def pathText (path : Option Bytes) : Bytes :=
  match path with
  | some p => quote p
  | none => Bytes.ascii "null"

/-- The members under which a server's settings are saved, with a text for the store. -/
def saved (c : ServerConfig) (store : Bytes) : List (Bytes × Bytes) :=
  [(Bytes.ascii "listen_address", quote (Utf8.encode c.listenAddress)),
   (Bytes.ascii "port", wholeText c.port.toNat),
   (Bytes.ascii "backlog", wholeText c.backlog.toInt),
   (Bytes.ascii "edge_triggered", boolText c.edgeTriggered),
   (Bytes.ascii "idle_timeout_ms", wholeText c.idleTimeoutMs.toNat),
   (Bytes.ascii "linger_on_close", boolText c.lingerOnClose),
   (Bytes.ascii "max_connections", wholeText c.maxConnections.toNat),
   (Bytes.ascii "max_events", wholeText c.maxEvents.toNat),
   (Bytes.ascii "initial_buffer_size", wholeText c.initialBufferSize.toNat),
   (Bytes.ascii "document_root", quote c.documentRoot),
   (Bytes.ascii "worker_threads", wholeText c.workerThreads.toNat),
   (Bytes.ascii "store", store),
   (Bytes.ascii "log_level", quote (Bytes.ascii c.logLevel.name)),
   (Bytes.ascii "log_queue_capacity", wholeText c.logQueueCapacity.toNat),
   (Bytes.ascii "log_file", pathText c.logFile)]

/-- The settings of some names, and defaults for the others. -/
def keeping (processors : UInt64) (c : ServerConfig) (kept : List Bytes) : ServerConfig where
  listenAddress := pick kept "listen_address" c.listenAddress (default processors).listenAddress
  port := pick kept "port" c.port (default processors).port
  backlog := pick kept "backlog" c.backlog (default processors).backlog
  edgeTriggered := pick kept "edge_triggered" c.edgeTriggered (default processors).edgeTriggered
  idleTimeoutMs := pick kept "idle_timeout_ms" c.idleTimeoutMs (default processors).idleTimeoutMs
  lingerOnClose := pick kept "linger_on_close" c.lingerOnClose (default processors).lingerOnClose
  maxConnections := pick kept "max_connections" c.maxConnections (default processors).maxConnections
  maxEvents := pick kept "max_events" c.maxEvents (default processors).maxEvents
  initialBufferSize :=
    pick kept "initial_buffer_size" c.initialBufferSize (default processors).initialBufferSize
  documentRoot := pick kept "document_root" c.documentRoot (default processors).documentRoot
  workerThreads := pick kept "worker_threads" c.workerThreads (default processors).workerThreads
  store := pick kept "store" c.store (default processors).store
  logLevel := pick kept "log_level" c.logLevel (default processors).logLevel
  logQueueCapacity :=
    pick kept "log_queue_capacity" c.logQueueCapacity (default processors).logQueueCapacity
  logFile := pick kept "log_file" c.logFile (default processors).logFile

theorem nodup_names : names.Nodup := by
  decide

theorem valid_names : ∀ name ∈ names, Utf8.Valid name := by
  have hascii : ∀ name ∈ names, ∀ b ∈ name, b < 0x80 := by
    decide +kernel
  exact fun name hname => Utf8.valid_ascii (hascii name hname)

theorem keeping_names (processors : UInt64) (c : ServerConfig) :
    c.keeping processors names = c := by
  simp (disch := decide) only [keeping, pick_of_mem]

theorem keeping_congr (processors : UInt64) (c : ServerConfig) {kept kept' : List Bytes}
    (h : ∀ name, name ∈ kept ↔ name ∈ kept') :
    c.keeping processors kept = c.keeping processors kept' := by
  simp only [keeping, pick_congr h]

theorem reads_pathText {path : Option Bytes} (h : ∀ p ∈ path, Utf8.Valid p) :
    Reads (optional text) (pathText path) path := by
  cases path with
  | none => exact reads_null text
  | some p => exact reads_quote_some (h p rfl)

/-- Every field takes the member that was saved for it, provided that the store is read from its own
text. -/
theorem fits_saved (processors : UInt64) {c : ServerConfig} (h : c.PathsValid) {store : Bytes}
    (hstore : Reads StoreConfig.read store c.store) :
    List.Forall₂ (Fits (c.keeping processors)) fields (c.saved store) := by
  have haddress : Reads text (quote (Utf8.encode c.listenAddress)) (Utf8.encode c.listenAddress) :=
    reads_text (Utf8.valid_encode c.listenAddress)
  refine .cons (fits_set haddress fun seen => ?_) <|
    .cons (fits_set (reads_port c.port) fun seen => ?_) <|
    .cons (fits_set (reads_backlog c.backlog) fun seen => ?_) <|
    .cons (fits_set (reads_truth c.edgeTriggered) fun seen => ?_) <|
    .cons (fits_set (reads_size c.idleTimeoutMs) fun seen => ?_) <|
    .cons (fits_set (reads_truth c.lingerOnClose) fun seen => ?_) <|
    .cons (fits_set (reads_size c.maxConnections) fun seen => ?_) <|
    .cons (fits_set (reads_size c.maxEvents) fun seen => ?_) <|
    .cons (fits_set (reads_size c.initialBufferSize) fun seen => ?_) <|
    .cons (fits_set (reads_text h.1) fun seen => ?_) <|
    .cons (fits_set (reads_size c.workerThreads) fun seen => ?_) <|
    .cons (fits_set hstore fun seen => ?_) <|
    .cons (fits_set (reads_level c.logLevel) fun seen => ?_) <|
    .cons (fits_set (reads_size c.logQueueCapacity) fun seen => ?_) <|
    .cons (fits_set (reads_pathText h.2) fun seen => ?_) .nil
  all_goals
    simp (disch := decide) only [keeping, pick_cons_self, pick_cons_of_ne, Utf8.toText_encode,
      Int.toNat_natCast, UInt16.ofNat_toNat, Int32.ofInt_toInt]

/-- The settings are read from their members, whichever were kept, here and inside the store. -/
theorem reads_edited (processors : UInt64) {c : ServerConfig} (h : c.PathsValid)
    {kept keptInStore : List (Bytes × Bytes)} {store t : Bytes}
    (hstore : EditedText c.store.saved keptInStore store)
    (ht : EditedText (c.saved store) kept t) :
    Reads (read processors) t
      ({ c with store := c.store.keeping (namesOf keptInStore) }.keeping processors
        (namesOf kept)) :=
  ht.reads (fits_saved processors (c := { c with store := c.store.keeping (namesOf keptInStore) }) h
    (c.store.reads_edited hstore)) nodup_names (keeping_congr processors _)

end ServerConfig

end HttpServer
