import HttpServer.Log
import HttpServer.Session

/-!
# The command line

The program writes a file with the default settings, or it serves. When it serves it takes its
settings from the file that it is given, if there is one; then it opens its log, then the store, and
then it starts to listen. The first of these that fails ends the program with a complaint and the
exit code 1.

The site that it serves has its front page under a second name, and handlers that send the JSON body
of a request back and that report on the store, if there is one.
-/

namespace HttpServer

/-- What the program is asked to do. -/
inductive Command where
  | writeConfig (path : Bytes)
  | serve (settings : Option Bytes)
deriving DecidableEq, Repr

namespace Command

/-- The option that asks for a file with the default settings. -/
def writeOption : Bytes := Bytes.ascii "--write-config"

/-- The command that some arguments stand for. The option needs a path behind it; without one it is
taken for the name of a file. -/
def ofArguments : List Bytes → Command
  | [] => .serve none
  | [first] => .serve (some first)
  | first :: second :: _ => if first = writeOption then .writeConfig second else .serve (some first)

/-- The file that is read or written. -/
def path? : Command → Option Bytes
  | writeConfig path => some path
  | serve settings => settings

end Command

namespace Handler

/-- Reports the JSON body of the request, if it has one. -/
def echoReport : Handler :=
  succeeding fun r =>
    let ok := (Bytes.ascii "ok", Json.bool true)
    (match r.json with
      | some body => Json.object [(Bytes.ascii "echo", body), ok]
      | none => Json.object [ok]).render

/-- Reports how many connections a store has, and how many of them are idle. -/
def storeReport {γ : Type} (p : StorePool γ) : Handler :=
  succeeding fun _ =>
    (Json.object
      [(Bytes.ascii "available", .number (.whole p.available)),
       (Bytes.ascii "capacity", .number (.whole p.capacity))]).render

end Handler

/-- Where the program runs. -/
structure Host where
  network : Network
  /-- The number of processors. -/
  processors : UInt64
  files : FileTree

namespace Host

/-- The settings that a serving program has. -/
def settings (h : Host) (path : Option Bytes) : Except ServerError ServerConfig :=
  match path with
  | none => .ok (.default h.processors)
  | some p =>
    if h.files.exists? p then ServerConfig.load h.processors h.files p
    else .ok (.default h.processors)

/-- The server with its routes. -/
def server (c : ServerConfig) (store : Option (StorePool Unit)) : Server :=
  let s := (Server.ofConfig c).addAlias (Bytes.ascii "/") (Bytes.ascii "/index.html")
  let s := s.addHandler (Bytes.ascii "/action/echo") .echoReport
  match store with
  | none => s
  | some p => s.addHandler (Bytes.ascii "/action/store") (.storeReport p)

/-- Connects to the store. -/
def connectStore (h : Host) (c : StoreConfig) (_ : Nat) : Except ServerError Unit :=
  (h.network.connect c.host).mapError .io

/-- Opens the log. -/
def openLog (h : Host) (c : ServerConfig) : Except ServerError FileTree :=
  Log.install false h.files c.logFile

/-- Opens the store and starts to listen. -/
def startServing (h : Host) (c : ServerConfig) : Except ServerError Session := do
  let store ← ((Server.ofConfig c).openStore (h.connectStore c.store)).1
  let (listener, reactor) ← (server c store).bind h.network
  return Session.start h.network listener reactor h.files

/-- Writes a file with the default settings. -/
def writeConfig (h : Host) (path : Bytes) : Except ServerError Unit × FileTree :=
  (ServerConfig.default h.processors).save h.files path

/-- How the program ends. -/
structure Finish where
  exitCode : UInt32
  output : Bytes
  complaints : List String
  files : FileTree

/-- What has become of the program. -/
inductive Progress where
  | finished (f : Finish)
  | serving (s : Session)

/-- The program's name in front of a complaint. -/
def complaint (e : ServerError) : String :=
  "reactor-httpd: " ++ e.message

/-- The program ends because of an error. -/
def failed (h : Host) (e : ServerError) : Finish :=
  ⟨1, [], [complaint e], h.files⟩

/-- The program ends as it should. -/
def succeeded (output : Bytes) (files : FileTree) : Finish :=
  ⟨0, output, [], files⟩

/-- The line that says where the default settings were saved. -/
def savedLine (path : Bytes) : Bytes :=
  Bytes.ascii "Default configuration saved to: " ++ path ++ [Bytes.lf]

/-- Writes the default settings. -/
def runWriteConfig (h : Host) (path : Bytes) : Finish :=
  match h.writeConfig path with
  | (.error e, files) => { h with files := files }.failed e
  | (.ok (), files) => succeeded (savedLine path) files

/-- Does all that comes before serving. A log file that was opened stays. -/
def runServe (h : Host) (path : Option Bytes) : Progress :=
  match h.settings path with
  | .error e => .finished (h.failed e)
  | .ok c =>
    match h.openLog c with
    | .error e => .finished (h.failed e)
    | .ok files =>
      let h := { h with files := files }
      match h.startServing c with
      | .error e => .finished (h.failed e)
      | .ok s => .serving s

/-- Runs a command until the program ends or serves. -/
def run (h : Host) : Command → Progress
  | .writeConfig path => .finished (h.runWriteConfig path)
  | .serve settings => h.runServe settings

/-- The program after it was told to stop serving. -/
def interrupted (s : Session) : Finish :=
  succeeded [] s.files

end Host

end HttpServer
