import HttpServer.Connection.Task

/-!
# Histories of a connection

A history is any sequence of acts on one connection, whatever the stream does: reading, reading on in
what has arrived, writing, letting go of a response, and closing.

A wire is a connection that is served by its tasks, each of which runs for the direction for which
the connection was armed last. It remembers the bytes that the stream took and the responses that
were built.
-/

namespace HttpServer

/-- Something that is done to a connection. -/
inductive Act where
  | read (arrivals : Script)
  | process (files : FileTree)
  | write (taking : Except IoError Nat)
  | reset
  | close

namespace Connection

/-- A connection and the counters after an act. -/
def act (site : Site) (c : Connection) (stats : Stats) : Act → Connection × Stats
  | .read arrivals => ((c.read arrivals).2, stats)
  | .process files =>
    let p := c.process site files stats
    (p.connection, p.stats)
  | .write taking => ((c.write taking).2, stats)
  | .reset => (c.reset, stats)
  | .close =>
    let (_, c, stats) := c.close stats
    (c, stats)

/-- A connection and the counters after some acts. -/
def acts (site : Site) (c : Connection) (stats : Stats) (as : List Act) : Connection × Stats :=
  as.foldl (fun s a => act site s.1 s.2 a) (c, stats)

@[simp] theorem acts_nil (site : Site) (c : Connection) (stats : Stats) :
    acts site c stats [] = (c, stats) := rfl

theorem acts_cons (site : Site) (c : Connection) (stats : Stats) (a : Act) (as : List Act) :
    acts site c stats (a :: as) = acts site (act site c stats a).1 (act site c stats a).2 as := rfl

theorem acts_append (site : Site) (c : Connection) (stats : Stats) (as bs : List Act) :
    acts site c stats (as ++ bs) =
      acts site (acts site c stats as).1 (acts site c stats as).2 bs := by
  simp [acts]

end Connection

/-- A connection that is served by its tasks, and what came of it. -/
structure Wire where
  connection : Connection
  stats : Stats
  /-- What the connection waits for. -/
  armed : Option Direction
  /-- The bytes that the stream took. -/
  sent : Bytes
  /-- The responses that were built. -/
  built : List Built

namespace Wire

/-- A new connection, which waits to be read from. -/
def start (bufferSize : Nat) (stats : Stats) : Wire :=
  let (c, stats) := Connection.establish bufferSize stats
  ⟨c, stats, some .reading, [], []⟩

/-- The task runs that the connection waits for. -/
def run (w : Wire) (site : Site) (files : FileTree) (conduct : Conduct) : Option Wire :=
  w.armed.map fun d =>
    let t := w.connection.task site files d conduct w.stats
    ⟨t.connection, t.stats, t.armed, w.sent ++ t.sent, w.built ++ t.built.toList⟩

/-- What a wire can come to. -/
inductive Reachable (site : Site) (bufferSize : Nat) (stats : Stats) : Wire → Prop where
  | start : Reachable site bufferSize stats (start bufferSize stats)
  | step {v w : Wire} (files : FileTree) (conduct : Conduct) :
      Reachable site bufferSize stats v → v.run site files conduct = some w →
      Reachable site bufferSize stats w

theorem run_eq_none_iff {w : Wire} {site : Site} {files : FileTree} {conduct : Conduct} :
    w.run site files conduct = none ↔ w.armed = none := by
  simp [run]

end Wire

end HttpServer
