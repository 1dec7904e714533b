import HttpServer.Message.Request
import HttpServer.Text.Quoted

/-!
# Routes

A site answers some paths by handlers, which compute a body from the request, and serves some paths
under another name. Both are looked up by the exact path.

A handler that returns says whether it succeeded and what it wrote, and is told by what it makes of a
request. What a handler leaves that panics instead is told with the connection that asked it.
-/

namespace HttpServer

/-- What a handler came to. -/
structure Reply where
  succeeded : Bool
  written : Bytes
deriving DecidableEq, Repr

/-- Computes a body from a request, where it returns. -/
abbrev Handler := Request → Reply

namespace Handler

/-- A handler that always succeeds. -/
def succeeding (write : Request → Bytes) : Handler :=
  fun r => ⟨true, write r⟩

/-- The same reply for every request. -/
def constant (succeeded : Bool) (written : Bytes) : Handler :=
  fun _ => ⟨succeeded, written⟩

/-- Writes the JSON value of the request, or else the object that says that all is well. -/
def echoJson : Handler :=
  succeeding fun r =>
    (r.json.getD (.object [(Bytes.ascii "ok", .bool true)])).render

end Handler

/-- Other names and handlers by path. -/
structure Routes where
  aliases : Table Bytes
  handlers : Table Handler

namespace Routes

/-- No routes. -/
def empty : Routes :=
  ⟨Table.empty, Table.empty⟩

instance : Inhabited Routes := ⟨empty⟩

/-- Serves `target` where `path` is asked for. -/
def addAlias (r : Routes) (path target : Bytes) : Routes :=
  { r with aliases := r.aliases.insert path target }

/-- Lets a handler answer a path. -/
def addHandler (r : Routes) (path : Bytes) (h : Handler) : Routes :=
  { r with handlers := r.handlers.insert path h }

/-- The name under which a path is served. -/
def alias? (r : Routes) (path : Bytes) : Option Bytes :=
  r.aliases.find? path

/-- The handler that answers a path. -/
def handler? (r : Routes) (path : Bytes) : Option Handler :=
  r.handlers.find? path

/-- The number of handlers. -/
def handlerCount (r : Routes) : Nat :=
  r.handlers.length

/-- A table of other names between braces. -/
def describeAliases (t : Table Bytes) : String :=
  let shown := t.map fun (p, target) =>
    Quoted.quote (Utf8.toText p) ++ ": " ++ Quoted.quote (Utf8.toText target)
  "\x7b" ++ ", ".intercalate shown ++ "\x7d"

/-- The other names, and the paths that handlers answer, in order. -/
def describe (r : Routes) : String :=
  let handled := r.handlers.keys.map fun p => Quoted.quote (Utf8.toText p)
  "RouteTable \x7b aliases: " ++ describeAliases r.aliases ++ ", handlers: [" ++
    ", ".intercalate handled ++ "] \x7d"

end Routes

end HttpServer
