import HttpServer.Config.Storage
import HttpServer.Network
import HttpServer.Reactor
import HttpServer.Store.Pool

/-!
# A server before it serves

A server gathers routes. Binding it checks its settings, starts to listen, and makes a reactor that
has no connections yet.
-/

namespace HttpServer

/-- Settings and routes of a server. -/
structure Server where
  config : ServerConfig
  routes : Routes

namespace Server

/-- A server without routes. -/
def ofConfig (c : ServerConfig) : Server := ⟨c, .empty⟩

/-- Serves `target` where `path` is asked for. -/
def addAlias (s : Server) (path target : Bytes) : Server :=
  { s with routes := s.routes.addAlias path target }

/-- Lets a handler answer a path. -/
def addHandler (s : Server) (path : Bytes) (h : Handler) : Server :=
  { s with routes := s.routes.addHandler path h }

/-- Opens the store that handlers share, if there is to be one. -/
def openStore {γ : Type} (s : Server) (connect : Nat → Except ServerError γ) :
    Except ServerError (Option (StorePool γ)) × Nat :=
  StorePool.openFor s.config.store connect

/-- What a reactor needs to know of the server. -/
def reactorSettings (s : Server) : ReactorSettings where
  site := ⟨s.config.documentRoot, s.routes⟩
  idleTimeout := s.config.idleTimeout.map Duration.toNanos
  maxConnections := s.config.maxConnections
  bufferSize := s.config.initialBufferSize.toNat

/-- Starts to listen. -/
def bind (s : Server) (n : Network) : Except ServerError (Listener × Reactor) :=
  match s.config.validate with
  | .error e => .error (.config e)
  | .ok () =>
    match Listener.open? n s.config with
    | .error e => .error (.startup e)
    | .ok l => .ok (l, .fresh s.reactorSettings)

end Server

end HttpServer
