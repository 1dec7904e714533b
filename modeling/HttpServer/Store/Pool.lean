import HttpServer.Config

/-!
# A pool of store connections

A fixed number of connections is opened at the start. An idle one can be taken and is put back when
its holder is done with it; the one put back last is taken first. If one connection cannot be
opened, there is no pool.

A `Desk` is a pool together with the connections that are out, each under the name of its holder.
Holders may change the connections that they hold.
-/

namespace HttpServer

/-- Connections, idle ones first to be taken first. -/
structure StorePool (γ : Type) where
  capacity : Nat
  idle : List γ
deriving Repr

namespace StorePool

variable {γ : Type}

/-- Opens `n` connections, numbered from `i` on, on top of those opened before. The answer also
tells how often a connection was tried. -/
def openFrom (config : StoreConfig) (connect : Nat → Except ServerError γ) :
    Nat → Nat → List γ → Except ServerError (List γ) × Nat
  | 0, i, opened => (.ok opened, i)
  | n + 1, i, opened =>
    match connect i with
    | .ok c => openFrom config connect n (i + 1) (c :: opened)
    | .error e => (.error (.storeConnection i config.url e), i + 1)

/-- Opens the connections of a pool. The answer also tells how often a connection was tried. -/
def ofConfig (config : StoreConfig) (connect : Nat → Except ServerError γ) :
    Except ServerError (StorePool γ) × Nat :=
  let (opened, tried) := openFrom config connect config.poolSize.toNat 0 []
  (opened.map fun idle => ⟨idle.length, idle⟩, tried)

/-- Opens the pool of a server; there is none when the configuration asks for no connections. -/
def openFor (config : StoreConfig) (connect : Nat → Except ServerError γ) :
    Except ServerError (Option (StorePool γ)) × Nat :=
  if config.poolSize = 0 then (.ok none, 0)
  else
    let (pool, tried) := ofConfig config connect
    (pool.map some, tried)

/-- The number of idle connections. -/
def available (p : StorePool γ) : Nat := p.idle.length

/-- Takes an idle connection. -/
def acquire (p : StorePool γ) : Option γ × StorePool γ :=
  match p.idle with
  | [] => (none, p)
  | c :: r => (some c, { p with idle := r })

/-- Puts a connection back. -/
def giveBack (p : StorePool γ) (c : γ) : StorePool γ :=
  { p with idle := c :: p.idle }

/-- The text that shows a pool. -/
def describe (p : StorePool γ) : String :=
  "StorePool \x7b capacity: " ++ toString p.capacity ++ ", available: " ++
    toString p.available ++ " \x7d"

end StorePool

/-- A pool, and the connections that are out. -/
structure StoreDesk (γ : Type) where
  pool : StorePool γ
  held : List (String × γ)

namespace StoreDesk

variable {γ : Type}

/-- A desk with nothing out. -/
def ofPool (p : StorePool γ) : StoreDesk γ := ⟨p, []⟩

/-- The connection that a holder has. -/
def held? (d : StoreDesk γ) (holder : String) : Option γ :=
  (d.held.find? fun e => e.1 == holder).map Prod.snd

/-- The desk without a holder's connection, which stays out. -/
def forget (d : StoreDesk γ) (holder : String) : StoreDesk γ :=
  { d with held := d.held.filter fun e => e.1 != holder }

/-- A holder puts its connection back. The answer tells whether it had one. -/
def release (d : StoreDesk γ) (holder : String) : Bool × StoreDesk γ :=
  match d.held? holder with
  | some c => (true, { d.forget holder with pool := d.pool.giveBack c })
  | none => (false, d)

/-- A holder takes a connection. The one that it had goes back after that. -/
def acquire (d : StoreDesk γ) (holder : String) : Option γ × StoreDesk γ :=
  match d.pool.acquire with
  | (none, _) => (none, d)
  | (some c, pool) =>
    let d := ({ d with pool := pool }.release holder).2
    (some c, { d with held := (holder, c) :: d.held })

/-- A holder changes its connection, if it has one. -/
def modify (d : StoreDesk γ) (holder : String) (f : γ → γ) : Option γ × StoreDesk γ :=
  match d.held? holder with
  | some c => (some (f c), { d with held := (holder, f c) :: (d.forget holder).held })
  | none => (none, d)

end StoreDesk

end HttpServer
