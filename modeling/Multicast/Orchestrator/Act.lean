import Multicast.Audit.Record
import Multicast.Cache.Device
import Multicast.Config
import Multicast.Orchestrator.Error

/-! Steps of an operation on one device. They read and change the state of the hardware and the
cache of the device, leave a trace of events, and may end in an error; what was done before an
error stays done. -/
namespace Multicast

inductive Event where
  | log (line : Log.Line)
  /-- A call of the hardware and its error, if it failed. An undo call takes back what an operation
  that is about to fail has done. -/
  | call (device : DeviceId) (call : Call) (undo : Bool) (failure : Option HardwareError)
  /-- A change that the cache refused. -/
  | refusal (e : CacheError)
  | audit (record : Audit.Record)

/-- The order in which the routes of a group are visited. -/
structure RouteOrder where
  arrange : List RouteKey → List RouteKey
  perm : ∀ keys, (arrange keys).Perm keys

def RouteOrder.ascending : RouteOrder := ⟨id, fun _ => .refl _⟩

structure Orchestrator (σ : Type) where
  config : Config
  hardware : Hardware σ
  order : RouteOrder

/-- An operation under way on one device. -/
structure Run (σ : Type) where
  state : σ
  cache : DeviceCache
  /-- Events so far, in order. -/
  events : List Event

/-- A step that cannot fail. -/
abbrev Effect (σ : Type) := StateM (Run σ)

/-- A step that may fail. -/
abbrev Act (σ : Type) := ExceptT OpError (Effect σ)

variable {σ α : Type}

namespace Effect

def emit (e : Event) : Effect σ Unit := modify fun r => { r with events := r.events ++ [e] }

/-- Lines of the orchestrator carry its name. -/
def note (level : Log.Level) (message : String) : Effect σ Unit :=
  emit (.log ⟨level, "ReplGroupOrch: " ++ message⟩)

def count (f : Stats → Stats) : Effect σ Unit :=
  modify fun r => { r with cache := { r.cache with stats := f r.cache.stats } }

def countRollback : Effect σ Unit := count fun s => { s with rollbacks := s.rollbacks + 1 }

def failure? {ρ : Type} : Except HardwareError ρ → Option HardwareError
  | .ok _ => none
  | .error e => some e

/-- Makes a call and traces it. -/
def call (hw : Hardware σ) (d : DeviceId) (undo : Bool) (c : Call) :
    Effect σ (Except HardwareError c.Reply) := fun r =>
  let (answer, state) := hw.call d c r.state
  (answer.result,
    { r with
      state := state,
      events := r.events ++ answer.notes.map .log ++ [.call d c undo (failure? answer.result)] })

/-- Makes an undo call, and tells whether it failed. -/
def undo (hw : Hardware σ) (d : DeviceId) (what context : String) (c : Call) : Effect σ Bool := do
  match ← call hw d true c with
  | .ok _ =>
    note .debug ("rollback " ++ what ++ " " ++ context ++ " done")
    return false
  | .error e =>
    note .warn ("rollback " ++ what ++ " " ++ context ++ " failed: " ++ e.message)
    return true

end Effect

namespace Act

def note (level : Log.Level) (message : String) : Act σ Unit :=
  ExceptT.lift (Effect.note level message)

def count (f : Stats → Stats) : Act σ Unit := ExceptT.lift (Effect.count f)

def cache : Act σ DeviceCache := ExceptT.lift do return (← get).cache

/-- A rule of the cache. -/
def ofCache (x : Except CacheError α) : Act σ α :=
  match x with
  | .ok a => pure a
  | .error e => throw (.cache e)

/-- Changes the cache, or leaves it as it was. -/
def changeCache (f : DeviceCache → Except CacheError DeviceCache) : Act σ Unit := do
  match f (← cache) with
  | .ok c => ExceptT.lift (modify fun r => { r with cache := c })
  | .error e =>
    ExceptT.lift (Effect.emit (.refusal e))
    throw (.cache e)

def changeGroup (id : Handle) (f : Group → Except CacheError Group) : Act σ Unit :=
  changeCache fun c => do
    let groups ← c.groups.update id f
    .ok { c with groups := groups }

def call (hw : Hardware σ) (d : DeviceId) (undo : Bool) (c : Call) : Act σ c.Reply := do
  match ← ExceptT.lift (Effect.call hw d undo c) with
  | .ok a => pure a
  | .error e => throw (.hardware c.kind e)

/-- Makes a call that the operation needs. -/
def request (hw : Hardware σ) (d : DeviceId) (c : Call) : Act σ c.Reply := call hw d false c

def lookup (hw : Hardware σ) (d : DeviceId) (l : Lookup) : Act σ Handle := do
  match ← ExceptT.lift fun r =>
      let (found, state) := hw.lookup d l r.state
      (found, { r with state := state }) with
  | some h => pure h
  | none => throw (.unresolved l)

def lookupPorts (hw : Hardware σ) (d : DeviceId) (ports : List Port) : Act σ (List Handle) := do
  match ← ExceptT.lift fun r =>
      let (found, state) := hw.lookupPorts d ports r.state
      (found, { r with state := state }) with
  | .ok l => pure l
  | .error l => throw (.unresolved l)

/-- The hardware's key of a route. -/
def entryOf (hw : Hardware σ) (d : DeviceId) (key : RouteKey) : Act σ Entry := do
  let router ← lookup hw d (.vrf key.vrf)
  return .ofKey router key

/-- Runs `x`; if that fails, cleans up and fails with the same error. -/
def orCleanUp (x : Act σ α) (cleanUp : OpError → Effect σ Unit) : Act σ α :=
  tryCatch x fun e => do
    ExceptT.lift (cleanUp e)
    throw e

/-- A group that routes and new members may still reference. -/
def usableGroup (id : Handle) : Act σ Group := do
  let g ← ofCache ((← cache).groups.get id)
  if g.isComplete then return g else throw (.cache (.groupIncomplete id))

end Act

end Multicast
