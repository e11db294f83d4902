import Multicast.Orchestrator
import Multicast.Switch

/-! A run of the orchestrator against the simulated switch: groups and routes are built on each
device, every route is compared with the hardware, and the cache is printed. -/
namespace Multicast

structure Simulation where
  devices : UInt32 := 1
  /-- Groups of a device. -/
  groups : UInt8 := 2
  /-- Egress members of a group. -/
  members : UInt32 := 2
  /-- Routes of a group. -/
  routes : UInt8 := 4
  /-- Whether the groups have IPv6 addresses. -/
  ipv6 : Bool := false
  /-- Whether everything is removed again. -/
  teardown : Bool := false
  deriving DecidableEq, Repr

namespace Simulation

inductive Output where
  | print (text : String)
  | log (line : Log.Line)
  deriving DecidableEq, Repr

/-- How a run ended, and what it wrote on the way. -/
structure Report where
  output : List Output
  succeeded : Bool
  deriving DecidableEq, Repr

/-! The set-up -/

def vrf : VrfId := ⟨0⟩

/-- The ingress of every group and route. -/
def ingress : MemberSpec := ⟨⟨100⟩, [.panel 0 1]⟩

def egress (i : Nat) : MemberSpec :=
  ⟨⟨UInt32.ofNat (200 + i)⟩, [.panel 0 (UInt32.ofNat (2 + i))]⟩

def egressMembers (p : Simulation) : List MemberSpec := (List.range p.members.toNat).map egress

/-- Address of the `route`-th route of the `group`-th group. -/
def groupAddress (ipv6 : Bool) (group route : Nat) : Address :=
  if ipv6 then
    .v6 ⟨[0xff0e, 0, 0, 0, 0, 0, UInt16.ofNat group, UInt16.ofNat route], rfl⟩
  else .v4 ⟨230, 1, UInt8.ofNat group, UInt8.ofNat route⟩

/-- Keys of the routes of a group, numbered from one. -/
def routeKeys (p : Simulation) (group : Nat) : List RouteKey :=
  (List.range p.routes.toNat).map fun r => .starG vrf (groupAddress p.ipv6 group (r + 1))

def connect (d : DeviceId) (s : Switch) (m : MemberSpec) : Switch :=
  let s := (s.register d (.rif m.rif)).2
  m.ports.foldl (fun s port => (s.register d (.port port)).2) s

/-- Registers the router, the interfaces and the ports of a device. -/
def equip (p : Simulation) (d : DeviceId) (s : Switch) : Switch :=
  (ingress :: p.egressMembers).foldl (connect d) (s.register d (.vrf vrf)).2

/-! The run -/

structure Run where
  world : World Switch
  /-- Output so far, in order. -/
  output : List Output

abbrev Script := ExceptT OpError (StateM Run)

def orchestrator (config : Config) : Orchestrator Switch := ⟨config, Switch.hardware, .ascending⟩

def write (o : Output) : StateM Run Unit := modify fun r => { r with output := r.output ++ [o] }

def note (level : Log.Level) (message : String) : StateM Run Unit := write (.log ⟨level, message⟩)

def perform {α : Type} (operation : World Switch → Outcome Switch α) : Script α := fun r =>
  let out := operation r.world
  (out.result, { r with world := out.world })

def ask {α : Type} (question : World Switch → Except OpError α) : Script α := fun r =>
  (question r.world, r)

def addRoutes (o : Orchestrator Switch) (d : DeviceId) (group : Handle) :
    List RouteKey → Script Unit
  | [] => pure ()
  | key :: rest => do
    perform (o.addRoute · d ⟨key, ingress.rif, group, false⟩)
    addRoutes o d group rest

/-- Builds the groups in turn and answers with the keys of all routes. -/
def addGroups (p : Simulation) (o : Orchestrator Switch) (d : DeviceId) :
    List Nat → Script (List RouteKey)
  | [] => return []
  | group :: rest => do
    let id ← perform (o.createGroup · d .ipmc ingress p.egressMembers)
    let keys := p.routeKeys group
    addRoutes o d id keys
    return keys ++ (← addGroups p o d rest)

/-- How many routes differ from the hardware. -/
def countDifferent (o : Orchestrator Switch) (d : DeviceId) : List RouteKey → Script Nat
  | [] => return 0
  | key :: rest => do
    let same ← perform (o.verifyRoute · d key)
    let others ← countDifferent o d rest
    return if same then others else others + 1

def populate (p : Simulation) (o : Orchestrator Switch) (d : DeviceId) :
    Script (List RouteKey) := do
  perform (o.attach · d)
  let keys ← p.addGroups o d (List.range p.groups.toNat)
  let different ← countDifferent o d keys
  if 0 < different then
    ExceptT.lift (note .warn ("Device " ++ d.text ++ ": " ++ Numeral.decimalText different ++
      " routes differ from hardware"))
  ask (·.checkConsistency d)
  return keys

def deleteRoutes (o : Orchestrator Switch) (d : DeviceId) : List RouteKey → Script Unit
  | [] => pure ()
  | key :: rest => do
    perform (o.deleteRoute · d key)
    deleteRoutes o d rest

def deleteGroups (o : Orchestrator Switch) (d : DeviceId) : List Handle → Script Unit
  | [] => pure ()
  | id :: rest => do
    perform (o.deleteGroup · d id)
    deleteGroups o d rest

def tearDown (o : Orchestrator Switch) (d : DeviceId) (keys : List RouteKey) : Script Unit := do
  deleteRoutes o d keys
  deleteGroups o d (← ask (·.groupIds d))
  perform (o.detach · d)

/-- Runs a script; an error is logged under `heading` and ends the run. -/
def orReport {α : Type} (heading : String) (script : Script α) : OptionT (StateM Run) α := do
  match ← OptionT.lift script.run with
  | .ok a => return a
  | .error e =>
    OptionT.lift (note .error (heading ++ e.message))
    failure

/-- Builds, prints and, if asked to, removes one device; nothing comes after an error. -/
def runDevice (p : Simulation) (o : Orchestrator Switch) (d : DeviceId) :
    OptionT (StateM Run) Unit := do
  let heading := "Device " ++ d.text ++ ": "
  OptionT.lift (modify fun r =>
    { r with world := { r.world with state := p.equip d r.world.state } })
  let keys ← orReport heading (p.populate o d)
  let dump ← orReport heading (ask (·.dump d))
  OptionT.lift (write (.print (dump ++ "\n")))
  if p.teardown then
    orReport (heading ++ "teardown failed: ") (tearDown o d keys)
    let left := (← OptionT.lift get).world.state.deviceObjectCount d
    OptionT.lift (note .info
      (heading ++ "torn down, " ++ Numeral.decimalText left ++ " objects left"))

/-- Runs devices in turn, from `first` on. -/
def runDevices (p : Simulation) (o : Orchestrator Switch) (first : Nat) :
    (count : Nat) → OptionT (StateM Run) Unit
  | 0 => pure ()
  | count + 1 => do
    p.runDevice o ⟨UInt32.ofNat first⟩
    runDevices p o (first + 1) count

def startLine (p : Simulation) : Log.Line :=
  ⟨.info, "Starting ipmc-sim: " ++ Numeral.decimalText p.devices.toNat ++ " devices, " ++
    Numeral.decimalText p.groups.toNat ++ " groups/device, " ++
    Numeral.decimalText p.members.toNat ++ " members/group, " ++
    Numeral.decimalText p.routes.toNat ++ " routes/group"⟩

/-- The whole run, with the state that it ends in; no result is a failure. -/
def finish (p : Simulation) (config : Config) : Option Unit × Run :=
  (p.runDevices (orchestrator config) 0 p.devices.toNat).run.run
    ⟨.start .empty, [.log p.startLine]⟩

def run (p : Simulation) (config : Config) : Report :=
  let (ended, r) := p.finish config
  ⟨r.output, ended.isSome⟩

end Simulation

end Multicast
