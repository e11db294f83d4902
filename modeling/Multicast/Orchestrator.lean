import Multicast.Cache.Fleet
import Multicast.Orchestrator.Group
import Multicast.Orchestrator.Route

/-! The operations on groups, members and routes of any number of devices. Each checks the cache,
makes its calls and only then changes the cache; one that fails takes back what it has done in the
hardware. Each change of state ends with an audit record. -/
namespace Multicast

/-- The hardware and the caches of the devices attached to it. -/
structure World (σ : Type) where
  state : σ
  fleet : Fleet

def World.start {σ : Type} (state : σ) : World σ := ⟨state, ∅⟩

structure Outcome (σ α : Type) where
  result : Except OpError α
  events : List Event
  world : World σ

namespace Orchestrator

variable {σ α : Type}

/-- Runs an operation on the cache of an attached device. -/
def onDevice (w : World σ) (d : DeviceId) (act : Act σ α) : Outcome σ α :=
  match w.fleet.find? d with
  | none => ⟨.error (.cache (.deviceNotFound d)), [], w⟩
  | some c =>
    let (result, r) := act.run.run ⟨w.state, c, []⟩
    ⟨result, r.events, ⟨r.state, w.fleet.modify d fun _ => r.cache⟩⟩

/-- How an operation ended: an error of the hardware is a failure, any other a denial. -/
def finish (record : Audit.Record) (result : Except OpError α) : Audit.Record :=
  match result with
  | .ok _ => record.withOutcome .success
  | .error e =>
    if e.kind = .fail then record.withError e.message
    else (record.withOutcome .denied).withError e.message

/-- Adds the audit record of an operation after its other events. -/
def audited (o : Orchestrator σ) (out : Outcome σ α) (record : Audit.Record) : Outcome σ α :=
  if o.config.audit then
    { out with events := out.events ++ [.audit (finish record out.result)] }
  else out

def record (category : Audit.Category) (action objectId objectType : String) (details : Json) :
    Audit.Record :=
  (Audit.Record.new category "ReplGroupOrch" action)
    |>.withObjectId objectId
    |>.withObjectType objectType
    |>.withDetails details

def deviceDetails (d : DeviceId) : Json := .obj [("device", d.toJson)]

/-- Logs a change of the fleet that succeeded. -/
def noted (out : Outcome σ Unit) (message : String) : Outcome σ Unit :=
  match out.result with
  | .ok _ => { out with events := out.events ++ [.log ⟨.info, "ReplGroupOrch: " ++ message⟩] }
  | .error _ => out

def changeFleet (w : World σ) (f : Fleet → Except CacheError Fleet) : Outcome σ Unit :=
  match f w.fleet with
  | .ok fleet => ⟨.ok (), [], { w with fleet := fleet }⟩
  | .error e => ⟨.error (.cache e), [], w⟩

def attach (o : Orchestrator σ) (w : World σ) (d : DeviceId) : Outcome σ Unit :=
  let out := o.audited (changeFleet w (·.attach d))
    (record .systemLifecycle "attach_device" d.text "device" (deviceDetails d))
  noted out ("attached device " ++ d.text)

def detach (o : Orchestrator σ) (w : World σ) (d : DeviceId) : Outcome σ Unit :=
  let out := o.audited (changeFleet w (·.detach d))
    (record .systemLifecycle "detach_device" d.text "device" (deviceDetails d))
  noted out ("detached device " ++ d.text)

/-- Creates a group and answers with its handle. -/
def createGroup (o : Orchestrator σ) (w : World σ) (d : DeviceId) (owner : Owner)
    (rpf : MemberSpec) (ipmc : List MemberSpec) : Outcome σ Handle :=
  let out := onDevice w d (o.makeGroup d owner rpf ipmc)
  let objectId := match out.result with
    | .ok id => id.text
    | .error _ => "rpf rif " ++ rpf.rif.text
  o.audited out
    (record .resourceCreate "create_replication_group" objectId "repl_group" (deviceDetails d))

def deleteGroup (o : Orchestrator σ) (w : World σ) (d : DeviceId) (id : Handle) :
    Outcome σ Unit :=
  o.audited (onDevice w d (o.unmakeGroup d id))
    (record .resourceDelete "delete_replication_group" id.text "repl_group" (deviceDetails d))

def updateMember (o : Orchestrator σ) (w : World σ) (d : DeviceId) (id : Handle) (op : MemberOp)
    (role : Role) (spec : MemberSpec) : Outcome σ Unit :=
  o.audited (onDevice w d (o.changeMember d id op role spec))
    (record .resourceModify "update_group_membership" id.text "repl_group_member"
      (.obj [("device", d.toJson), ("op", op.toJson),
        ("ports", .arr (spec.ports.map fun p => .str p.text)), ("rif", spec.rif.toJson),
        ("role", role.toJson)]))

def addRoute (o : Orchestrator σ) (w : World σ) (d : DeviceId) (r : Route) : Outcome σ Unit :=
  o.audited (onDevice w d (o.makeRoute d r))
    (record .resourceCreate "add_route" r.key.text "ipmc_entry"
      (.obj [("copy_to_cpu", .bool r.copyToCpu), ("device", d.toJson), ("iif", r.iif.toJson),
        ("repl_group", r.group.toJson)]))

def deleteRoute (o : Orchestrator σ) (w : World σ) (d : DeviceId) (key : RouteKey) :
    Outcome σ Unit :=
  o.audited (onDevice w d (o.unmakeRoute d key))
    (record .resourceDelete "delete_route" key.text "ipmc_entry" (deviceDetails d))

def updateRoute (o : Orchestrator σ) (w : World σ) (d : DeviceId) (key : RouteKey)
    (u : RouteUpdate) : Outcome σ Unit :=
  o.audited (onDevice w d (o.changeRoute d key u))
    (record .resourceModify "update_route" key.text "ipmc_entry"
      (.obj [("copy_to_cpu", .ofOption .bool u.copyToCpu), ("device", d.toJson),
        ("iif", .ofOption RifId.toJson u.iif), ("repl_group", .ofOption Handle.toJson u.group)]))

/-- Whether the hardware has a route as it is cached. -/
def verifyRoute (o : Orchestrator σ) (w : World σ) (d : DeviceId) (key : RouteKey) :
    Outcome σ Bool :=
  onDevice w d (o.checkRoute d key)

end Orchestrator

/-! Questions that the cache answers alone -/

namespace World

variable {σ α : Type}

def devices (w : World σ) : List DeviceId := w.fleet.devices

def ask (w : World σ) (d : DeviceId) (f : DeviceCache → Except CacheError α) :
    Except OpError α :=
  match w.fleet.cache d with
  | .error e => .error (.cache e)
  | .ok c =>
    match f c with
    | .error e => .error (.cache e)
    | .ok a => .ok a

def route (w : World σ) (d : DeviceId) (key : RouteKey) : Except OpError Route :=
  w.ask d (·.routes.get key)

def group (w : World σ) (d : DeviceId) (id : Handle) : Except OpError Group :=
  w.ask d (·.groups.get id)

/-- In ascending order. -/
def groupIds (w : World σ) (d : DeviceId) : Except OpError (List Handle) :=
  w.ask d fun c => .ok c.groups.ids

def stats (w : World σ) (d : DeviceId) : Except OpError Stats := w.ask d fun c => .ok c.stats

def snapshot (w : World σ) (d : DeviceId) : Except OpError Json :=
  w.ask d fun c => .ok (c.toJson d)

/-- The snapshot as indented text. -/
def dump (w : World σ) (d : DeviceId) : Except OpError String :=
  w.ask d fun c => .ok (c.toJson d).pretty

def checkConsistency (w : World σ) (d : DeviceId) : Except OpError Unit :=
  w.ask d DeviceCache.checkConsistency

end World

end Multicast
