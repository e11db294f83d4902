import Multicast.Orchestrator.Act

/-! Adding and removing members of a group. -/
namespace Multicast.Orchestrator

variable {σ : Type}

/-- Points the routes at `subGroup`, those visited before a failure back at nothing. `undo` tells
that this takes back an earlier step. -/
def repoint (o : Orchestrator σ) (d : DeviceId) (undo : Bool) (subGroup : Handle) :
    List Entry → List RouteKey → Act σ Unit
  | _, [] => pure ()
  | visited, key :: rest => do
    let entry ← (do
        let entry ← Act.entryOf o.hardware d key
        Act.call o.hardware d undo (.setEntry entry (.outputGroup subGroup))
        return entry : Act σ Entry).orCleanUp fun _ =>
      visited.forM fun entry =>
        discard (Effect.undo o.hardware d "reset_output_group" entry.text
          (.setEntry entry (.outputGroup .null)))
    repoint o d undo subGroup (visited ++ [entry]) rest

def createMember (o : Orchestrator σ) (d : DeviceId) (role : Role) (subGroup rif : Handle)
    (ports : List Handle) : Act σ Handle :=
  Act.request o.hardware d
    (.createMember role [.subGroup subGroup, .routerInterface rif, .bridgePorts ports])

/-- Takes back a member that has yet to be cached. -/
def undoMember (o : Orchestrator σ) (d : DeviceId) (context : String) (role : Role)
    (member : Handle) : Effect σ Unit :=
  discard (Effect.undo o.hardware d "remove_member" context (.removeMember role member))

def undoEgressGroup (o : Orchestrator σ) (d : DeviceId) (context : String) (subGroup : Handle) :
    Effect σ Unit :=
  discard (Effect.undo o.hardware d "remove_ipmc_group" context (.removeSubGroup .ipmc subGroup))

/-- Caches a new member, and the sub-group that was made for it. -/
def commitMember (id : Handle) (role : Role) (member : Member) (madeFor : Option Handle) :
    Act σ Unit :=
  Act.changeGroup id fun g => do
    let members ← g.members.add role member
    .ok { g with members := members, ipmcGroup := madeFor.getD g.ipmcGroup }

def noteRefusal (id : Handle) (role : Role) (rif : RifId) (e : OpError) : Effect σ Unit :=
  Effect.note .error
    ("cache refused " ++ role.text ++ " member rif " ++ rif.text ++ " of " ++ id.text ++ ": " ++
      e.message)

/-- Adds a member to a sub-group that is there. -/
def addToSubGroup (o : Orchestrator σ) (d : DeviceId) (id : Handle) (role : Role)
    (subGroup rif : Handle) (ports : List Handle) (spec : MemberSpec) : Act σ Unit := do
  let context := "for member rif " ++ spec.rif.text ++ " of " ++ id.text
  let member ← createMember o d role subGroup rif ports
  (commitMember id role (.ofSpec member spec) none).orCleanUp fun e => do
    noteRefusal id role spec.rif e
    undoMember o d context role member
    Effect.countRollback

/-- Adds the first egress member together with its sub-group, which the group's routes start
replicating to. -/
def addFirstEgress (o : Orchestrator σ) (d : DeviceId) (id : Handle) (routes : List RouteKey)
    (rif : Handle) (ports : List Handle) (spec : MemberSpec) : Act σ Unit := do
  let context := "for member rif " ++ spec.rif.text ++ " of " ++ id.text
  let subGroup ← Act.request o.hardware d (.createSubGroup .ipmc [id])
  Act.note .debug ("created IPMC group " ++ subGroup.text ++ " for " ++ id.text)
  let member ← (createMember o d .ipmc subGroup rif ports).orCleanUp fun _ => do
    undoEgressGroup o d context subGroup
    Effect.countRollback
  (repoint o d false subGroup [] routes).orCleanUp fun _ => do
    undoMember o d context .ipmc member
    undoEgressGroup o d context subGroup
    Effect.countRollback
  (commitMember id .ipmc (.ofSpec member spec) (some subGroup)).orCleanUp fun e => do
    noteRefusal id .ipmc spec.rif e
    match ← (repoint o d true .null [] routes).run with
    | .ok _ => pure ()
    | .error e =>
      Effect.note .warn ("rollback reset_output_group " ++ context ++ " failed: " ++ e.message)
    undoMember o d context .ipmc member
    undoEgressGroup o d context subGroup
    Effect.countRollback

/-- Programs a member of a group and caches it. -/
def addMember (o : Orchestrator σ) (d : DeviceId) (id : Handle) (role : Role)
    (spec : MemberSpec) : Act σ Unit := do
  let g ← Act.usableGroup id
  Act.ofCache (g.members.checkAdd role spec.rif)
  let rif ← Act.lookup o.hardware d (.rif spec.rif)
  let ports ← Act.lookupPorts o.hardware d spec.ports
  match role with
  | .rpf => addToSubGroup o d id .rpf g.rpfGroup rif ports spec
  | .ipmc =>
    if g.ipmcGroup.isNull then
      addFirstEgress o d id (o.order.arrange g.routeKeys) rif ports spec
    else addToSubGroup o d id .ipmc g.ipmcGroup rif ports spec

/-- Removes a member from the hardware and then from the cache. -/
def removeMember (o : Orchestrator σ) (d : DeviceId) (id : Handle) (role : Role) (rif : RifId)
    (member : Handle) : Act σ Unit := do
  Act.request o.hardware d (.removeMember role member)
  Act.changeGroup id fun g => do
    let (_, members) ← g.members.remove role rif
    .ok { g with members := members }
  Act.count fun s => { s with membersRemoved := s.membersRemoved + 1 }

def removeMembers (o : Orchestrator σ) (d : DeviceId) (id : Handle) (role : Role) :
    List Member → Act σ Unit
  | [] => pure ()
  | m :: rest => do
    removeMember o d id role m.rif m.handle
    removeMembers o d id role rest

/-- What to do with a member of a group. -/
inductive MemberOp where
  | add
  | delete
  /-- Replaces its ports. -/
  | update
  deriving DecidableEq, Repr

namespace MemberOp

def debug : MemberOp → String
  | .add => "Add"
  | .delete => "Delete"
  | .update => "Update"

def toJson : MemberOp → Json
  | .add => .str "add"
  | .delete => .str "delete"
  | .update => .str "update"

def ofJson? (v : Json) : Option MemberOp :=
  match v.name? with
  | some "add" => some .add
  | some "delete" => some .delete
  | some "update" => some .update
  | _ => none

end MemberOp

def changeMember (o : Orchestrator σ) (d : DeviceId) (id : Handle) (op : MemberOp) (role : Role)
    (spec : MemberSpec) : Act σ Unit := do
  let g ← Act.ofCache ((← Act.cache).groups.get id)
  match op with
  | .add =>
    addMember o d id role spec
    Act.count fun s => { s with membersAdded := s.membersAdded + 1 }
  | .delete =>
    let member ← Act.ofCache (g.members.handle role spec.rif)
    removeMember o d id role spec.rif member
  | .update =>
    let member ← Act.ofCache (g.members.handle role spec.rif)
    let ports ← Act.lookupPorts o.hardware d spec.ports
    Act.request o.hardware d (.setMember role member (.bridgePorts ports))
    Act.changeGroup id fun g => do
      let members ← g.members.setPorts role spec.rif (.ofPorts spec.ports)
      .ok { g with members := members }
    Act.count fun s => { s with membersUpdated := s.membersUpdated + 1 }
  Act.note .debug
    (op.debug ++ " " ++ role.text ++ " member rif " ++ spec.rif.text ++ " on " ++ id.text)

end Multicast.Orchestrator
