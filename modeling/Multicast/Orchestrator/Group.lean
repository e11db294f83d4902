import Multicast.Orchestrator.Member

/-! Creating and deleting groups. -/
namespace Multicast.Orchestrator

variable {σ : Type}

/-- Objects of a group under construction; null is what has yet to be made. -/
structure Draft where
  group : Handle
  ipmcGroup : Handle
  rpfGroup : Handle
  deriving DecidableEq, Repr

def rollbackRecord (draft : Draft) (failed : Nat) : Audit.Record :=
  let record := (Audit.Record.new .rollback "ReplGroupOrch" "create_replication_group")
    |>.withObjectId draft.group.text
    |>.withObjectType "repl_group"
    |>.withDetails (.obj [("failed_steps", .nat failed)])
  if failed = 0 then record.withOutcome .success
  else record.withError (Numeral.decimalText failed ++ " rollback steps failed")

/-- Removes an object, unless it has yet to be made. Tells whether that failed. -/
def undoMade (o : Orchestrator σ) (d : DeviceId) (what context : String) (h : Handle) (c : Call) :
    Effect σ Bool :=
  if h.isNull then pure false else Effect.undo o.hardware d what context c

/-- Removes what was made, the last first, however many of the removals fail. -/
def rollBack (o : Orchestrator σ) (d : DeviceId) (draft : Draft) : Effect σ Unit := do
  let context := "for group " ++ draft.group.text ++ " on device " ++ d.text
  let rpf ← undoMade o d "remove_rpf_group" context draft.rpfGroup
    (.removeSubGroup .rpf draft.rpfGroup)
  let ipmc ← undoMade o d "remove_ipmc_group" context draft.ipmcGroup
    (.removeSubGroup .ipmc draft.ipmcGroup)
  let group ← Effect.undo o.hardware d "remove_repl_group" context (.removeGroup draft.group)
  Effect.countRollback
  if o.config.audit then
    Effect.emit (.audit (rollbackRecord draft ([rpf, ipmc, group].count true)))

/-- Makes a sub-group of a new group, or takes back what was made of the group. -/
def buildSubGroup (o : Orchestrator σ) (d : DeviceId) (role : Role) (what : String)
    (draft : Draft) : Act σ Handle :=
  (Act.request o.hardware d (.createSubGroup role [draft.group])).orCleanUp fun e => do
    Effect.note .error
      ("failed to create " ++ what ++ " for " ++ draft.group.text ++ ": " ++ e.reason)
    rollBack o d draft

/-- The objects of a new group, without members; the egress sub-group only if it is `needed`. -/
def buildGroup (o : Orchestrator σ) (d : DeviceId) (owner : Owner) (needed : Bool) :
    Act σ Draft := do
  let group ← Act.request o.hardware d (.createGroup [owner])
  let ipmcGroup ←
    (if needed then buildSubGroup o d .ipmc "IPMC group" ⟨group, .null, .null⟩
    else pure .null : Act σ Handle)
  let rpfGroup ← buildSubGroup o d .rpf "RPF group" ⟨group, ipmcGroup, .null⟩
  return ⟨group, ipmcGroup, rpfGroup⟩

def commitGroup (owner : Owner) (draft : Draft) : Act σ Unit :=
  Act.changeCache fun c => do
    let groups ← c.groups.create draft.group owner draft.rpfGroup draft.ipmcGroup
    .ok { c with groups := groups }

/-- Takes a new group out of the cache again. -/
def dropGroup (id : Handle) : Effect σ Unit := do
  match (← get).cache.groups.delete id with
  | .ok (_, groups) => modify fun r => { r with cache := { r.cache with groups := groups } }
  | .error e =>
    Effect.emit (.refusal e)
    Effect.note .error ("dropping " ++ id.text ++ " from cache failed: " ++ e.message)
  Effect.count fun s => { s with groupsCreated := s.groupsCreated - 1 }

/-- Adds egress members one by one; one that cannot be added is left out. -/
def addEgressMembers (o : Orchestrator σ) (d : DeviceId) (id : Handle) :
    List MemberSpec → Effect σ Unit
  | [] => pure ()
  | spec :: rest => do
    match ← (addMember o d id .ipmc spec).run with
    | .ok _ => Effect.count fun s => { s with membersAdded := s.membersAdded + 1 }
    | .error e =>
      Effect.note .warn
        ("skipping IPMC member rif " ++ spec.rif.text ++ " of " ++ id.text ++ ": " ++ e.message)
      Effect.count fun s => { s with membersFailed := s.membersFailed + 1 }
    addEgressMembers o d id rest

/-- Creates a group with its ingress member, without which it is of no use, and as many of its
egress members as can be added. -/
def makeGroup (o : Orchestrator σ) (d : DeviceId) (owner : Owner) (rpf : MemberSpec)
    (ipmc : List MemberSpec) : Act σ Handle := do
  if o.config.maxGroups ≤ (← Act.cache).groups.size then throw (.tableFull d o.config.maxGroups)
  let _ ← Act.lookup o.hardware d (.rif rpf.rif)
  let _ ← Act.lookupPorts o.hardware d rpf.ports
  let draft ← buildGroup o d owner !ipmc.isEmpty
  let id := draft.group
  (commitGroup owner draft).orCleanUp fun e => do
    Effect.note .error ("cache refused new group " ++ id.text ++ ": " ++ e.message)
    rollBack o d draft
  Act.count fun s => { s with groupsCreated := s.groupsCreated + 1 }
  (addMember o d id .rpf rpf).orCleanUp fun e => do
    Effect.note .error
      ("failed to add RPF member rif " ++ rpf.rif.text ++ " to " ++ id.text ++ ": " ++ e.message)
    dropGroup id
    rollBack o d draft
  Act.count fun s => { s with membersAdded := s.membersAdded + 1 }
  ExceptT.lift (addEgressMembers o d id ipmc)
  let members := ((← Act.cache).groups.find? id).elim 0 fun g => g.members.size .ipmc
  Act.note .info
    ("created group " ++ id.text ++ " on device " ++ d.text ++ " (" ++
      Numeral.decimalText members ++ " IPMC members)")
  return id

/-- Removes a sub-group, if there is one, from the hardware and then from the cache. -/
def removeSubGroup (o : Orchestrator σ) (d : DeviceId) (id : Handle) (role : Role)
    (subGroup : Handle) : Act σ Unit := do
  if !subGroup.isNull then
    Act.request o.hardware d (.removeSubGroup role subGroup)
    Act.changeGroup id fun g =>
      match role with
      | .rpf => .ok { g with rpfGroup := .null }
      | .ipmc => .ok { g with ipmcGroup := .null }

/-- Deletes an unused group, members first. What is removed before a failure stays removed, and the
next attempt goes on from there. -/
def unmakeGroup (o : Orchestrator σ) (d : DeviceId) (id : Handle) : Act σ Unit := do
  let g ← Act.ofCache ((← Act.cache).groups.get id)
  if g.isInUse then throw (.cache (.groupInUse id g.entryCount))
  removeMembers o d id .rpf (g.members.list .rpf)
  removeSubGroup o d id .rpf g.rpfGroup
  removeMembers o d id .ipmc (g.members.list .ipmc)
  removeSubGroup o d id .ipmc g.ipmcGroup
  Act.request o.hardware d (.removeGroup id)
  Act.changeCache fun c => do
    let (_, groups) ← c.groups.delete id
    .ok { c with groups := groups }
  Act.count fun s => { s with groupsRemoved := s.groupsRemoved + 1 }
  Act.note .info ("deleted group " ++ id.text ++ " on device " ++ d.text)

end Multicast.Orchestrator
