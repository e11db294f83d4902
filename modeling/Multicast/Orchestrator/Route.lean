import Multicast.Orchestrator.Act

/-! Programming routes and comparing them with the hardware. -/
namespace Multicast.Orchestrator

variable {σ : Type}

def packetAction (o : Orchestrator σ) (copyToCpu : Bool) : PacketAction :=
  if copyToCpu then o.config.copyAction else .forward

/-- The attributes that a route on `g` has in the hardware. -/
def routeAttrs (o : Orchestrator σ) (g : Group) (iif : Handle) (copyToCpu : Bool) :
    List EntryAttr :=
  [.packetAction (o.packetAction copyToCpu), .outputGroup g.ipmcGroup, .rpfGroup g.rpfGroup,
    .ingress iif]

def makeRoute (o : Orchestrator σ) (d : DeviceId) (r : Route) : Act σ Unit := do
  match r.key.validate with
  | .ok _ => pure ()
  | .error why => throw (.invalidRoute why)
  Act.ofCache ((← Act.cache).checkAddRoute r)
  let g ← Act.usableGroup r.group
  let entry ← Act.entryOf o.hardware d r.key
  let iif ← Act.lookup o.hardware d (.rif r.iif)
  Act.request o.hardware d (.createEntry entry (o.routeAttrs g iif r.copyToCpu))
  Act.changeCache (·.addRoute r)
  Act.count fun s => { s with routesAdded := s.routesAdded + 1 }
  Act.note .debug ("added route " ++ r.key.text ++ " on group " ++ r.group.text)

def unmakeRoute (o : Orchestrator σ) (d : DeviceId) (key : RouteKey) : Act σ Unit := do
  let group ← Act.ofCache ((← Act.cache).routes.groupOf key)
  let entry ← Act.entryOf o.hardware d key
  Act.request o.hardware d (.removeEntry entry)
  Act.changeCache fun c => do
    let (_, c) ← c.removeRoute key
    .ok c
  Act.count fun s => { s with routesRemoved := s.routesRemoved + 1 }
  Act.note .debug ("deleted route " ++ key.text ++ " from group " ++ group.text)

/-- Writes the new attributes one by one; a failure restores those written before it. -/
def writeAttrs (o : Orchestrator σ) (d : DeviceId) (key : RouteKey) (entry : Entry) :
    List EntryAttr → List (EntryAttr × EntryAttr) → Act σ Unit
  | _, [] => pure ()
  | replaced, (old, new) :: rest => do
    (Act.request o.hardware d (.setEntry entry new)).orCleanUp fun _ => do
      replaced.forM fun old =>
        discard (Effect.undo o.hardware d "restore_route_attribute" key.text (.setEntry entry old))
      if !replaced.isEmpty then Effect.countRollback
    writeAttrs o d key entry (replaced ++ [old]) rest

/-- The payload of a route after an update. -/
def updateCache (key : RouteKey) (u : RouteUpdate) (c : DeviceCache) :
    Except CacheError DeviceCache := do
  let c ←
    (match u.group with
    | some group => do
      let (_, c) ← c.moveRoute key group
      .ok c
    | none => .ok c : Except CacheError DeviceCache)
  let c ←
    (match u.copyToCpu with
    | some value => do
      let routes ← c.routes.setCopyToCpu key value
      .ok { c with routes := routes }
    | none => .ok c : Except CacheError DeviceCache)
  match u.iif with
  | some rif => do
    let routes ← c.routes.setIif key rif
    .ok { c with routes := routes }
  | none => .ok c

/-- Writes only the attributes that differ between the old payload and the new one. -/
def changeRoute (o : Orchestrator σ) (d : DeviceId) (key : RouteKey) (u : RouteUpdate) :
    Act σ Unit := do
  let c ← Act.cache
  let current ← Act.ofCache (c.routes.get key)
  let oldGroup ← Act.ofCache (c.groups.get current.group)
  let newGroup ← Act.usableGroup (u.group.getD current.group)
  let oldIif ← Act.lookup o.hardware d (.rif current.iif)
  let newIif ←
    (if u.iif.getD current.iif = current.iif then pure oldIif
    else Act.lookup o.hardware d (.rif (u.iif.getD current.iif)) : Act σ Handle)
  let old := o.routeAttrs oldGroup oldIif current.copyToCpu
  let new := o.routeAttrs newGroup newIif (u.copyToCpu.getD current.copyToCpu)
  let changes := (old.zip new).filter fun p => p.1 ≠ p.2
  (if changes.isEmpty then pure ()
  else do
    let entry ← Act.entryOf o.hardware d key
    writeAttrs o d key entry [] changes : Act σ Unit)
  Act.changeCache (updateCache key u)
  Act.count fun s => { s with routesUpdated := s.routesUpdated + 1 }
  Act.note .debug
    ("updated route " ++ key.text ++ " (" ++ Numeral.decimalText changes.length ++
      " attributes written)")

def noteDifference (key : RouteKey) (wanted : EntryAttr) (found : Option EntryAttr) :
    Effect σ Unit :=
  Effect.note .warn
    ("route " ++ key.text ++ " expected " ++ wanted.debug ++ ", hardware has " ++
      found.elim "None" fun a => "Some(" ++ a.debug ++ ")")

/-- Whether the attributes found are those wanted; each that differs is logged. -/
def compareAttrs (key : RouteKey) (found : List EntryAttr) : List EntryAttr → Effect σ Bool
  | [] => pure true
  | wanted :: rest => do
    let same := EntryAttr.find? found wanted.id == some wanted
    if !same then noteDifference key wanted (EntryAttr.find? found wanted.id)
    let restSame ← compareAttrs key found rest
    return same && restSame

/-- Reads a route back and compares it with the cache. -/
def checkRoute (o : Orchestrator σ) (d : DeviceId) (key : RouteKey) : Act σ Bool := do
  let c ← Act.cache
  let r ← Act.ofCache (c.routes.get key)
  let g ← Act.ofCache (c.groups.get r.group)
  let iif ← Act.lookup o.hardware d (.rif r.iif)
  let wanted := o.routeAttrs g iif r.copyToCpu
  let entry ← Act.entryOf o.hardware d key
  let found ← Act.request o.hardware d (.readEntry entry (wanted.map EntryAttr.id))
  let same ← ExceptT.lift (compareAttrs key found wanted)
  return found.length == wanted.length && same

end Multicast.Orchestrator
