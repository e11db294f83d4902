import Multicast.Cache.Device

/-! Changes of the cache made in place, one after another. An error ends them, and what was changed
before it stays changed. -/
namespace Multicast

/-- Puts a route on another group and tells the one that it was on. -/
def RouteTable.replaceGroup (t : RouteTable) (key : RouteKey) (group : Handle) :
    Except CacheError (Handle × RouteTable) := do
  let before ← t.groupOf key
  let t ← t.setGroup key group
  .ok (before, t)

abbrev Edit (σ : Type) := ExceptT CacheError (StateM σ)

namespace Edit

variable {σ α : Type}

/-- What an edit answers, and what it makes of `s`. -/
def on (x : Edit σ α) (s : σ) : Except CacheError α × σ := x.run.run s

/-- A look, which may refuse and changes nothing. -/
def look (f : σ → Except CacheError α) : Edit σ α := ExceptT.mk fun s => (f s, s)

/-- A single change, refused or done whole. -/
def change (f : σ → Except CacheError (α × σ)) : Edit σ α := ExceptT.mk fun s =>
  match f s with
  | .ok (a, s') => (.ok a, s')
  | .error e => (.error e, s)

/-! Members of a group -/

def addMember (role : Role) (m : Member) : Edit MemberSet Unit := do
  look (·.checkAdd role m.rif)
  change fun s =>
    match (s.ofRole role).add m.rif m with
    | .ok t => .ok ((), s.setRole t role)
    | .error _ => .error (.memberExists role m.rif)

def removeMember (role : Role) (rif : RifId) : Edit MemberSet Member :=
  change fun s =>
    match (s.ofRole role).remove rif with
    | .ok (m, t) => .ok (m, s.setRole t role)
    | .error _ => .error (.memberNotFound role rif)

def setPorts (role : Role) (rif : RifId) (ports : PortSet) : Edit MemberSet Unit := do
  let _ ← look (·.get role rif)
  change fun s =>
    .ok ((), s.setRole ((s.ofRole role).modify rif fun m => { m with ports := ports }) role)

/-! Routes of a device -/

def changeRoutes (f : RouteTable → Except CacheError (α × RouteTable)) : Edit DeviceCache α :=
  change fun c => do
    let (a, routes) ← f c.routes
    .ok (a, { c with routes := routes })

/-- Changes a group that is there. -/
def changeGroup (id : Handle) (f : Group → Group) : Edit DeviceCache Unit :=
  change fun c => do
    let groups ← c.groups.update id fun g => .ok (f g)
    .ok ((), { c with groups := groups })

def addRoute (r : Route) : Edit DeviceCache Unit := do
  look (·.checkAddRoute r)
  changeRoutes fun t => (t.addRoute r).map ((), ·)
  changeGroup r.group (·.addKey r.key)

def removeRoute (key : RouteKey) : Edit DeviceCache Route := do
  let group ← look (·.routes.groupOf key)
  tryCatch (changeGroup group (·.dropKey key)) fun _ =>
    throw (.inconsistent (.missingGroup key group))
  changeRoutes (·.removeRoute key)

/-- Tells the group that the route left. -/
def moveRoute (key : RouteKey) (target : Handle) : Edit DeviceCache Handle := do
  let source ← look (·.routes.groupOf key)
  if source = target then return source
  else
    let _ ← look (·.groups.get target)
    changeGroup source (·.dropKey key)
    changeGroup target (·.addKey key)
    changeRoutes (·.replaceGroup key target)

end Edit

end Multicast
