import Multicast.Cache.Group
import Multicast.Cache.Route

/-! What is cached of one device: its groups and its route index, which point at each other, and
counters of what was done. -/
namespace Multicast

structure Stats where
  groupsCreated : Nat := 0
  groupsRemoved : Nat := 0
  membersAdded : Nat := 0
  membersRemoved : Nat := 0
  membersUpdated : Nat := 0
  /-- Egress members left out of new groups. -/
  membersFailed : Nat := 0
  routesAdded : Nat := 0
  routesRemoved : Nat := 0
  routesUpdated : Nat := 0
  rollbacks : Nat := 0
  deriving DecidableEq, Repr

def Stats.toJson (s : Stats) : Json :=
  .obj [("groups_created", .nat s.groupsCreated), ("groups_removed", .nat s.groupsRemoved),
    ("members_added", .nat s.membersAdded), ("members_removed", .nat s.membersRemoved),
    ("members_updated", .nat s.membersUpdated), ("members_failed", .nat s.membersFailed),
    ("routes_added", .nat s.routesAdded), ("routes_removed", .nat s.routesRemoved),
    ("routes_updated", .nat s.routesUpdated), ("rollbacks", .nat s.rollbacks)]

structure DeviceCache where
  groups : GroupTable
  routes : RouteTable
  stats : Stats
  deriving DecidableEq

namespace DeviceCache

def empty : DeviceCache := ⟨∅, ∅, {}⟩

/-- Whether `addRoute` would succeed. -/
def checkAddRoute (c : DeviceCache) (r : Route) : Except CacheError Unit := do
  c.routes.checkAdd r.key
  let _ ← c.groups.get r.group
  .ok ()

/-- Indexes a route and files its key in its group. -/
def addRoute (c : DeviceCache) (r : Route) : Except CacheError DeviceCache := do
  c.checkAddRoute r
  let routes ← c.routes.addRoute r
  let groups ← c.groups.update r.group fun g => .ok (g.addKey r.key)
  .ok { c with groups := groups, routes := routes }

def removeRoute (c : DeviceCache) (key : RouteKey) : Except CacheError (Route × DeviceCache) := do
  let group ← c.routes.groupOf key
  match c.groups.update group fun g => .ok (g.dropKey key) with
  | .error _ => .error (.inconsistent (.missingGroup key group))
  | .ok groups =>
    let (r, routes) ← c.routes.removeRoute key
    .ok (r, { c with groups := groups, routes := routes })

/-- Moves a route to another group and tells the group that it left. -/
def moveRoute (c : DeviceCache) (key : RouteKey) (target : Handle) :
    Except CacheError (Handle × DeviceCache) := do
  let source ← c.routes.groupOf key
  if source = target then .ok (source, c)
  else
    let _ ← c.groups.get target
    let groups ← c.groups.update source fun g => .ok (g.dropKey key)
    let groups ← groups.update target fun g => .ok (g.addKey key)
    let routes ← c.routes.setGroup key target
    .ok (source, { c with groups := groups, routes := routes })

/-! Consistency -/

/-- A key of a group's set for `family` must be of that family and indexed to the group. -/
def checkListed (c : DeviceCache) (g : Group) (key : RouteKey) : Except CacheError Unit :=
  if !(g.entries key.family).contains key then .error (.inconsistent (.wrongFamily key g.id))
  else
    match c.routes.find? key with
    | some r =>
      if r.group = g.id then .ok ()
      else .error (.inconsistent (.indexedElsewhere key g.id r.group))
    | none => .error (.inconsistent (.notIndexed key g.id))

def checkGroup (c : DeviceCache) (g : Group) : Except CacheError Unit := do
  if 1 < g.members.size .rpf then
    .error (.inconsistent (.extraRpfMembers g.id (g.members.size .rpf)))
  else g.routeKeys.forM (c.checkListed g)

def checkIndexed (c : DeviceCache) (r : Route) : Except CacheError Unit :=
  match c.groups.find? r.group with
  | some g =>
    if (g.entries r.key.family).contains r.key then .ok ()
    else .error (.inconsistent (.notListed r.key r.group))
  | none => .error (.inconsistent (.notListed r.key r.group))

/-- Groups and index must agree in both directions. -/
def checkConsistency (c : DeviceCache) : Except CacheError Unit := do
  c.groups.values.forM c.checkGroup
  c.routes.values.forM c.checkIndexed

/-- The dump of a device. Tables are kept sorted, so equal caches have equal dumps. -/
def toJson (c : DeviceCache) (d : DeviceId) : Json :=
  .obj [("device", d.toJson), ("groups", .arr (c.groups.values.map Group.toJson)),
    ("routes", .arr (c.routes.values.map Route.toJson)), ("stats", c.stats.toJson)]

end DeviceCache

end Multicast
