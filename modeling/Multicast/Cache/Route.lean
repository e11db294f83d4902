import Multicast.Cache.Error
import Multicast.Table

/-! Routes and the index of a device's routes. One index covers both address families. -/
namespace Multicast

/-- A route key and its payload. -/
structure Route where
  key : RouteKey
  iif : RifId
  group : Handle
  copyToCpu : Bool
  deriving DecidableEq, Repr

def Route.toJson (r : Route) : Json :=
  .obj [("key", r.key.toJson), ("iif", r.iif.toJson), ("repl_group", r.group.toJson),
    ("copy_to_cpu", .bool r.copyToCpu)]

/-- Changes to a route; what is `none` stays as it is. -/
structure RouteUpdate where
  group : Option Handle
  copyToCpu : Option Bool
  iif : Option RifId
  deriving DecidableEq, Repr

def RouteUpdate.isEmpty (u : RouteUpdate) : Bool :=
  u.group.isNone && u.copyToCpu.isNone && u.iif.isNone

abbrev RouteTable := Table RouteKey Route

namespace RouteTable

def checkAdd (t : RouteTable) (key : RouteKey) : Except CacheError Unit :=
  if t.contains key then .error (.routeExists key) else .ok ()

def addRoute (t : RouteTable) (r : Route) : Except CacheError RouteTable :=
  match t.add r.key r with
  | .ok t => .ok t
  | .error _ => .error (.routeExists r.key)

def removeRoute (t : RouteTable) (key : RouteKey) : Except CacheError (Route × RouteTable) :=
  match t.remove key with
  | .ok (r, t) => .ok (r, t)
  | .error _ => .error (.routeNotFound key)

def get (t : RouteTable) (key : RouteKey) : Except CacheError Route :=
  match t.find? key with
  | some r => .ok r
  | none => .error (.routeNotFound key)

def groupOf (t : RouteTable) (key : RouteKey) : Except CacheError Handle := do
  let r ← t.get key
  .ok r.group

/-- Changes the payload of a route that is there. -/
def update (t : RouteTable) (key : RouteKey) (f : Route → Route) : Except CacheError RouteTable :=
  if t.contains key then .ok (t.modify key f) else .error (.routeNotFound key)

def setGroup (t : RouteTable) (key : RouteKey) (group : Handle) : Except CacheError RouteTable :=
  t.update key fun r => { r with group := group }

def setCopyToCpu (t : RouteTable) (key : RouteKey) (value : Bool) : Except CacheError RouteTable :=
  t.update key fun r => { r with copyToCpu := value }

def setIif (t : RouteTable) (key : RouteKey) (rif : RifId) : Except CacheError RouteTable :=
  t.update key fun r => { r with iif := rif }

def familySize (t : RouteTable) (f : Family) : Nat := (t.keys.filter (·.family = f)).length

end RouteTable

end Multicast
