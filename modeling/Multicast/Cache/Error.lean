import Multicast.Handle
import Multicast.RouteKey

/-! Errors of the cache. -/
namespace Multicast

/-- Ways in which the groups and the route index of a device disagree. -/
inductive Inconsistency where
  | missingGroup (key : RouteKey) (group : Handle)
  | extraRpfMembers (group : Handle) (count : Nat)
  | wrongFamily (key : RouteKey) (group : Handle)
  | indexedElsewhere (key : RouteKey) (group owner : Handle)
  | notIndexed (key : RouteKey) (group : Handle)
  | notListed (key : RouteKey) (group : Handle)
  deriving DecidableEq, Repr

def Inconsistency.message : Inconsistency → String
  | .missingGroup key group => "route " ++ key.text ++ " points at missing group " ++ group.text
  | .extraRpfMembers group count =>
    "group " ++ group.text ++ " has " ++ Numeral.decimalText count ++ " RPF members"
  | .wrongFamily key group =>
    "route " ++ key.text ++ " filed under the wrong family in group " ++ group.text
  | .indexedElsewhere key group owner =>
    "route " ++ key.text ++ " listed in group " ++ group.text ++ " but indexed to " ++ owner.text
  | .notIndexed key group =>
    "route " ++ key.text ++ " listed in group " ++ group.text ++ " but not indexed"
  | .notListed key group =>
    "route " ++ key.text ++ " indexed to " ++ group.text ++ " but not listed there"

inductive CacheError where
  | deviceNotFound (device : DeviceId)
  | deviceExists (device : DeviceId)
  | deviceBusy (device : DeviceId) (groups : Nat)
  | groupExists (group : Handle)
  | groupNotFound (group : Handle)
  | groupInUse (group : Handle) (routes : Nat)
  | groupIncomplete (group : Handle)
  | memberExists (role : Role) (rif : RifId)
  | memberNotFound (role : Role) (rif : RifId)
  | rpfMemberExists (existing : RifId)
  | routeExists (key : RouteKey)
  | routeNotFound (key : RouteKey)
  | inconsistent (why : Inconsistency)
  deriving DecidableEq, Repr

def CacheError.message : CacheError → String
  | .deviceNotFound d => "Device not attached: " ++ d.text
  | .deviceExists d => "Device already attached: " ++ d.text
  | .deviceBusy d groups =>
    "Device " ++ d.text ++ " still has " ++ Numeral.decimalText groups ++ " replication groups"
  | .groupExists h => "Replication group already exists: " ++ h.text
  | .groupNotFound h => "Replication group not found: " ++ h.text
  | .groupInUse h routes =>
    "Replication group " ++ h.text ++ " still referenced by " ++ Numeral.decimalText routes ++
      " routes"
  | .groupIncomplete h => "Replication group " ++ h.text ++ " has no RPF sub-group"
  | .memberExists role rif => role.text ++ " member already exists on rif " ++ rif.text
  | .memberNotFound role rif => role.text ++ " member not found on rif " ++ rif.text
  | .rpfMemberExists rif => "Group already has an RPF member on rif " ++ rif.text
  | .routeExists key => "Route already exists: " ++ key.text
  | .routeNotFound key => "Route not found: " ++ key.text
  | .inconsistent why => "Cache inconsistency: " ++ why.message

end Multicast
