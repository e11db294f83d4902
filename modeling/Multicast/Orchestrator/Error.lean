import Multicast.Cache.Error
import Multicast.Hardware

/-! Errors of the orchestrator and their coarse classes. -/
namespace Multicast

inductive OpError where
  | cache (e : CacheError)
  /-- A call of the hardware failed. -/
  | hardware (call : CallKind) (e : HardwareError)
  /-- A handle could not be looked up. -/
  | unresolved (lookup : Lookup)
  | invalidRoute (why : RouteKey.Defect)
  | tableFull (device : DeviceId) (max : Nat)
  deriving DecidableEq, Repr

inductive OpError.Kind where
  /-- A precondition did not hold. -/
  | param
  /-- The hardware or the cache is at fault. -/
  | fail
  /-- A group, route or device is not there. -/
  | notFound
  deriving DecidableEq, Repr

namespace OpError

def Kind.text : Kind → String
  | .param => "param"
  | .fail => "fail"
  | .notFound => "not_found"

def message : OpError → String
  | .cache e => e.message
  | .hardware call e => "SAI " ++ call.method ++ " failed: " ++ e.message
  | .unresolved l => "Cannot resolve handle: " ++ l.missing.message
  | .invalidRoute why => "Invalid route: " ++ why.message
  | .tableFull d max =>
    "Replication group table full on device " ++ d.text ++ " (max " ++ Numeral.decimalText max ++
      ")"

/-- The message without the name of the call that failed. -/
def reason : OpError → String
  | .hardware _ e => e.message
  | e => e.message

/-- A missing member is a fault of the caller. -/
def kind : OpError → Kind
  | .cache (.deviceNotFound _) => .notFound
  | .cache (.groupNotFound _) => .notFound
  | .cache (.routeNotFound _) => .notFound
  | .cache (.inconsistent _) => .fail
  | .cache _ => .param
  | .hardware .. => .fail
  | .unresolved _ => .param
  | .invalidRoute _ => .param
  | .tableFull .. => .param

/-- The status of the hardware, if a call failed. -/
def status? : OpError → Option Status
  | .hardware _ e => some e.toStatus
  | _ => none

end OpError

end Multicast
