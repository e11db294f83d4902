import Multicast.Cache.Device

/-! The caches of all attached devices. -/
namespace Multicast

abbrev Fleet := Table DeviceId DeviceCache

namespace Fleet

def cache (f : Fleet) (d : DeviceId) : Except CacheError DeviceCache :=
  match f.find? d with
  | some c => .ok c
  | none => .error (.deviceNotFound d)

/-- A new device starts with an empty cache. -/
def attach (f : Fleet) (d : DeviceId) : Except CacheError Fleet :=
  match f.add d .empty with
  | .ok f => .ok f
  | .error _ => .error (.deviceExists d)

/-- A device goes only when it has no groups. -/
def detach (f : Fleet) (d : DeviceId) : Except CacheError Fleet := do
  let c ← f.cache d
  if 0 < c.groups.size then .error (.deviceBusy d c.groups.size) else .ok (f.erase d)

def devices (f : Fleet) : List DeviceId := f.keys

end Fleet

end Multicast
