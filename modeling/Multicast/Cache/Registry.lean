import Multicast.Cache.Fleet

/-! Caches of devices that can also be reached through tickets taken earlier. A ticket outlives the
attachment of its device, and then reaches the cell that was left behind. -/
namespace Multicast

/-- A cache, and whether its device was detached from it. -/
structure Registry.Cell where
  cache : DeviceCache
  detached : Bool

/-- A new device starts with an empty cache. -/
def Registry.Cell.fresh : Cell := ⟨.empty, false⟩

/-- Names one attachment of a device. -/
structure Registry.Ticket where
  device : DeviceId
  serial : Nat
  deriving DecidableEq, Repr

structure Registry where
  /-- One for each attachment so far; tickets keep them. -/
  cells : List Registry.Cell
  /-- The attachment that each attached device is in. -/
  serials : Table DeviceId Nat

namespace Registry

def empty : Registry := ⟨[], ∅⟩

def attach (r : Registry) (d : DeviceId) : Except CacheError Registry :=
  if r.serials.contains d then .error (.deviceExists d)
  else .ok ⟨r.cells ++ [.fresh], r.serials.insert d r.cells.length⟩

def ticket (r : Registry) (d : DeviceId) : Except CacheError Ticket :=
  match r.serials.find? d with
  | some n => .ok ⟨d, n⟩
  | none => .error (.deviceNotFound d)

def cell (r : Registry) (t : Ticket) : Except CacheError Cell :=
  match r.cells[t.serial]? with
  | some cell => .ok cell
  | none => .error (.deviceNotFound t.device)

/-- The cell of a device's current attachment. -/
def liveCell (r : Registry) (d : DeviceId) : Except CacheError (Ticket × Cell) := do
  let t ← r.ticket d
  let cell ← r.cell t
  if cell.detached then .error (.deviceNotFound d) else .ok (t, cell)

def update (r : Registry) (t : Ticket) (f : Cell → Cell) : Registry :=
  { r with cells := r.cells.modify t.serial f }

/-- A device stays if it has been attached again since the ticket was taken. -/
def forget (r : Registry) (t : Ticket) : Registry :=
  if r.serials.find? t.device = some t.serial then
    { r with serials := r.serials.erase t.device }
  else r

/-- A device goes only when it has no groups. -/
def detach (r : Registry) (d : DeviceId) : Except CacheError Registry := do
  let (t, cell) ← r.liveCell d
  if 0 < cell.cache.groups.size then .error (.deviceBusy d cell.cache.groups.size)
  else .ok ((r.update t fun cell => { cell with detached := true }).forget t)

def isAttached (r : Registry) (d : DeviceId) : Bool := r.serials.contains d

def isDetached (r : Registry) (t : Ticket) : Bool :=
  match r.cell t with
  | .ok cell => cell.detached
  | .error _ => false

/-- Works on the cache that a ticket reaches, whether its device is attached or not. -/
def withTicket {α : Type} (r : Registry) (t : Ticket) (f : DeviceCache → α × DeviceCache) :
    Except CacheError (α × Registry) := do
  let cell ← r.cell t
  .ok ((f cell.cache).1, r.update t fun cell => { cell with cache := (f cell.cache).2 })

/-- Works on the cache of an attached device. -/
def withDevice {α : Type} (r : Registry) (d : DeviceId) (f : DeviceCache → α × DeviceCache) :
    Except CacheError (α × Registry) := do
  let (t, _) ← r.liveCell d
  r.withTicket t f

/-- The caches of the attached devices. -/
def fleet (r : Registry) : Fleet :=
  r.serials.map fun n => ((r.cells[n]?).getD .fresh).cache

end Registry

end Multicast
