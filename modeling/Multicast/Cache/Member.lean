import Multicast.Cache.Error
import Multicast.Port

/-! Members of a replication group: at most one for ingress, and one for egress on each router
interface. -/
namespace Multicast

namespace Role

def toJson (r : Role) : Json := .str r.text

def ofJson? (v : Json) : Option Role :=
  match v.name? with
  | some "rpf" => some .rpf
  | some "ipmc" => some .ipmc
  | _ => none

end Role

/-- A member that a caller asks for: its interface, and ports in the caller's order. -/
structure MemberSpec where
  rif : RifId
  ports : List Port
  deriving DecidableEq, Repr

namespace MemberSpec

def toJson (m : MemberSpec) : Json :=
  .obj [("rif", m.rif.toJson), ("ports", .arr (m.ports.map Port.toJson))]

def ofJson? (v : Json) : Option MemberSpec :=
  match v.fields? ["rif", "ports"] with
  | some [rif, ports] => do
    let rif ← Json.required? RifId.ofJson? rif
    let ports ← Json.required? Json.items? ports
    let ports ← ports.mapM Port.ofJson?
    some ⟨rif, ports⟩
  | _ => none

end MemberSpec

/-- A member that the hardware has. -/
structure Member where
  handle : Handle
  rif : RifId
  ports : PortSet
  deriving DecidableEq

namespace Member

def ofSpec (handle : Handle) (spec : MemberSpec) : Member :=
  ⟨handle, spec.rif, .ofPorts spec.ports⟩

/-- The handle is written as a number. -/
def toJson (m : Member) : Json :=
  .obj [("oid", .nat m.handle.raw.toNat), ("rif", m.rif.toJson), ("ports", m.ports.toJson)]

end Member

structure MemberSet where
  rpf : Table RifId Member
  ipmc : Table RifId Member
  deriving DecidableEq

namespace MemberSet

def empty : MemberSet := ⟨∅, ∅⟩

def ofRole (s : MemberSet) : Role → Table RifId Member
  | .rpf => s.rpf
  | .ipmc => s.ipmc

def setRole (s : MemberSet) (t : Table RifId Member) : Role → MemberSet
  | .rpf => { s with rpf := t }
  | .ipmc => { s with ipmc := t }

@[simp] theorem ofRole_setRole (s : MemberSet) (t : Table RifId Member) (r r' : Role) :
    (s.setRole t r).ofRole r' = if r' = r then t else s.ofRole r' := by
  cases r <;> cases r' <;> rfl

def rpfMember? (s : MemberSet) : Option Member := s.rpf.values.head?

/-- Whether `add` would succeed. -/
def checkAdd (s : MemberSet) (role : Role) (rif : RifId) : Except CacheError Unit :=
  if (s.ofRole role).contains rif then .error (.memberExists role rif)
  else
    match role, s.rpf.keys.head? with
    | .rpf, some existing => .error (.rpfMemberExists existing)
    | _, _ => .ok ()

def add (s : MemberSet) (role : Role) (m : Member) : Except CacheError MemberSet := do
  s.checkAdd role m.rif
  match (s.ofRole role).add m.rif m with
  | .ok t => .ok (s.setRole t role)
  | .error _ => .error (.memberExists role m.rif)

def get (s : MemberSet) (role : Role) (rif : RifId) : Except CacheError Member :=
  match (s.ofRole role).find? rif with
  | some m => .ok m
  | none => .error (.memberNotFound role rif)

def remove (s : MemberSet) (role : Role) (rif : RifId) : Except CacheError (Member × MemberSet) :=
  match (s.ofRole role).remove rif with
  | .ok (m, t) => .ok (m, s.setRole t role)
  | .error _ => .error (.memberNotFound role rif)

/-- Replaces the ports of a member that is there. -/
def setPorts (s : MemberSet) (role : Role) (rif : RifId) (ports : PortSet) :
    Except CacheError MemberSet := do
  let _ ← s.get role rif
  .ok (s.setRole ((s.ofRole role).modify rif fun m => { m with ports := ports }) role)

def handle (s : MemberSet) (role : Role) (rif : RifId) : Except CacheError Handle := do
  let m ← s.get role rif
  .ok m.handle

def contains (s : MemberSet) (role : Role) (rif : RifId) : Bool := (s.ofRole role).contains rif

/-- Members in ascending order of their interfaces. -/
def list (s : MemberSet) (role : Role) : List Member := (s.ofRole role).values

def size (s : MemberSet) (role : Role) : Nat := (s.ofRole role).size

def isEmpty (s : MemberSet) : Bool := s.rpf.isEmpty && s.ipmc.isEmpty

end MemberSet

end Multicast
