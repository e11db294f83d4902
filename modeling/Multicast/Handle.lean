import Multicast.Json.Value
import Multicast.SortKey

/-! Handles by which the hardware names its objects. -/
namespace Multicast

/-- Role of a sub-group or member: the accepted ingress, or an egress. -/
inductive Role where
  | rpf
  | ipmc
  deriving DecidableEq, Repr

def Role.text : Role → String
  | .rpf => "rpf"
  | .ipmc => "ipmc"

inductive ObjectKind where
  | group
  | subGroup (role : Role)
  | member (role : Role)
  | bridgePort
  | routerInterface
  | virtualRouter
  deriving DecidableEq, Repr

namespace ObjectKind

def name : ObjectKind → String
  | .group => "ReplGroup"
  | .subGroup .ipmc => "IpmcGroup"
  | .subGroup .rpf => "RpfGroup"
  | .member .ipmc => "IpmcGroupMember"
  | .member .rpf => "RpfGroupMember"
  | .bridgePort => "BridgePort"
  | .routerInterface => "RouterInterface"
  | .virtualRouter => "VirtualRouter"

/-- Stands in the top sixteen bits of the handles of that kind. -/
def typeCode : ObjectKind → Nat
  | .virtualRouter => 0x03
  | .routerInterface => 0x06
  | .bridgePort => 0x3a
  | .subGroup .ipmc => 0x2a
  | .member .ipmc => 0x2b
  | .subGroup .rpf => 0x2c
  | .member .rpf => 0x2d
  | .group => 0x4f

end ObjectKind

structure Handle where
  raw : UInt64
  deriving DecidableEq, Repr, Inhabited

namespace Handle

/-- Names no object. -/
def null : Handle := ⟨0⟩

def isNull (h : Handle) : Bool := h.raw == 0

/-- The `index`-th handle given out, for an object of that kind. -/
def make (kind : ObjectKind) (index : Nat) : Handle :=
  ⟨UInt64.ofNat (kind.typeCode <<< 48 ||| index)⟩

def text (h : Handle) : String := String.ofList ('0' :: 'x' :: Numeral.paddedHex 16 h.raw.toNat)

/-- The kind and the handle. -/
def debug (kind : ObjectKind) (h : Handle) : String := kind.name ++ "(" ++ h.text ++ ")"

def toJson (h : Handle) : Json := .str h.text

instance : SortKey Handle where
  code h := [h.raw.toNat]
  code_injective h := congrArg mk (UInt64.toNat_inj.mp (List.singleton_inj.mp h))

end Handle

end Multicast
