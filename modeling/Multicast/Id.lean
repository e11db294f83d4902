import Multicast.Json.Shape
import Multicast.SortKey

/-! Numbers by which the control plane names devices, router interfaces and VRFs. -/
namespace Multicast

structure DeviceId where
  number : UInt32
  deriving DecidableEq, Repr, Inhabited

structure RifId where
  number : UInt32
  deriving DecidableEq, Repr, Inhabited

structure VrfId where
  number : UInt32
  deriving DecidableEq, Repr, Inhabited

private theorem word_eq_of_singleton_eq {m n : UInt32} (h : [m.toNat] = [n.toNat]) : m = n :=
  UInt32.toNat_inj.mp (List.singleton_inj.mp h)

namespace DeviceId

def text (d : DeviceId) : String := Numeral.decimalText d.number.toNat
def toJson (d : DeviceId) : Json := .nat d.number.toNat
def ofJson? (v : Json) : Option DeviceId := v.word?.map mk

instance : SortKey DeviceId where
  code d := [d.number.toNat]
  code_injective h := congrArg mk (word_eq_of_singleton_eq h)

end DeviceId

namespace RifId

def text (r : RifId) : String := Numeral.decimalText r.number.toNat
def toJson (r : RifId) : Json := .nat r.number.toNat
def ofJson? (v : Json) : Option RifId := v.word?.map mk

instance : SortKey RifId where
  code r := [r.number.toNat]
  code_injective h := congrArg mk (word_eq_of_singleton_eq h)

end RifId

namespace VrfId

def text (v : VrfId) : String := Numeral.decimalText v.number.toNat
def toJson (v : VrfId) : Json := .nat v.number.toNat
def ofJson? (v : Json) : Option VrfId := v.word?.map mk

instance : SortKey VrfId where
  code v := [v.number.toNat]
  code_injective h := congrArg mk (word_eq_of_singleton_eq h)

end VrfId

/-- Key spaces of the control plane. -/
inductive IdSpace where
  | device
  | routerInterface
  | vrf
  deriving DecidableEq, Repr

def IdSpace.text : IdSpace → String
  | .device => "device"
  | .routerInterface => "router interface"
  | .vrf => "VRF"

/-- Text that names nothing. -/
inductive ReadError where
  | address (text : String)
  | port (text : String)
  | id (space : IdSpace) (text : String)
  deriving DecidableEq, Repr

def ReadError.message : ReadError → String
  | .address s => "invalid IP address format: " ++ s
  | .port s => "invalid physical port format: " ++ s
  | .id space s => "invalid identifier: " ++ space.text ++ " " ++ s

def IdSpace.read (space : IdSpace) (s : String) : Except ReadError UInt32 :=
  match Numeral.word? s.toList with
  | some n => .ok n
  | none => .error (.id space s)

end Multicast
