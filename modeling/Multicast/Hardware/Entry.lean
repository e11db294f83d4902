import Multicast.Handle
import Multicast.RouteKey

/-! Route entries of the hardware and their attributes. -/
namespace Multicast

/-- What happens to a packet of a route. -/
inductive PacketAction where
  | forward
  | trapToCpu
  deriving DecidableEq, Repr

namespace PacketAction

def debug : PacketAction → String
  | .forward => "Forward"
  | .trapToCpu => "TrapToCpu"

def toJson : PacketAction → Json
  | .forward => .str "forward"
  | .trapToCpu => .str "trap_to_cpu"

def ofJson? (v : Json) : Option PacketAction :=
  match v.name? with
  | some "forward" => some .forward
  | some "trap_to_cpu" => some .trapToCpu
  | _ => none

end PacketAction

/-- The key of a route entry: as a route key, with the handle of a virtual router for the VRF. -/
structure Entry where
  router : Handle
  type : RouteType
  destination : Address
  source : Option Address
  deriving DecidableEq, Repr

namespace Entry

def ofKey (router : Handle) (key : RouteKey) : Entry := ⟨router, key.type, key.group, key.source⟩

def family (e : Entry) : Family := e.destination.family

def text (e : Entry) : String :=
  "vr:" ++ e.router.text ++ "/" ++ RouteKey.pairText e.source e.destination

/-- By router, type, destination and source. -/
def code (e : Entry) : List Nat :=
  e.router.raw.toNat :: RouteKey.pathCode e.type e.destination e.source

theorem code_injective {e f : Entry} (h : code e = code f) : e = f := by
  obtain ⟨⟨r⟩, type, destination, source⟩ := e
  obtain ⟨⟨r'⟩, type', destination', source'⟩ := f
  have ⟨hrouter, hpath⟩ := List.cons.inj h
  have ⟨htype, hdestination, hsource⟩ := RouteKey.pathCode_injective hpath
  have hrouter : r = r' := UInt64.toNat_inj.mp hrouter
  cases hrouter; cases htype; cases hdestination; cases hsource
  rfl

instance : SortKey Entry := ⟨code, code_injective⟩

end Entry

inductive EntryAttr.Id where
  | packetAction
  | outputGroup
  | rpfGroup
  | ingress
  deriving DecidableEq, Repr

inductive EntryAttr where
  | packetAction (action : PacketAction)
  /-- The egress sub-group; null when the route has no outputs. -/
  | outputGroup (subGroup : Handle)
  | rpfGroup (subGroup : Handle)
  | ingress (rif : Handle)
  deriving DecidableEq, Repr

namespace EntryAttr

def id : EntryAttr → Id
  | .packetAction _ => .packetAction
  | .outputGroup _ => .outputGroup
  | .rpfGroup _ => .rpfGroup
  | .ingress _ => .ingress

/-- The value of an attribute that was never set. -/
def default : Id → EntryAttr
  | .packetAction => .packetAction .forward
  | .outputGroup => .outputGroup .null
  | .rpfGroup => .rpfGroup .null
  | .ingress => .ingress .null

/-- The first attribute of that kind. -/
def find? (attrs : List EntryAttr) (id : Id) : Option EntryAttr := attrs.find? (·.id = id)

def read (attrs : List EntryAttr) (id : Id) : EntryAttr := (find? attrs id).getD (default id)

/-- Puts `a` last, in place of every attribute of its kind. -/
def write (attrs : List EntryAttr) (a : EntryAttr) : List EntryAttr :=
  attrs.filter (·.id ≠ a.id) ++ [a]

/-- The sub-group that an attribute names. -/
def target? : EntryAttr → Option Handle
  | .outputGroup h => some h
  | .rpfGroup h => some h
  | _ => none

def debug : EntryAttr → String
  | .packetAction a => "PacketAction(" ++ a.debug ++ ")"
  | .outputGroup h => "OutputGroup(" ++ h.debug (.subGroup .ipmc) ++ ")"
  | .rpfGroup h => "RpfGroup(" ++ h.debug (.subGroup .rpf) ++ ")"
  | .ingress h => "IngressInterface(" ++ h.debug .routerInterface ++ ")"

end EntryAttr

end Multicast
