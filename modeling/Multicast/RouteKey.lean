import Multicast.Address
import Multicast.Id

/-! Identities of multicast routes: a VRF, a route type, a group and a source. -/
namespace Multicast

inductive RouteType where
  | starG
  | sourceG
  deriving DecidableEq, Repr

namespace RouteType

def hasSource : RouteType → Bool
  | .starG => false
  | .sourceG => true

def text : RouteType → String
  | .starG => "(*,G)"
  | .sourceG => "(S,G)"

def toJson : RouteType → Json
  | .starG => .str "star_g"
  | .sourceG => .str "source_g"

def ofJson? (v : Json) : Option RouteType :=
  match v.name? with
  | some "star_g" => some .starG
  | some "source_g" => some .sourceG
  | _ => none

def code : RouteType → Nat
  | .starG => 0
  | .sourceG => 1

end RouteType

structure RouteKey where
  vrf : VrfId
  type : RouteType
  group : Address
  source : Option Address
  deriving DecidableEq, Repr

namespace RouteKey

def starG (vrf : VrfId) (group : Address) : RouteKey := ⟨vrf, .starG, group, none⟩

def sourceG (vrf : VrfId) (source group : Address) : RouteKey := ⟨vrf, .sourceG, group, some source⟩

def family (k : RouteKey) : Family := k.group.family

/-- Why no hardware can hold a key. -/
inductive Defect where
  | notMulticast (group : Address)
  | unexpectedSource
  | missingSource
  | mixedFamilies (source group : Address)
  | multicastSource (source : Address)
  deriving DecidableEq, Repr

def Defect.message : Defect → String
  | .notMulticast group => group.text ++ " is not a multicast group"
  | .unexpectedSource => "(*,G) route carries a source"
  | .missingSource => "(S,G) route without a source"
  | .mixedFamilies source group =>
    "source " ++ source.text ++ " and group " ++ group.text ++ " differ in family"
  | .multicastSource source => "source " ++ source.text ++ " is a multicast address"

def validate (k : RouteKey) : Except Defect Unit :=
  if !k.group.isMulticast then .error (.notMulticast k.group)
  else
    match k.type, k.source with
    | .starG, none => .ok ()
    | .starG, some _ => .error .unexpectedSource
    | .sourceG, none => .error .missingSource
    | .sourceG, some source =>
      if source.family ≠ k.group.family then .error (.mixedFamilies source k.group)
      else if source.isMulticast then .error (.multicastSource source)
      else .ok ()

/-- A source and a group, the source of a route without one written as a star. -/
def pairText (source : Option Address) (group : Address) : String :=
  match source with
  | some source => "(" ++ source.text ++ "," ++ group.text ++ ")"
  | none => "(*," ++ group.text ++ ")"

def text (k : RouteKey) : String := "vrf" ++ k.vrf.text ++ ":" ++ pairText k.source k.group

def toJson (k : RouteKey) : Json :=
  .obj [("vrf", k.vrf.toJson), ("entry_type", k.type.toJson), ("group", k.group.toJson),
    ("source", .ofOption Address.toJson k.source)]

def ofJson? (v : Json) : Option RouteKey :=
  match v.fields? ["vrf", "entry_type", "group", "source"] with
  | some [vrf, type, group, source] => do
    let vrf ← Json.required? VrfId.ofJson? vrf
    let type ← Json.required? RouteType.ofJson? type
    let group ← Json.required? Address.ofJson? group
    let source ← Json.optional? Address.ofJson? source
    some ⟨vrf, type, group, source⟩
  | _ => none

/-- No source comes before any source. -/
def sourceCode : Option Address → List Nat
  | none => [0]
  | some a => 1 :: a.code

theorem sourceCode_injective : ∀ {s t : Option Address}, sourceCode s = sourceCode t → s = t
  | none, none, _ => rfl
  | some _, some _, h => congrArg some (Address.code_injective (List.cons.inj h).2)
  | none, some _, h => nomatch (List.cons.inj h).1
  | some _, none, h => nomatch (List.cons.inj h).1

/-- What the hardware sees of a key: type, group and source. -/
def pathCode (type : RouteType) (group : Address) (source : Option Address) : List Nat :=
  type.code :: (group.code ++ sourceCode source)

theorem pathCode_injective {type type' : RouteType} {group group' : Address}
    {source source' : Option Address}
    (h : pathCode type group source = pathCode type' group' source') :
    type = type' ∧ group = group' ∧ source = source' := by
  have ⟨htype, hrest⟩ := List.cons.inj h
  have ⟨hgroup, hsource⟩ := Address.code_append_inj hrest
  refine ⟨?_, hgroup, sourceCode_injective hsource⟩
  cases type <;> cases type' <;> first | rfl | cases htype

/-- By VRF, type, group and source. -/
def code (k : RouteKey) : List Nat := k.vrf.number.toNat :: pathCode k.type k.group k.source

theorem code_injective {k l : RouteKey} (h : code k = code l) : k = l := by
  obtain ⟨⟨v⟩, type, group, source⟩ := k
  obtain ⟨⟨v'⟩, type', group', source'⟩ := l
  have ⟨hvrf, hpath⟩ := List.cons.inj h
  have ⟨htype, hgroup, hsource⟩ := pathCode_injective hpath
  have hvrf : v = v' := UInt32.toNat_inj.mp hvrf
  cases hvrf; cases htype; cases hgroup; cases hsource
  rfl

instance : SortKey RouteKey := ⟨code, code_injective⟩

end RouteKey

end Multicast
