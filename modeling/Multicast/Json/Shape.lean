import Multicast.Json.Value

/-! How records, names and words are read from JSON values. -/
namespace Multicast.Json

/-- The fields of a record in order, `none` for an absent one. A name given twice is refused and an
unknown one passed over. An array must hold every field. -/
def fields? (names : List String) : Json → Option (List (Option Json))
  | .obj fields =>
    if names.all fun name => (fields.filter (·.1 == name)).length ≤ 1 then
      some (names.map fun name => (fields.find? (·.1 == name)).map Prod.snd)
    else none
  | .arr items => if items.length = names.length then some (items.map some) else none
  | _ => none

/-- As `fields?`, but an array may end early. -/
def leadingFields? (names : List String) : Json → Option (List (Option Json))
  | .arr items =>
    if items.length ≤ names.length then
      some (items.map some ++ List.replicate (names.length - items.length) none)
    else none
  | v => fields? names v

/-- A name stands alone or as the only field of an object, with nothing beside it. -/
def name? : Json → Option String
  | .str s => some s
  | .obj [(name, .null)] => some name
  | _ => none

/-- The only field of an object. -/
def tagged? : Json → Option (String × Json)
  | .obj [field] => some field
  | _ => none

def text? : Json → Option String
  | .str s => some s
  | _ => none

def bool? : Json → Option Bool
  | .bool b => some b
  | _ => none

/-- A natural number below `bound`, written without point or exponent. -/
def below? (bound : Nat) : Json → Option Nat
  | .num (.int n) => if 0 ≤ n ∧ n < bound then some n.toNat else none
  | _ => none

def word? (v : Json) : Option UInt32 := (v.below? UInt32.size).map UInt32.ofNat

def items? : Json → Option (List Json)
  | .arr items => some items
  | _ => none

/-- A field that must be there. -/
def required? {α : Type} (read? : Json → Option α) (v : Option Json) : Option α := v.bind read?

/-- A field that may be absent or null. -/
def optional? {α : Type} (read? : Json → Option α) : Option Json → Option (Option α)
  | none | some .null => some none
  | some v => (read? v).map some

/-- A field with a default. -/
def withDefault? {α : Type} (read? : Json → Option α) (default : α) : Option Json → Option α
  | none => some default
  | some v => read? v

end Multicast.Json
