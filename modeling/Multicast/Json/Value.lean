import Multicast.Numeral

/-! JSON values. Objects keep the order of their fields; `canonical` sorts them. -/
namespace Multicast

/-- A number: a 64-bit integer, signed or not, or any other as `± digits * 10 ^ exponent`, where
`digits` does not end in zero unless it is zero. -/
inductive Json.Number where
  | int (n : Int)
  | real (negative : Bool) (digits : Nat) (exponent : Int)
  deriving DecidableEq, Repr

inductive Json where
  | null
  | bool (b : Bool)
  | num (n : Json.Number)
  | str (s : String)
  | arr (items : List Json)
  | obj (fields : List (String × Json))
  deriving Repr

namespace Json

def nat (n : Nat) : Json := .num (.int n)

def ofOption {α : Type} (f : α → Json) : Option α → Json
  | none => .null
  | some a => f a

/-- The last field of that name. -/
def get? (name : String) : Json → Option Json
  | .obj fields => (fields.reverse.find? (·.1 == name)).map Prod.snd
  | _ => none

/-- Puts a field in its place, over an earlier one of the same name. -/
def insertField (name : String) (v : Json) : List (String × Json) → List (String × Json)
  | [] => [(name, v)]
  | f :: rest =>
    if name < f.1 then (name, v) :: f :: rest
    else if name = f.1 then (name, v) :: rest
    else f :: insertField name v rest

mutual

/-- Fields in ascending order of their names, the last of equal names kept. -/
def canonical : Json → Json
  | .arr items => .arr (canonicalItems items)
  | .obj fields => .obj (canonicalFields fields [])
  | v => v

def canonicalItems : List Json → List Json
  | [] => []
  | v :: rest => canonical v :: canonicalItems rest

def canonicalFields : List (String × Json) → List (String × Json) → List (String × Json)
  | [], done => done
  | (name, v) :: rest, done => canonicalFields rest (insertField name (canonical v) done)

end

mutual

/-- How deep arrays and objects are nested. -/
def depth : Json → Nat
  | .arr items => depthItems items + 1
  | .obj fields => depthFields fields + 1
  | _ => 0

def depthItems : List Json → Nat
  | [] => 0
  | v :: rest => max (depth v) (depthItems rest)

def depthFields : List (String × Json) → Nat
  | [] => 0
  | (_, v) :: rest => max (depth v) (depthFields rest)

end

end Json

end Multicast
