import Multicast.Json.Value

/-! The compact and the indented text of a JSON value. -/
namespace Multicast.Json

/-- Control characters, the quote and the backslash are escaped, all else stands as it is. -/
def escape (c : Char) : List Char :=
  if c = '"' then ['\\', '"']
  else if c = '\\' then ['\\', '\\']
  else if c = '\n' then ['\\', 'n']
  else if c = '\r' then ['\\', 'r']
  else if c = '\t' then ['\\', 't']
  else if c.toNat = 8 then ['\\', 'b']
  else if c.toNat = 12 then ['\\', 'f']
  else if c.toNat < 32 then ['\\', 'u'] ++ Numeral.paddedHex 4 c.toNat
  else [c]

def quote (s : String) : List Char := '"' :: s.toList.flatMap escape ++ ['"']

/-- Positional between a millionth and ten to the sixteenth, always with a point there; with an
exponent beyond. -/
def Number.chars : Number → List Char
  | .int n => if n < 0 then '-' :: Numeral.decimal n.natAbs else Numeral.decimal n.natAbs
  | .real negative digits exponent =>
    let ds := Numeral.decimal digits
    let point := (ds.length : Int) + exponent
    let body :=
      if digits = 0 then ['0', '.', '0']
      else if 0 ≤ exponent ∧ point ≤ 16 then
        ds ++ List.replicate exponent.toNat '0' ++ ['.', '0']
      else if 0 < point ∧ point ≤ 16 then ds.take point.toNat ++ '.' :: ds.drop point.toNat
      else if -5 < point ∧ point ≤ 0 then
        ['0', '.'] ++ List.replicate point.natAbs '0' ++ ds
      else
        let e := point - 1
        let mantissa := match ds with
          | [d] => [d]
          | d :: rest => d :: '.' :: rest
          | [] => []
        mantissa ++ 'e' :: (if e < 0 then ['-'] else []) ++ Numeral.decimal e.natAbs
    if negative then '-' :: body else body

/-- How a text is laid out: without blanks, or one item a line. -/
inductive Layout where
  | compact
  | indented

namespace Layout

/-- What stands before an item and before the end of a list: two blanks a level. -/
def pad : Layout → Nat → List Char
  | .compact, _ => []
  | .indented, level => '\n' :: List.replicate (2 * level) ' '

/-- What follows a colon. -/
def gap : Layout → List Char
  | .compact => []
  | .indented => [' ']

end Layout

mutual

def write (l : Layout) (level : Nat) : Json → List Char
  | .null => "null".toList
  | .bool true => "true".toList
  | .bool false => "false".toList
  | .num n => n.chars
  | .str s => quote s
  | .arr [] => ['[', ']']
  | .arr (v :: rest) =>
    '[' :: (l.pad (level + 1) ++ (write l (level + 1) v ++ writeItems l level rest))
  | .obj [] => ['{', '}']
  | .obj ((name, v) :: rest) =>
    '{' :: (l.pad (level + 1) ++ (quote name ++ ':' ::
      (l.gap ++ (write l (level + 1) v ++ writeFields l level rest))))

/-- The items after the first, and the end. -/
def writeItems (l : Layout) (level : Nat) : List Json → List Char
  | [] => l.pad level ++ [']']
  | v :: rest => ',' :: (l.pad (level + 1) ++ (write l (level + 1) v ++ writeItems l level rest))

/-- The fields after the first, and the end. -/
def writeFields (l : Layout) (level : Nat) : List (String × Json) → List Char
  | [] => l.pad level ++ ['}']
  | (name, v) :: rest =>
    ',' :: (l.pad (level + 1) ++ (quote name ++ ':' ::
      (l.gap ++ (write l (level + 1) v ++ writeFields l level rest))))

end

/-- The text without blanks. -/
def compact (v : Json) : String := String.ofList (v.write .compact 0)

/-- The indented text. -/
def pretty (v : Json) : String := String.ofList (v.write .indented 0)

end Multicast.Json
