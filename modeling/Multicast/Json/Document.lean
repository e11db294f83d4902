import Multicast.Json.Number

/-! JSON text. A document is text that is well formed; it has a value when each of its strings
pairs its surrogates and each of its numbers is in range. -/
namespace Multicast.Json

inductive Document where
  | null
  | bool (b : Bool)
  | num (n : Option Number)
  | str (s : Option String)
  | arr (items : List Document)
  | obj (fields : List (Option String × Document))

namespace Document

/-! Values -/

mutual

def value? : Document → Option Json
  | .null => some .null
  | .bool b => some (.bool b)
  | .num n => n.map .num
  | .str s => s.map .str
  | .arr items => (valueItems? items).map .arr
  | .obj fields => (valueFields? fields).map .obj

def valueItems? : List Document → Option (List Json)
  | [] => some []
  | d :: rest => do
    let v ← value? d
    let l ← valueItems? rest
    some (v :: l)

def valueFields? : List (Option String × Document) → Option (List (String × Json))
  | [] => some []
  | (name, d) :: rest => do
    let name ← name
    let v ← value? d
    let l ← valueFields? rest
    some ((name, v) :: l)

end

/-- How deep the values of a record's fields may be nested. -/
def maxDepth : Nat := 126

def bounded? (d : Document) : Option Json :=
  d.value?.bind fun v => if v.depth ≤ maxDepth then some v else none

/-- The value of a record, without the fields that have no place in it: such a field need not have
a value of its own. -/
def record? (names : List String) : Document → Option Json
  | .obj fields => do
    let known ← fields.filterMapM fun f => do
      let name ← f.1
      if names.contains name then
        let v ← f.2.bounded?
        some (some (name, v))
      else some none
    some (.obj known)
  | .arr items => (items.mapM bounded?).map .arr
  | d => d.value?

end Document

/-! Strings -/

/-- Four hexadecimal digits. -/
def unit? : List Char → Option Nat
  | [a, b, c, d] => Numeral.hex? [a, b, c, d]
  | _ => none

/-- Code points up to the closing quote, surrogates of escapes among them, and what follows. -/
def stringUnits? : List Char → Option (List Nat × List Char)
  | '"' :: rest => some ([], rest)
  | '\\' :: 'u' :: a :: b :: c :: d :: rest => do
    let u ← unit? [a, b, c, d]
    let (l, rest) ← stringUnits? rest
    some (u :: l, rest)
  | '\\' :: c :: rest => do
    let u ← match c with
      | '"' => some 34
      | '\\' => some 92
      | '/' => some 47
      | 'b' => some 8
      | 'f' => some 12
      | 'n' => some 10
      | 'r' => some 13
      | 't' => some 9
      | _ => none
    let (l, rest) ← stringUnits? rest
    some (u :: l, rest)
  | c :: rest =>
    if c.toNat < 32 ∨ c = '\\' then none
    else (stringUnits? rest).map fun p => (c.toNat :: p.1, p.2)
  | [] => none

def isHighSurrogate (u : Nat) : Bool := 0xD800 ≤ u && u ≤ 0xDBFF

def isLowSurrogate (u : Nat) : Bool := 0xDC00 ≤ u && u ≤ 0xDFFF

/-- Joins surrogate pairs; a surrogate alone is no text. -/
def joinUnits? : List Nat → Option (List Char)
  | [] => some []
  | u :: rest =>
    if isLowSurrogate u then none
    else if isHighSurrogate u then
      match rest with
      | [] => none
      | v :: rest =>
        if isLowSurrogate v then
          (joinUnits? rest).map
            (Char.ofNat (0x10000 + (u - 0xD800) * 0x400 + (v - 0xDC00)) :: ·)
        else none
    else (joinUnits? rest).map (Char.ofNat u :: ·)

def string? (cs : List Char) : Option (Option String × List Char) :=
  (stringUnits? cs).map fun p => ((joinUnits? p.1).map String.ofList, p.2)

/-! Documents -/

def isBlank (c : Char) : Bool := c == ' ' || c == '\n' || c == '\t' || c == '\r'

def skipBlanks (cs : List Char) : List Char := cs.dropWhile isBlank

namespace Document

mutual

/-- A document and the text after it; `fuel` bounds the number of steps. -/
def scan? : Nat → List Char → Option (Document × List Char)
  | 0, _ => none
  | fuel + 1, cs =>
    match cs with
    | 'n' :: 'u' :: 'l' :: 'l' :: rest => some (.null, rest)
    | 't' :: 'r' :: 'u' :: 'e' :: rest => some (.bool true, rest)
    | 'f' :: 'a' :: 'l' :: 's' :: 'e' :: rest => some (.bool false, rest)
    | '"' :: rest => (string? rest).map fun p => (.str p.1, p.2)
    | '[' :: rest =>
      match skipBlanks rest with
      | ']' :: rest => some (.arr [], rest)
      | rest => (scanItems? fuel rest).map fun p => (.arr p.1, p.2)
    | '{' :: rest =>
      match skipBlanks rest with
      | '}' :: rest => some (.obj [], rest)
      | rest => (scanFields? fuel rest).map fun p => (.obj p.1, p.2)
    | cs => (number? cs).map fun p => (.num p.1, p.2)

/-- One or more items and the closing bracket. -/
def scanItems? : Nat → List Char → Option (List Document × List Char)
  | 0, _ => none
  | fuel + 1, cs => do
    let (d, rest) ← scan? fuel (skipBlanks cs)
    match skipBlanks rest with
    | ']' :: rest => some ([d], rest)
    | ',' :: rest =>
      let (l, rest) ← scanItems? fuel rest
      some (d :: l, rest)
    | _ => none

/-- One or more fields and the closing brace. -/
def scanFields? : Nat → List Char → Option (List (Option String × Document) × List Char)
  | 0, _ => none
  | fuel + 1, cs =>
    match skipBlanks cs with
    | '"' :: rest => do
      let (name, rest) ← string? rest
      match skipBlanks rest with
      | ':' :: rest =>
        let (d, rest) ← scan? fuel (skipBlanks rest)
        match skipBlanks rest with
        | '}' :: rest => some ([(name, d)], rest)
        | ',' :: rest =>
          let (l, rest) ← scanFields? fuel rest
          some ((name, d) :: l, rest)
        | _ => none
      | _ => none
    | _ => none

end

/-- One document, with blanks around it. A bracket takes two steps, so twice the length is fuel
enough. -/
def ofChars? (cs : List Char) : Option Document :=
  match scan? (2 * cs.length + 2) (skipBlanks cs) with
  | some (d, rest) => if (skipBlanks rest).isEmpty then some d else none
  | none => none

def ofText? (text : String) : Option Document := ofChars? text.toList

end Document

/-- The value that a text stands for. -/
def ofText? (text : String) : Option Json := (Document.ofText? text).bind Document.value?

end Multicast.Json
