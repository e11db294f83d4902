import Multicast.Json.Value

/-! Numbers in JSON text. Integers of 64 bits are read exactly. Any other number is a significand
that fits in a word times a power of ten, and it is in range when the two, each rounded to a
double, have a product that a double holds. -/
namespace Multicast.Json

/-! Doubles -/

/-- The nearest number of 53 binary digits; of two as near, the one that ends in zero. -/
def nearest (n : Nat) : Nat :=
  let unit := 1 <<< (n.log2 - 52)
  let below := n / unit
  let past := n % unit
  if 2 * past < unit ∨ (2 * past = unit ∧ below % 2 = 0) then below * unit
  else (below + 1) * unit

/-- Whether the doubles hold `significand * 10 ^ exponent`. Each factor is rounded before they are
multiplied, so that numbers just below the largest double may be refused. -/
def inRange (significand : Nat) (exponent : Int) : Bool :=
  significand == 0 || exponent < 0 ||
    exponent ≤ 308 &&
      nearest (nearest significand * nearest (Nat.pow 10 exponent.toNat)) < 1 <<< 1024

/-! Values -/

/-- Appends digits to `n` as long as it fits in a word; the others are left. -/
def appendDigits (n : Nat) : List Char → Nat × List Char
  | [] => (n, [])
  | c :: rest =>
    let more := Nat.ofDigitChars 10 [c] n
    if more < UInt64.size then appendDigits more rest else (n, c :: rest)

/-- `± significand * 10 ^ exponent`; what is too small for a double is zero. -/
def scientific (negative : Bool) (significand : Nat) (exponent : Int) : Number :=
  let all := Numeral.decimal significand
  let digits := (all.reverse.dropWhile (· == '0')).reverse
  if significand = 0 ∨ all.length + exponent < -323 then .real negative 0 0
  else .real negative (Nat.ofDigitChars 10 digits 0) (exponent + all.length - digits.length)

/-- The number with these digits before and after its point, or `none` beyond the doubles. Digits
that no longer fit in a word count as zeros. -/
def real? (negative : Bool) (whole places : List Char) (exponent : Int) : Option Number :=
  let (n, beyond) := appendDigits 0 whole
  let (n, dropped) := appendDigits n places
  let e := exponent + beyond.length + dropped.length - places.length
  if inRange n e then some (scientific negative n e) else none

def integer (negative : Bool) (digits : List Char) : Option Number :=
  let n := Nat.ofDigitChars 10 digits 0
  if negative then
    if 0 < n ∧ n ≤ 1 <<< 63 then some (.int (-n)) else real? true digits [] 0
  else if n < UInt64.size then some (.int n)
  else real? false digits [] 0

/-! Text -/

def digits (cs : List Char) : List Char × List Char :=
  (cs.takeWhile Char.isDigit, cs.dropWhile Char.isDigit)

def exponent? : List Char → Option (Int × List Char)
  | cs =>
    let (negative, cs) := match cs with
      | '-' :: rest => (true, rest)
      | '+' :: rest => (false, rest)
      | _ => (false, cs)
    let (ds, rest) := digits cs
    if ds.isEmpty then none
    else
      let n := Nat.ofDigitChars 10 ds 0
      some (if negative then -n else n, rest)

/-- The part of a number after its sign. -/
def magnitude? (negative : Bool) (cs : List Char) : Option (Option Number × List Char) :=
  let (whole, rest) := match cs with
    | '0' :: rest => (['0'], rest)
    | _ => digits cs
  if whole.isEmpty then none
  else do
    let (places, rest) ← match rest with
      | '.' :: rest =>
        let (places, rest) := digits rest
        if places.isEmpty then none else some (places, rest)
      | _ => some ([], rest)
    match rest with
    | 'e' :: rest | 'E' :: rest =>
      let (e, rest) ← exponent? rest
      some (real? negative whole places e, rest)
    | _ =>
      if places.isEmpty then some (integer negative whole, rest)
      else some (real? negative whole places 0, rest)

def number? : List Char → Option (Option Number × List Char)
  | '-' :: rest => magnitude? true rest
  | cs => magnitude? false cs

end Multicast.Json
