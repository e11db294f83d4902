import Multicast.Numeral

/-! IPv4 addresses in dotted form. -/
namespace Multicast

structure Ipv4 where
  a : UInt8
  b : UInt8
  c : UInt8
  d : UInt8
  deriving DecidableEq, Repr

namespace Ipv4

def octets (x : Ipv4) : List UInt8 := [x.a, x.b, x.c, x.d]

/-- 224.0.0.0/4 -/
def isMulticast (x : Ipv4) : Bool := 224 ≤ x.a && x.a ≤ 239

def isUnspecified (x : Ipv4) : Bool := x.octets.all (· == 0)

def chars (x : Ipv4) : List Char :=
  ['.'].intercalate (x.octets.map fun o => Numeral.decimal o.toNat)

/-- One to three digits, without a leading zero unless the octet is zero. -/
def octet? (cs : List Char) : Option UInt8 :=
  if cs.length ≤ 3 ∧ (cs.head? ≠ some '0' ∨ cs.length = 1) then
    match Numeral.decimal? cs with
    | some n => if n < 256 then some (UInt8.ofNat n) else none
    | none => none
  else none

def read? (cs : List Char) : Option Ipv4 :=
  match cs.splitOn '.' with
  | [p, q, r, s] => do
    let a ← octet? p
    let b ← octet? q
    let c ← octet? r
    let d ← octet? s
    some ⟨a, b, c, d⟩
  | _ => none

end Ipv4

end Multicast
