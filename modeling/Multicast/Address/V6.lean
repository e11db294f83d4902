import Multicast.Address.V4

/-! IPv6 addresses: eight 16-bit segments in hexadecimal, the first longest run of two or more zero
segments written as a double colon, and an embedded IPv4 address in dotted form. -/
namespace Multicast

structure Ipv6 where
  segments : List UInt16
  length_segments : segments.length = 8
  deriving DecidableEq, Repr

namespace Ipv6

def ofList? (l : List UInt16) : Option Ipv6 := if h : l.length = 8 then some ⟨l, h⟩ else none

def octets (x : Ipv6) : List UInt8 := x.segments.flatMap fun (s : UInt16) => [(s >>> 8).toUInt8, s.toUInt8]

/-- ff00::/8 -/
def isMulticast (x : Ipv6) : Bool := x.octets.head? == some 255

def isUnspecified (x : Ipv6) : Bool := x.segments.all (· == 0)

/-- The IPv4 address mapped into ::ffff:0:0/96. -/
def mapped? (x : Ipv6) : Option Ipv4 :=
  match x.octets with
  | [0, 0, 0, 0, 0, 0, 0, 0, 0, 0, 255, 255, a, b, c, d] => some ⟨a, b, c, d⟩
  | _ => none

/-- Start and length of the first longest run of zeros. -/
def zeroRun : List UInt16 → Nat × Nat
  | [] => (0, 0)
  | s :: rest =>
    let here := ((s :: rest).takeWhile (· == 0)).length
    let (start, length) := zeroRun rest
    if length ≤ here then (0, here) else (start + 1, length)

def groupChars (l : List UInt16) : List Char :=
  [':'].intercalate (l.map fun s => Numeral.hex s.toNat)

def chars (x : Ipv6) : List Char :=
  match x.mapped? with
  | some v4 => "::ffff:".toList ++ v4.chars
  | none =>
    let (start, length) := zeroRun x.segments
    if 2 ≤ length then
      groupChars (x.segments.take start) ++ "::".toList ++
        groupChars (x.segments.drop (start + length))
    else groupChars x.segments

/-- One to four hexadecimal digits. -/
def segment? (cs : List Char) : Option UInt16 :=
  if cs.length ≤ 4 then (Numeral.hex? cs).map UInt16.ofNat else none

def ofIpv4 (x : Ipv4) : List UInt16 :=
  [x.a.toUInt16 <<< 8 ||| x.b.toUInt16, x.c.toUInt16 <<< 8 ||| x.d.toUInt16]

/-- Segments between colons; at the end of the address the last piece may be dotted. -/
def segments? (atEnd : Bool) : List (List Char) → Option (List UInt16)
  | [] => some []
  | [p] =>
    match segment? p with
    | some s => some [s]
    | none => if atEnd then (Ipv4.read? p).map ofIpv4 else none
  | p :: rest => do
    let s ← segment? p
    let l ← segments? atEnd rest
    some (s :: l)

def side? (atEnd : Bool) (cs : List Char) : Option (List UInt16) :=
  if cs.isEmpty then some [] else segments? atEnd (cs.splitOn ':')

/-- Cuts at the first double colon. -/
def cut? : List Char → Option (List Char × List Char)
  | ':' :: ':' :: rest => some ([], rest)
  | c :: rest => (cut? rest).map fun p => (c :: p.1, p.2)
  | [] => none

/-- A double colon stands for at least one zero segment. -/
def read? (cs : List Char) : Option Ipv6 :=
  match cut? cs with
  | none => (segments? true (cs.splitOn ':')).bind ofList?
  | some (before, after) => do
    let head ← side? false before
    let tail ← side? true after
    if head.length + tail.length < 8 then
      ofList? (head ++ List.replicate (8 - (head.length + tail.length)) 0 ++ tail)
    else none

end Ipv6

end Multicast
