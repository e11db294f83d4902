import Multicast.Address.V6
import Multicast.Json.Shape
import Multicast.SortKey

/-! IP addresses of both families. All IPv4 addresses come before all IPv6 addresses, and within a
family the bytes decide. -/
namespace Multicast

inductive Family where
  | ipv4
  | ipv6
  deriving DecidableEq, Repr

namespace Family

def text : Family → String
  | .ipv4 => "ipv4"
  | .ipv6 => "ipv6"

/-- Bytes of an address. -/
def length : Family → Nat
  | .ipv4 => 4
  | .ipv6 => 16

def toJson (f : Family) : Json := .str f.text

def ofJson? (v : Json) : Option Family :=
  match v.name? with
  | some "ipv4" => some .ipv4
  | some "ipv6" => some .ipv6
  | _ => none

end Family

inductive Address where
  | v4 (x : Ipv4)
  | v6 (x : Ipv6)
  deriving DecidableEq, Repr

namespace Address

def family : Address → Family
  | .v4 _ => .ipv4
  | .v6 _ => .ipv6

def octets : Address → List UInt8
  | .v4 x => x.octets
  | .v6 x => x.octets

def isMulticast : Address → Bool
  | .v4 x => x.isMulticast
  | .v6 x => x.isMulticast

def isUnspecified : Address → Bool
  | .v4 x => x.isUnspecified
  | .v6 x => x.isUnspecified

/-- What identifies an address in a hash: its family and sixteen bytes, zeros after those of an
IPv4 address. -/
def normalized (a : Address) : Family × List UInt8 :=
  (a.family, a.octets ++ List.replicate (16 - a.octets.length) 0)

def chars : Address → List Char
  | .v4 x => x.chars
  | .v6 x => x.chars

def text (a : Address) : String := String.ofList a.chars

def read? (cs : List Char) : Option Address :=
  match Ipv4.read? cs with
  | some x => some (.v4 x)
  | none => (Ipv6.read? cs).map .v6

def ofText? (s : String) : Option Address := read? s.toList

def toJson (a : Address) : Json := .str a.text

def ofJson? (v : Json) : Option Address := v.text?.bind ofText?

/-- The family and then the bytes. -/
def code : Address → List Nat
  | .v4 x => 0 :: x.octets.map UInt8.toNat
  | .v6 x => 1 :: x.octets.map UInt8.toNat

end Address

theorem Ipv4.octets_injective {x y : Ipv4} (h : x.octets = y.octets) : x = y := by
  cases x; cases y; simpa [octets] using h

private theorem segment_eq_of_bytes_eq {s t : UInt16} (hhigh : (s >>> 8).toUInt8 = (t >>> 8).toUInt8)
    (hlow : s.toUInt8 = t.toUInt8) : s = t := by
  have hs := s.toNat_lt
  have ht := t.toNat_lt
  have hhigh := congrArg UInt8.toNat hhigh
  have hlow := congrArg UInt8.toNat hlow
  simp only [UInt16.toNat_toUInt8, UInt16.toNat_shiftRight] at hhigh hlow
  rw [show UInt16.toNat 8 % 16 = 8 from rfl, Nat.shiftRight_eq_div_pow,
    Nat.shiftRight_eq_div_pow] at hhigh
  exact UInt16.toNat_inj.mp (by omega)

private theorem segments_eq_of_octets_eq : ∀ {l l' : List UInt16},
    (l.flatMap fun (s : UInt16) => [(s >>> 8).toUInt8, s.toUInt8]) =
      (l'.flatMap fun (s : UInt16) => [(s >>> 8).toUInt8, s.toUInt8]) → l = l'
  | [], [], _ => rfl
  | [], _ :: _, h => by simp at h
  | _ :: _, [], h => by simp at h
  | s :: l, t :: l', h => by
    simp only [List.flatMap_cons, List.cons_append, List.nil_append, List.cons.injEq] at h
    rw [segment_eq_of_bytes_eq h.1 h.2.1, segments_eq_of_octets_eq h.2.2]

theorem Ipv6.octets_injective {x y : Ipv6} (h : x.octets = y.octets) : x = y := by
  cases x; cases y
  cases segments_eq_of_octets_eq h
  rfl

theorem Ipv6.length_octets (x : Ipv6) : x.octets.length = 16 := by
  simp [octets, List.length_flatMap, List.map_const', x.length_segments]

namespace Address

private theorem map_toNat_injective {l l' : List UInt8} (h : l.map UInt8.toNat = l'.map UInt8.toNat) :
    l = l' :=
  (List.map_inj_right fun _ _ e => UInt8.toNat_inj.mp e).mp h

theorem code_injective : ∀ {a b : Address}, code a = code b → a = b
  | .v4 _, .v4 _, h => congrArg v4 (Ipv4.octets_injective (map_toNat_injective (List.cons.inj h).2))
  | .v6 _, .v6 _, h => congrArg v6 (Ipv6.octets_injective (map_toNat_injective (List.cons.inj h).2))
  | .v4 _, .v6 _, h => nomatch (List.cons.inj h).1
  | .v6 _, .v4 _, h => nomatch (List.cons.inj h).1

theorem length_octets (a : Address) : a.octets.length = a.family.length := by
  cases a
  · rfl
  · exact Ipv6.length_octets _

/-- The first number of a code tells its length, so what follows a code does not blur it. -/
theorem code_append_inj {a b : Address} {l l' : List Nat} (h : a.code ++ l = b.code ++ l') :
    a = b ∧ l = l' := by
  have hlen : a.code.length = b.code.length := by
    cases a <;> cases b
    · rfl
    · exact nomatch (List.cons.inj h).1
    · exact nomatch (List.cons.inj h).1
    · simp [code, Ipv6.length_octets]
  have ⟨hcode, hrest⟩ := List.append_inj h hlen
  exact ⟨code_injective hcode, hrest⟩

instance : SortKey Address := ⟨code, code_injective⟩

end Address

end Multicast
