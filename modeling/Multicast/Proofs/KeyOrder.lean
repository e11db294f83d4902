import Mathlib.Data.List.Basic
import Multicast.RouteKey

/-! The order of keys. It is total and tells all keys apart; addresses go by family and bytes, and
route keys by VRF, type, group and source. What is hashed of either differs for different keys. -/
namespace Multicast

namespace SortKey

theorem compare_eq_lt_iff_lt {l l' : List Nat} : Ord.compare l l' = .lt ↔ l < l' := by
  induction l generalizing l' with
  | nil => cases l' <;> simp
  | cons n l ih =>
    cases l' with
    | nil => simp
    | cons m l' =>
      rw [List.compare_cons_cons, Ordering.then_eq_lt, Nat.compare_eq_lt, Nat.compare_eq_eq, ih,
        List.cons_lt_cons_iff]

variable {κ : Type} [SortKey κ] {a b c : κ}

theorem compare_eq (a b : κ) : compare a b = Ord.compare (code a) (code b) := by
  unfold compare
  split
  · next hlt => exact (compare_eq_lt_iff_lt.mpr hlt).symm
  · next hlt =>
    split
    · next heq => exact (Std.compare_eq_iff_eq.mpr heq).symm
    · next hne =>
      cases hcode : Ord.compare (code a) (code b) with
      | lt => exact (hlt (compare_eq_lt_iff_lt.mp hcode)).elim
      | eq => exact (hne (Std.LawfulEqCmp.eq_of_compare hcode)).elim
      | gt => rfl

instance : Std.TransCmp (compare : κ → κ → Ordering) where
  eq_swap := by
    intro a b
    rw [compare_eq, compare_eq]
    exact Std.OrientedCmp.eq_swap
  isLE_trans := by
    intro a b c hab hbc
    rw [compare_eq] at *
    exact Std.TransCmp.isLE_trans hab hbc

instance : Std.LawfulEqCmp (compare : κ → κ → Ordering) where
  compare_self := compare_eq_eq_iff.mpr rfl
  eq_of_compare := compare_eq_eq_iff.mp

theorem isLE_compare_iff : (compare a b).isLE = true ↔ ¬Before b a := by
  rw [Ordering.isLE_iff_ne_gt, ← compare_eq_lt_iff]
  exact not_congr Std.OrientedCmp.gt_iff_lt

/-! Sorting -/

theorem not_before_eq_isLE (a b : κ) : (!decide (Before b a)) = (compare a b).isLE := by
  rw [Bool.eq_iff_iff, isLE_compare_iff]
  simp

theorem mergeSort_ascending {α : Type} (key : α → κ) (l : List α) :
    (l.mergeSort fun a b => !decide (Before (key b) (key a))).Pairwise
      fun a b => (compare (key a) (key b)).isLE = true := by
  simp only [not_before_eq_isLE]
  refine List.pairwise_mergeSort (fun a b c => Std.TransCmp.isLE_trans) (fun a b => ?_) l
  have hswap : compare (key b) (key a) = (compare (key a) (key b)).swap := Std.OrientedCmp.eq_swap
  rw [hswap]
  cases compare (key a) (key b) <;> rfl

theorem sort_perm (l : List κ) : (sort l).Perm l := List.mergeSort_perm l _

theorem sort_ascending (l : List κ) :
    (sort l).Pairwise fun a b => (compare a b).isLE = true := mergeSort_ascending id l

theorem eq_of_isLE (hab : (compare a b).isLE = true) (hba : (compare b a).isLE = true) : a = b :=
  Std.LawfulEqCmp.eq_of_compare (Std.OrientedCmp.isLE_antisymm hab hba)

/-- Two ascending lists of the same keys are the same list, so it matters neither how a list is
sorted nor in which order it was. -/
theorem eq_sort_iff {l sorted : List κ} :
    sorted = sort l ↔
      sorted.Perm l ∧ sorted.Pairwise fun a b => (compare a b).isLE = true := by
  constructor
  · rintro rfl
    exact ⟨sort_perm l, sort_ascending l⟩
  · rintro ⟨hperm, hasc⟩
    exact (hperm.trans (sort_perm l).symm).eq_of_pairwise (fun a b _ _ => eq_of_isLE) hasc
      (sort_ascending l)

theorem sort_eq_sort_iff {l l' : List κ} : sort l = sort l' ↔ l.Perm l' := by
  constructor
  · intro h
    exact ((sort_perm l).symm.trans (.of_eq h)).trans (sort_perm l')
  · intro h
    exact eq_sort_iff.mpr ⟨(sort_perm l).trans h, sort_ascending l⟩

end SortKey

/-! Codes that are read in parts -/

theorem compare_append_of_length {l l' : List Nat} (h : l.length = l'.length) (m m' : List Nat) :
    compare (l ++ m) (l' ++ m') = (compare l l').then (compare m m') := by
  induction l generalizing l' with
  | nil =>
    obtain rfl := List.eq_nil_of_length_eq_zero h.symm
    simp
  | cons n l ih =>
    cases l' with
    | nil => cases h
    | cons n' l' =>
      simp only [List.cons_append, List.compare_cons_cons, ih (Nat.succ.inj h),
        Ordering.then_assoc]

theorem compare_map_toNat (l l' : List UInt8) :
    compare (l.map UInt8.toNat) (l'.map UInt8.toNat) = compare l l' := by
  induction l generalizing l' with
  | nil => cases l' <;> simp
  | cons o l ih =>
    cases l' with
    | nil => simp
    | cons o' l' =>
      simp only [List.map_cons, List.compare_cons_cons, ih, UInt8.compare_eq_toNat_compare_toNat]

/-! Addresses -/

/-- IPv4 comes before IPv6. -/
def Family.order : Family → Family → Ordering
  | .ipv4, .ipv6 => .lt
  | .ipv6, .ipv4 => .gt
  | _, _ => .eq

/-- The high byte counts first. -/
theorem compare_bytes (m n : Nat) :
    compare m n = (compare (m / 256) (n / 256)).then (compare (m % 256) (n % 256)) := by
  rcases Nat.lt_trichotomy (m / 256) (n / 256) with h | h | h
  · rw [Nat.compare_eq_lt.mpr h, Nat.compare_eq_lt.mpr (by omega)]
    rfl
  · rw [Nat.compare_eq_eq.mpr h, Ordering.eq_then]
    rcases Nat.lt_trichotomy (m % 256) (n % 256) with h' | h' | h'
    · rw [Nat.compare_eq_lt.mpr h', Nat.compare_eq_lt.mpr (by omega)]
    · rw [Nat.compare_eq_eq.mpr h', Nat.compare_eq_eq.mpr (by omega)]
    · rw [Nat.compare_eq_gt.mpr h', Nat.compare_eq_gt.mpr (by omega)]
  · rw [Nat.compare_eq_gt.mpr h, Nat.compare_eq_gt.mpr (by omega)]
    rfl

theorem compare_segment (s t : UInt16) :
    compare s t =
      (compare (s >>> 8).toUInt8 (t >>> 8).toUInt8).then (compare s.toUInt8 t.toUInt8) := by
  have hs := s.toNat_lt
  have ht := t.toNat_lt
  have hhigh : ∀ u : UInt16, u.toNat < 2 ^ 16 → (u >>> 8).toUInt8.toNat = u.toNat / 256 := by
    intro u hu
    rw [UInt16.toNat_toUInt8, UInt16.toNat_shiftRight, show UInt16.toNat 8 % 16 = 8 from rfl,
      Nat.shiftRight_eq_div_pow]
    omega
  simp only [UInt16.compare_eq_toNat_compare_toNat, UInt8.compare_eq_toNat_compare_toNat,
    hhigh s hs, hhigh t ht, UInt16.toNat_toUInt8]
  exact compare_bytes _ _

/-- By bytes or by segments, IPv6 addresses have one order. -/
theorem Ipv6.compare_octets (x y : Ipv6) :
    compare x.octets y.octets = compare x.segments y.segments := by
  have hlist : ∀ l l' : List UInt16,
      compare (l.flatMap fun (s : UInt16) => [(s >>> 8).toUInt8, s.toUInt8])
        (l'.flatMap fun (s : UInt16) => [(s >>> 8).toUInt8, s.toUInt8]) = compare l l' := by
    intro l
    induction l with
    | nil => intro l'; cases l' <;> simp
    | cons s l ih =>
      intro l'
      cases l' with
      | nil => simp
      | cons t l' =>
        simp only [List.flatMap_cons, List.cons_append, List.nil_append, List.compare_cons_cons,
          ih, compare_segment s t, Ordering.then_assoc]
  exact hlist x.segments y.segments

namespace Address

variable {a b : Address}

/-- The bytes that count of the sixteen. -/
def significant (a : Address) : List UInt8 := a.normalized.2.take a.normalized.1.length

theorem significant_eq (a : Address) : a.significant = a.octets := by
  unfold significant normalized
  exact List.take_left' a.length_octets

theorem length_normalized (a : Address) : a.normalized.2.length = 16 := by
  unfold normalized
  rw [List.length_append, List.length_replicate, length_octets]
  cases a <;> rfl

theorem normalized_injective (h : a.normalized = b.normalized) : a = b := by
  have hoctets : a.octets = b.octets := by
    rw [← significant_eq, ← significant_eq, significant, significant, h]
  match a, b with
  | .v4 _, .v4 _ => exact congrArg v4 (Ipv4.octets_injective hoctets)
  | .v6 _, .v6 _ => exact congrArg v6 (Ipv6.octets_injective hoctets)
  | .v4 _, .v6 _ | .v6 _, .v4 _ => cases congrArg Prod.fst h

/-- Of the same sixteen bytes, the family alone tells the two apart. -/
example :
    (v4 ⟨230, 1, 1, 1⟩).normalized.2 =
      (v6 ⟨[0xe601, 0x101, 0, 0, 0, 0, 0, 0], rfl⟩).normalized.2 := by decide

/-- What follows the code of an address counts among equal addresses only. -/
theorem compare_code_append (a b : Address) (l l' : List Nat) :
    Ord.compare (a.code ++ l) (b.code ++ l') =
      (SortKey.compare a b).then (Ord.compare l l') := by
  have hcodes : SortKey.compare a b = Ord.compare a.code b.code := SortKey.compare_eq a b
  rw [hcodes]
  match a, b with
  | .v4 x, .v4 y | .v6 x, .v6 y =>
    exact compare_append_of_length (by simp [code, Ipv4.octets, Ipv6.length_octets]) l l'
  | .v4 _, .v6 _ | .v6 _, .v4 _ =>
    simp only [code, List.cons_append, List.compare_cons_cons]
    rfl

theorem compare_eq (a b : Address) :
    SortKey.compare a b =
      (a.family.order b.family).then (Ord.compare a.significant b.significant) := by
  have hcodes : SortKey.compare a b = Ord.compare a.code b.code := SortKey.compare_eq a b
  rw [hcodes, significant_eq, significant_eq]
  match a, b with
  | .v4 x, .v4 y | .v6 x, .v6 y =>
    simp only [code, List.compare_cons_cons, compare_map_toNat]
    rfl
  | .v4 _, .v6 _ | .v6 _, .v4 _ =>
    simp only [code, List.compare_cons_cons]
    rfl

end Address

/-! Route keys -/

/-- A route of any source comes before one of a source. -/
def RouteType.order : RouteType → RouteType → Ordering
  | .starG, .sourceG => .lt
  | .sourceG, .starG => .gt
  | _, _ => .eq

namespace RouteKey

variable {k l : RouteKey}

/-- No source comes before any source. -/
def sourceOrder : Option Address → Option Address → Ordering
  | none, none => .eq
  | none, some _ => .lt
  | some _, none => .gt
  | some a, some b => SortKey.compare a b

/-- By VRF, type, group and source. -/
def order (k l : RouteKey) : Ordering :=
  (compare k.vrf.number l.vrf.number).then <|
    (k.type.order l.type).then <|
      (SortKey.compare k.group l.group).then (sourceOrder k.source l.source)

/-- What identifies a key in a hash. -/
def normalized (k : RouteKey) :
    VrfId × RouteType × (Family × List UInt8) × Option (Family × List UInt8) :=
  (k.vrf, k.type, k.group.normalized, k.source.map Address.normalized)

theorem normalized_injective (h : k.normalized = l.normalized) : k = l := by
  obtain ⟨vrf, type, group, source⟩ := k
  obtain ⟨vrf', type', group', source'⟩ := l
  simp only [normalized, Prod.mk.injEq] at h
  obtain ⟨rfl, rfl, hgroup, hsource⟩ := h
  obtain rfl := Address.normalized_injective hgroup
  obtain rfl := (Option.map_inj_right fun _ _ => Address.normalized_injective).mp hsource
  rfl

theorem compare_sourceCode (s t : Option Address) :
    compare (sourceCode s) (sourceCode t) = sourceOrder s t := by
  match s, t with
  | none, none | none, some _ | some _, none => rfl
  | some a, some b =>
    change compare (1 :: a.code) (1 :: b.code) = SortKey.compare a b
    rw [SortKey.compare_eq, List.compare_cons_cons]
    rfl

theorem compare_eq_order (k l : RouteKey) : SortKey.compare k l = k.order l := by
  rw [SortKey.compare_eq]
  change Ord.compare k.code l.code = k.order l
  unfold code pathCode order
  rw [List.compare_cons_cons, List.compare_cons_cons, Address.compare_code_append,
    compare_sourceCode, UInt32.compare_eq_toNat_compare_toNat]
  cases k.type <;> cases l.type <;> rfl

end RouteKey

/-! Identity, hashing and order -/

/-- Keys are the same where the same is hashed of them, and where they compare as equal; and they
compare by a total order. -/
structure SortKey.Coherent {κ β : Type} [SortKey κ] (hashed : κ → β) : Prop where
  eq_iff_hashed_eq : ∀ a b, a = b ↔ hashed a = hashed b
  eq_iff_compare_eq : ∀ a b : κ, a = b ↔ compare a b = .eq
  total : Std.TransCmp (compare : κ → κ → Ordering)

theorem SortKey.Coherent.of_injective {κ β : Type} [SortKey κ] {hashed : κ → β}
    (h : ∀ {a b}, hashed a = hashed b → a = b) : Coherent hashed where
  eq_iff_hashed_eq _ _ := ⟨congrArg hashed, h⟩
  eq_iff_compare_eq _ _ := compare_eq_eq_iff.symm
  total := inferInstance

/-- Equality, hashing and order agree on addresses and on route keys. Addresses go by family and
then by their bytes, which for IPv6 is by segments; route keys go field by field, and a list of them
sorts to one list, whatever its order and however it is sorted. -/
theorem identity_and_order_agree :
    SortKey.Coherent Address.normalized ∧
    (∀ a b : Address, a.normalized.2.length = 16 ∧ SortKey.compare a b =
      (a.family.order b.family).then (compare a.significant b.significant)) ∧
    (∀ (x : Ipv4) (y : Ipv6), Address.v4 x ≠ .v6 y ∧
      (Address.v4 x).normalized ≠ (Address.v6 y).normalized ∧
      SortKey.compare (Address.v4 x) (.v6 y) = .lt) ∧
    (∀ x y : Ipv6, SortKey.compare (Address.v6 x) (.v6 y) = compare x.segments y.segments) ∧
    SortKey.Coherent RouteKey.normalized ∧
    (∀ k l : RouteKey, SortKey.compare k l = k.order l) ∧
    (∀ keys sorted : List RouteKey, sorted = SortKey.sort keys ↔
      sorted.Perm keys ∧ sorted.Pairwise fun k l => (SortKey.compare k l).isLE = true) ∧
    ∀ keys keys' : List RouteKey, SortKey.sort keys = SortKey.sort keys' ↔ keys.Perm keys' := by
  refine ⟨.of_injective Address.normalized_injective,
    fun a b => ⟨a.length_normalized, a.compare_eq b⟩, fun x y => ?_, fun x y => ?_,
    .of_injective RouteKey.normalized_injective, RouteKey.compare_eq_order,
    fun _ _ => SortKey.eq_sort_iff, fun _ _ => SortKey.sort_eq_sort_iff⟩
  · have hne : Address.v4 x ≠ .v6 y := by
      intro h
      cases h
    refine ⟨hne, fun h => hne (Address.normalized_injective h), ?_⟩
    rw [Address.compare_eq]
    rfl
  · rw [Address.compare_eq, Address.significant_eq, Address.significant_eq]
    exact x.compare_octets y

end Multicast
