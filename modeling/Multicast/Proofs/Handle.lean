import Mathlib.Algebra.Group.Nat.Defs
import Multicast.Handle

/-! Handles given out by the switch are never null, and tell their kind and number as long as the
number fits in 48 bits. -/
namespace Multicast.Handle

theorem toNat_make {kind : ObjectKind} {i : Nat} (hi : i < 2 ^ 48) :
    (make kind i).raw.toNat = kind.typeCode * 2 ^ 48 + i := by
  have hcode : kind.typeCode < 2 ^ 16 := by
    cases kind with
    | subGroup role => cases role <;> decide
    | member role => cases role <;> decide
    | _ => decide
  have hor : kind.typeCode <<< 48 ||| i = kind.typeCode * 2 ^ 48 + i := by
    rw [← Nat.shiftLeft_add_eq_or_of_lt hi, Nat.shiftLeft_eq]
  unfold make
  rw [hor, UInt64.toNat_ofNat_of_lt']
  simp only [UInt64.size]
  omega

/-- Within 48 bits no two numbers share a handle, whatever the kinds. -/
theorem number_eq_of_make_eq {k l : ObjectKind} {i j : Nat} (hi : i < 2 ^ 48) (hj : j < 2 ^ 48)
    (h : make k i = make l j) : i = j := by
  have h := congrArg (fun h => h.raw.toNat) h
  simp only [toNat_make hi, toNat_make hj] at h
  omega

/-- The bound is sharp: a number that reaches the type code is lost in it. -/
example : make .group (2 ^ 48 + 1) = make .group 1 := by decide

theorem isNull_make (kind : ObjectKind) (i : Nat) : (make kind i).isNull = false := by
  -- the type code keeps a bit among the top sixteen, however large the number is
  have hbit : ∃ j, j < 16 ∧ kind.typeCode.testBit j = true := by
    cases kind with
    | subGroup role => cases role <;> decide
    | member role => cases role <;> decide
    | _ => decide
  obtain ⟨j, hj, hbit⟩ := hbit
  unfold isNull make
  rw [beq_eq_false_iff_ne]
  intro hzero
  have hzero := congrArg UInt64.toNat hzero
  rw [UInt64.toNat_ofNat'] at hzero
  have hset : ((kind.typeCode <<< 48 ||| i) % 2 ^ 64).testBit (48 + j) = true := by
    rw [Nat.testBit_mod_two_pow, Nat.testBit_or, Nat.testBit_shiftLeft]
    simp [hbit]
    omega
  rw [hzero] at hset
  simp at hset

end Multicast.Handle
