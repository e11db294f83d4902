/-! Key types with a total order: a key is known by a list of numbers, and lists compare
lexicographically. -/
namespace Multicast

/-- Equal codes mean equal keys, so the order of codes is a total order of keys. -/
class SortKey (κ : Type) where
  code : κ → List Nat
  code_injective : ∀ {a b : κ}, code a = code b → a = b

namespace SortKey

variable {κ : Type} [SortKey κ]

def Before (a b : κ) : Prop := code a < code b

instance (a b : κ) : Decidable (Before a b) := inferInstanceAs (Decidable (code a < code b))

def compare (a b : κ) : Ordering :=
  if code a < code b then .lt else if code a = code b then .eq else .gt

/-- Ascending order; the sort is stable, and equal keys cannot be told apart anyway. -/
def sort (keys : List κ) : List κ :=
  keys.mergeSort fun a b => !decide (Before b a)

@[simp] theorem code_inj {a b : κ} : code a = code b ↔ a = b :=
  ⟨code_injective, congrArg code⟩

theorem not_before_self (a : κ) : ¬Before a a := List.lt_irrefl _

theorem Before.trans {a b c : κ} (h : Before a b) (h' : Before b c) : Before a c :=
  List.lt_trans h h'

theorem Before.asymm {a b : κ} (h : Before a b) : ¬Before b a := List.lt_asymm h

theorem Before.ne {a b : κ} (h : Before a b) : a ≠ b := fun e => not_before_self b (e ▸ h)

theorem before_trichotomy (a b : κ) : Before a b ∨ a = b ∨ Before b a := by
  by_cases h : Before a b
  · exact .inl h
  by_cases h' : Before b a
  · exact .inr (.inr h')
  · exact .inr (.inl (code_injective (List.le_antisymm (List.not_lt.mp h') (List.not_lt.mp h))))

theorem compare_eq_eq_iff {a b : κ} : compare a b = .eq ↔ a = b := by
  unfold compare
  split
  · next h => exact ⟨nofun, fun e => (not_before_self b (e ▸ h : Before b b)).elim⟩
  · split
    · next h => exact ⟨fun _ => code_injective h, fun _ => rfl⟩
    · next h => exact ⟨nofun, fun e => (h (e ▸ rfl)).elim⟩

theorem compare_eq_lt_iff {a b : κ} : compare a b = .lt ↔ Before a b := by
  unfold compare Before
  split
  · next h => simp [h]
  · next h => split <;> simp [h]

end SortKey

instance : SortKey Nat where
  code n := [n]
  code_injective h := List.singleton_inj.mp h

instance : SortKey UInt32 where
  code n := [n.toNat]
  code_injective h := UInt32.toNat_inj.mp (List.singleton_inj.mp h)

/-- Text sorts by code points. -/
instance : SortKey String where
  code s := s.toList.map Char.toNat
  code_injective h :=
    String.toList_inj.mp ((List.map_inj_right fun _ _ e => Char.toNat_inj.mp e).mp h)

end Multicast
