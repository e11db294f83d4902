import Mathlib.Algebra.GroupWithZero.Nat
import Mathlib.Data.List.Sort
import Multicast.Table

/-! What the operations of tables and key sets do to membership, size and listed values. -/
namespace Multicast

variable {κ α : Type} [SortKey κ]

/-- Of the lists with the same elements only one is strictly ascending. -/
theorem SortKey.eq_of_mem_iff (key : α → κ) {l l' : List α}
    (h : l.Pairwise fun a b => Before (key a) (key b))
    (h' : l'.Pairwise fun a b => Before (key a) (key b)) (hmem : ∀ a, a ∈ l ↔ a ∈ l') :
    l = l' := by
  have hasymm : Std.Asymm fun a b => Before (key a) (key b) := ⟨fun _ _ => Before.asymm⟩
  exact h.eq_of_mem_iff h' hmem

namespace Table

theorem contains_iff {t : Table κ α} {k : κ} : t.contains k = true ↔ ∃ v, t.find? k = some v :=
  Option.isSome_iff_exists

theorem contains_eq_false_iff {t : Table κ α} {k : κ} : t.contains k = false ↔ t.find? k = none :=
  Option.isSome_eq_false_iff.trans Option.isNone_iff_eq_none

theorem contains_of_find? {t : Table κ α} {k : κ} {v : α} (h : t.find? k = some v) :
    t.contains k = true :=
  contains_iff.mpr ⟨v, h⟩

theorem find?_insert_self (t : Table κ α) (k : κ) (v : α) : (t.insert k v).find? k = some v := by
  simp

theorem find?_insert_of_ne (t : Table κ α) {k k' : κ} (v : α) (h : k' ≠ k) :
    (t.insert k v).find? k' = t.find? k' := by
  simp [h]

theorem find?_erase_self (t : Table κ α) (k : κ) : (t.erase k).find? k = none := by
  simp

theorem find?_erase_of_ne (t : Table κ α) {k k' : κ} (h : k' ≠ k) :
    (t.erase k).find? k' = t.find? k' := by
  simp [h]

theorem find?_modify_self {t : Table κ α} {k : κ} {v : α} (f : α → α) (h : t.find? k = some v) :
    (t.modify k f).find? k = some (f v) := by
  simp [h]

theorem find?_modify_of_ne (t : Table κ α) {k k' : κ} (f : α → α) (h : k' ≠ k) :
    (t.modify k f).find? k' = t.find? k' := by
  simp [h]

@[simp] theorem contains_modify (t : Table κ α) (k k' : κ) (f : α → α) :
    (t.modify k f).contains k' = t.contains k' := by
  unfold contains
  rw [find?_modify]
  split <;> simp

/-- A change is known by what it does to the value that is there. -/
theorem modify_congr {t : Table κ α} {k : κ} {v : α} {f g : α → α} (h : t.find? k = some v)
    (hv : f v = g v) : t.modify k f = t.modify k g := by
  apply ext_find?
  intro k'
  by_cases hk : k' = k
  · rw [hk, find?_modify_self f h, find?_modify_self g h, hv]
  · rw [find?_modify_of_ne _ _ hk, find?_modify_of_ne _ _ hk]

theorem modify_eq_self {t : Table κ α} {k : κ} {v : α} {f : α → α} (h : t.find? k = some v)
    (hv : f v = v) : t.modify k f = t := by
  apply ext_find?
  intro k'
  by_cases hk : k' = k
  · rw [hk, find?_modify_self f h, h, hv]
  · rw [find?_modify_of_ne _ _ hk]

theorem modify_eq_insert {t : Table κ α} {k : κ} {v : α} (f : α → α) (h : t.find? k = some v) :
    t.modify k f = t.insert k (f v) := by
  apply ext_find?
  intro k'
  by_cases hk : k' = k
  · rw [hk, find?_modify_self f h, find?_insert_self]
  · rw [find?_modify_of_ne _ _ hk, find?_insert_of_ne _ _ hk]

@[simp] theorem modify_modify (t : Table κ α) (k : κ) (f g : α → α) :
    (t.modify k f).modify k g = t.modify k fun v => g (f v) := by
  apply ext_find?
  intro k'
  by_cases hk : k' = k
  · simp [hk, Function.comp_def]
  · simp [hk]

theorem find?_eq_none_of_isEmpty {t : Table κ α} (h : t.isEmpty = true) (k : κ) :
    t.find? k = none := by
  unfold find?
  rw [List.isEmpty_iff.mp h]
  rfl

theorem isEmpty_of_find?_eq_none {t : Table κ α} (h : ∀ k, t.find? k = none) :
    t.isEmpty = true := by
  rw [ext_find? (t := ∅) fun k => (h k).trans (find?_empty k).symm]
  rfl

theorem mem_values_iff {t : Table κ α} {v : α} : v ∈ t.values ↔ ∃ k, t.find? k = some v := by
  simp only [values, List.mem_map, find?_eq_some_iff]
  constructor
  · rintro ⟨⟨k, _⟩, hmem, rfl⟩
    exact ⟨k, hmem⟩
  · rintro ⟨k, hmem⟩
    exact ⟨(k, v), hmem, rfl⟩

theorem mem_keys_iff_find? {t : Table κ α} {k : κ} : k ∈ t.keys ↔ ∃ v, t.find? k = some v :=
  mem_keys_iff.trans contains_iff

theorem keys_nodup (t : Table κ α) : t.keys.Nodup :=
  t.keys_ascending.imp fun h => h.ne

/-! Sizes -/

theorem length_insertEntry {k : κ} {v : α} {l : List (κ × α)} (h : lookup k l = none) :
    (insertEntry k v l).length = l.length + 1 := by
  induction l with
  | nil => rfl
  | cons e rest ih =>
    rw [lookup] at h
    split at h
    · cases h
    · next hne =>
      rw [insertEntry]
      split
      · rfl
      · next heq => exact (hne (congrArg SortKey.code (SortKey.compare_eq_eq_iff.mp heq))).elim
      · simp [ih h]

theorem length_eraseEntry {k : κ} {v : α} {l : List (κ × α)} (h : lookup k l = some v) :
    (eraseEntry k l).length + 1 = l.length := by
  induction l with
  | nil => cases h
  | cons e rest ih =>
    rw [lookup] at h
    rw [eraseEntry]
    split at h
    · next heq => simp [heq]
    · next hne => simp [hne, ih h]

theorem size_insert {t : Table κ α} {k : κ} (v : α) (h : t.find? k = none) :
    (t.insert k v).size = t.size + 1 :=
  length_insertEntry h

theorem size_erase {t : Table κ α} {k : κ} {v : α} (h : t.find? k = some v) :
    (t.erase k).size + 1 = t.size :=
  length_eraseEntry h

@[simp] theorem size_modify (t : Table κ α) (k : κ) (f : α → α) : (t.modify k f).size = t.size := by
  have h := congrArg List.length (map_fst_modifyEntry k f t.entries)
  simpa [size, modify] using h

/-! Adding and removing -/

theorem add_eq_ok_iff {t t' : Table κ α} {k : κ} {v : α} :
    t.add k v = .ok t' ↔ t.find? k = none ∧ t' = t.insert k v := by
  unfold add
  cases h : t.contains k
  · simp [contains_eq_false_iff.mp h, eq_comm]
  · obtain ⟨w, hw⟩ := contains_iff.mp h
    simp [hw]

theorem erase_insert {t : Table κ α} {k : κ} (v : α) (h : t.find? k = none) :
    (t.insert k v).erase k = t := by
  apply ext_find?
  intro k'
  by_cases hk : k' = k
  · rw [hk, find?_erase_self, h]
  · rw [find?_erase_of_ne _ hk, find?_insert_of_ne _ _ hk]

theorem insert_erase {t : Table κ α} {k : κ} {v : α} (h : t.find? k = some v) :
    (t.erase k).insert k v = t := by
  apply ext_find?
  intro k'
  by_cases hk : k' = k
  · rw [hk, find?_insert_self, h]
  · rw [find?_insert_of_ne _ _ hk, find?_erase_of_ne _ hk]

theorem erase_modify (t : Table κ α) (k : κ) (f : α → α) : (t.modify k f).erase k = t.erase k := by
  apply ext_find?
  intro k'
  by_cases hk : k' = k
  · rw [hk, find?_erase_self, find?_erase_self]
  · rw [find?_erase_of_ne _ hk, find?_erase_of_ne _ hk, find?_modify_of_ne _ _ hk]

/-- The order of entries aside, taking an entry out and putting it in front changes nothing. -/
theorem entries_perm_erase {t : Table κ α} {k : κ} {v : α} (h : t.find? k = some v) :
    t.entries.Perm ((k, v) :: (t.erase k).entries) := by
  have hlist : ∀ l : List (κ × α), lookup k l = some v →
      l.Perm ((k, v) :: eraseEntry k l) := by
    intro l hl
    induction l with
    | nil => cases hl
    | cons e rest ih =>
      rw [lookup] at hl
      rw [eraseEntry]
      split at hl
      · next heq =>
        have hk := SortKey.code_injective heq
        cases hl
        rw [if_pos heq, hk]
      · next hne =>
        rw [if_neg hne]
        exact ((ih hl).cons e).trans (.swap _ _ _)
  exact hlist t.entries h

theorem values_perm_erase {t : Table κ α} {k : κ} {v : α} (h : t.find? k = some v) :
    t.values.Perm (v :: (t.erase k).values) :=
  (entries_perm_erase h).map Prod.snd

theorem values_perm_insert {t : Table κ α} {k : κ} (v : α) (h : t.find? k = none) :
    (t.insert k v).values.Perm (v :: t.values) := by
  have := values_perm_erase (find?_insert_self t k v)
  rwa [erase_insert v h] at this

theorem values_perm_modify {t : Table κ α} {k : κ} {v : α} (f : α → α) (h : t.find? k = some v) :
    (t.modify k f).values.Perm (f v :: (t.erase k).values) := by
  have := values_perm_erase (find?_modify_self f h)
  rwa [erase_modify] at this

theorem keys_modify (t : Table κ α) (k : κ) (f : α → α) : (t.modify k f).keys = t.keys :=
  map_fst_modifyEntry k f t.entries

theorem keys_erase_head {t : Table κ α} {k : κ} {rest : List κ} (h : t.keys = k :: rest) :
    (t.erase k).keys = rest := by
  obtain ⟨entries, hasc⟩ := t
  match entries with
  | [] => cases h
  | (k', w) :: tail =>
    have h : k' :: tail.map Prod.fst = k :: rest := h
    obtain ⟨rfl, rfl⟩ := List.cons.inj h
    simp [keys, erase, eraseEntry]

/-- Taking out the first key leaves the other values in their order. -/
theorem values_erase_head {t : Table κ α} {v : α} {rest : List α} (h : t.values = v :: rest) :
    ∃ k, t.find? k = some v ∧ (t.erase k).values = rest := by
  obtain ⟨entries, hasc⟩ := t
  match entries with
  | [] => cases h
  | (k, w) :: tail =>
    have h : w :: tail.map Prod.snd = v :: rest := h
    obtain ⟨rfl, rfl⟩ := List.cons.inj h
    refine ⟨k, ?_, ?_⟩
    · simp [find?, lookup]
    · simp [values, erase, eraseEntry]

theorem eq_empty_of_size_eq_zero {t : Table κ α} (h : t.size = 0) : t = ∅ :=
  Table.ext_entries (List.eq_nil_of_length_eq_zero h)

theorem eq_empty_of_values_eq_nil {t : Table κ α} (h : t.values = []) : t = ∅ :=
  ext_entries (List.map_eq_nil_iff.mp h)

/-! Sums over the values -/

def total (t : Table κ α) (f : α → Nat) : Nat := (t.values.map f).sum

theorem total_insert {t : Table κ α} {k : κ} (f : α → Nat) (v : α) (h : t.find? k = none) :
    (t.insert k v).total f = t.total f + f v := by
  have := ((values_perm_insert v h).map f).sum_nat
  simp only [List.map_cons, List.sum_cons] at this
  unfold total
  omega

theorem total_erase {t : Table κ α} {k : κ} {v : α} (f : α → Nat) (h : t.find? k = some v) :
    (t.erase k).total f + f v = t.total f := by
  have := ((values_perm_erase h).map f).sum_nat
  simp only [List.map_cons, List.sum_cons] at this
  unfold total
  omega

theorem total_modify {t : Table κ α} {k : κ} {v : α} (f : α → Nat) (g : α → α)
    (h : t.find? k = some v) : (t.modify k g).total f + f v = t.total f + f (g v) := by
  have hout := total_erase f h
  have := ((values_perm_modify g h).map f).sum_nat
  simp only [List.map_cons, List.sum_cons] at this
  unfold total at hout ⊢
  omega

end Table

namespace KeySet

theorem contains_insert {s : KeySet κ} {k k' : κ} :
    (insert s k).contains k' = true ↔ k' = k ∨ s.contains k' = true := by
  unfold insert Table.contains
  by_cases h : k' = k <;> simp [h]

theorem contains_erase {s : KeySet κ} {k k' : κ} :
    (s.erase k).contains k' = true ↔ k' ≠ k ∧ s.contains k' = true := by
  unfold Table.contains
  by_cases h : k' = k <;> simp [h]

theorem mem_ofList {l : List κ} {k : κ} : k ∈ (ofList l).keys ↔ k ∈ l := by
  have hfold : ∀ s : KeySet κ,
      (l.foldl insert s).contains k = true ↔ k ∈ l ∨ s.contains k = true := by
    induction l with
    | nil => simp
    | cons a rest ih =>
      intro s
      rw [List.foldl_cons, ih, contains_insert, List.mem_cons, or_left_comm, or_assoc]
  rw [Table.mem_keys_iff, ofList, hfold]
  simp [Table.contains]

end KeySet

end Multicast
