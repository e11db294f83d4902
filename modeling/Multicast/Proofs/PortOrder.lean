import Multicast.Port
import Multicast.Proofs.Table

/-! The set of the ports of a list is a normal form of the list: order and repetition are lost, and
nothing else. -/
namespace Multicast

namespace KeySet

variable {κ : Type} [SortKey κ] {s t : KeySet κ}

theorem ext_toList (h : ∀ k, k ∈ s.toList ↔ k ∈ t.toList) : s = t := by
  apply Table.ext_find?
  intro k
  have hk : k ∈ s.keys ↔ k ∈ t.keys := h k
  rw [Table.mem_keys_iff_find?, Table.mem_keys_iff_find?] at hk
  refine Option.ext fun () => ⟨fun hs => ?_, fun ht => ?_⟩
  · exact (hk.mp ⟨(), hs⟩).elim fun _ ht => ht
  · exact (hk.mpr ⟨(), ht⟩).elim fun _ hs => hs

theorem ofList_eq_ofList_iff {l l' : List κ} : ofList l = ofList l' ↔ ∀ k, k ∈ l ↔ k ∈ l' := by
  constructor
  · intro h k
    rw [← mem_ofList, h, mem_ofList]
  · intro h
    exact ext_toList fun k => (mem_ofList.trans (h k)).trans mem_ofList.symm

theorem ofList_toList (s : KeySet κ) : ofList s.toList = s := ext_toList fun _ => mem_ofList

/-- The elements of a set are listed in the one way in which each stands before those greater. -/
theorem eq_toList_ofList_iff {l listed : List κ} :
    listed = (ofList l).toList ↔
      listed.Pairwise SortKey.Before ∧ ∀ k, k ∈ listed ↔ k ∈ l := by
  constructor
  · rintro rfl
    exact ⟨Table.keys_ascending _, fun _ => mem_ofList⟩
  · rintro ⟨hasc, hmem⟩
    exact SortKey.eq_of_mem_iff id hasc (Table.keys_ascending _) fun k =>
      (hmem k).trans mem_ofList.symm

end KeySet

namespace Port

/-- Panel ports go by processor and then by port, and before all groups, which go by number. -/
inductive Precedes : Port → Port → Prop
  | npu {npu npu' : UInt32} (port port' : UInt32) (h : npu < npu') :
    Precedes (.panel npu port) (.panel npu' port')
  | port {port port' : UInt32} (npu : UInt32) (h : port < port') :
    Precedes (.panel npu port) (.panel npu port')
  | panel (npu port id : UInt32) : Precedes (.panel npu port) (.lag id)
  | lag {id id' : UInt32} (h : id < id') : Precedes (.lag id) (.lag id')

theorem before_iff_precedes {p q : Port} : SortKey.Before p q ↔ Precedes p q := by
  change p.code < q.code ↔ _
  constructor
  · intro h
    cases p with
    | panel npu port =>
      cases q with
      | lag id => exact .panel npu port id
      | panel npu' port' =>
        simp only [code, List.cons_lt_cons_iff, Nat.lt_irrefl, List.lt_irrefl, UInt32.toNat_inj,
          ← UInt32.lt_iff_toNat_lt, false_or, or_false, true_and, and_false] at h
        rcases h with h | ⟨rfl, h⟩
        · exact .npu port port' h
        · exact .port npu h
    | lag id =>
      cases q with
      | panel npu port => simp [code, List.cons_lt_cons_iff] at h
      | lag id' =>
        simp only [code, List.cons_lt_cons_iff, Nat.lt_irrefl, List.lt_irrefl,
          ← UInt32.lt_iff_toNat_lt, false_or, or_false, true_and, and_false] at h
        exact .lag h
  · rintro (⟨_, _, h⟩ | ⟨_, h⟩ | _ | h)
    · simp [code, List.cons_lt_cons_iff, UInt32.lt_iff_toNat_lt.mp h]
    · simp [code, List.cons_lt_cons_iff, UInt32.lt_iff_toNat_lt.mp h]
    · simp [code, List.cons_lt_cons_iff]
    · simp [code, List.cons_lt_cons_iff, UInt32.lt_iff_toNat_lt.mp h]

end Port

namespace PortSet

/-- Lists have the same set exactly if they have the same ports; a set lists the ports of its list
in strictly ascending order, which fixes the order; and from what it lists it comes back. -/
theorem ofPorts_canonical :
    (∀ xs ys : List Port, ofPorts xs = ofPorts ys ↔ ∀ p, p ∈ xs ↔ p ∈ ys) ∧
    (∀ xs listed : List Port, listed = (ofPorts xs).toList ↔
      listed.Pairwise Port.Precedes ∧ ∀ p, p ∈ listed ↔ p ∈ xs) ∧
    ∀ s : PortSet, ofPorts s.toList = s := by
  have horder : Port.Precedes = SortKey.Before :=
    funext₂ fun _ _ => propext Port.before_iff_precedes.symm
  rw [horder]
  exact ⟨fun _ _ => KeySet.ofList_eq_ofList_iff, fun _ _ => KeySet.eq_toList_ofList_iff,
    KeySet.ofList_toList⟩

end PortSet

end Multicast
