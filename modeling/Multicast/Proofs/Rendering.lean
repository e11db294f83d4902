import Multicast.Proofs.AddressText
import Multicast.Proofs.Integrity

/-! The JSON value of a cache, and of all that it holds, tells it apart from others of its kind. -/
namespace Multicast

theorem Json.nat_inj {m n : Nat} : Json.nat m = Json.nat n ↔ m = n :=
  ⟨fun h => Int.ofNat.inj (Json.Number.int.inj (Json.num.inj h)), congrArg Json.nat⟩

theorem RifId.toJson_inj {r r' : RifId} : r.toJson = r'.toJson ↔ r = r' := by
  obtain ⟨n⟩ := r
  obtain ⟨n'⟩ := r'
  simp [toJson, Json.nat_inj, UInt32.toNat_inj]

theorem VrfId.toJson_inj {v v' : VrfId} : v.toJson = v'.toJson ↔ v = v' := by
  obtain ⟨n⟩ := v
  obtain ⟨n'⟩ := v'
  simp [toJson, Json.nat_inj, UInt32.toNat_inj]

theorem Handle.toJson_inj {h h' : Handle} : h.toJson = h'.toJson ↔ h = h' :=
  ⟨fun e => Handle.text_injective (Json.str.inj e), congrArg _⟩

theorem Owner.toJson_inj {o o' : Owner} : o.toJson = o'.toJson ↔ o = o' := by
  cases o <;> cases o' <;> simp [toJson]

theorem RouteType.toJson_inj {t t' : RouteType} : t.toJson = t'.toJson ↔ t = t' := by
  cases t <;> cases t' <;> simp [toJson]

theorem Address.toJson_inj {a b : Address} : a.toJson = b.toJson ↔ a = b :=
  ⟨fun e => Address.text_injective (Json.str.inj e), congrArg _⟩

theorem Port.toJson_inj {p q : Port} : p.toJson = q.toJson ↔ p = q := by
  cases p <;> cases q <;> simp [toJson, Json.nat_inj, UInt32.toNat_inj]

/-- A source is text, so it is not taken for a missing one. -/
theorem RouteKey.source_toJson_inj {s t : Option Address} :
    Json.ofOption Address.toJson s = Json.ofOption Address.toJson t ↔ s = t := by
  cases s <;> cases t
  · simp
  · simp [Json.ofOption, Address.toJson]
  · simp [Json.ofOption, Address.toJson]
  · simp [Json.ofOption, Address.toJson_inj]

theorem RouteKey.toJson_inj {k l : RouteKey} : k.toJson = l.toJson ↔ k = l := by
  obtain ⟨vrf, type, group, source⟩ := k
  obtain ⟨vrf', type', group', source'⟩ := l
  simp [toJson, VrfId.toJson_inj, RouteType.toJson_inj, Address.toJson_inj, source_toJson_inj]

theorem Route.toJson_inj {r r' : Route} : r.toJson = r'.toJson ↔ r = r' := by
  obtain ⟨key, iif, group, copy⟩ := r
  obtain ⟨key', iif', group', copy'⟩ := r'
  simp [toJson, RouteKey.toJson_inj, RifId.toJson_inj, Handle.toJson_inj]

theorem Stats.toJson_inj {s t : Stats} : s.toJson = t.toJson ↔ s = t := by
  obtain ⟨⟩ := s
  obtain ⟨⟩ := t
  simp [toJson, Json.nat_inj]

/-! Tables are dumped without their keys, which are to be had from the values -/

theorem Json.arr_map_inj_of_mem {α : Type} {f : α → Json} {l l' : List α}
    (hf : ∀ a ∈ l, ∀ b ∈ l', f a = f b → a = b) :
    Json.arr (l.map f) = .arr (l'.map f) ↔ l = l' := by
  rw [Json.arr.injEq]
  refine ⟨fun h => ?_, fun h => by rw [h]⟩
  induction l generalizing l' with
  | nil => exact (List.map_eq_nil_iff.mp h.symm).symm
  | cons a l ih =>
    cases l' with
    | nil => cases h
    | cons b l' =>
      obtain ⟨hab, h⟩ := List.cons.inj h
      rw [hf a List.mem_cons_self b List.mem_cons_self hab, ih (fun a ha b hb =>
        hf a (List.mem_cons_of_mem _ ha) b (List.mem_cons_of_mem _ hb)) h]

theorem Json.arr_map_inj {α : Type} {f : α → Json} (hf : ∀ {a b}, f a = f b ↔ a = b)
    {l l' : List α} : Json.arr (l.map f) = .arr (l'.map f) ↔ l = l' :=
  arr_map_inj_of_mem fun _ _ _ _ => hf.mp

namespace Table

variable {κ α : Type} [SortKey κ]

/-- Each value is filed under the key that it names. -/
def KeyedBy (t : Table κ α) (key : α → κ) : Prop := ∀ k v, t.find? k = some v → key v = k

theorem KeyedBy.entries_eq {t : Table κ α} {key : α → κ} (h : t.KeyedBy key) :
    t.entries = t.values.map fun v => (key v, v) := by
  rw [values, List.map_map]
  refine (List.map_id _).symm.trans (List.map_congr_left fun e he => ?_)
  exact Prod.ext (h e.1 e.2 (find?_eq_some_iff.mpr he)).symm rfl

theorem KeyedBy.values_inj {t t' : Table κ α} {key : α → κ} (h : t.KeyedBy key)
    (h' : t'.KeyedBy key) : t.values = t'.values ↔ t = t' := by
  refine ⟨fun hv => ext_entries ?_, congrArg values⟩
  rw [h.entries_eq, h'.entries_eq, hv]

theorem KeyedBy.values_ascending {t : Table κ α} {key : α → κ} (h : t.KeyedBy key) :
    t.values.Pairwise fun v w => SortKey.Before (key v) (key w) := by
  have hentries := t.ascending
  rw [h.entries_eq, List.pairwise_map] at hentries
  exact hentries

theorem keyedBy_empty {key : α → κ} : (∅ : Table κ α).KeyedBy key := by
  intro k v h
  cases h

theorem KeyedBy.insert {t : Table κ α} {key : α → κ} (h : t.KeyedBy key) (v : α) :
    (t.insert (key v) v).KeyedBy key := by
  intro k w hw
  by_cases hk : k = key v
  · rw [hk, find?_insert_self] at hw
    cases hw
    exact hk.symm
  · rw [find?_insert_of_ne _ _ hk] at hw
    exact h k w hw

theorem KeyedBy.erase {t : Table κ α} {key : α → κ} (h : t.KeyedBy key) (k : κ) :
    (t.erase k).KeyedBy key := by
  intro k' v hv
  by_cases hk : k' = k
  · rw [hk, find?_erase_self] at hv
    cases hv
  · rw [find?_erase_of_ne _ hk] at hv
    exact h k' v hv

theorem KeyedBy.modify {t : Table κ α} {key : α → κ} (h : t.KeyedBy key) (k : κ) {f : α → α}
    (hf : ∀ v, key (f v) = key v) : (t.modify k f).KeyedBy key := by
  intro k' v hv
  by_cases hk : k' = k
  · rw [find?_modify, if_pos (congrArg SortKey.code hk)] at hv
    obtain ⟨w, hw, rfl⟩ := Option.map_eq_some_iff.mp hv
    rw [hf]
    exact h k' w hw
  · rw [find?_modify_of_ne _ _ hk] at hv
    exact h k' v hv

end Table

theorem KeySet.keys_inj {κ : Type} [SortKey κ] {s t : KeySet κ} : s.keys = t.keys ↔ s = t := by
  have hentries : ∀ u : KeySet κ, u.entries = u.keys.map fun k => (k, ()) := fun u => by
    rw [Table.keys, List.map_map]
    exact (List.map_id _).symm
  refine ⟨fun hk => Table.ext_entries ?_, congrArg Table.keys⟩
  rw [hentries s, hentries t, hk]

theorem PortSet.toJson_inj {s t : PortSet} : s.toJson = t.toJson ↔ s = t :=
  (Json.arr_map_inj Port.toJson_inj).trans KeySet.keys_inj

theorem Member.toJson_inj {m m' : Member} : m.toJson = m'.toJson ↔ m = m' := by
  obtain ⟨⟨raw⟩, rif, ports⟩ := m
  obtain ⟨⟨raw'⟩, rif', ports'⟩ := m'
  simp [toJson, Json.nat_inj, UInt64.toNat_inj, RifId.toJson_inj, PortSet.toJson_inj]

theorem Group.Intact.keyedBy {g : Group} (h : g.Intact) (role : Role) :
    (g.members.ofRole role).KeyedBy Member.rif := h.members role

theorem Group.Intact.toJson_inj {g g' : Group} (h : g.Intact) (h' : g'.Intact) :
    g.toJson = g'.toJson ↔ g = g' := by
  have hrpf := (h.keyedBy .rpf).values_inj (h'.keyedBy .rpf)
  have hipmc := (h.keyedBy .ipmc).values_inj (h'.keyedBy .ipmc)
  obtain ⟨id, owner, rpf, ipmc, ⟨members, members'⟩, keys4, keys6⟩ := g
  obtain ⟨id', owner', rpf', ipmc', ⟨members₂, members₂'⟩, keys4', keys6'⟩ := g'
  simp only [MemberSet.ofRole] at hrpf hipmc
  simp [toJson, Handle.toJson_inj, Owner.toJson_inj, Json.arr_map_inj Member.toJson_inj,
    Json.arr_map_inj RouteKey.toJson_inj, KeySet.keys_inj, MemberSet.list, MemberSet.ofRole, hrpf,
    hipmc, and_assoc]

namespace DeviceCache

variable {c c' : DeviceCache} {max max' : Nat} {d : DeviceId}

theorem Intact.groups_keyedBy (h : c.Intact max) : c.groups.KeyedBy Group.id :=
  fun id g hg => (h.groups id g hg).1

theorem Intact.routes_keyedBy (h : c.Intact max) : c.routes.KeyedBy Route.key :=
  fun key r hr => (h.routes key r hr).1

/-- Caches are dumped alike only if they are the same. -/
theorem Intact.toJson_inj (h : c.Intact max) (h' : c'.Intact max') :
    c.toJson d = c'.toJson d ↔ c = c' := by
  have hgroups : Json.arr (c.groups.values.map Group.toJson) =
      .arr (c'.groups.values.map Group.toJson) ↔ c.groups = c'.groups := by
    refine (Json.arr_map_inj_of_mem fun g hg g' hg' => ?_).trans
      (h.groups_keyedBy.values_inj h'.groups_keyedBy)
    obtain ⟨id, hg⟩ := Table.mem_values_iff.mp hg
    obtain ⟨id', hg'⟩ := Table.mem_values_iff.mp hg'
    exact ((h.groups id g hg).2.toJson_inj (h'.groups id' g' hg').2).mp
  have hroutes : Json.arr (c.routes.values.map Route.toJson) =
      .arr (c'.routes.values.map Route.toJson) ↔ c.routes = c'.routes :=
    (Json.arr_map_inj Route.toJson_inj).trans (h.routes_keyedBy.values_inj h'.routes_keyedBy)
  obtain ⟨groups, routes, stats⟩ := c
  obtain ⟨groups', routes', stats'⟩ := c'
  simp only at hgroups hroutes
  simp [toJson, hgroups, hroutes, Stats.toJson_inj]

end DeviceCache

end Multicast
