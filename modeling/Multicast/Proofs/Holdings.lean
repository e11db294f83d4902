import Mathlib.Data.List.Perm.Basic
import Multicast.Proofs.Commit
import Multicast.Switch

/-! The objects that a cache believes its device to have, and how they match those on the books:
one for one, in any order. -/
namespace Multicast

/-- What a cache says of an object. -/
structure Holding where
  handle : Handle
  device : DeviceId
  kind : ObjectKind
  parent : Option Handle
  ports : PortSet
  deriving DecidableEq

abbrev Mappings := Table (DeviceId × Lookup) Handle

/-- The handles in a list are those registered for the ports of a set. -/
structure PortsMatch (m : Mappings) (d : DeviceId) (ports : PortSet) (handles : List Handle) :
    Prop where
  registered : ∀ p, ports.contains p = true →
    ∃ h, m.find? (d, .port p) = some h ∧ h ∈ handles
  only : ∀ h ∈ handles, ∃ p, ports.contains p = true ∧ m.find? (d, .port p) = some h

/-- An object is as the cache says. -/
structure Holding.Fits (m : Mappings) (x : Holding) (y : Handle × Switch.Object) : Prop where
  handle : y.1 = x.handle
  device : y.2.device = x.device
  kind : y.2.kind = x.kind
  parent : y.2.parent = x.parent
  ports : PortsMatch m x.device x.ports y.2.bridgePorts

def Matched (m : Mappings) (held : List Holding) (items : List (Handle × Switch.Object)) : Prop :=
  ∃ items', List.Forall₂ (Holding.Fits m) held items' ∧ items'.Perm items

namespace Matched

variable {m : Mappings} {held held' : List Holding} {items items' : List (Handle × Switch.Object)}
  {x : Holding} {y : Handle × Switch.Object}

theorem nil (m : Mappings) : Matched m [] [] := ⟨[], .nil, .refl _⟩

theorem perm_held (h : Matched m held items) (hp : held.Perm held') : Matched m held' items := by
  obtain ⟨items₁, hfits, hperm⟩ := h
  obtain ⟨items₂, hfits₂, hperm₂⟩ := List.perm_comp_forall₂ hp.symm hfits
  exact ⟨items₂, hfits₂, hperm₂.trans hperm⟩

theorem cons (h : Matched m held items) (hx : x.Fits m y) : Matched m (x :: held) (y :: items) := by
  obtain ⟨items₁, hfits, hperm⟩ := h
  exact ⟨y :: items₁, .cons hx hfits, hperm.cons y⟩

/-- What is held has an object, and the rest matches without the two. -/
theorem uncons (h : Matched m (x :: held) items) :
    ∃ o items', items.Perm ((x.handle, o) :: items') ∧ x.Fits m (x.handle, o) ∧
      Matched m held items' := by
  obtain ⟨items₁, hfits, hperm⟩ := h
  cases hfits with
  | cons hx hrest =>
    rename_i y items₂
    obtain ⟨h, o⟩ := y
    obtain rfl : h = x.handle := hx.handle
    exact ⟨o, items₂, hperm.symm, hx, items₂, hrest, .refl _⟩

theorem append_left {front : List (Handle × Switch.Object)} {held₀ : List Holding}
    (h : Matched m held items) (hfront : List.Forall₂ (Holding.Fits m) held₀ front) :
    Matched m (held₀ ++ held) (front ++ items) := by
  induction hfront with
  | nil => exact h
  | cons hx _ ih => exact ih.cons hx

theorem exists_of_mem (h : Matched m held items) (hx : x ∈ held) :
    ∃ o, (x.handle, o) ∈ items ∧ x.Fits m (x.handle, o) := by
  obtain ⟨o, items', hperm, hfits, _⟩ := (h.perm_held (List.perm_cons_erase hx)).uncons
  exact ⟨o, hperm.mem_iff.mpr List.mem_cons_self, hfits⟩

theorem handles_perm (h : Matched m held items) :
    (held.map Holding.handle).Perm (items.map Prod.fst) := by
  obtain ⟨items₁, hfits, hperm⟩ := h
  have hmap : held.map Holding.handle = items₁.map Prod.fst := by
    induction hfits generalizing items with
    | nil => rfl
    | cons hx _ ih =>
      simp only [List.map_cons, ih (.refl _), hx.handle]
  rw [hmap]
  exact hperm.map Prod.fst

end Matched

/-! What a cache holds -/

def Group.memberHolding (d : DeviceId) (g : Group) (role : Role) (m : Member) : Holding :=
  ⟨m.handle, d, .member role, some (g.subGroup role), m.ports⟩

/-- The sub-group and the members of a role. -/
def Group.roleHoldings (d : DeviceId) (g : Group) (role : Role) : List Holding :=
  (if (g.subGroup role).isNull then []
    else [⟨g.subGroup role, d, .subGroup role, some g.id, ∅⟩]) ++
    (g.members.list role).map (g.memberHolding d role)

def Group.holdings (d : DeviceId) (g : Group) : List Holding :=
  ⟨g.id, d, .group, none, ∅⟩ :: (g.roleHoldings d .rpf ++ g.roleHoldings d .ipmc)

def DeviceCache.holdings (d : DeviceId) (c : DeviceCache) : List Holding :=
  c.groups.values.flatMap (Group.holdings d)

namespace Group

variable {d : DeviceId} {g g' : Group} {role : Role} {rif : RifId} {m : Member}

/-- A change of one role shows only there. -/
theorem holdings_perm_cons (front : List Holding) (role : Role) (hid : g'.id = g.id)
    (hrole : (g'.roleHoldings d role).Perm (front ++ g.roleHoldings d role))
    (hother : ∀ role', role' ≠ role → g'.roleHoldings d role' = g.roleHoldings d role') :
    (g'.holdings d).Perm (front ++ g.holdings d) := by
  unfold holdings
  rw [hid]
  refine List.Perm.trans ?_ List.perm_middle.symm
  apply List.Perm.cons
  cases role with
  | rpf =>
    rw [hother .ipmc (by decide), ← List.append_assoc]
    exact hrole.append_right _
  | ipmc =>
    rw [hother .rpf (by decide)]
    refine (hrole.append_left _).trans ?_
    rw [← List.append_assoc, ← List.append_assoc]
    exact List.perm_append_comm.append_right _

/-- A member more in one role is a holding more. -/
theorem holdings_perm_member (hid : g'.id = g.id)
    (hsub : ∀ role', g'.subGroup role' = g.subGroup role')
    (hvalues : (g'.members.list role).Perm (m :: g.members.list role))
    (hother : ∀ role', role' ≠ role → g'.members.list role' = g.members.list role') :
    (g'.holdings d).Perm (g.memberHolding d role m :: g.holdings d) := by
  have hmember : ∀ role', g'.memberHolding d role' = g.memberHolding d role' := by
    intro role'
    funext m
    unfold memberHolding
    rw [hsub]
  apply holdings_perm_cons [g.memberHolding d role m] role hid
  · unfold roleHoldings
    rw [hsub, hid, hmember]
    exact ((hvalues.map _).append_left _).trans List.perm_middle
  · intro role' hrole'
    unfold roleHoldings
    rw [hsub, hid, hmember, hother role' hrole']

theorem list_setRole_self (s : MemberSet) (t : Table RifId Member) (role : Role) :
    (s.setRole t role).list role = t.values := by
  simp [MemberSet.list]

theorem list_setRole_of_ne (s : MemberSet) (t : Table RifId Member) {role role' : Role}
    (h : role' ≠ role) : (s.setRole t role).list role' = s.list role' := by
  simp [MemberSet.list, h]

theorem holdings_withMember (hfree : (g.members.ofRole role).find? m.rif = none) :
    ((g.withMember role m none).holdings d).Perm (g.memberHolding d role m :: g.holdings d) := by
  apply holdings_perm_member
  · rfl
  · intro role'
    cases role' <;> rfl
  · unfold withMember
    rw [list_setRole_self]
    exact Table.values_perm_insert m hfree
  · exact fun _ hrole' => list_setRole_of_ne _ _ hrole'

theorem holdings_withoutMember (hm : (g.members.ofRole role).find? rif = some m) :
    (g.holdings d).Perm
      (g.memberHolding d role m :: (g.withoutMember role rif).holdings d) := by
  have hmember : g.memberHolding d role m = (g.withoutMember role rif).memberHolding d role m := by
    cases role <;> rfl
  rw [hmember]
  apply holdings_perm_member
  · rfl
  · intro role'
    cases role' <;> rfl
  · unfold withoutMember
    rw [list_setRole_self]
    exact Table.values_perm_erase hm
  · exact fun _ hrole' => (list_setRole_of_ne _ _ hrole').symm

/-- New ports show in the one member. -/
theorem holdings_withPorts (hm : (g.members.ofRole role).find? rif = some m) (ports : PortSet) :
    ((g.withPorts role rif ports).holdings d).Perm
      (g.memberHolding d role { m with ports := ports } ::
        (g.withoutMember role rif).holdings d) := by
  have hmember : g.memberHolding d role { m with ports := ports } =
      (g.withoutMember role rif).memberHolding d role { m with ports := ports } := by
    cases role <;> rfl
  rw [hmember]
  apply holdings_perm_member
  · rfl
  · intro role'
    cases role' <;> rfl
  · unfold withPorts withoutMember
    rw [list_setRole_self, list_setRole_self]
    exact Table.values_perm_modify (fun m => { m with ports := ports }) hm
  · intro role' hrole'
    unfold withPorts withoutMember
    rw [list_setRole_of_ne _ _ hrole', list_setRole_of_ne _ _ hrole']

theorem holdings_withoutSubGroup (hnull : (g.subGroup role).isNull = false)
    (hempty : g.members.list role = []) :
    (g.holdings d).Perm
      (⟨g.subGroup role, d, .subGroup role, some g.id, ∅⟩ ::
        (g.withoutSubGroup role).holdings d) := by
  apply holdings_perm_cons [⟨g.subGroup role, d, .subGroup role, some g.id, ∅⟩] role
  · cases role <;> rfl
  · unfold roleHoldings
    rw [members_withoutSubGroup, hempty, hnull]
    cases role <;> exact .refl _
  · intro role' hrole'
    cases role <;> cases role' <;> first | rfl | exact (hrole' rfl).elim

/-- The first egress member comes with its sub-group. -/
theorem holdings_withFirst {subGroup : Handle} (hsub : subGroup.isNull = false)
    (hnull : g.ipmcGroup.isNull = true) (hempty : g.members.list .ipmc = []) :
    ((g.withMember .ipmc m (some subGroup)).holdings d).Perm
      (⟨m.handle, d, .member .ipmc, some subGroup, m.ports⟩ ::
        ⟨subGroup, d, .subGroup .ipmc, some g.id, ∅⟩ :: g.holdings d) := by
  have hipmc : g.members.ofRole .ipmc = ∅ := Table.eq_empty_of_values_eq_nil hempty
  apply holdings_perm_cons [⟨m.handle, d, .member .ipmc, some subGroup, m.ports⟩,
    ⟨subGroup, d, .subGroup .ipmc, some g.id, ∅⟩] .ipmc
  · rfl
  · have hmembers : ((g.withMember .ipmc m (some subGroup)).members.list .ipmc) = [m] := by
      simp only [withMember, MemberSet.list, MemberSet.ofRole_setRole, if_true, hipmc]
      rfl
    have hbefore : g.roleHoldings d .ipmc = [] := by
      have hnull : (g.subGroup .ipmc).isNull = true := hnull
      rw [roleHoldings, hempty, hnull]
      rfl
    have hsub' : ((g.withMember .ipmc m (some subGroup)).subGroup .ipmc).isNull = false := hsub
    rw [hbefore, roleHoldings, hmembers, hsub']
    exact .swap _ _ _
  · intro role' hrole'
    cases role' with
    | rpf => rfl
    | ipmc => exact (hrole' rfl).elim

@[simp] theorem holdings_setEntries (g : Group) (s : KeySet RouteKey) (f : Family) :
    (g.setEntries s f).holdings d = g.holdings d := by
  cases f <;> rfl

end Group

namespace DeviceCache

variable {d : DeviceId} {c : DeviceCache} {id : Handle} {g g' : Group}

theorem holdings_of_groups {c c' : DeviceCache} (h : c'.groups = c.groups) :
    c'.holdings d = c.holdings d := by
  unfold holdings
  rw [h]

theorem holdings_insertGroup (h : c.groups.find? g.id = none) :
    ((c.insertGroup g).holdings d).Perm (g.holdings d ++ c.holdings d) :=
  (Table.values_perm_insert g h).flatMap_right _

theorem holdings_eraseGroup (h : c.groups.find? id = some g) :
    (c.holdings d).Perm (g.holdings d ++ (c.eraseGroup id).holdings d) :=
  (Table.values_perm_erase h).flatMap_right _

theorem holdings_setGroup (h : c.groups.find? id = some g) (g' : Group) :
    ((c.setGroup id g').holdings d).Perm (g'.holdings d ++ (c.eraseGroup id).holdings d) :=
  (Table.values_perm_modify (fun _ => g') h).flatMap_right _

/-- A change of a group adds what it adds to the group. -/
theorem holdings_setGroup_cons (front : List Holding) (h : c.groups.find? id = some g)
    (hg : (g'.holdings d).Perm (front ++ g.holdings d)) :
    ((c.setGroup id g').holdings d).Perm (front ++ c.holdings d) := by
  refine (holdings_setGroup h g').trans ((hg.append_right _).trans ?_)
  rw [List.append_assoc]
  exact (holdings_eraseGroup h).symm.append_left _

end DeviceCache

end Multicast
