import Multicast.Proofs.Acceptance

/-! Deleting a group takes it apart, one object at a time, from the switch and from the cache alike.
What a failure leaves is a smaller group, and the next attempt takes apart what is left. -/
namespace Multicast

/-- An object of a group. -/
inductive Group.Part where
  | member (role : Role) (m : Member)
  | subGroup (role : Role) (h : Handle)
  | whole (id : Handle)
  deriving DecidableEq

namespace Group

namespace Part

def handle : Part → Handle
  | .member _ m => m.handle
  | .subGroup _ h => h
  | .whole id => id

def kind : Part → ObjectKind
  | .member role _ => .member role
  | .subGroup role _ => .subGroup role
  | .whole _ => .group

def removal : Part → Call
  | .member role m => .removeMember role m.handle
  | .subGroup role h => .removeSubGroup role h
  | .whole id => .removeGroup id

end Part

/-- Members in ascending order of their interfaces, and then their sub-group. -/
def roleParts (g : Group) (role : Role) : List Part :=
  (g.members.list role).map (.member role) ++
    if (g.subGroup role).isNull then [] else [.subGroup role (g.subGroup role)]

/-- The objects of a group in the order in which they go. -/
def parts (g : Group) : List Part := g.roleParts .rpf ++ (g.roleParts .ipmc ++ [.whole g.id])

/-- The group without an object. -/
def without (g : Group) : Part → Group
  | .member role m => g.withoutMember role m.rif
  | .subGroup role _ => g.withoutSubGroup role
  | .whole _ => g

variable {g : Group} {role : Role} {m : Member} {l : List Member} {p : Part} {rest : List Part}

theorem roleParts_of_list_eq_cons (h : g.members.list role = m :: l) :
    g.roleParts role = .member role m :: (l.map (.member role) ++
      if (g.subGroup role).isNull then [] else [.subGroup role (g.subGroup role)]) := by
  rw [roleParts, h]
  rfl

theorem roleParts_of_list_eq_nil (h : g.members.list role = []) :
    g.roleParts role =
      if (g.subGroup role).isNull then [] else [.subGroup role (g.subGroup role)] := by
  rw [roleParts, h]
  rfl

/-- What comes first is a member, or the sub-group if there are no members. -/
theorem roleParts_cases (h : g.roleParts role = p :: rest) :
    (∃ m l, p = .member role m ∧ g.members.list role = m :: l) ∨
      p = .subGroup role (g.subGroup role) ∧ (g.subGroup role).isNull = false ∧
        g.members.list role = [] ∧ rest = [] := by
  cases hlist : g.members.list role with
  | cons m l =>
    rw [roleParts_of_list_eq_cons hlist] at h
    exact .inl ⟨m, l, (List.cons.inj h).1.symm, rfl⟩
  | nil =>
    rw [roleParts_of_list_eq_nil hlist] at h
    cases hnull : (g.subGroup role).isNull with
    | true =>
      rw [hnull] at h
      cases h
    | false =>
      rw [hnull] at h
      obtain ⟨rfl, rfl⟩ := List.cons.inj h
      exact .inr ⟨rfl, rfl, rfl, rfl⟩

theorem roleParts_eq_nil_iff :
    g.roleParts role = [] ↔ g.members.list role = [] ∧ (g.subGroup role).isNull = true := by
  unfold roleParts
  cases (g.subGroup role).isNull <;> simp

theorem list_withoutMember (hg : g.Intact) (h : g.members.list role = m :: l) :
    (g.members.ofRole role).find? m.rif = some m ∧
      (g.withoutMember role m.rif).members.list role = l := by
  obtain ⟨rif, hm, hrest⟩ := Table.values_erase_head h
  obtain rfl := hg.members role rif m hm
  refine ⟨hm, ?_⟩
  change ((g.members.setRole _ role).list role) = l
  rw [list_setRole_self]
  exact hrest

/-- The first object of a role leaves the others of the role, and the other role. -/
theorem Intact.roleParts_without (hg : g.Intact) (h : g.roleParts role = p :: rest) :
    (g.without p).Intact ∧ (g.without p).roleParts role = rest ∧
      ∀ role', role' ≠ role → (g.without p).roleParts role' = g.roleParts role' := by
  rcases roleParts_cases h with ⟨m, l, rfl, hlist⟩ | ⟨rfl, hnull, hlist, rfl⟩
  · obtain ⟨hm, hl⟩ := list_withoutMember hg hlist
    have hsub : ∀ role', (g.withoutMember role m.rif).subGroup role' = g.subGroup role' := by
      intro role'
      cases role' <;> rfl
    refine ⟨hg.withoutMember hm, ?_, fun role' hrole' => ?_⟩
    · rw [roleParts_of_list_eq_cons hlist] at h
      rw [without, roleParts, hl, hsub]
      exact (List.cons.inj h).2
    · have hlist' : (g.withoutMember role m.rif).members.list role' = g.members.list role' :=
        list_setRole_of_ne _ _ hrole'
      rw [without, roleParts, roleParts, hsub, hlist']
  · have hsize : g.members.size role = 0 := by
      have hempty : g.members.ofRole role = ∅ := Table.eq_empty_of_values_eq_nil hlist
      rw [MemberSet.size, hempty]
      rfl
    refine ⟨hg.withoutSubGroup hsize, ?_, fun role' hrole' => ?_⟩
    · rw [without, roleParts_eq_nil_iff, members_withoutSubGroup]
      exact ⟨hlist, by cases role <;> rfl⟩
    · rw [without, roleParts, roleParts, members_withoutSubGroup]
      cases role <;> cases role' <;> first | rfl | exact (hrole' rfl).elim

theorem id_without (g : Group) (p : Part) : (g.without p).id = g.id := by
  cases p with
  | member role m => rfl
  | subGroup role h => cases role <;> rfl
  | whole id => rfl

/-- The first object leaves the others; the group itself comes last. -/
theorem Intact.parts_cases (hg : g.Intact) (h : g.parts = p :: rest) :
    (∃ role l, g.roleParts role = p :: l ∧ (g.without p).Intact ∧ (g.without p).parts = rest) ∨
      p = .whole g.id ∧ rest = [] ∧ ∀ role, g.roleParts role = [] := by
  rw [parts] at h
  cases hrpf : g.roleParts .rpf with
  | cons p' l =>
    rw [hrpf, List.cons_append] at h
    obtain ⟨rfl, rfl⟩ := List.cons.inj h
    obtain ⟨hintact, hown, hother⟩ := hg.roleParts_without hrpf
    refine .inl ⟨.rpf, l, hrpf, hintact, ?_⟩
    rw [parts, hown, hother .ipmc (by decide), id_without]
  | nil =>
    rw [hrpf, List.nil_append] at h
    cases hipmc : g.roleParts .ipmc with
    | cons p' l =>
      rw [hipmc, List.cons_append] at h
      obtain ⟨rfl, rfl⟩ := List.cons.inj h
      obtain ⟨hintact, hown, hother⟩ := hg.roleParts_without hipmc
      refine .inl ⟨.ipmc, l, hipmc, hintact, ?_⟩
      rw [parts, hown, hother .rpf (by decide), hrpf, id_without]
      rfl
    | nil =>
      rw [hipmc, List.nil_append] at h
      obtain ⟨rfl, rfl⟩ := List.cons.inj h
      refine .inr ⟨rfl, rfl, fun role => ?_⟩
      cases role with
      | rpf => exact hrpf
      | ipmc => exact hipmc

end Group

namespace GroupTable

/-- What is left of a group; of one that is not there nothing is. -/
def partsOf (t : GroupTable) (id : Handle) : List Group.Part := (t.find? id).elim [] Group.parts

/-- The table without an object of a group. -/
def without (id : Handle) (t : GroupTable) : Group.Part → GroupTable
  | .whole _ => t.erase id
  | p => t.modify id (·.without p)

variable {t : GroupTable} {id : Handle} {g : Group} {p : Group.Part}

theorem find?_without_of_ne {id' : Handle} (h : id' ≠ id) (t : GroupTable) (p : Group.Part) :
    (without id t p).find? id' = t.find? id' := by
  cases p with
  | whole _ => exact Table.find?_erase_of_ne _ h
  | member _ _ => exact Table.find?_modify_of_ne _ _ h
  | subGroup _ _ => exact Table.find?_modify_of_ne _ _ h

theorem without_eq_modify (hg : t.find? id = some g) {role : Role} {l : List Group.Part}
    (h : g.roleParts role = p :: l) : without id t p = t.modify id fun _ => g.without p := by
  rcases Group.roleParts_cases h with ⟨_, _, rfl, _⟩ | ⟨rfl, _⟩
  · exact Table.modify_congr hg rfl
  · exact Table.modify_congr hg rfl

theorem partsOf_of_find? (hg : t.find? id = some g) : partsOf t id = g.parts := by
  rw [partsOf, hg]
  rfl

/-- Removals from the front leave what comes after. -/
theorem partsOf_foldl_without {done rest : List Group.Part}
    (hintact : ∀ g, t.find? id = some g → g.Intact) (h : partsOf t id = done ++ rest) :
    partsOf (done.foldl (without id) t) id = rest := by
  induction done generalizing t with
  | nil => exact h
  | cons p done ih =>
    cases hg : t.find? id with
    | none =>
      rw [partsOf, hg] at h
      cases h
    | some g =>
      rw [partsOf_of_find? hg, List.cons_append] at h
      rcases (hintact g hg).parts_cases h with ⟨role, l, hrole, hI, hparts⟩ | ⟨rfl, hrest, _⟩
      · have hnext : (without id t p).find? id = some (g.without p) := by
          rw [without_eq_modify hg hrole]
          exact Table.find?_modify_self _ hg
        refine ih (t := without id t p) (fun g' hg' => ?_) ?_
        · rw [hnext] at hg'
          cases hg'
          exact hI
        · rw [partsOf_of_find? hnext, hparts]
      · have hnone : (without id t (.whole g.id)).find? id = none := Table.find?_erase_self _ _
        refine ih (t := without id t (.whole g.id)) (fun g' hg' => ?_) ?_
        · rw [hnone] at hg'
          cases hg'
        · rw [partsOf, hnone, hrest]
          rfl

end GroupTable

/-! The program as a walk over the objects -/

namespace Orchestrator

variable {σ : Type}

/-- Takes an object that the hardware no longer has out of the cache. -/
def commitRemoval (id : Handle) : Group.Part → Act σ Unit
  | .member role m => do
    Act.changeGroup id fun g => do
      let (_, members) ← g.members.remove role m.rif
      .ok { g with members := members }
    Act.count fun s => { s with membersRemoved := s.membersRemoved + 1 }
  | .subGroup role _ =>
    Act.changeGroup id fun g =>
      match role with
      | .rpf => .ok { g with rpfGroup := .null }
      | .ipmc => .ok { g with ipmcGroup := .null }
  | .whole _ =>
    Act.changeCache fun c => do
      let (_, groups) ← c.groups.delete id
      .ok { c with groups := groups }

def removePart (o : Orchestrator σ) (d : DeviceId) (id : Handle) (p : Group.Part) :
    Act σ Unit := do
  let _ ← Act.request o.hardware d p.removal
  commitRemoval id p

variable (o : Orchestrator σ) (d : DeviceId) (id : Handle)

theorem removeMembers_eq (role : Role) (l : List Member) :
    o.removeMembers d id role l = (l.map (.member role)).forM (o.removePart d id) := by
  induction l with
  | nil => rfl
  | cons m rest ih =>
    rw [removeMembers, ih]
    rfl

theorem removeSubGroup_eq (role : Role) (h : Handle) :
    o.removeSubGroup d id role h =
      (if h.isNull then [] else [.subGroup role h] : List Group.Part).forM (o.removePart d id) := by
  unfold removeSubGroup
  cases h.isNull with
  | true => rfl
  | false =>
    exact (bind_pure_unit (x := o.removePart d id (.subGroup role h))).symm

theorem forM_roleParts (g : Group) (role : Role) :
    (g.roleParts role).forM (o.removePart d id) = (do
      o.removeMembers d id role (g.members.list role)
      o.removeSubGroup d id role (g.subGroup role)) := by
  rw [removeMembers_eq, removeSubGroup_eq, Group.roleParts]
  exact List.forM_append

/-- Deletes go from object to object. -/
theorem unmakeGroup_eq : o.unmakeGroup d id = (do
    let g ← Act.ofCache ((← Act.cache).groups.get id)
    if g.isInUse then throw (.cache (.groupInUse id g.entryCount))
    (g.roleParts .rpf ++ (g.roleParts .ipmc ++ [Group.Part.whole id])).forM (o.removePart d id)
    Act.count fun s => { s with groupsRemoved := s.groupsRemoved + 1 }
    Act.note .info ("deleted group " ++ id.text ++ " on device " ++ d.text)) := by
  have hwalk : ∀ g : Group,
      (g.roleParts .rpf ++ (g.roleParts .ipmc ++ [Group.Part.whole id])).forM
        (o.removePart d id) = (do
          o.removeMembers d id .rpf (g.members.list .rpf)
          o.removeSubGroup d id .rpf g.rpfGroup
          o.removeMembers d id .ipmc (g.members.list .ipmc)
          o.removeSubGroup d id .ipmc g.ipmcGroup
          Act.request o.hardware d (.removeGroup id)
          commitRemoval id (.whole id)) := by
    intro g
    have happend : ∀ l l' : List Group.Part, (l ++ l').forM (o.removePart d id) = (do
        l.forM (o.removePart d id)
        l'.forM (o.removePart d id)) := fun _ _ => List.forM_append
    have hlast : [Group.Part.whole id].forM (o.removePart d id) = o.removePart d id (.whole id) :=
      bind_pure_unit
    rw [happend, happend, hlast, forM_roleParts, forM_roleParts]
    simp only [bind_assoc]
    rfl
  unfold unmakeGroup
  simp only [hwalk, bind_assoc]
  rfl

end Orchestrator

/-! One object -/

def DeviceCache.withoutPart (id : Handle) (c : DeviceCache) (p : Group.Part) : DeviceCache :=
  { c with groups := c.groups.without id p }

theorem DeviceCache.withoutPart_eq_setGroup {c : DeviceCache} {id : Handle} {g : Group}
    (hg : c.groups.find? id = some g) {role : Role} {p : Group.Part} {l : List Group.Part}
    (h : g.roleParts role = p :: l) : c.withoutPart id p = c.setGroup id (g.without p) := by
  rw [withoutPart, GroupTable.without_eq_modify hg h]
  rfl

variable {config : Config} {order : RouteOrder} {b : Opening} {m : Mappings} {d : DeviceId}
  {others : List Holding} {c : DeviceCache} {items : List (Handle × Switch.Object)}
  {E : Programming} {r : Run Testbed} {max : Nat} {id : Handle} {g : Group} {p : Group.Part}
  {rest : List Group.Part}

theorem Group.Part.perform_eq_ok {s s' : Switch} {reply : p.removal.Reply}
    (h : s.perform d p.removal = .ok (reply, s')) : s.remove d p.handle p.kind = .ok s' := by
  cases p <;> exact Call.eq_ok_of_map h

theorem Group.Part.perform_of_remove {s s' : Switch} (h : s.remove d p.handle p.kind = .ok s') :
    ∃ reply, s.perform d p.removal = .ok (reply, s') := by
  cases p <;> exact ⟨(), congrArg (Except.map fun s => ((), s)) h⟩

/-- The first object of an unused group has its entry on the books, and both may go. -/
theorem Ledger.withoutPart (h : Ledger config m d others c items E) (hI : c.Intact max)
    (hg : c.groups.find? id = some g) (huse : g.isInUse = false) (hparts : g.parts = p :: rest) :
    ∃ o items', items.Perm ((p.handle, o) :: items') ∧ o.device = d ∧ o.kind = p.kind ∧
      (∀ q, o.parent = some q → q ∈ items'.map Prod.fst) ∧
      Ledger config m d others (c.withoutPart id p) items' E ∧
      (c.withoutPart id p).Intact max := by
  have ⟨hid, hgI⟩ := hI.groups id g hg
  have hunused := (hI.isInUse_eq_false_iff hg).mp huse
  rcases hgI.parts_cases hparts with ⟨role, l, hrole, hgI', _⟩ | ⟨rfl, _, hnone⟩
  · have hnext := DeviceCache.find?_setGroup hg (g.without p)
    have hI' : (c.setGroup id (g.without p)).Intact max := by
      refine hI.setUnused hg huse (g.id_without p) (fun f => ?_) hgI'
      cases p with
      | member role' _ => cases f <;> rfl
      | subGroup role' _ => cases role' <;> cases f <;> rfl
      | whole _ => rfl
    rw [DeviceCache.withoutPart_eq_setGroup hg hrole]
    rcases Group.roleParts_cases hrole with ⟨member, _, rfl, hlist⟩ | ⟨rfl, hnull, hlist, _⟩
    · obtain ⟨hm, _⟩ := Group.list_withoutMember hgI hlist
      obtain ⟨o, items', hperm, hdevice, hkind, hparent, hl⟩ := h.withoutMember_leaf hgI hg hm
      exact ⟨o, items', hperm, hdevice, hkind, hparent, hl, hI'⟩
    · obtain ⟨o, items', hperm, hfits, hl⟩ := h.withoutSubGroup hg hunused hnull hlist
      refine ⟨o, items', hperm, hfits.device, hfits.kind, fun q hq => ?_, hl, hI'⟩
      rw [hfits.parent] at hq
      cases hq
      refine hl.mem_handles hnext (List.mem_map.mpr ⟨_, List.mem_cons_self, ?_⟩)
      exact g.id_without (.subGroup role (g.subGroup role))
  · have hbare : ∀ role, g.roleHoldings d role = [] := by
      intro role
      obtain ⟨hlist, hnull⟩ := Group.roleParts_eq_nil_iff.mp (hnone role)
      rw [Group.roleHoldings, hlist, hnull]
      rfl
    obtain ⟨o, items', hperm, hfits, hl⟩ :=
      h.eraseGroup hid hg hunused (hbare .rpf) (hbare .ipmc)
    refine ⟨o, items', hid ▸ hperm, hfits.device, hfits.kind, fun q hq => ?_, hl,
      hI.eraseGroup hg huse⟩
    rw [hfits.parent] at hq
    cases hq

namespace Orchestrator

theorem commitRemoval_ends {σ : Type} {r : Run σ} (hI : c.Intact max) (hr : r.Holds c)
    (hg : c.groups.find? id = some g) (huse : g.isInUse = false) (hparts : g.parts = p :: rest)
    {F : OpError → Run σ → Prop} :
    (commitRemoval id p).Ends r
      (fun _ r' => r'.Holds (c.withoutPart id p) ∧ r'.state = r.state ∧ r'.events = r.events)
      F := by
  rcases (hI.groups id g hg).2.parts_cases hparts with ⟨role, l, hrole, _⟩ | ⟨rfl, _⟩
  · rw [DeviceCache.withoutPart_eq_setGroup hg hrole]
    rcases Group.roleParts_cases hrole with ⟨member, _, rfl, hlist⟩ | ⟨rfl, _⟩
    · obtain ⟨hm, _⟩ := Group.list_withoutMember (hI.groups id g hg).2 hlist
      refine (Act.changeGroup_ends (g.withoutMember role member.rif) hr hg ?_).bind ?_
        fun _ _ h => h
      · rw [MemberSet.remove_eq_ok_iff.mpr ⟨hm, rfl⟩]
        rfl
      · rintro _ r₁ ⟨hr₁, hstate, hevents, _⟩
        exact ⟨hr₁, hstate, hevents⟩
    · refine (Act.changeGroup_ends (g.withoutSubGroup role) hr hg ?_).mono ?_ fun _ _ h => h
      · cases role <;> rfl
      · rintro _ r₁ ⟨hr₁, hstate, hevents, _⟩
        exact ⟨hr₁, hstate, hevents⟩
  · refine (deleteGroup_ends hr hg huse).mono ?_ fun _ _ h => h
    rintro _ r₁ ⟨hr₁, hstate, hevents, _⟩
    exact ⟨hr₁, hstate, hevents⟩

end Orchestrator

/-- A removal that succeeds, in a trace. -/
def Group.Part.removed (d : DeviceId) (p : Group.Part) :
    DeviceId × Call × Option HardwareError :=
  (d, p.removal, none)

/-- A removal that a fault hits. -/
def Group.Part.missed (d : DeviceId) (p : Group.Part) (status : Status) :
    DeviceId × Call × Option HardwareError :=
  (d, p.removal, some (.ofStatus status))

/-- The objects of group `id` that are `parts` have gone, from the switch and from the cache alike,
with one call for each. The calls of `missed` came after. -/
structure Run.Sheds (d : DeviceId) (id : Handle) (parts : List Group.Part)
    (missed : List (DeviceId × Call × Option HardwareError)) (r r' : Run Testbed) : Prop where
  objects : r'.state.switch.objects =
    parts.foldl (fun t p => t.erase p.handle) r.state.switch.objects
  entries : r'.state.switch.entries = r.state.switch.entries
  counter : r'.state.switch.counter = r.state.switch.counter
  groups : r'.cache.groups = parts.foldl (GroupTable.without id) r.cache.groups
  routes : r'.cache.routes = r.cache.routes
  calls : callsOf r'.events = callsOf r.events ++ (parts.map (Group.Part.removed d) ++ missed)
  undone : failedUndos r'.events = failedUndos r.events

namespace Run.Sheds

variable {parts parts' : List Group.Part} {r' r'' : Run Testbed}
  {missed : List (DeviceId × Call × Option HardwareError)}

theorem refl (d : DeviceId) (id : Handle) (r : Run Testbed) : r.Sheds d id [] [] r where
  objects := rfl
  entries := rfl
  counter := rfl
  groups := rfl
  routes := rfl
  calls := (List.append_nil _).symm
  undone := rfl

theorem trans (h : r.Sheds d id parts [] r') (h' : r'.Sheds d id parts' missed r'') :
    r.Sheds d id (parts ++ parts') missed r'' where
  objects := by rw [h'.objects, h.objects, List.foldl_append]
  entries := h'.entries.trans h.entries
  counter := h'.counter.trans h.counter
  groups := by rw [h'.groups, h.groups, List.foldl_append]
  routes := h'.routes.trans h.routes
  calls := by
    rw [h'.calls, h.calls, List.map_append, List.append_nil, List.append_assoc, List.append_assoc]
  undone := h'.undone.trans h.undone

end Run.Sheds

namespace Orchestrator

/-- An object goes unless a fault fires. -/
theorem removePart_sheds (hI : c.Intact max) (h : r.Tallies config b d others c items E)
    (habroad : Abroad d others E) (hundone : b.failures + failedUndos r.events = 0)
    (hcount : r.state.switch.counter < 2 ^ 48) (hg : c.groups.find? id = some g)
    (huse : g.isInUse = false) (hparts : g.parts = p :: rest) :
    ((bench config order).removePart d id p).Ends r
      (fun _ r' => Switch.passFault p.removal.kind r.state.switch.faults =
          (none, r'.state.switch.faults) ∧
        r.Sheds d id [p] [] r' ∧ (c.withoutPart id p).Intact max ∧
        ∃ items', r'.Tallies config b d others (c.withoutPart id p) items' E)
      fun e r' => ∃ status, (Switch.passFault p.removal.kind r.state.switch.faults).1 =
          some status ∧
        e = .hardware p.removal.kind (.ofStatus status) ∧
        r.Sheds d id [] [p.missed d status] r' := by
  obtain ⟨o, items', hperm, hdevice, hkind, hparent, hl, hI'⟩ :=
    h.ledger.withoutPart hI hg huse hparts
  have hturns : p.removal.Turns d items E (fun _ => items') E :=
    Call.remove_turns p.kind (fun _ _ _ => Group.Part.perform_eq_ok) hperm
  have hworks : p.removal.Works d items E :=
    Call.remove_works (fun _ _ hs => Group.Part.perform_of_remove (hkind ▸ hs)) hperm hdevice
      (hl.closed hI' habroad) hparent
  refine Act.Ends.bind ((h.request_ends hturns).and
    (h.accounts.request_works hundone hcount hworks)) ?_ ?_
  · rintro reply r₁ ⟨⟨ha₁, hr₁⟩, hpassed, hcalled, s, halike, hperform⟩
    refine (commitRemoval_ends hI hr₁ hg huse hparts).mono ?_ fun _ _ h => h
    rintro _ r₂ ⟨hr₂, hstate, hevents⟩
    have hremoved := Switch.remove_eq_ok (Group.Part.perform_eq_ok hperform)
    have hobjects := congrArg Switch.objects hremoved
    have hentries := congrArg Switch.entries hremoved
    have hcounter := congrArg Switch.counter hremoved
    refine ⟨?_, ?_, hI', items', hr₂, ha₁.of_eq hstate hevents, hl⟩
    · rw [hstate, hcalled.faults, ← hpassed]
    · refine ⟨?_, ?_, ?_, ?_, ?_, ?_, ?_⟩
      · rw [hstate]
        exact hobjects.trans (congrArg (Table.erase · p.handle) halike.objects)
      · rw [hstate]
        exact hentries.trans halike.entries
      · rw [hstate]
        exact hcounter.trans halike.counter
      · rw [hr₂.1, h.holds.1]
        rfl
      · exact hr₂.2.trans h.holds.2.symm
      · rw [hevents, hcalled.calls]
        rfl
      · rw [hevents, hcalled.undone]
  · rintro e r₁ ⟨_, status, hfired, rfl, hcalled, halike⟩
    refine ⟨status, hfired, rfl, ?_, halike.entries, halike.counter, ?_, ?_, hcalled.calls,
      hcalled.undone⟩
    · exact halike.objects
    · exact congrArg DeviceCache.groups hcalled.cache
    · exact congrArg DeviceCache.routes hcalled.cache

/-- Objects go in turn up to the first that a fault hits. -/
theorem removeParts_sheds {l : List Group.Part} (hI : c.Intact max)
    (h : r.Tallies config b d others c items E) (habroad : Abroad d others E)
    (hundone : b.failures + failedUndos r.events = 0) (hcount : r.state.switch.counter < 2 ^ 48)
    (hunused : ∀ key r, c.routes.find? key = some r → r.group ≠ id)
    (hl : GroupTable.partsOf c.groups id = l) :
    (l.forM ((bench config order).removePart d id)).Ends r
      (fun _ r' => Switch.firing (l.map fun p => p.removal.kind) r.state.switch.faults = none ∧
        r.Sheds d id l [] r')
      fun e r' => ∃ done p rest status, l = done ++ p :: rest ∧
        Switch.firing (l.map fun p => p.removal.kind) r.state.switch.faults =
          some (done.length, status) ∧
        e = .hardware p.removal.kind (.ofStatus status) ∧
        r.Sheds d id done [p.missed d status] r' := by
  induction l generalizing r c items with
  | nil => exact ⟨rfl, .refl d id r⟩
  | cons p rest ih =>
    cases hg : c.groups.find? id with
    | none =>
      rw [GroupTable.partsOf, hg] at hl
      cases hl
    | some g =>
      have hparts := (GroupTable.partsOf_of_find? hg).symm.trans hl
      have huse := (hI.isInUse_eq_false_iff hg).mpr hunused
      refine (removePart_sheds hI h habroad hundone hcount hg huse hparts).bind ?_ ?_
      · rintro _ r₁ ⟨hpassed, hshed, hI', items', h₁⟩
        have hleft : GroupTable.partsOf (c.withoutPart id p).groups id = rest :=
          GroupTable.partsOf_foldl_without (fun g hg => (hI.groups id g hg).2)
            (show GroupTable.partsOf c.groups id = [p] ++ rest from hl)
        have hnext := ih hI' h₁ (hshed.undone.symm ▸ hundone) (hshed.counter.symm ▸ hcount)
          hunused hleft
        rw [List.map_cons, Switch.firing, hpassed]
        refine hnext.mono ?_ ?_
        · rintro _ r₂ ⟨hfiring, hshed₂⟩
          dsimp only
          rw [hfiring]
          exact ⟨rfl, hshed.trans hshed₂⟩
        · rintro e r₂ ⟨done, p', rest', status, rfl, hfiring, he, hshed₂⟩
          dsimp only
          rw [hfiring]
          exact ⟨p :: done, p', rest', status, rfl, rfl, he, hshed.trans hshed₂⟩
      · rintro e r₁ ⟨status, hfired, he, hshed⟩
        refine ⟨[], p, rest, status, rfl, ?_, he, hshed⟩
        rw [List.map_cons, Switch.firing]
        generalize Switch.passFault p.removal.kind r.state.switch.faults = pass at hfired
        obtain ⟨fired, faults⟩ := pass
        cases hfired
        rfl

theorem unmakeGroup_sheds (hI : c.Intact max) (h : r.Tallies config b d others c items E)
    (habroad : Abroad d others E) (hundone : b.failures + failedUndos r.events = 0)
    (hcount : r.state.switch.counter < 2 ^ 48) (hg : c.groups.find? id = some g)
    (huse : g.isInUse = false) :
    ((bench config order).unmakeGroup d id).Ends r
      (fun _ r' =>
        Switch.firing (g.parts.map fun p => p.removal.kind) r.state.switch.faults = none ∧
        r.Sheds d id g.parts [] r')
      fun e r' => ∃ done p rest status, g.parts = done ++ p :: rest ∧
        Switch.firing (g.parts.map fun p => p.removal.kind) r.state.switch.faults =
          some (done.length, status) ∧
        e = .hardware p.removal.kind (.ofStatus status) ∧
        r.Sheds d id done [p.missed d status] r' := by
  have hunused := (hI.isInUse_eq_false_iff hg).mp huse
  have hget : GroupTable.get r.cache.groups id = .ok g :=
    GroupTable.get_eq_ok_iff.mpr (h.holds.1 ▸ hg)
  have hwalk : (g.parts.forM ((bench config order).removePart d id)).Ends r _ _ :=
    removeParts_sheds hI h habroad hundone hcount hunused (GroupTable.partsOf_of_find? hg)
  rw [Group.parts, (hI.groups id g hg).1] at hwalk ⊢
  rw [unmakeGroup_eq]
  refine Act.Ends.cache ?_
  rw [hget]
  refine Act.ends_bind.mpr (Act.ends_ofCache.mpr ⟨fun g' hg' => ?_, fun _ he => nomatch he⟩)
  cases hg'
  rw [if_neg (Bool.eq_false_iff.mp huse)]
  refine hwalk.bind ?_ fun _ _ h => h
  rintro _ r₁ ⟨hfiring, hshed⟩
  -- what is left to do is to count and to log
  refine ⟨hfiring, hshed.objects, hshed.entries, hshed.counter, hshed.groups, hshed.routes, ?_, ?_⟩
  · exact (callsOf_append _ _).trans ((List.append_nil _).trans hshed.calls)
  · exact (failedUndos_append _ _).trans hshed.undone

end Orchestrator

end Multicast
