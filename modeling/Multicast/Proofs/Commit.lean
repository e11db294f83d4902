import Multicast.Proofs.Frame
import Multicast.Proofs.Integrity

/-! The tables that a run has cached, and the steps that change them. Calls, look-ups and events
leave them alone, so a step commits what was checked before the calls. -/
namespace Multicast

variable {σ α : Type}

/-- The groups and routes cached are those of `c`; counters may differ. -/
def Run.Holds (r : Run σ) (c : DeviceCache) : Prop :=
  r.cache.groups = c.groups ∧ r.cache.routes = c.routes

def Quiet (r r' : Run σ) : Prop := ∀ c, r.Holds c → r'.Holds c

theorem quiet_frame (hw : Hardware σ) (d : DeviceId) : CountingFrame hw d Quiet where
  refl := fun _ _ h => h
  trans := fun h h' c hc => h' c (h c hc)
  lookup := fun _ _ _ h => h
  log := fun _ _ _ h => h
  undoCall := fun _ _ _ _ h => h
  neededCall := fun _ _ _ h => h
  count := fun _ _ _ h => h

theorem quiet_rollBack (hw : Hardware σ) (d : DeviceId) : RollBackFrame hw d Quiet where
  undoGroup := fun _ _ _ h => h
  audit := fun _ _ _ h => h

theorem Act.Keeps.holds {x : Act σ α} (hx : x.Keeps Quiet) {r : Run σ} {c : DeviceCache}
    (h : r.Holds c) : x.Ends r (fun _ r' => r'.Holds c) fun _ r' => r'.Holds c :=
  (hx.ends r).mono (fun _ _ hq => hq c h) fun _ _ hq => hq c h

theorem DeviceCache.Intact.of_holds {max : Nat} {c : DeviceCache} {r : Run σ}
    (h : c.Intact max) (hr : r.Holds c) : r.cache.Intact max :=
  h.of_tables hr.1 hr.2

theorem Run.holds_of_eq {r : Run σ} {c : DeviceCache} (h : r.cache = c) : r.Holds c := by
  rw [← h]
  exact ⟨rfl, rfl⟩

theorem Run.Holds.of_cache {r r' : Run σ} {c : DeviceCache} (h : r.Holds c)
    (hcache : r'.cache = r.cache) : r'.Holds c :=
  ⟨hcache ▸ h.1, hcache ▸ h.2⟩

theorem Run.Holds.cache_eq {r : Run σ} {c : DeviceCache} (h : r.Holds c)
    (hstats : r.cache.stats = c.stats) : r.cache = c := by
  cases c
  obtain ⟨rfl, rfl⟩ := h
  cases hstats
  rfl

/-- The cache with one more rollback counted. -/
def DeviceCache.rolledBack (c : DeviceCache) : DeviceCache :=
  { c with stats := { c.stats with rollbacks := c.stats.rollbacks + 1 } }

/-- What may become of a cache when an operation fails. -/
def DeviceCache.Recovers (c c' : DeviceCache) : Prop := c' = c ∨ c' = c.rolledBack

theorem DeviceCache.Recovers.holds {c : DeviceCache} {r : Run σ} (h : c.Recovers r.cache) :
    r.Holds c := by
  rcases h with h | h
  · exact Run.holds_of_eq h
  · unfold Run.Holds
    rw [h]
    exact ⟨rfl, rfl⟩

theorem Run.Holds.recovers {r r' : Run σ} {c : DeviceCache} (h : r.Holds c)
    (hr' : r.cache.Recovers r'.cache) : r'.Holds c :=
  ⟨hr'.holds.1.trans h.1, hr'.holds.2.trans h.2⟩

/-- The cache is intact and has these routes. -/
def Run.Upholds (max : Nat) (routes : RouteTable) (r : Run σ) : Prop :=
  r.cache.Intact max ∧ r.cache.routes = routes

theorem DeviceCache.Intact.upholds {max : Nat} {c : DeviceCache} {r : Run σ} (h : c.Intact max)
    (hr : r.Holds c) : r.Upholds max c.routes :=
  ⟨h.of_holds hr, hr.2⟩

/-! Changes of a group -/

theorem Handle.eq_null {h : Handle} (hnull : h.isNull = true) : h = .null := by
  obtain ⟨raw⟩ := h
  have hraw : raw = 0 := by simpa [isNull] using hnull
  rw [hraw]
  rfl

@[simp] theorem MemberSet.size_setRole (s : MemberSet) (t : Table RifId Member) (r r' : Role) :
    (s.setRole t r).size r' = if r' = r then t.size else s.size r' := by
  unfold size
  rw [ofRole_setRole]
  split <;> rfl

namespace Group

variable {g : Group} {role : Role} {rif : RifId} {m : Member}

/-- The group with a new member, and with the egress sub-group that was made for it. -/
def withMember (g : Group) (role : Role) (m : Member) (madeFor : Option Handle) : Group :=
  { g with
    members := g.members.setRole ((g.members.ofRole role).insert m.rif m) role
    ipmcGroup := madeFor.getD g.ipmcGroup }

def withoutMember (g : Group) (role : Role) (rif : RifId) : Group :=
  { g with members := g.members.setRole ((g.members.ofRole role).erase rif) role }

def withPorts (g : Group) (role : Role) (rif : RifId) (ports : PortSet) : Group :=
  { g with
    members := g.members.setRole
      ((g.members.ofRole role).modify rif fun m => { m with ports := ports }) role }

def withoutMembers (g : Group) (role : Role) : Group :=
  { g with members := g.members.setRole ∅ role }

def subGroup (g : Group) : Role → Handle
  | .rpf => g.rpfGroup
  | .ipmc => g.ipmcGroup

def withoutSubGroup (g : Group) : Role → Group
  | .rpf => { g with rpfGroup := .null }
  | .ipmc => { g with ipmcGroup := .null }

theorem withoutSubGroup_eq_self (h : (g.subGroup role).isNull = true) :
    g.withoutSubGroup role = g := by
  cases role with
  | rpf =>
    have hnull : g.rpfGroup = .null := Handle.eq_null h
    rw [withoutSubGroup, ← hnull]
  | ipmc =>
    have hnull : g.ipmcGroup = .null := Handle.eq_null h
    rw [withoutSubGroup, ← hnull]

theorem withoutMembers_withoutMember (g : Group) (role : Role) (rif : RifId) :
    (g.withoutMember role rif).withoutMembers role = g.withoutMembers role := by
  cases role <;> rfl

theorem withoutMembers_eq_self (h : g.members.list role = []) : g.withoutMembers role = g := by
  have hempty : g.members.ofRole role = ∅ := Table.eq_empty_of_values_eq_nil h
  obtain ⟨id, owner, rpfGroup, ipmcGroup, ⟨rpf, ipmc⟩, ipv4, ipv6⟩ := g
  cases role with
  | rpf =>
    have hempty : rpf = ∅ := hempty
    rw [hempty]; rfl
  | ipmc =>
    have hempty : ipmc = ∅ := hempty
    rw [hempty]; rfl

@[simp] theorem members_withoutSubGroup (g : Group) (role : Role) :
    (g.withoutSubGroup role).members = g.members := by
  cases role <;> rfl

theorem Intact.withMember (h : g.Intact) (hcheck : g.members.checkAdd role m.rif = .ok ())
    (hcomplete : g.isComplete = true) (madeFor : Option Handle) :
    (g.withMember role m madeFor).Intact where
  members := by
    intro role' rif m' hm'
    simp only [Group.withMember, MemberSet.ofRole_setRole] at hm'
    split at hm'
    · by_cases hrif : rif = m.rif
      · rw [hrif, Table.find?_insert_self] at hm'
        cases hm'
        exact hrif.symm
      · rw [Table.find?_insert_of_ne _ _ hrif] at hm'
        exact h.members role rif m' hm'
    · exact h.members role' rif m' hm'
  rpfOnce := by
    simp only [Group.withMember, MemberSet.size_setRole]
    split
    · next hrole =>
      have hempty : g.members.ofRole role = ∅ := by
        rw [← hrole]
        exact (MemberSet.checkAdd_eq_ok_iff.mp hcheck).2 hrole.symm
      rw [hempty]
      exact Nat.le_refl 1
    · exact h.rpfOnce
  rpfRooted := by
    intro hnull
    simp [Group.withMember] at hnull
    simp [isComplete, hnull] at hcomplete

theorem Intact.withoutMember (h : g.Intact) (hm : (g.members.ofRole role).find? rif = some m) :
    (g.withoutMember role rif).Intact where
  members := by
    intro role' rif' m' hm'
    simp only [Group.withoutMember, MemberSet.ofRole_setRole] at hm'
    split at hm'
    · by_cases hrif : rif' = rif
      · rw [hrif, Table.find?_erase_self] at hm'
        cases hm'
      · rw [Table.find?_erase_of_ne _ hrif] at hm'
        exact h.members role rif' m' hm'
    · exact h.members role' rif' m' hm'
  rpfOnce := by
    have hsize := Table.size_erase hm
    have honce := h.rpfOnce
    simp only [Group.withoutMember, MemberSet.size_setRole]
    split
    · next hrole =>
      rw [MemberSet.size, hrole] at honce
      omega
    · exact honce
  rpfRooted := by
    intro hnull
    have hsize := Table.size_erase hm
    have hnone := h.rpfRooted hnull
    simp only [Group.withoutMember, MemberSet.size_setRole]
    split
    · next hrole =>
      rw [MemberSet.size, hrole] at hnone
      omega
    · exact hnone

theorem Intact.withPorts (h : g.Intact) (role : Role) (rif : RifId) (ports : PortSet) :
    (g.withPorts role rif ports).Intact where
  members := by
    intro role' rif' m' hm'
    simp only [Group.withPorts, MemberSet.ofRole_setRole] at hm'
    split at hm'
    · by_cases hrif : rif' = rif
      · subst hrif
        rw [Table.find?_modify, if_pos rfl, Option.map_eq_some_iff] at hm'
        obtain ⟨m, hm, rfl⟩ := hm'
        exact h.members role rif' m hm
      · rw [Table.find?_modify_of_ne _ _ hrif] at hm'
        exact h.members role rif' m' hm'
    · exact h.members role' rif' m' hm'
  rpfOnce := by
    simp only [Group.withPorts, MemberSet.size_setRole, Table.size_modify]
    split
    · next hrole => exact hrole ▸ h.rpfOnce
    · exact h.rpfOnce
  rpfRooted := by
    intro hnull
    simp only [Group.withPorts, MemberSet.size_setRole, Table.size_modify]
    split
    · next hrole => exact hrole ▸ h.rpfRooted hnull
    · exact h.rpfRooted hnull

theorem Intact.withoutSubGroup (h : g.Intact) (hempty : g.members.size role = 0) :
    (g.withoutSubGroup role).Intact where
  members := by simpa using h.members
  rpfOnce := by simpa using h.rpfOnce
  rpfRooted := by
    cases role with
    | rpf => exact fun _ => hempty
    | ipmc => exact h.rpfRooted

end Group

theorem Group.Intact.withoutMembers {g : Group} (h : g.Intact) (role : Role) :
    (g.withoutMembers role).Intact where
  members := by
    intro role' rif m hm
    simp only [Group.withoutMembers, MemberSet.ofRole_setRole] at hm
    split at hm
    · cases hm
    · exact h.members role' rif m hm
  rpfOnce := by
    simp only [Group.withoutMembers, MemberSet.size_setRole]
    split
    · exact Nat.zero_le 1
    · exact h.rpfOnce
  rpfRooted := by
    intro hnull
    simp only [Group.withoutMembers, MemberSet.size_setRole]
    split
    · rfl
    · exact h.rpfRooted hnull

/-- The group without members and sub-group of a role. -/
def Group.withoutRole (g : Group) (role : Role) : Group :=
  (g.withoutMembers role).withoutSubGroup role

theorem Group.Intact.withoutRole {g : Group} (h : g.Intact) (role : Role) :
    (g.withoutRole role).Intact := by
  apply (h.withoutMembers role).withoutSubGroup
  simp only [Group.withoutMembers, MemberSet.size_setRole, if_true]
  rfl

/-- An unused group may change freely. -/
theorem DeviceCache.Intact.setUnused {max : Nat} {c : DeviceCache} (h : c.Intact max) {id : Handle}
    {g g' : Group} (hg : c.groups.find? id = some g) (huse : g.isInUse = false)
    (hid : g'.id = g.id) (hentries : ∀ f, g'.entries f = g.entries f) (hg' : g'.Intact) :
    (c.setGroup id g').Intact max := by
  apply h.setGroup hg hid hentries hg'
  intro huse'
  rw [huse] at huse'
  cases huse'

theorem DeviceCache.Intact.withoutMember {max : Nat} {c : DeviceCache} (h : c.Intact max)
    {id : Handle} {g : Group} (hg : c.groups.find? id = some g) {role : Role} {rif : RifId}
    {m : Member} (hm : (g.members.ofRole role).find? rif = some m) :
    (c.setGroup id (g.withoutMember role rif)).Intact max := by
  have hg' := (h.groups id g hg).2.withoutMember hm
  exact h.setGroup hg rfl (fun f => by cases f <;> rfl) hg' fun _ huse => huse

theorem DeviceCache.Intact.withoutRole {max : Nat} {c : DeviceCache} (h : c.Intact max)
    {id : Handle} {g : Group} (hg : c.groups.find? id = some g) (huse : g.isInUse = false)
    (role : Role) : (c.setGroup id (g.withoutRole role)).Intact max := by
  have hg' := (h.groups id g hg).2.withoutRole role
  exact h.setUnused hg huse (by cases role <;> rfl) (fun f => by cases role <;> cases f <;> rfl) hg'

theorem DeviceCache.setGroup_setGroup (c : DeviceCache) (id : Handle) (g g' : Group) :
    (c.setGroup id g).setGroup id g' = c.setGroup id g' := by
  unfold setGroup
  rw [Table.modify_modify]

theorem DeviceCache.setGroup_eq_self {c : DeviceCache} {id : Handle} {g : Group}
    (hg : c.groups.find? id = some g) : c.setGroup id g = c := by
  unfold setGroup
  rw [Table.modify_eq_self hg rfl]

theorem DeviceCache.find?_insertGroup (c : DeviceCache) (g : Group) :
    (c.insertGroup g).groups.find? g.id = some g :=
  Table.find?_insert_self _ _ _

theorem DeviceCache.eraseGroup_insertGroup {c : DeviceCache} {g : Group}
    (h : c.groups.find? g.id = none) : (c.insertGroup g).eraseGroup g.id = c := by
  unfold insertGroup eraseGroup
  rw [Table.erase_insert g h]

theorem DeviceCache.find?_setGroup {c : DeviceCache} {id : Handle} {g : Group}
    (hg : c.groups.find? id = some g) (g' : Group) :
    (c.setGroup id g').groups.find? id = some g' :=
  Table.find?_modify_self _ hg

/-! Steps that commit -/

variable {r : Run σ} {c : DeviceCache} {id : Handle} {g : Group}

/-- A commit touches neither the hardware nor the events nor the counters. -/
structure Run.Commits (r : Run σ) (c : DeviceCache) (r' : Run σ) : Prop where
  holds : r'.Holds c
  state : r'.state = r.state
  events : r'.events = r.events
  stats : r'.cache.stats = r.cache.stats

theorem Act.changeCache_ends {f : DeviceCache → Except CacheError DeviceCache} {c' : DeviceCache}
    (hr : r.Holds c)
    (hf : ∀ stats, f { c with stats := stats } = .ok { c' with stats := stats })
    {E : OpError → Run σ → Prop} :
    (Act.changeCache f).Ends r (fun _ r' => r.Commits c' r') E := by
  have hf := hf r.cache.stats
  have hcache : r.cache = { c with stats := r.cache.stats } := by
    rw [← hr.1, ← hr.2]
  rw [← hcache] at hf
  rw [Act.ends_changeCache, hf]
  constructor
  · intro c₁ hc₁
    cases hc₁
    exact ⟨⟨rfl, rfl⟩, rfl, rfl, rfl⟩
  · intro e he
    cases he

theorem Act.changeGroup_ends {f : Group → Except CacheError Group} (g' : Group) (hr : r.Holds c)
    (hg : c.groups.find? id = some g) (hf : f g = .ok g') {E : OpError → Run σ → Prop} :
    (Act.changeGroup id f).Ends r (fun _ r' => r.Commits (c.setGroup id g') r') E := by
  apply Act.changeCache_ends hr
  intro stats
  have hupdate : GroupTable.update c.groups id f = .ok (c.groups.modify id fun _ => g') :=
    GroupTable.update_eq_ok_iff.mpr ⟨g, g', hg, hf, rfl⟩
  simp only [hupdate]
  rfl

namespace Orchestrator

variable {o : Orchestrator σ} {d : DeviceId}

theorem commitMember_ends {role : Role} {m : Member} (hr : r.Holds c)
    (hg : c.groups.find? id = some g) (hcheck : g.members.checkAdd role m.rif = .ok ())
    (madeFor : Option Handle) {E : OpError → Run σ → Prop} :
    (commitMember id role m madeFor).Ends r
      (fun _ r' => r.Commits (c.setGroup id (g.withMember role m madeFor)) r') E := by
  apply Act.changeGroup_ends _ hr hg
  rw [MemberSet.add_eq_ok_iff.mpr ⟨hcheck, rfl⟩]
  rfl

/-- Only a handle that is cached already is refused. -/
theorem commitGroup_ends (owner : Owner) (draft : Draft) (hr : r.Holds c) :
    (commitGroup owner draft).Ends r
      (fun _ r' => c.groups.find? draft.group = none ∧
        r.Commits (c.insertGroup (.new draft.group owner draft.rpfGroup draft.ipmcGroup)) r')
      fun e r' => c.groups.find? draft.group ≠ none ∧ e = .cache (.groupExists draft.group) ∧
        r' = { r with events := r.events ++ [.refusal (.groupExists draft.group)] } := by
  rw [commitGroup, Act.ends_changeCache, hr.1]
  cases hfind : c.groups.find? draft.group with
  | none =>
    rw [GroupTable.create_eq_ok_iff.mpr ⟨hfind, rfl⟩]
    constructor
    · rintro _ ⟨⟩
      exact ⟨rfl, ⟨rfl, hr.2⟩, rfl, rfl, rfl⟩
    · rintro _ ⟨⟩
  | some g =>
    have hadd : c.groups.add draft.group (.new draft.group owner draft.rpfGroup draft.ipmcGroup) =
        .error .keyExists := by
      simp [Table.add, Table.contains_of_find? hfind]
    unfold GroupTable.create
    rw [hadd]
    constructor
    · rintro _ ⟨⟩
    · rintro _ ⟨⟩
      exact ⟨Option.some_ne_none g, rfl, rfl⟩

/-- A group without routes can be deleted. -/
theorem deleteGroup_ends (hr : r.Holds c) (hg : c.groups.find? id = some g)
    (huse : g.isInUse = false) {E : OpError → Run σ → Prop} :
    (Act.changeCache fun c => do
      let (_, groups) ← c.groups.delete id
      .ok { c with groups := groups }).Ends r (fun _ r' => r.Commits (c.eraseGroup id) r') E := by
  apply Act.changeCache_ends hr
  intro stats
  rw [GroupTable.delete_eq_ok_iff.mpr ⟨hg, huse, rfl⟩]
  rfl

/-- A new group that is dropped is not counted either. -/
theorem dropGroup_ends (hr : r.Holds c) (hg : c.groups.find? id = some g)
    (huse : g.isInUse = false) :
    (dropGroup id : Effect σ Unit).Ends r fun _ r' =>
      r'.Holds (c.eraseGroup id) ∧ r'.state = r.state ∧ r'.events = r.events ∧
        r'.cache.stats =
          { r.cache.stats with groupsCreated := r.cache.stats.groupsCreated - 1 } := by
  have hdelete : GroupTable.delete r.cache.groups id = .ok (g, r.cache.groups.erase id) :=
    GroupTable.delete_eq_ok_iff.mpr ⟨hr.1 ▸ hg, huse, rfl⟩
  rw [dropGroup, Effect.ends_bind, Effect.ends_get, hdelete]
  exact ⟨⟨congrArg (Table.erase · id) hr.1, hr.2⟩, rfl, rfl, rfl⟩

theorem insertRoute_ends {route : Route} (hr : r.Holds c)
    (hkey : c.routes.find? route.key = none) (hg : c.groups.find? route.group = some g)
    {E : OpError → Run σ → Prop} :
    (Act.changeCache (·.addRoute route)).Ends r
      (fun _ r' => r.Commits (c.insertRoute route g) r') E := by
  apply Act.changeCache_ends hr
  intro stats
  exact DeviceCache.addRoute_eq_ok_iff.mpr ⟨hkey, g, hg, rfl⟩

theorem eraseRoute_ends {route : Route} (hr : r.Holds c)
    (hroute : c.routes.find? route.key = some route) (hg : c.groups.find? route.group = some g)
    {E : OpError → Run σ → Prop} :
    (Act.changeCache fun c => do
      let (_, c) ← c.removeRoute route.key
      .ok c).Ends r (fun _ r' => r.Commits (c.eraseRoute route g) r') E := by
  apply Act.changeCache_ends hr
  intro stats
  have hremove := DeviceCache.removeRoute_eq_ok (c := { c with stats := stats }) hroute hg
  rw [hremove]
  rfl

theorem setRoute_ends {route : Route} {u : RouteUpdate} {g' : Group} (hr : r.Holds c)
    (hroute : c.routes.find? route.key = some route) (hg : c.groups.find? route.group = some g)
    (hg' : c.groups.find? (u.apply route).group = some g') {E : OpError → Run σ → Prop} :
    (Act.changeCache (updateCache route.key u)).Ends r
      (fun _ r' => r.Commits (c.setRoute route g (u.apply route) g') r') E := by
  apply Act.changeCache_ends hr
  intro stats
  exact DeviceCache.updateCache_eq_ok (c := { c with stats := stats }) hroute hg hg'

end Orchestrator

end Multicast
