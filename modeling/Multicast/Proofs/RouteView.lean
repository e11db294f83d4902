import Multicast.Proofs.Integrity
import Multicast.Proofs.Twin

/-! What a cache has of some of its routes, and changes that keep to one route: they depend on what
the cache has of it, and change nothing else. -/
namespace Multicast

variable {K L : RouteKey → Prop} {k : RouteKey}

/-! Caches that are the same on some routes -/

/-- A group without its keys. -/
def Group.head (g : Group) : Group := { g with ipv4Entries := ∅, ipv6Entries := ∅ }

@[simp] theorem Group.head_setEntries (g : Group) (s : KeySet RouteKey) (f : Family) :
    (g.setEntries s f).head = g.head := by
  cases f <;> rfl

/-- The groups differ at most in the filing of keys outside of `K`. -/
structure Group.SameOn (K : RouteKey → Prop) (g g' : Group) : Prop where
  head : g'.head = g.head
  filed : ∀ f key, K key → (g'.entries f).contains key = (g.entries f).contains key

/-- The caches differ at most in routes outside of `K`, and in counters. -/
structure DeviceCache.SameOn (K : RouteKey → Prop) (c c' : DeviceCache) : Prop where
  heads : ∀ id, (c'.groups.find? id).map Group.head = (c.groups.find? id).map Group.head
  filed : ∀ id f key, K key → (c'.groups.find? id).map (fun g => (g.entries f).contains key) =
    (c.groups.find? id).map fun g => (g.entries f).contains key
  routes : ∀ key, K key → c'.routes.find? key = c.routes.find? key

namespace Group.SameOn

variable {g g' : Group}

theorem rpfGroup (h : g.SameOn K g') : g'.rpfGroup = g.rpfGroup := (Group.mk.inj h.head).2.2.1

theorem ipmcGroup (h : g.SameOn K g') : g'.ipmcGroup = g.ipmcGroup :=
  (Group.mk.inj h.head).2.2.2.1

/-- Keys that are filed alike make the same sets. -/
theorem eq (h : g.SameOn (fun _ => True) g') : g' = g := by
  have hsets : ∀ f, g'.entries f = g.entries f := by
    intro f
    apply Table.ext_find?
    intro key
    have hkey := h.filed f key trivial
    unfold Table.contains at hkey
    cases h' : (g'.entries f).find? key <;> cases h'' : (g.entries f).find? key <;>
      simp [h', h''] at hkey ⊢
  have hhead := h.head
  obtain ⟨_, _, _, _, _, _, _⟩ := g
  obtain ⟨_, _, _, _, _, _, _⟩ := g'
  obtain rfl := hsets .ipv4
  obtain rfl := hsets .ipv6
  cases hhead
  rfl

/-! Filing one key -/

theorem addKey (h : g.SameOn (· = k) g') : (g.addKey k).SameOn (· = k) (g'.addKey k) where
  head := by simpa [Group.addKey] using h.head
  filed := by
    intro f key hkey
    rw [Bool.eq_iff_iff, contains_addKey, contains_addKey, h.filed f key hkey]

theorem dropKey (h : g.SameOn (· = k) g') : (g.dropKey k).SameOn (· = k) (g'.dropKey k) where
  head := by simpa [Group.dropKey] using h.head
  filed := by
    intro f key hkey
    rw [Bool.eq_iff_iff, contains_dropKey, contains_dropKey, h.filed f key hkey]

theorem of_addKey (g : Group) (k : RouteKey) : g.SameOn (· ≠ k) (g.addKey k) where
  head := by simp [Group.addKey]
  filed := by
    intro f key hkey
    rw [Bool.eq_iff_iff, contains_addKey]
    simp [hkey]

theorem of_dropKey (g : Group) (k : RouteKey) : g.SameOn (· ≠ k) (g.dropKey k) where
  head := by simp [Group.dropKey]
  filed := by
    intro f key hkey
    rw [Bool.eq_iff_iff, contains_dropKey]
    simp [hkey]

end Group.SameOn

namespace DeviceCache.SameOn

variable {c c' c'' : DeviceCache}

theorem refl (K : RouteKey → Prop) (c : DeviceCache) : c.SameOn K c :=
  ⟨fun _ => rfl, fun _ _ _ _ => rfl, fun _ _ => rfl⟩

theorem symm (h : c.SameOn K c') : c'.SameOn K c where
  heads := fun id => (h.heads id).symm
  filed := fun id f key hkey => (h.filed id f key hkey).symm
  routes := fun key hkey => (h.routes key hkey).symm

theorem trans (h : c.SameOn K c') (h' : c'.SameOn K c'') : c.SameOn K c'' where
  heads := fun id => (h'.heads id).trans (h.heads id)
  filed := fun id f key hkey => (h'.filed id f key hkey).trans (h.filed id f key hkey)
  routes := fun key hkey => (h'.routes key hkey).trans (h.routes key hkey)

theorem mono (h : c.SameOn K c') (hL : ∀ key, L key → K key) : c.SameOn L c' where
  heads := h.heads
  filed := fun id f key hkey => h.filed id f key (hL key hkey)
  routes := fun key hkey => h.routes key (hL key hkey)

theorem union (h : c.SameOn K c') (h' : c.SameOn L c') :
    c.SameOn (fun key => K key ∨ L key) c' where
  heads := h.heads
  filed := fun id f key hkey => hkey.elim (h.filed id f key) (h'.filed id f key)
  routes := fun key hkey => hkey.elim (h.routes key) (h'.routes key)

/-- Each group is in both caches or in neither. -/
theorem group_cases (h : c.SameOn K c') (id : Handle) :
    (c.groups.find? id = none ∧ c'.groups.find? id = none) ∨
      ∃ g g', c.groups.find? id = some g ∧ c'.groups.find? id = some g' ∧ g.SameOn K g' := by
  have hhead := h.heads id
  have hfiled := h.filed id
  cases hc : c.groups.find? id <;> cases hc' : c'.groups.find? id <;>
    simp only [hc, hc', Option.map_none, Option.map_some, reduceCtorEq, Option.some.injEq]
      at hhead hfiled
  · exact .inl ⟨rfl, rfl⟩
  · exact .inr ⟨_, _, rfl, rfl, hhead, hfiled⟩

/-- Caches that are the same on all routes have the same tables. -/
theorem tables_eq (h : c.SameOn (fun _ => True) c') :
    c'.groups = c.groups ∧ c'.routes = c.routes := by
  constructor
  · apply Table.ext_find?
    intro id
    rcases h.group_cases id with ⟨hc, hc'⟩ | ⟨g, g', hc, hc', hg⟩
    · rw [hc, hc']
    · rw [hc, hc', hg.eq]
  · apply Table.ext_find?
    intro key
    exact h.routes key trivial

theorem contains_group (h : c.SameOn K c') (id : Handle) :
    c'.groups.contains id = c.groups.contains id := by
  unfold Table.contains
  rcases h.group_cases id with ⟨hc, hc'⟩ | ⟨g, g', hc, hc', hg⟩
  · rw [hc, hc']
  · rw [hc, hc']
    rfl

theorem contains_route (h : c.SameOn K c') {key : RouteKey} (hkey : K key) :
    c'.routes.contains key = c.routes.contains key := by
  unfold Table.contains
  rw [h.routes key hkey]

/-- Groups that are the same may change in the same way. -/
theorem modifyGroup (h : c.SameOn K c') {F F' : Group → Group}
    (hF : ∀ g g', g.SameOn K g' → (F g).SameOn K (F' g')) (id : Handle) :
    SameOn K { c with groups := c.groups.modify id F }
      { c' with groups := c'.groups.modify id F' } := by
  have hgroups : ∀ id', (c.groups.modify id F).find? id' = none ∧
      (c'.groups.modify id F').find? id' = none ∨
      ∃ g g', (c.groups.modify id F).find? id' = some g ∧
        (c'.groups.modify id F').find? id' = some g' ∧ g.SameOn K g' := by
    intro id'
    rw [Table.find?_modify, Table.find?_modify]
    split
    · rcases h.group_cases id' with ⟨hc, hc'⟩ | ⟨g, g', hc, hc', hg⟩
      · exact .inl ⟨by rw [hc]; rfl, by rw [hc']; rfl⟩
      · exact .inr ⟨F g, F' g', by rw [hc]; rfl, by rw [hc']; rfl, hF g g' hg⟩
    · exact h.group_cases id'
  constructor
  · intro id'
    rcases hgroups id' with ⟨hc, hc'⟩ | ⟨g, g', hc, hc', hg⟩
    · rw [hc, hc']
    · rw [hc, hc', Option.map_some, Option.map_some, hg.head]
  · intro id' f key hkey
    rcases hgroups id' with ⟨hc, hc'⟩ | ⟨g, g', hc, hc', hg⟩
    · rw [hc, hc']
    · rw [hc, hc', Option.map_some, Option.map_some, hg.filed f key hkey]
  · exact h.routes

/-- A group may change in what is not looked at. -/
theorem of_modifyGroup (c : DeviceCache) {F : Group → Group}
    (hF : ∀ g : Group, g.SameOn K (F g)) (id : Handle) :
    c.SameOn K { c with groups := c.groups.modify id F } where
  heads := by
    intro id'
    simp only [Table.find?_modify]
    split
    · cases c.groups.find? id' with
      | none => rfl
      | some g => exact congrArg some (hF g).head
    · rfl
  filed := by
    intro id' f key hkey
    simp only [Table.find?_modify]
    split
    · cases c.groups.find? id' with
      | none => rfl
      | some g => exact congrArg some ((hF g).filed f key hkey)
    · rfl
  routes := fun _ _ => rfl

theorem setRoutes (h : c.SameOn K c') {routes routes' : RouteTable}
    (hroutes : ∀ key, K key → routes'.find? key = routes.find? key) :
    SameOn K { c with routes := routes } { c' with routes := routes' } :=
  ⟨h.heads, h.filed, hroutes⟩

theorem of_setRoutes (c : DeviceCache) {routes : RouteTable}
    (hroutes : ∀ key, K key → routes.find? key = c.routes.find? key) :
    c.SameOn K { c with routes := routes } :=
  (refl K c).setRoutes hroutes

end DeviceCache.SameOn

/-! Two caches that change alike -/

instance : Add Stats where
  add s t := {
    groupsCreated := s.groupsCreated + t.groupsCreated
    groupsRemoved := s.groupsRemoved + t.groupsRemoved
    membersAdded := s.membersAdded + t.membersAdded
    membersRemoved := s.membersRemoved + t.membersRemoved
    membersUpdated := s.membersUpdated + t.membersUpdated
    membersFailed := s.membersFailed + t.membersFailed
    routesAdded := s.routesAdded + t.routesAdded
    routesRemoved := s.routesRemoved + t.routesRemoved
    routesUpdated := s.routesUpdated + t.routesUpdated
    rollbacks := s.rollbacks + t.rollbacks }

namespace Stats

theorem add_assoc (s t u : Stats) : s + t + u = s + (t + u) := by
  simp only [HAdd.hAdd, Add.add, mk.injEq]
  simp only [Nat.add_eq, Nat.add_assoc, and_self]

theorem add_comm (s t : Stats) : s + t = t + s := by
  simp only [HAdd.hAdd, Add.add, mk.injEq]
  simp only [Nat.add_eq, Nat.add_comm, and_self]

theorem add_right_comm (s t u : Stats) : s + t + u = s + u + t := by
  rw [add_assoc, add_comm t u, add_assoc]

end Stats

namespace DeviceCache

/-- `c` came from `c₀` as `c'` did from `c₀'`, by changes of what they have of one route, and of
counters. -/
structure Paired (k : RouteKey) (c₀ c₀' c c' : DeviceCache) : Prop where
  same : c.SameOn (· = k) c'
  left : c₀.SameOn (· ≠ k) c
  right : c₀'.SameOn (· ≠ k) c'
  counted : ∃ n : Stats, c.stats = c₀.stats + n ∧ c'.stats = c₀'.stats + n

namespace Paired

variable {c₀ c₀' c c' : DeviceCache}

theorem start (h : c₀.SameOn (· = k) c₀') : Paired k c₀ c₀' c₀ c₀' :=
  ⟨h, .refl _ c₀, .refl _ c₀', {}, rfl, rfl⟩

theorem count (h : Paired k c₀ c₀' c c') (n : Stats) :
    Paired k c₀ c₀' { c with stats := c.stats + n } { c' with stats := c'.stats + n } := by
  obtain ⟨m, hm, hm'⟩ := h.counted
  refine ⟨⟨h.same.heads, h.same.filed, h.same.routes⟩, ⟨h.left.heads, h.left.filed, h.left.routes⟩,
    ⟨h.right.heads, h.right.filed, h.right.routes⟩, m + n, ?_, ?_⟩
  · rw [hm, Stats.add_assoc]
  · rw [hm', Stats.add_assoc]

theorem modifyGroup (h : Paired k c₀ c₀' c c') {F : Group → Group}
    (hsame : ∀ g g' : Group, g.SameOn (· = k) g' → (F g).SameOn (· = k) (F g'))
    (hothers : ∀ g : Group, g.SameOn (· ≠ k) (F g)) (id : Handle) :
    Paired k c₀ c₀' { c with groups := c.groups.modify id F }
      { c' with groups := c'.groups.modify id F } where
  same := h.same.modifyGroup hsame id
  left := h.left.trans (.of_modifyGroup c hothers id)
  right := h.right.trans (.of_modifyGroup c' hothers id)
  counted := h.counted

theorem addKey (h : Paired k c₀ c₀' c c') (id : Handle) :
    Paired k c₀ c₀' { c with groups := c.groups.modify id (·.addKey k) }
      { c' with groups := c'.groups.modify id (·.addKey k) } :=
  h.modifyGroup (fun _ _ => Group.SameOn.addKey) (Group.SameOn.of_addKey · k) id

theorem dropKey (h : Paired k c₀ c₀' c c') (id : Handle) :
    Paired k c₀ c₀' { c with groups := c.groups.modify id (·.dropKey k) }
      { c' with groups := c'.groups.modify id (·.dropKey k) } :=
  h.modifyGroup (fun _ _ => Group.SameOn.dropKey) (Group.SameOn.of_dropKey · k) id

theorem setRoutes (h : Paired k c₀ c₀' c c') {routes routes' : RouteTable}
    (hsame : routes'.find? k = routes.find? k)
    (hleft : ∀ key, key ≠ k → routes.find? key = c.routes.find? key)
    (hright : ∀ key, key ≠ k → routes'.find? key = c'.routes.find? key) :
    Paired k c₀ c₀' { c with routes := routes } { c' with routes := routes' } where
  same := h.same.setRoutes fun key hkey => by rw [hkey]; exact hsame
  left := h.left.trans (.of_setRoutes c hleft)
  right := h.right.trans (.of_setRoutes c' hright)
  counted := h.counted

theorem insertRoute (h : Paired k c₀ c₀' c c') (r : Route) :
    Paired k c₀ c₀' { c with routes := c.routes.insert k r }
      { c' with routes := c'.routes.insert k r } :=
  h.setRoutes (by rw [Table.find?_insert_self, Table.find?_insert_self])
    (fun _ hkey => Table.find?_insert_of_ne _ _ hkey)
    fun _ hkey => Table.find?_insert_of_ne _ _ hkey

theorem eraseRoute (h : Paired k c₀ c₀' c c') :
    Paired k c₀ c₀' { c with routes := c.routes.erase k }
      { c' with routes := c'.routes.erase k } :=
  h.setRoutes (by rw [Table.find?_erase_self, Table.find?_erase_self])
    (fun _ hkey => Table.find?_erase_of_ne _ hkey) fun _ hkey => Table.find?_erase_of_ne _ hkey

theorem modifyRoute (h : Paired k c₀ c₀' c c') (f : Route → Route) :
    Paired k c₀ c₀' { c with routes := c.routes.modify k f }
      { c' with routes := c'.routes.modify k f } :=
  h.setRoutes (by rw [Table.find?_modify, Table.find?_modify, h.same.routes k rfl])
    (fun _ hkey => Table.find?_modify_of_ne _ _ hkey)
    fun _ hkey => Table.find?_modify_of_ne _ _ hkey

end Paired

/-! Changes of one route -/

/-- Caches that have the same of the route change alike, or both refuse. -/
def KeepsTo (k : RouteKey) (f : DeviceCache → Except CacheError DeviceCache) : Prop :=
  ∀ c₀ c₀' c c', Paired k c₀ c₀' c c' → Except.Alike (Paired k c₀ c₀') (f c) (f c')

theorem KeepsTo.bind {f g : DeviceCache → Except CacheError DeviceCache} (hf : KeepsTo k f)
    (hg : KeepsTo k g) : KeepsTo k fun c => f c >>= g :=
  fun c₀ c₀' _ _ h => (hf c₀ c₀' _ _ h).bind (hg c₀ c₀')

theorem addRoute_keepsTo (r : Route) : KeepsTo r.key (·.addRoute r) := by
  intro c₀ c₀' c c' h
  simp only [addRoute_eq, h.same.contains_route rfl, h.same.contains_group]
  split
  · rfl
  · split
    · exact (h.addKey r.group).insertRoute r
    · rfl

theorem removeRoute_keepsTo (k : RouteKey) :
    KeepsTo k fun c => (do
      let (_, c) ← c.removeRoute k
      .ok c) := by
  intro c₀ c₀' c c' h
  simp only [removeRoute_eq, h.same.routes k rfl]
  cases hr : c.routes.find? k with
  | none => rfl
  | some r =>
    simp only [h.same.contains_group]
    split
    · exact (h.dropKey r.group).eraseRoute
    · rfl

theorem moveRoute_keepsTo (k : RouteKey) (target : Handle) :
    KeepsTo k fun c => (do
      let (_, c) ← c.moveRoute k target
      .ok c) := by
  intro c₀ c₀' c c' h
  simp only [moveRoute_eq, h.same.routes k rfl]
  cases hr : c.routes.find? k with
  | none => rfl
  | some r =>
    simp only [h.same.contains_group]
    split
    · exact h
    · split
      · split
        · exact ((h.dropKey r.group).addKey target).modifyRoute _
        · rfl
      · rfl

theorem updateRoutes_keepsTo (k : RouteKey) (f : Route → Route) :
    KeepsTo k fun c => (do
      let routes ← c.routes.update k f
      .ok { c with routes := routes }) := by
  intro c₀ c₀' c c' h
  simp only [RouteTable.update, h.same.contains_route rfl]
  split
  · exact h.modifyRoute f
  · rfl

theorem updateCache_keepsTo (k : RouteKey) (u : RouteUpdate) :
    KeepsTo k (Orchestrator.updateCache k u) := by
  have hok : KeepsTo k .ok := fun _ _ _ _ h => h
  unfold Orchestrator.updateCache
  refine KeepsTo.bind (f := fun c => _) ?_ (KeepsTo.bind (f := fun c => _) ?_ ?_)
  · cases u.group with
    | none => exact hok
    | some target => exact moveRoute_keepsTo k target
  · cases u.copyToCpu with
    | none => exact hok
    | some value => exact updateRoutes_keepsTo k _
  · cases u.iif with
    | none => exact hok
    | some rif => exact updateRoutes_keepsTo k _

end DeviceCache

end Multicast
