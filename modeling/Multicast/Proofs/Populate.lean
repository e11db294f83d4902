import Multicast.Proofs.Blueprint

/-! The simulator builds the groups and routes of a device in four loops, finds every route in the
hardware as it is cached, and takes everything down again. -/
namespace Multicast

namespace Simulation

variable {p : Simulation} {config : Config} {d : DeviceId} {c c' : DeviceCache} {id : Handle}
  {g : Group} {key : RouteKey} {keys : List RouteKey} {ids : List Handle} {k n : Nat}
  {r r' : Run}

/-! Adding routes to a group -/

/-- The route that the simulator adds for a key. -/
def routeTo (id : Handle) (key : RouteKey) : Route := ⟨key, ingress.rif, id, false⟩

/-- `c'` is `c` with new routes of group `id`. -/
structure Gains (id : Handle) (keys : List RouteKey) (c c' : DeviceCache) : Prop where
  ids : c'.groups.keys = c.groups.keys
  groups : ∀ id' g, c.groups.find? id' = some g →
    ∃ g', c'.groups.find? id' = some g' ∧ g'.members = g.members ∧ g'.rpfGroup = g.rpfGroup
  found : ∀ key ∈ keys, c'.routes.find? key = some (routeTo id key)
  kept : ∀ key, key ∉ keys → c'.routes.find? key = c.routes.find? key
  stats : c'.stats = { c.stats with routesAdded := c.stats.routesAdded + keys.length }

namespace Gains

theorem refl (id : Handle) (c : DeviceCache) : Gains id [] c c where
  ids := rfl
  groups := fun _ g hg => ⟨g, hg, rfl, rfl⟩
  found := fun _ hkey => (List.not_mem_nil hkey).elim
  kept := fun _ _ => rfl
  stats := rfl

theorem cons (hg : c.groups.find? id = some g) (hkey : key ∉ keys)
    (h : Gains id keys ((c.insertRoute (routeTo id key) g).counted fun s =>
      { s with routesAdded := s.routesAdded + 1 }) c') : Gains id (key :: keys) c c' where
  ids := h.ids.trans (Table.keys_modify _ _ _)
  groups := by
    intro id' g' hg'
    by_cases hid : id' = id
    · subst hid
      obtain rfl : g' = g := Option.some.inj (hg'.symm.trans hg)
      obtain ⟨g₁, hg₁, hmembers, hrpf⟩ := h.groups id' _ (Table.find?_modify_self _ hg)
      refine ⟨g₁, hg₁, hmembers.trans ?_, hrpf.trans ?_⟩
      · exact Group.setEntries_members _ _ _
      · exact Group.setEntries_rpfGroup _ _ _
    · exact h.groups id' g' ((Table.find?_modify_of_ne _ _ hid).trans hg')
  found := by
    intro key' hkey'
    rcases List.mem_cons.mp hkey' with rfl | hkey'
    · exact (h.kept key' hkey).trans (Table.find?_insert_self _ _ _)
    · exact h.found key' hkey'
  kept := by
    intro key' hkey'
    rw [List.mem_cons, not_or] at hkey'
    exact (h.kept key' hkey'.2).trans (Table.find?_insert_of_ne _ _ hkey'.1)
  stats := by
    rw [h.stats, List.length_cons, Nat.add_comm keys.length, ← Nat.add_assoc]
    rfl

end Gains

theorem addRoutes_ends (h : r.Becomes config d (some c) k r') (hroom : k < 2 ^ 48)
    (hequipped : p.Equipped r.world.state d) (hg : c.groups.find? id = some g)
    (hcomplete : g.isComplete = true)
    (hkeys : ∀ key ∈ keys, key.validate = .ok () ∧ key.vrf = vrf) (hnodup : keys.Nodup)
    (hfresh : ∀ key ∈ keys, c.routes.find? key = none) :
    (addRoutes (orchestrator config) d id keys).Ends r'
      (fun _ r'' => ∃ c', Gains id keys c c' ∧ r.Becomes config d (some c') k r'')
      fun _ => False := by
  induction keys generalizing c g r' with
  | nil => exact ⟨c, .refl id c, h⟩
  | cons key rest ih =>
    obtain ⟨hvalid, hvrf⟩ := hkeys key List.mem_cons_self
    have hequipped' := hequipped.of_mappings h.names
    have hadmits : c.Admits config r'.world.onBench.state (.addRoute d (routeTo id key)) :=
      ⟨hvalid, hfresh key List.mem_cons_self, ⟨g, hg, hcomplete⟩,
        hvrf.symm ▸ hequipped'.router, hequipped'.ingress.1⟩
    obtain ⟨g', hg', hyields⟩ := h.calm.addRoute .ascending h.cache hroom hadmits
    obtain rfl : g' = g := Option.some.inj (hg'.symm.trans hg)
    rw [addRoutes]
    refine (h.perform (.addRoute d (routeTo id key)) hyields).andThen ?_
    rintro _ r₁ ⟨-, h₁⟩
    rw [List.nodup_cons] at hnodup
    refine (ih h₁ (Table.find?_modify_self _ hg) ((Group.isComplete_addKey _ _).trans hcomplete)
      (fun key' hkey' => hkeys key' (List.mem_cons_of_mem _ hkey')) hnodup.2 ?_).mono ?_
      fun _ h => h
    · intro key' hkey'
      have hne : key' ≠ key := fun heq => hnodup.1 (heq ▸ hkey')
      exact (Table.find?_insert_of_ne _ _ hne).trans (hfresh key' (List.mem_cons_of_mem _ hkey'))
    · rintro _ r₂ ⟨c', hgains, h₂⟩
      exact ⟨c', hgains.cons hg hnodup.1, h₂⟩

/-! Building the groups -/

/-- The groups `ids` were built, in this order, each with its members and routes. -/
structure Progress (p : Simulation) (ids : List Handle) (c : DeviceCache) : Prop where
  distinct : ids.Nodup
  groups : ∀ id, id ∈ ids ↔ ∃ g, c.groups.find? id = some g
  formed : ∀ id g, c.groups.find? id = some g → g.Formed ingress p.egressMembers
  routes : ∀ key route, c.routes.find? key = some route ↔
    ∃ i id, ids[i]? = some id ∧ key ∈ p.routeKeys i ∧ route = routeTo id key
  stats : c.stats =
    { groupsCreated := ids.length
      membersAdded := ids.length * (1 + p.members.toNat)
      routesAdded := ids.length * p.routes.toNat }

namespace Progress

theorem empty (p : Simulation) : p.Progress [] .empty where
  distinct := .nil
  groups := by
    intro id
    constructor
    · exact fun hid => (List.not_mem_nil hid).elim
    · rintro ⟨_, ⟨⟩⟩
  formed := by
    rintro id g ⟨⟩
  routes := by
    intro key route
    constructor
    · rintro ⟨⟩
    · rintro ⟨_, _, ⟨⟩, _⟩
  stats := by simp [DeviceCache.empty]

theorem size_eq (h : p.Progress ids c) : c.groups.size = ids.length := by
  have hperm : c.groups.keys.Perm ids := by
    refine (List.perm_ext_iff_of_nodup (Table.keys_nodup _) h.distinct).mpr fun id => ?_
    rw [h.groups, Table.mem_keys_iff_find?]
  rw [← hperm.length_eq, Table.keys, List.length_map]
  rfl

theorem lt_of_route (h : p.Progress ids c) {route : Route}
    (hroute : c.routes.find? key = some route) : ∃ i < ids.length, key ∈ p.routeKeys i := by
  obtain ⟨i, id, hid, hkey, -⟩ := (h.routes key route).mp hroute
  exact ⟨i, (List.getElem?_eq_some_iff.mp hid).1, hkey⟩

/-- The keys of the next group are new. -/
theorem fresh (h : p.Progress ids c) (hlen : ids.length < 256)
    (hkey : key ∈ p.routeKeys ids.length) : c.routes.find? key = none := by
  cases hroute : c.routes.find? key with
  | none => rfl
  | some route =>
    obtain ⟨i, hi, hkey'⟩ := h.lt_of_route hroute
    have heq := eq_of_mem_routeKeys (by omega) hlen hkey' hkey
    omega

/-- The routes of the next group are cached besides those of the groups before. -/
theorem routes_step (h : p.Progress ids c) (hlen : ids.length < 256) {members : Nat}
    (hgains : Gains id (p.routeKeys ids.length) (c.withGroup g members) c') (key : RouteKey)
    (route : Route) :
    c'.routes.find? key = some route ↔
      ∃ i id', (ids ++ [id])[i]? = some id' ∧ key ∈ p.routeKeys i ∧ route = routeTo id' key := by
  by_cases hkey : key ∈ p.routeKeys ids.length
  · rw [hgains.found key hkey]
    constructor
    · rintro ⟨⟩
      exact ⟨ids.length, id, List.getElem?_concat_length, hkey, rfl⟩
    · rintro ⟨i, id', hid', hkey', rfl⟩
      have hi := (List.getElem?_eq_some_iff.mp hid').1
      rw [List.length_append, List.length_singleton] at hi
      obtain rfl := eq_of_mem_routeKeys (by omega) hlen hkey' hkey
      rw [List.getElem?_concat_length] at hid'
      cases hid'
      rfl
  · have hroutes : c'.routes.find? key = c.routes.find? key := hgains.kept key hkey
    rw [hroutes, h.routes]
    refine exists_congr fun i => exists_congr fun id' => and_congr_left fun ⟨hkey', _⟩ => ?_
    have hne : i ≠ ids.length := by
      rintro rfl
      exact hkey hkey'
    rw [List.getElem?_append]
    split
    · rfl
    · rw [List.getElem?_eq_none (by omega), List.getElem?_eq_none (by simp; omega)]

/-- One more group, with its routes. -/
theorem step (h : p.Progress ids c) (hlen : ids.length < 256) (hid : g.id = id)
    (hnone : c.groups.find? id = none) (hformed : g.Formed ingress p.egressMembers)
    (hgains : Gains id (p.routeKeys ids.length) (c.withGroup g (1 + p.egressMembers.length)) c') :
    p.Progress (ids ++ [id]) c' where
  distinct := by
    have hnew : id ∉ ids := by
      intro hmem
      obtain ⟨_, hg⟩ := (h.groups id).mp hmem
      rw [hnone] at hg
      cases hg
    exact List.nodup_append.mpr ⟨h.distinct, List.nodup_singleton id, fun a ha b hb heq =>
      hnew (List.mem_singleton.mp hb ▸ heq ▸ ha)⟩
  groups := by
    intro id'
    rw [← Table.mem_keys_iff_find?, hgains.ids, Table.mem_keys_iff_find?, List.mem_append,
      List.mem_singleton, h.groups]
    by_cases heq : id' = id
    · subst heq
      exact iff_of_true (.inr rfl) ⟨g, DeviceCache.find?_withGroup_self hid _⟩
    · rw [DeviceCache.find?_withGroup_of_ne hid heq]
      simp [heq]
  formed := by
    intro id' g' hg'
    have hkey := Table.mem_keys_iff_find?.mpr ⟨g', hg'⟩
    rw [hgains.ids, Table.mem_keys_iff_find?] at hkey
    obtain ⟨g₀, hg₀⟩ := hkey
    obtain ⟨g₁, hg₁, hmembers, hrpf⟩ := hgains.groups id' g₀ hg₀
    obtain rfl : g' = g₁ := Option.some.inj (hg'.symm.trans hg₁)
    refine Group.Formed.of_members ?_ hmembers hrpf
    by_cases heq : id' = id
    · subst heq
      rw [DeviceCache.find?_withGroup_self hid] at hg₀
      cases hg₀
      exact hformed
    · rw [DeviceCache.find?_withGroup_of_ne hid heq] at hg₀
      exact h.formed id' g₀ hg₀
  routes := h.routes_step hlen hgains
  stats := by
    rw [hgains.stats, length_routeKeys, List.length_append, List.length_singleton]
    simp only [DeviceCache.withGroup, DeviceCache.addedMembers, DeviceCache.counted,
      DeviceCache.insertGroup, h.stats, length_egressMembers, Nat.add_mul, Nat.one_mul]

end Progress

/-- With as many groups as may be, a device gets no other. -/
theorem createGroup_of_full {w : World Switch} (hc : w.fleet.find? d = some c)
    (hfull : config.maxGroups ≤ c.groups.size) (owner : Owner) (rpf : MemberSpec)
    (ipmc : List MemberSpec) :
    let out := (orchestrator config).createGroup w d owner rpf ipmc
    (∃ e, out.result = .error e) ∧ out.world.state = w.state := by
  have hends : ((orchestrator config).makeGroup d owner rpf ipmc).Ends ⟨w.state, c, []⟩
      (fun _ _ => False) fun _ r' => r'.state = w.state := by
    refine Act.Ends.cache ?_
    split
    · rfl
    · next hroom => exact (hroom hfull).elim
  obtain ⟨r', hworld, -, ⟨_, _, hf⟩ | ⟨e, he, hstate⟩⟩ := Orchestrator.onDevice_ends hc hends
  · exact hf.elim
  · refine ⟨⟨e, (Orchestrator.result_audited _ _ _).trans he⟩, ?_⟩
    rw [Orchestrator.createGroup, Orchestrator.world_audited, hworld]
    exact hstate

/-- Handles of a group and its members. -/
def groupHandles (p : Simulation) : Nat := Group.handles p.egressMembers

/-- One round of `addGroups`. -/
def addGroup (p : Simulation) (o : Orchestrator Switch) (d : DeviceId) (group : Nat) :
    Script Unit := do
  let id ← perform (o.createGroup · d .ipmc ingress p.egressMembers)
  addRoutes o d id (p.routeKeys group)

theorem addGroups_cons (p : Simulation) (o : Orchestrator Switch) (d : DeviceId) (group : Nat)
    (rest : List Nat) :
    p.addGroups o d (group :: rest) = p.addGroup o d group >>= fun _ =>
      p.addGroups o d rest >>= fun keys => pure (p.routeKeys group ++ keys) := by
  rw [addGroups, addGroup, bind_assoc]

/-- If there is room for it, the next group is built with its routes. -/
theorem addGroup_ends (hrifs : 200 + p.members.toNat ≤ 2 ^ 32)
    (hequipped : p.Equipped r.world.state d) (hlen : ids.length < 256)
    (hfree : ids.length < config.maxGroups) (hroom : k + p.groupHandles < 2 ^ 48)
    (hprogress : p.Progress ids c) (h : r.Becomes config d (some c) k r') :
    (p.addGroup (orchestrator config) d ids.length).Ends r'
      (fun _ r'' => ∃ id c', p.Progress (ids ++ [id]) c' ∧
        r.Becomes config d (some c') (k + p.groupHandles) r'')
      fun _ => False := by
  have hsize : c.groups.size < config.maxGroups := hprogress.size_eq ▸ hfree
  have hequipped' := hequipped.of_mappings h.names
  obtain ⟨_, g, rfl, hformed, hnone, hyields⟩ := h.calm.createGroup .ascending h.cache .ipmc
    hsize hequipped'.ingress hequipped'.egress (egressMembers_distinct hrifs) hroom
  refine (h.perform (.createGroup d .ipmc Simulation.ingress p.egressMembers) hyields).andThen ?_
  rintro _ r₁ ⟨rfl, h₁⟩
  have hroutes := addRoutes_ends h₁ hroom hequipped (DeviceCache.find?_withGroup_self rfl _)
    hformed.complete
    (fun key hkey => ⟨validate_of_mem_routeKeys hkey, vrf_of_mem_routeKeys hkey⟩)
    (routeKeys_nodup hlen) fun key hkey => hprogress.fresh hlen hkey
  refine hroutes.mono ?_ fun _ h => h
  rintro _ r₂ ⟨c', hgains, h₂⟩
  exact ⟨g.id, c', hprogress.step hlen rfl hnone hformed hgains, h₂⟩

/-- The groups that are asked for are built, up to the limit. -/
theorem addGroups_ends (hrifs : 200 + p.members.toNat ≤ 2 ^ 32)
    (hequipped : p.Equipped r.world.state d) (hn : ids.length + n ≤ 256)
    (hlimit : ids.length ≤ config.maxGroups)
    (hroom : k + min n (config.maxGroups - ids.length) * p.groupHandles < 2 ^ 48)
    (hprogress : p.Progress ids c) (h : r.Becomes config d (some c) k r') :
    (p.addGroups (orchestrator config) d (List.range' ids.length n)).Ends r'
      (fun keys r'' => ids.length + n ≤ config.maxGroups ∧ keys = p.keysFrom ids.length n ∧
        ∃ ids' c', ids'.length = ids.length + n ∧ p.Progress ids' c' ∧
          r.Becomes config d (some c') (k + n * p.groupHandles) r'')
      fun r'' => config.maxGroups < ids.length + n ∧ r''.output = r.output ∧
        r''.world.state.counter = k + (config.maxGroups - ids.length) * p.groupHandles := by
  induction n generalizing ids c k r' with
  | zero =>
    refine ⟨hlimit, rfl, ids, c, rfl, hprogress, ?_⟩
    rw [Nat.zero_mul]
    exact h
  | succ n ih =>
    rw [List.range'_succ, addGroups_cons]
    by_cases hfull : config.maxGroups ≤ ids.length
    · -- there is no room for this group
      have hsize : config.maxGroups ≤ c.groups.size := hprogress.size_eq ▸ hfull
      obtain ⟨⟨e, he⟩, hstate⟩ :=
        createGroup_of_full h.cache hsize .ipmc Simulation.ingress p.egressMembers
      have hrefused : (p.addGroup (orchestrator config) d ids.length).Ends r' (fun _ _ => False)
          fun r'' => r''.output = r.output ∧ r''.world.state.counter = k := by
        refine Script.Ends.bind (Script.Ends.refused he ⟨h.output, ?_⟩) (fun _ _ h => h)
          fun _ h => h
        rw [hstate]
        exact h.calm.used
      refine hrefused.bind (fun _ _ h => h.elim) ?_
      rintro r'' ⟨houtput, hcounter⟩
      refine ⟨by omega, houtput, ?_⟩
      rw [hcounter, Nat.sub_eq_zero_of_le hfull, Nat.zero_mul, Nat.add_zero]
    · -- this group takes its share of the handles, the rest take theirs
      have hshare : config.maxGroups - ids.length = config.maxGroups - (ids.length + 1) + 1 := by
        omega
      rw [hshare, Nat.add_min_add_right, Nat.succ_mul] at hroom
      refine (addGroup_ends hrifs hequipped (by omega) (Nat.not_le.mp hfull) (by omega) hprogress
        h).andThen ?_
      rintro _ r₁ ⟨id, c₁, hprogress₁, h₁⟩
      have hlength : (ids ++ [id]).length = ids.length + 1 := List.length_append
      have hrest := ih (by omega) (by omega) (hlength ▸ by omega) hprogress₁ h₁
      rw [hlength] at hrest
      refine Script.Ends.bind hrest ?_ ?_
      · rintro _ r₂ ⟨hle, rfl, ids', c₂, hlen, hprogress₂, h₂⟩
        have hcount : k + p.groupHandles + n * p.groupHandles = k + (n + 1) * p.groupHandles := by
          rw [Nat.succ_mul]
          omega
        exact ⟨by omega, rfl, ids', c₂, by omega, hprogress₂, hcount ▸ h₂⟩
      · rintro r₂ ⟨hover, houtput, hcounter⟩
        refine ⟨by omega, houtput, hcounter.trans ?_⟩
        rw [hshare, Nat.succ_mul]
        omega

/-! What was built -/

/-- What the simulator was asked to build on a device. -/
structure Built (p : Simulation) (c : DeviceCache) : Prop where
  groups : c.groups.size = p.groups.toNat
  members : ∀ id g, c.groups.find? id = some g → g.Formed ingress p.egressMembers
  shares : ∀ id g, c.groups.find? id = some g → ∀ family,
    (g.entries family).size = if family = p.family then p.routes.toNat else 0
  routes : c.routes.size = p.groups.toNat * p.routes.toNat
  valid : ∀ key route, c.routes.find? key = some route →
    route.key = key ∧ key.validate = .ok ()
  stats : c.stats =
    { groupsCreated := p.groups.toNat
      membersAdded := p.groups.toNat * (1 + p.members.toNat)
      routesAdded := p.groups.toNat * p.routes.toNat }

namespace Progress

theorem mem_keys_iff (h : p.Progress ids c) :
    key ∈ c.routes.keys ↔ key ∈ p.keysFrom 0 ids.length := by
  rw [Table.mem_keys_iff_find?, mem_keysFrom]
  constructor
  · rintro ⟨route, hroute⟩
    obtain ⟨i, hi, hkey⟩ := h.lt_of_route hroute
    exact ⟨i, Nat.zero_le i, by omega, hkey⟩
  · rintro ⟨i, -, hi, hkey⟩
    rw [Nat.zero_add] at hi
    exact ⟨routeTo ids[i] key, (h.routes _ _).mpr ⟨i, _, List.getElem?_eq_getElem hi, hkey, rfl⟩⟩

/-- The routes that point at the `i`-th group. -/
theorem routed_iff (h : p.Progress ids c) {i : Nat} (hi : i < ids.length) :
    (∃ route, c.routes.find? key = some route ∧ route.group = ids[i]) ↔ key ∈ p.routeKeys i := by
  constructor
  · rintro ⟨route, hroute, hgroup⟩
    obtain ⟨j, id, hid, hkey, rfl⟩ := (h.routes _ _).mp hroute
    obtain ⟨hj, rfl⟩ := List.getElem?_eq_some_iff.mp hid
    obtain rfl : j = i := (h.distinct.getElem_inj_iff).mp hgroup
    exact hkey
  · intro hkey
    have hroute := (h.routes _ _).mpr ⟨i, _, List.getElem?_eq_getElem hi, hkey, rfl⟩
    exact ⟨routeTo ids[i] key, hroute, rfl⟩

/-- Each group lists the keys of its own routes, under their family. -/
theorem entries_perm (h : p.Progress ids c) (hI : c.Intact config.maxGroups)
    (hlen : ids.length ≤ 256) (hg : c.groups.find? id = some g) :
    ∃ i < ids.length, ∀ family,
      (g.entries family).keys.Perm (if family = p.family then p.routeKeys i else []) := by
  obtain ⟨i, hi, rfl⟩ := List.mem_iff_getElem.mp ((h.groups id).mpr ⟨g, hg⟩)
  have hmem : ∀ family key, key ∈ (g.entries family).keys ↔
      key.family = family ∧ key ∈ p.routeKeys i := fun family key => by
    rw [Table.mem_keys_iff, hI.filed _ g family key hg, h.routed_iff hi]
  refine ⟨i, hi, fun family => ?_⟩
  split
  · next hfamily =>
    refine (List.perm_ext_iff_of_nodup (Table.keys_nodup _) (routeKeys_nodup (by omega))).mpr
      fun key => (hmem family key).trans (and_iff_right_of_imp fun hkey => ?_)
    exact (family_of_mem_routeKeys hkey).trans hfamily.symm
  · next hfamily =>
    refine .of_eq (List.eq_nil_iff_forall_not_mem.mpr fun key hkey => hfamily ?_)
    obtain ⟨rfl, hkey'⟩ := (hmem family key).mp hkey
    exact family_of_mem_routeKeys hkey'

theorem built (h : p.Progress ids c) (hI : c.Intact config.maxGroups)
    (hlen : ids.length = p.groups.toNat) : p.Built c where
  groups := h.size_eq.trans hlen
  members := h.formed
  shares := by
    intro id g hg family
    have hgroups := p.groups.toNat_lt
    obtain ⟨i, -, hperm⟩ := h.entries_perm hI (by omega) hg
    have hsize : (g.entries family).size = (g.entries family).keys.length :=
      (List.length_map _).symm
    rw [hsize, (hperm family).length_eq, apply_ite List.length, length_routeKeys, List.length_nil]
  routes := by
    have hgroups := p.groups.toNat_lt
    have hperm : c.routes.keys.Perm (p.keysFrom 0 ids.length) :=
      (List.perm_ext_iff_of_nodup (Table.keys_nodup _) (keysFrom_nodup (by omega))).mpr
        fun _ => h.mem_keys_iff
    have hsize : c.routes.size = c.routes.keys.length := (List.length_map _).symm
    rw [hsize, hperm.length_eq, length_keysFrom, hlen]
  valid := hI.routes
  stats := hlen ▸ h.stats

/-- Every route can be compared with the hardware. -/
theorem admits_verify (h : p.Progress ids c) {s : Switch} (hequipped : p.Equipped s d)
    (hkey : key ∈ p.keysFrom 0 ids.length) :
    c.Admits config s.onBench (.verifyRoute d key) := by
  obtain ⟨route, hroute⟩ := Table.mem_keys_iff_find?.mp (h.mem_keys_iff.mpr hkey)
  obtain ⟨i, id, -, hkey', rfl⟩ := (h.routes _ _).mp hroute
  exact ⟨_, hroute, hequipped.ingress.1, vrf_of_mem_routeKeys hkey' ▸ hequipped.router⟩

end Progress

/-! Comparing with the hardware -/

theorem countDifferent_ends (h : r.Becomes config d (some c) k r') (hroom : k < 2 ^ 48)
    (hequipped : p.Equipped r.world.state d) (hprogress : p.Progress ids c)
    (hkeys : ∀ key ∈ keys, key ∈ p.keysFrom 0 ids.length) :
    (countDifferent (orchestrator config) d keys).Ends r'
      (fun different r'' => different = 0 ∧ r.Becomes config d (some c) k r'')
      fun _ => False := by
  induction keys generalizing r' with
  | nil => exact ⟨rfl, h⟩
  | cons key rest ih =>
    have hadmits : c.Admits config r'.world.onBench.state (.verifyRoute d key) :=
      hprogress.admits_verify (hequipped.of_mappings h.names) (hkeys key List.mem_cons_self)
    have hyields := h.calm.verifyRoute .ascending h.cache hroom hadmits
    rw [countDifferent]
    refine (h.perform (.verifyRoute d key) hyields).andThen ?_
    rintro _ r₁ ⟨rfl, h₁⟩
    refine (ih h₁ fun key' hkey' => hkeys key' (List.mem_cons_of_mem _ hkey')).andThen ?_
    rintro _ r₂ ⟨rfl, h₂⟩
    exact ⟨rfl, h₂⟩

theorem checkConsistency_eq {w : World Switch} (hc : w.fleet.find? d = some c)
    (hI : c.Intact config.maxGroups) : w.checkConsistency d = .ok () := by
  have hcache : w.fleet.cache d = .ok c := Fleet.cache_eq_ok_iff.mpr hc
  have hcheck : c.checkConsistency = .ok () :=
    DeviceCache.checkConsistency_eq_ok_iff.mpr hI.consistent.agrees
  simp only [World.checkConsistency, World.ask, hcache, hcheck]

/-- A new device is built as asked for if the limit allows. -/
theorem populate_ends (hrifs : 200 + p.members.toNat ≤ 2 ^ 32)
    (hequipped : p.Equipped r.world.state d) (hnew : r.world.fleet.find? d = none)
    (hroom : k + min p.groups.toNat config.maxGroups * p.groupHandles < 2 ^ 48)
    (h : r.world.onBench.Calm config k) :
    (p.populate (orchestrator config) d).Ends r
      (fun keys r' => p.groups.toNat ≤ config.maxGroups ∧ keys = p.keysFrom 0 p.groups.toNat ∧
        ∃ ids c, ids.length = p.groups.toNat ∧ p.Progress ids c ∧
          r.Becomes config d (some c) (k + p.groups.toNat * p.groupHandles) r')
      fun r' => config.maxGroups < p.groups.toNat ∧ r'.output = r.output ∧
        r'.world.state.counter = k + config.maxGroups * p.groupHandles := by
  have hgroups := p.groups.toNat_lt
  have hstart : r.Becomes config d none k r := .refl hnew h
  refine (hstart.perform (.attach d) (h.attach .ascending hnew)).andThen ?_
  rintro _ r₁ ⟨-, h₁⟩
  rw [List.range_eq_range']
  have hgroups : (p.addGroups (orchestrator config) d (List.range' 0 p.groups.toNat)).Ends r₁ _ _ :=
    addGroups_ends hrifs hequipped (by rw [List.length_nil]; omega) (Nat.zero_le _) hroom
      (.empty p) h₁
  simp only [List.length_nil, Nat.zero_add, Nat.sub_zero] at hgroups
  refine hgroups.bind ?_ fun _ h => h
  rintro _ r₂ ⟨hle, rfl, ids, c, hlen, hprogress, h₂⟩
  rw [Nat.min_eq_left hle] at hroom
  refine (countDifferent_ends h₂ hroom hequipped hprogress fun _ hkey => hlen ▸ hkey).andThen ?_
  rintro _ r₃ ⟨rfl, h₃⟩
  split
  · next hdifferent => exact (Nat.lt_irrefl 0 hdifferent).elim
  · exact Script.Ends.ask (checkConsistency_eq h₃.cache h₃.intact)
      ⟨hle, rfl, ids, c, hlen, hprogress, h₃⟩

/-! Taking everything down -/

theorem deleteRoutes_ends (h : r.Becomes config d (some c) k r') (hroom : k < 2 ^ 48)
    (hequipped : p.Equipped r.world.state d) (hnodup : keys.Nodup)
    (hvrf : ∀ key ∈ keys, key.vrf = vrf) (hkeys : ∀ key, key ∈ keys ↔ key ∈ c.routes.keys) :
    (deleteRoutes (orchestrator config) d keys).Ends r'
      (fun _ r'' => ∃ c', (∀ key, c'.routes.find? key = none) ∧
        r.Becomes config d (some c') k r'')
      fun _ => False := by
  induction keys generalizing c r' with
  | nil =>
    refine ⟨c, fun key => ?_, h⟩
    rw [← Table.contains_eq_false_iff, Bool.eq_false_iff, Ne, ← Table.mem_keys_iff, ← hkeys]
    exact List.not_mem_nil
  | cons key rest ih =>
    have hroute := Table.mem_keys_iff_find?.mp ((hkeys key).mp List.mem_cons_self)
    have hadmits : c.Admits config r'.world.onBench.state (.deleteRoute d key) :=
      ⟨hroute, hvrf key List.mem_cons_self ▸ (hequipped.of_mappings h.names).router⟩
    obtain ⟨route, g, hroute, hg, hyields⟩ :=
      h.calm.deleteRoute .ascending h.cache hroom hadmits
    obtain ⟨rfl, -⟩ := h.intact.routes _ _ hroute
    rw [List.nodup_cons] at hnodup
    rw [deleteRoutes]
    refine (h.perform (.deleteRoute d route.key) hyields).andThen ?_
    rintro _ r₁ ⟨-, h₁⟩
    refine ih h₁ hnodup.2 (fun key hkey => hvrf key (List.mem_cons_of_mem _ hkey)) fun key => ?_
    rw [Table.mem_keys_iff_find?]
    change _ ↔ ∃ v, (c.routes.erase route.key).find? key = some v
    by_cases hkey : key = route.key
    · rw [hkey, Table.find?_erase_self]
      simp [hnodup.1]
    · rw [Table.find?_erase_of_ne _ hkey, ← Table.mem_keys_iff_find?, ← hkeys, List.mem_cons]
      simp [hkey]

theorem deleteGroups_ends (h : r.Becomes config d (some c) k r') (hroom : k < 2 ^ 48)
    (hids : c.groups.keys = ids) (hnone : ∀ key, c.routes.find? key = none) :
    (deleteGroups (orchestrator config) d ids).Ends r'
      (fun _ r'' => ∃ c', c'.groups.size = 0 ∧ r.Becomes config d (some c') k r'')
      fun _ => False := by
  induction ids generalizing c r' with
  | nil =>
    refine ⟨c, ?_, h⟩
    have hsize : c.groups.keys.length = c.groups.size := List.length_map _
    rw [← hsize, hids]
    rfl
  | cons id rest ih =>
    have hid : id ∈ c.groups.keys := hids ▸ List.mem_cons_self
    have hadmits : c.Admits config r'.world.onBench.state (.deleteGroup d id) := by
      refine ⟨Table.mem_keys_iff_find?.mp hid, fun key route hroute => ?_⟩
      rw [hnone] at hroute
      cases hroute
    obtain ⟨c', hgroups, hroutes, hyields⟩ := h.calm.deleteGroup .ascending h.cache hroom hadmits
    rw [deleteGroups]
    refine (h.perform (.deleteGroup d id) hyields).andThen ?_
    rintro _ r₁ ⟨-, h₁⟩
    refine ih h₁ ?_ fun key => hroutes.symm ▸ hnone key
    rw [hgroups]
    exact Table.keys_erase_head hids

theorem tearDown_ends (h : r.Becomes config d (some c) k r') (hroom : k < 2 ^ 48)
    (hequipped : p.Equipped r.world.state d) (hprogress : p.Progress ids c)
    (hlen : ids.length ≤ 256) :
    (tearDown (orchestrator config) d (p.keysFrom 0 ids.length)).Ends r'
      (fun _ r'' => r.Becomes config d none k r'') fun _ => False := by
  refine (deleteRoutes_ends h hroom hequipped (keysFrom_nodup (by omega)) (fun key hkey => ?_)
    fun _ => hprogress.mem_keys_iff.symm).andThen ?_
  · obtain ⟨_, _, _, hkey⟩ := mem_keysFrom.mp hkey
    exact vrf_of_mem_routeKeys hkey
  rintro _ r₁ ⟨c₁, hnone, h₁⟩
  have hcache : r₁.world.fleet.cache d = .ok c₁ := Fleet.cache_eq_ok_iff.mpr h₁.cache
  have hids : r₁.world.groupIds d = .ok c₁.groups.keys := by
    simp only [World.groupIds, World.ask, hcache]
    rfl
  refine Script.Ends.ask hids ((deleteGroups_ends h₁ hroom rfl hnone).andThen ?_)
  rintro _ r₂ ⟨c₂, hsize, h₂⟩
  refine (h₂.perform (.detach d) (h₂.calm.detach .ascending h₂.cache hsize)).mono ?_ fun _ h => h
  exact fun _ _ h => h.2

end Simulation

end Multicast
