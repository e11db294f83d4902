import Multicast.Proofs.Agreement

/-! The cache of a device stores the link between a route and its group three times: in the index,
and in one of the two key sets of the group. Every change of the cache keeps them in agreement. -/
namespace Multicast

structure Group.Intact (g : Group) : Prop where
  members : ∀ role rif m, (g.members.ofRole role).find? rif = some m → m.rif = rif
  rpfOnce : g.members.size .rpf ≤ 1
  /-- Without its ingress sub-group a group has no ingress member. -/
  rpfRooted : g.rpfGroup.isNull = true → g.members.size .rpf = 0

/-- `max` bounds the number of groups. -/
structure DeviceCache.Intact (max : Nat) (c : DeviceCache) : Prop where
  groups : ∀ id g, c.groups.find? id = some g → g.id = id ∧ g.Intact
  routes : ∀ key r, c.routes.find? key = some r → r.key = key ∧ key.validate = .ok ()
  filed : ∀ id g f key, c.groups.find? id = some g →
    ((g.entries f).contains key = true ↔
      key.family = f ∧ ∃ r, c.routes.find? key = some r ∧ r.group = id)
  grouped : ∀ key r, c.routes.find? key = some r → ∃ g, c.groups.find? r.group = some g
  complete : ∀ key r g, c.routes.find? key = some r → c.groups.find? r.group = some g →
    g.isComplete = true
  bounded : c.groups.size ≤ max

namespace Group

theorem isInUse_eq_false_iff {g : Group} :
    g.isInUse = false ↔ ∀ f, (g.entries f).isEmpty = true := by
  unfold isInUse
  constructor
  · intro h f
    cases f <;> simp_all [entries]
  · intro h
    have h4 := h .ipv4
    have h6 := h .ipv6
    simp_all [entries]

@[simp] theorem entries_new (id : Handle) (owner : Owner) (rpf ipmc : Handle) (f : Family) :
    (new id owner rpf ipmc).entries f = ∅ := by
  cases f <;> rfl

theorem contains_addKey {g : Group} {key key' : RouteKey} {f : Family} :
    ((g.addKey key).entries f).contains key' = true ↔
      key' = key ∧ key.family = f ∨ (g.entries f).contains key' = true := by
  unfold addKey
  rw [entries_setEntries]
  by_cases hf : f = key.family
  · rw [if_pos hf, KeySet.contains_insert, hf]
    simp
  · have : ¬key.family = f := fun h => hf h.symm
    simp [hf, this]

theorem contains_dropKey {g : Group} {key key' : RouteKey} {f : Family} :
    ((g.dropKey key).entries f).contains key' = true ↔
      (key' = key → key.family ≠ f) ∧ (g.entries f).contains key' = true := by
  unfold dropKey
  rw [entries_setEntries]
  by_cases hf : f = key.family
  · rw [if_pos hf, KeySet.contains_erase, hf]
    simp
  · have : key.family ≠ f := fun h => hf h.symm
    simp [hf, this]

/-! The fields that filing a key leaves alone -/

@[simp] theorem setEntries_id (g : Group) (s : KeySet RouteKey) (f : Family) :
    (g.setEntries s f).id = g.id := by cases f <;> rfl

@[simp] theorem setEntries_members (g : Group) (s : KeySet RouteKey) (f : Family) :
    (g.setEntries s f).members = g.members := by cases f <;> rfl

@[simp] theorem setEntries_rpfGroup (g : Group) (s : KeySet RouteKey) (f : Family) :
    (g.setEntries s f).rpfGroup = g.rpfGroup := by cases f <;> rfl

@[simp] theorem setEntries_ipmcGroup (g : Group) (s : KeySet RouteKey) (f : Family) :
    (g.setEntries s f).ipmcGroup = g.ipmcGroup := by cases f <;> rfl

@[simp] theorem isComplete_addKey (g : Group) (key : RouteKey) :
    (g.addKey key).isComplete = g.isComplete := by
  simp [isComplete, addKey]

@[simp] theorem isComplete_dropKey (g : Group) (key : RouteKey) :
    (g.dropKey key).isComplete = g.isComplete := by
  simp [isComplete, dropKey]

theorem Intact.new (id : Handle) (owner : Owner) (rpf ipmc : Handle) :
    (new id owner rpf ipmc).Intact where
  members := by
    intro role rif m h
    cases role <;> cases h
  rpfOnce := Nat.zero_le 1
  rpfRooted := fun _ => rfl

end Group

namespace DeviceCache

variable {max : Nat} {c c' : DeviceCache}

theorem Intact.empty (max : Nat) : Intact max .empty where
  groups := by
    intro id g h
    cases h
  routes := by
    intro key r h
    cases h
  filed := by
    intro id g f key h
    cases h
  grouped := by
    intro key r h
    cases h
  complete := by
    intro key r g h
    cases h
  bounded := Nat.zero_le max

/-- Counters do not matter. -/
theorem Intact.of_tables (h : c.Intact max) (hg : c'.groups = c.groups)
    (hr : c'.routes = c.routes) : c'.Intact max := by
  constructor
  · rw [hg]; exact h.groups
  · rw [hr]; exact h.routes
  · rw [hg, hr]; exact h.filed
  · rw [hg, hr]; exact h.grouped
  · rw [hg, hr]; exact h.complete
  · rw [hg]; exact h.bounded

/-- A group is in use when some route is indexed to it. -/
theorem Intact.isInUse_eq_false_iff (h : c.Intact max) {id : Handle} {g : Group}
    (hg : c.groups.find? id = some g) :
    g.isInUse = false ↔ ∀ key r, c.routes.find? key = some r → r.group ≠ id := by
  rw [Group.isInUse_eq_false_iff]
  constructor
  · intro hempty key r hr hid
    have hkey := (h.filed id g key.family key hg).mpr ⟨rfl, r, hr, hid⟩
    rw [Table.contains_eq_false_iff.mpr (Table.find?_eq_none_of_isEmpty (hempty _) key)] at hkey
    cases hkey
  · intro hunused f
    apply Table.isEmpty_of_find?_eq_none
    intro key
    rw [← Table.contains_eq_false_iff, Bool.eq_false_iff]
    intro hkey
    obtain ⟨_, r, hr, hid⟩ := (h.filed id g f key hg).mp hkey
    exact hunused key r hr hid

theorem Intact.mem_routeKeys (h : c.Intact max) {id : Handle} {g : Group}
    (hg : c.groups.find? id = some g) {key : RouteKey} :
    key ∈ g.routeKeys ↔ ∃ r, c.routes.find? key = some r ∧ r.group = id := by
  rw [Group.mem_routeKeys]
  constructor
  · rintro ⟨f, hkey⟩
    exact ((h.filed id g f key hg).mp hkey).2
  · intro hr
    exact ⟨key.family, (h.filed id g _ key hg).mpr ⟨rfl, hr⟩⟩

theorem Intact.routes_eq_empty (h : c.Intact max) (hempty : c.groups.size = 0) : c.routes = ∅ := by
  apply Table.ext_find?
  intro key
  cases hr : c.routes.find? key with
  | none => rfl
  | some r =>
    obtain ⟨g, hg⟩ := h.grouped key r hr
    rw [Table.eq_empty_of_size_eq_zero hempty] at hg
    cases hg

/-! Changes of the group table -/

theorem Intact.insertGroup (h : c.Intact max) {id : Handle} (hid : c.groups.find? id = none)
    (hsize : c.groups.size < max) (owner : Owner) (rpf ipmc : Handle) :
    (c.insertGroup (.new id owner rpf ipmc)).Intact max := by
  change Intact max { c with groups := c.groups.insert id (.new id owner rpf ipmc) }
  constructor
  · intro id' g hg
    by_cases hid' : id' = id
    · rw [hid', Table.find?_insert_self] at hg
      cases hg
      exact ⟨hid'.symm, .new id owner rpf ipmc⟩
    · rw [Table.find?_insert_of_ne _ _ hid'] at hg
      exact h.groups id' g hg
  · exact h.routes
  · intro id' g f key hg
    by_cases hid' : id' = id
    · rw [hid', Table.find?_insert_self] at hg
      cases hg
      have hunused : ∀ r, c.routes.find? key = some r → r.group ≠ id' := by
        intro r hr hr'
        obtain ⟨g', hg'⟩ := h.grouped key r hr
        rw [hr', hid', hid] at hg'
        cases hg'
      simp only [Group.entries_new]
      constructor
      · intro hkey
        cases hkey
      · rintro ⟨_, r, hr, hr'⟩
        exact (hunused r hr hr').elim
    · rw [Table.find?_insert_of_ne _ _ hid'] at hg
      exact h.filed id' g f key hg
  · intro key r hr
    obtain ⟨g, hg⟩ := h.grouped key r hr
    by_cases hid' : r.group = id
    · rw [hid', hid] at hg
      cases hg
    · exact ⟨g, (Table.find?_insert_of_ne _ _ hid').trans hg⟩
  · intro key r g hr hg
    by_cases hid' : r.group = id
    · obtain ⟨g', hg'⟩ := h.grouped key r hr
      rw [hid', hid] at hg'
      cases hg'
    · rw [Table.find?_insert_of_ne _ _ hid'] at hg
      exact h.complete key r g hr hg
  · rw [Table.size_insert _ hid]
    exact hsize

theorem Intact.eraseGroup (h : c.Intact max) {id : Handle} {g : Group}
    (hg : c.groups.find? id = some g) (huse : g.isInUse = false) :
    (c.eraseGroup id).Intact max := by
  change Intact max { c with groups := c.groups.erase id }
  have hunused := (h.isInUse_eq_false_iff hg).mp huse
  have hfind : ∀ id' g', (c.groups.erase id).find? id' = some g' →
      c.groups.find? id' = some g' := by
    intro id' g' hg'
    by_cases hid' : id' = id
    · rw [hid', Table.find?_erase_self] at hg'
      cases hg'
    · rwa [Table.find?_erase_of_ne _ hid'] at hg'
  constructor
  · exact fun id' g' hg' => h.groups id' g' (hfind id' g' hg')
  · exact h.routes
  · exact fun id' g' f key hg' => h.filed id' g' f key (hfind id' g' hg')
  · intro key r hr
    obtain ⟨g', hg'⟩ := h.grouped key r hr
    exact ⟨g', (Table.find?_erase_of_ne _ (hunused key r hr)).trans hg'⟩
  · exact fun key r g' hr hg' => h.complete key r g' hr (hfind r.group g' hg')
  · have := Table.size_erase hg
    have := h.bounded
    simp only
    omega

/-- A group may change in all but its handle and its keys. -/
theorem Intact.setGroup (h : c.Intact max) {id : Handle} {g g' : Group}
    (hg : c.groups.find? id = some g) (hid : g'.id = g.id)
    (hentries : ∀ f, g'.entries f = g.entries f) (hg' : g'.Intact)
    (hcomplete : g.isInUse = true → g.isComplete = true → g'.isComplete = true) :
    (c.setGroup id g').Intact max := by
  change Intact max { c with groups := c.groups.modify id fun _ => g' }
  have hfind : ∀ id' g₁, (c.groups.modify id fun _ => g').find? id' = some g₁ →
      ∃ g₀, c.groups.find? id' = some g₀ ∧ g₁.id = g₀.id ∧
        (∀ f, g₁.entries f = g₀.entries f) ∧ (g₀.Intact → g₁.Intact) ∧
        (g₀.isInUse = true → g₀.isComplete = true → g₁.isComplete = true) := by
    intro id' g₁ hg₁
    by_cases hid' : id' = id
    · subst hid'
      rw [Table.find?_modify_self _ hg] at hg₁
      cases hg₁
      exact ⟨g, hg, hid, hentries, fun _ => hg', hcomplete⟩
    · rw [Table.find?_modify_of_ne _ _ hid'] at hg₁
      exact ⟨g₁, hg₁, rfl, fun _ => rfl, fun h => h, fun _ hc => hc⟩
  constructor
  · intro id' g₁ hg₁
    obtain ⟨g₀, hg₀, hid₀, _, hintact, _⟩ := hfind id' g₁ hg₁
    have ⟨hown, hg₀'⟩ := h.groups id' g₀ hg₀
    exact ⟨hid₀.trans hown, hintact hg₀'⟩
  · exact h.routes
  · intro id' g₁ f key hg₁
    obtain ⟨g₀, hg₀, _, hentries₀, _⟩ := hfind id' g₁ hg₁
    rw [hentries₀]
    exact h.filed id' g₀ f key hg₀
  · intro key r hr
    obtain ⟨g₀, hg₀⟩ := h.grouped key r hr
    by_cases hid' : r.group = id
    · exact ⟨g', by rw [hid']; exact Table.find?_modify_self _ hg⟩
    · exact ⟨g₀, (Table.find?_modify_of_ne _ _ hid').trans hg₀⟩
  · intro key r g₁ hr hg₁
    obtain ⟨g₀, hg₀, _, _, _, hcomplete₀⟩ := hfind r.group g₁ hg₁
    refine hcomplete₀ ?_ (h.complete key r g₀ hr hg₀)
    rw [← Bool.not_eq_false, h.isInUse_eq_false_iff hg₀]
    exact fun hunused => hunused key r hr rfl
  · rw [Table.size_modify]
    exact h.bounded

/-! Changes of the route index, and of the keys that the groups file with it -/

theorem Intact.refile (h : c.Intact max) {groups : GroupTable} {routes : RouteTable}
    (hgroups : ∀ id g', groups.find? id = some g' → ∃ g, c.groups.find? id = some g ∧
      g'.id = g.id ∧ g'.members = g.members ∧ g'.rpfGroup = g.rpfGroup)
    (hsize : groups.size = c.groups.size)
    (hroutes : ∀ key r, routes.find? key = some r → r.key = key ∧ key.validate = .ok () ∧
      ∃ g, groups.find? r.group = some g ∧ g.isComplete = true)
    (hfiled : ∀ id g f key, groups.find? id = some g →
      ((g.entries f).contains key = true ↔
        key.family = f ∧ ∃ r, routes.find? key = some r ∧ r.group = id)) :
    Intact max { c with groups := groups, routes := routes } where
  groups := by
    intro id g' hg'
    obtain ⟨g, hg, hid, hmembers, hrpf⟩ := hgroups id g' hg'
    have ⟨hown, hg⟩ := h.groups id g hg
    refine ⟨hid.trans hown, ?_, ?_, ?_⟩
    · rw [hmembers]; exact hg.members
    · rw [hmembers]; exact hg.rpfOnce
    · rw [hmembers, hrpf]; exact hg.rpfRooted
  routes := fun key r hr => ⟨(hroutes key r hr).1, (hroutes key r hr).2.1⟩
  filed := hfiled
  grouped := by
    intro key r hr
    obtain ⟨_, _, g, hg, _⟩ := hroutes key r hr
    exact ⟨g, hg⟩
  complete := by
    intro key r g hr hg
    obtain ⟨_, _, g', hg', hcomplete⟩ := hroutes key r hr
    rw [hg] at hg'
    cases hg'
    exact hcomplete
  bounded := by
    rw [hsize]
    exact h.bounded

theorem Intact.insertRoute (h : c.Intact max) {r : Route} {g : Group}
    (hkey : c.routes.find? r.key = none) (hvalid : r.key.validate = .ok ())
    (hg : c.groups.find? r.group = some g) (hcomplete : g.isComplete = true) :
    (c.insertRoute r g).Intact max := by
  have hself := Table.find?_modify_self (fun _ => g.addKey r.key) hg
  apply h.refile
  · intro id g' hg'
    by_cases hid : id = r.group
    · rw [hid, hself] at hg'
      cases hg'
      exact ⟨g, hid ▸ hg, by simp [Group.addKey]⟩
    · rw [Table.find?_modify_of_ne _ _ hid] at hg'
      exact ⟨g', hg', rfl, rfl, rfl⟩
  · exact Table.size_modify _ _ _
  · intro key r' hr'
    by_cases hk : key = r.key
    · rw [hk, Table.find?_insert_self] at hr'
      cases hr'
      exact ⟨hk.symm, hk ▸ hvalid, g.addKey r.key, hself, by simpa⟩
    · rw [Table.find?_insert_of_ne _ _ hk] at hr'
      have ⟨hown, hvalid'⟩ := h.routes key r' hr'
      obtain ⟨g', hg'⟩ := h.grouped key r' hr'
      refine ⟨hown, hvalid', ?_⟩
      by_cases hid : r'.group = r.group
      · exact ⟨g.addKey r.key, hid ▸ hself, by simpa⟩
      · exact ⟨g', (Table.find?_modify_of_ne _ _ hid).trans hg', h.complete key r' g' hr' hg'⟩
  · intro id g' f key hg'
    have hfiled : ∀ g₀, c.groups.find? id = some g₀ → ((g₀.entries f).contains key = true ↔
        key ≠ r.key ∧ key.family = f ∧ ∃ r', c.routes.find? key = some r' ∧ r'.group = id) := by
      intro g₀ hg₀
      rw [h.filed id g₀ f key hg₀]
      constructor
      · rintro ⟨hf, r', hr', hid⟩
        refine ⟨?_, hf, r', hr', hid⟩
        rintro rfl
        rw [hkey] at hr'
        cases hr'
      · exact And.right
    by_cases hid : id = r.group
    · rw [hid, hself] at hg'
      cases hg'
      rw [Group.contains_addKey, hfiled g (hid ▸ hg)]
      by_cases hk : key = r.key
      · simp [hk, hid]
      · simp [hk]
    · rw [Table.find?_modify_of_ne _ _ hid] at hg'
      rw [hfiled g' hg']
      by_cases hk : key = r.key
      · simp [hk, Ne.symm hid]
      · simp [hk]

theorem Intact.eraseRoute (h : c.Intact max) {r : Route} {g : Group}
    (hr : c.routes.find? r.key = some r) (hg : c.groups.find? r.group = some g) :
    (c.eraseRoute r g).Intact max := by
  have hself := Table.find?_modify_self (fun _ => g.dropKey r.key) hg
  have hroute : ∀ key r', (c.routes.erase r.key).find? key = some r' ↔
      key ≠ r.key ∧ c.routes.find? key = some r' := by
    intro key r'
    by_cases hk : key = r.key <;> simp [hk]
  apply h.refile
  · intro id g' hg'
    by_cases hid : id = r.group
    · rw [hid, hself] at hg'
      cases hg'
      exact ⟨g, hid ▸ hg, by simp [Group.dropKey]⟩
    · rw [Table.find?_modify_of_ne _ _ hid] at hg'
      exact ⟨g', hg', rfl, rfl, rfl⟩
  · exact Table.size_modify _ _ _
  · intro key r' hr'
    have ⟨hk, hr'⟩ := (hroute key r').mp hr'
    have ⟨hown, hvalid⟩ := h.routes key r' hr'
    obtain ⟨g', hg'⟩ := h.grouped key r' hr'
    have hcomplete := h.complete key r' g' hr' hg'
    refine ⟨hown, hvalid, ?_⟩
    by_cases hid : r'.group = r.group
    · rw [hid, hg] at hg'
      cases hg'
      exact ⟨g.dropKey r.key, hid ▸ hself, by simpa⟩
    · exact ⟨g', (Table.find?_modify_of_ne _ _ hid).trans hg', hcomplete⟩
  · intro id g' f key hg'
    simp only [hroute]
    by_cases hid : id = r.group
    · rw [hid, hself] at hg'
      cases hg'
      rw [Group.contains_dropKey, h.filed id g f key (hid ▸ hg)]
      by_cases hk : key = r.key
      · subst hk
        constructor
        · rintro ⟨hf, hf', _⟩
          exact (hf rfl hf').elim
        · rintro ⟨_, _, ⟨hne, _⟩, _⟩
          exact (hne rfl).elim
      · simp [hk]
    · rw [Table.find?_modify_of_ne _ _ hid] at hg'
      rw [h.filed id g' f key hg']
      by_cases hk : key = r.key
      · subst hk
        simp [hr, Ne.symm hid]
      · simp [hk]

theorem Intact.setRoute (h : c.Intact max) {r r' : Route} {g g' : Group}
    (hr : c.routes.find? r.key = some r) (hg : c.groups.find? r.group = some g)
    (hkey : r'.key = r.key) (hg' : c.groups.find? r'.group = some g')
    (hcomplete : g'.isComplete = true) : (c.setRoute r g r' g').Intact max := by
  unfold DeviceCache.setRoute
  by_cases hne : r.group = r'.group
  · -- the groups stay as they are
    have hroute : ∀ key r₁, (c.routes.modify r.key fun _ => r').find? key = some r₁ →
        ∃ r₀, c.routes.find? key = some r₀ ∧ r₁.key = r₀.key ∧ r₁.group = r₀.group := by
      intro key r₁ hr₁
      by_cases hk : key = r.key
      · rw [hk, Table.find?_modify_self _ hr] at hr₁
        cases hr₁
        exact ⟨r, hk ▸ hr, hkey, hne.symm⟩
      · rw [Table.find?_modify_of_ne _ _ hk] at hr₁
        exact ⟨r₁, hr₁, rfl, rfl⟩
    rw [if_pos hne]
    apply h.refile
    · exact fun id g₁ hg₁ => ⟨g₁, hg₁, rfl, rfl, rfl⟩
    · rfl
    · intro key r₁ hr₁
      obtain ⟨r₀, hr₀, hk, hgroup⟩ := hroute key r₁ hr₁
      have ⟨hown, hvalid⟩ := h.routes key r₀ hr₀
      obtain ⟨g₀, hg₀⟩ := h.grouped key r₀ hr₀
      rw [hgroup]
      exact ⟨hk.trans hown, hvalid, g₀, hg₀, h.complete key r₀ g₀ hr₀ hg₀⟩
    · intro id g₁ f key hg₁
      rw [h.filed id g₁ f key hg₁]
      by_cases hk : key = r.key
      · rw [hk, Table.find?_modify_self _ hr, hr]
        simp [hne]
      · rw [Table.find?_modify_of_ne _ _ hk]
  · -- a move is a removal followed by an addition
    have hvalid := (h.routes r.key r hr).2
    have hadded := (h.eraseRoute hr hg).insertRoute (r := r') (g := g')
      (by simp [DeviceCache.eraseRoute, hkey]) (hkey ▸ hvalid)
      ((Table.find?_modify_of_ne _ _ (Ne.symm hne)).trans hg') hcomplete
    have hroutes : (c.routes.erase r.key).insert r.key r' = c.routes.modify r.key fun _ => r' := by
      apply Table.ext_find?
      intro key
      by_cases hk : key = r.key
      · rw [hk, Table.find?_insert_self, Table.find?_modify_self _ hr]
      · rw [Table.find?_insert_of_ne _ _ hk, Table.find?_erase_of_ne _ hk,
          Table.find?_modify_of_ne _ _ hk]
    rw [if_neg hne]
    simpa only [DeviceCache.insertRoute, DeviceCache.eraseRoute, hkey, hroutes] using hadded

/-! The check of the cache -/

theorem Intact.consistent (h : c.Intact max) : c.Consistent where
  rpfOnce := fun id g hg => (h.groups id g hg).2.rpfOnce
  indexed := by
    intro id g f key hg hkey
    rw [(h.groups id g hg).1]
    exact ((h.filed id g f key hg).mp hkey).2
  listed := by
    intro key r hr
    obtain ⟨g, hg⟩ := h.grouped key r hr
    rw [(h.routes key r hr).1]
    exact ⟨g, hg, (h.filed r.group g key.family key hg).mpr ⟨rfl, r, hr, rfl⟩⟩
  family := fun id g f key hg hkey => ((h.filed id g f key hg).mp hkey).1

theorem Intact.checkConsistency (h : c.Intact max) : c.checkConsistency = .ok () :=
  checkConsistency_eq_ok_iff.mpr h.consistent.agrees

end DeviceCache

end Multicast
