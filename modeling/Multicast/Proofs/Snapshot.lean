import Mathlib.Data.List.Nodup
import Multicast.Proofs.Consistency
import Multicast.Proofs.Dump
import Multicast.Proofs.KeyOrder

/-! Dumps of hash maps. Whatever order the maps of a cache are read out in, the lists of its dump
come out sorted, and dumps are the same exactly when the caches hold the same. -/
namespace Multicast

/-! What a dump shows, as lists -/

structure GroupSnapshot where
  id : Handle
  owner : Owner
  rpfGroup : Handle
  ipmcGroup : Handle
  rpfMembers : List Member
  ipmcMembers : List Member
  ipv4Routes : List RouteKey
  ipv6Routes : List RouteKey

def GroupSnapshot.toJson (g : GroupSnapshot) : Json :=
  .obj [("id", g.id.toJson), ("owner", g.owner.toJson), ("rpf_group", g.rpfGroup.toJson),
    ("ipmc_group", g.ipmcGroup.toJson), ("rpf_members", .arr (g.rpfMembers.map Member.toJson)),
    ("ipmc_members", .arr (g.ipmcMembers.map Member.toJson)),
    ("ipv4_routes", .arr (g.ipv4Routes.map RouteKey.toJson)),
    ("ipv6_routes", .arr (g.ipv6Routes.map RouteKey.toJson))]

structure Snapshot where
  device : DeviceId
  groups : List GroupSnapshot
  routes : List Route
  stats : Stats

def Snapshot.toJson (s : Snapshot) : Json :=
  .obj [("device", s.device.toJson), ("groups", .arr (s.groups.map GroupSnapshot.toJson)),
    ("routes", .arr (s.routes.map Route.toJson)), ("stats", s.stats.toJson)]

/-! Sorting -/

/-- Ascending order of the keys of elements. -/
def SortKey.sortOn {κ α : Type} [SortKey κ] (key : α → κ) (l : List α) : List α :=
  l.mergeSort fun a b => !decide (Before (key b) (key a))

/-- A list in any order sorts to the one that is strictly ascending. -/
theorem SortKey.sortOn_eq {κ α : Type} [SortKey κ] {key : α → κ} {l l' : List α} (h : l.Perm l')
    (hasc : (l'.map key).Pairwise Before) : sortOn key l = l' := by
  have hasc' : l'.Pairwise fun a b => (compare (key a) (key b)).isLE = true :=
    (List.pairwise_map.mp hasc).imp fun hab => isLE_compare_iff.mpr hab.asymm
  have hperm : (sortOn key l).Perm l' := (List.mergeSort_perm l _).trans h
  refine hperm.eq_of_pairwise (fun a b ha hb hab hba => ?_) (mergeSort_ascending key l) hasc'
  -- Neither key is before the other, and an ascending list holds each key once.
  have hkey : key a = key b := eq_of_isLE hab hba
  have hnodup : (l'.map key).Nodup := hasc.imp fun h => h.ne
  exact List.inj_on_of_nodup_map hnodup (hperm.mem_iff.mp ha) hb hkey

/-! Reading out hash maps -/

/-- The orders in which the hash maps of a cache happen to be read out. -/
structure DeviceCache.Reading (c : DeviceCache) where
  ids : List Handle
  members : Handle → Role → List Member
  keys : Handle → Family → List RouteKey
  routes : List Route
  ids_perm : ids.Perm c.groups.keys
  members_perm : ∀ {id g}, c.groups.find? id = some g → ∀ role,
    (members id role).Perm (g.members.list role)
  keys_perm : ∀ {id g}, c.groups.find? id = some g → ∀ family,
    (keys id family).Perm (g.entries family).keys
  routes_perm : routes.Perm c.routes.values

namespace DeviceCache

variable {c : DeviceCache}

def Reading.groupSnapshot (r : c.Reading) (g : Group) : GroupSnapshot where
  id := g.id
  owner := g.owner
  rpfGroup := g.rpfGroup
  ipmcGroup := g.ipmcGroup
  rpfMembers := SortKey.sortOn Member.rif (r.members g.id .rpf)
  ipmcMembers := SortKey.sortOn Member.rif (r.members g.id .ipmc)
  ipv4Routes := SortKey.sort (r.keys g.id .ipv4)
  ipv6Routes := SortKey.sort (r.keys g.id .ipv6)

/-- Sorts all that is read out. -/
def Reading.snapshot (r : c.Reading) (d : DeviceId) : Snapshot where
  device := d
  groups := ((SortKey.sort r.ids).filterMap c.groups.find?).map r.groupSnapshot
  routes := SortKey.sortOn Route.key r.routes
  stats := c.stats

/-- All maps read out in ascending order. -/
def inOrder (c : DeviceCache) : c.Reading where
  ids := c.groups.keys
  members id role := ((c.groups.find? id).map fun g => g.members.list role).getD []
  keys id family := ((c.groups.find? id).map fun g => (g.entries family).keys).getD []
  routes := c.routes.values
  ids_perm := .refl _
  members_perm h _ := by rw [h]; exact .refl _
  keys_perm h _ := by rw [h]; exact .refl _
  routes_perm := .refl _

/-- All maps read out in descending order. -/
def backwards (c : DeviceCache) : c.Reading where
  ids := c.groups.keys.reverse
  members id role := ((c.groups.find? id).map fun g => (g.members.list role).reverse).getD []
  keys id family := ((c.groups.find? id).map fun g => (g.entries family).keys.reverse).getD []
  routes := c.routes.values.reverse
  ids_perm := List.reverse_perm _
  members_perm h _ := by rw [h]; exact List.reverse_perm _
  keys_perm h _ := by rw [h]; exact List.reverse_perm _
  routes_perm := List.reverse_perm _

end DeviceCache

namespace Table

variable {κ α : Type} [SortKey κ]

theorem KeyedBy.sortOn_eq {t : Table κ α} {key : α → κ} (h : t.KeyedBy key) {l : List α}
    (hl : l.Perm t.values) : SortKey.sortOn key l = t.values :=
  SortKey.sortOn_eq hl (List.pairwise_map.mpr h.values_ascending)

theorem sort_eq {t : Table κ α} {l : List κ} (hl : l.Perm t.keys) : SortKey.sort l = t.keys :=
  SortKey.sortOn_eq hl ((List.map_id' t.keys).symm ▸ t.keys_ascending)

theorem filterMap_find?_keys (t : Table κ α) : t.keys.filterMap t.find? = t.values := by
  rw [keys, values, List.filterMap_map, ← List.filterMap_eq_map]
  refine List.filterMap_congr fun e he => ?_
  exact find?_eq_some_iff.mpr he

end Table

/-! The dump does not depend on the orders -/

def Group.snapshot (g : Group) : GroupSnapshot :=
  ⟨g.id, g.owner, g.rpfGroup, g.ipmcGroup, g.members.list .rpf, g.members.list .ipmc,
    g.ipv4Entries.keys, g.ipv6Entries.keys⟩

def DeviceCache.snapshot (c : DeviceCache) (d : DeviceId) : Snapshot :=
  ⟨d, c.groups.values.map Group.snapshot, c.routes.values, c.stats⟩

theorem DeviceCache.toJson_snapshot (c : DeviceCache) (d : DeviceId) :
    (c.snapshot d).toJson = c.toJson d := by
  simp only [Snapshot.toJson, snapshot, List.map_map, toJson]
  rfl

namespace DeviceCache.Intact

variable {c : DeviceCache} {max : Nat}

theorem groupSnapshot_eq (h : c.Intact max) (r : c.Reading) {id : Handle} {g : Group}
    (hg : c.groups.find? id = some g) : r.groupSnapshot g = g.snapshot := by
  obtain ⟨rfl, hgi⟩ := h.groups id g hg
  have hmembers : ∀ role, SortKey.sortOn Member.rif (r.members g.id role) = g.members.list role :=
    fun role => (hgi.keyedBy role).sortOn_eq (r.members_perm hg role)
  have hkeys : ∀ family, SortKey.sort (r.keys g.id family) = (g.entries family).keys :=
    fun family => Table.sort_eq (r.keys_perm hg family)
  simp only [Reading.groupSnapshot, hmembers, hkeys]
  rfl

theorem snapshot_eq (h : c.Intact max) (r : c.Reading) (d : DeviceId) :
    r.snapshot d = c.snapshot d := by
  have hgroups : c.groups.values.map r.groupSnapshot = c.groups.values.map Group.snapshot := by
    refine List.map_congr_left fun g hg => ?_
    obtain ⟨id, hg⟩ := Table.mem_values_iff.mp hg
    exact h.groupSnapshot_eq r hg
  unfold Reading.snapshot snapshot
  rw [Table.sort_eq r.ids_perm, Table.filterMap_find?_keys, hgroups,
    h.routes_keyedBy.sortOn_eq r.routes_perm]

end DeviceCache.Intact

/-! Caches that hold the same -/

structure Member.Same (m m' : Member) : Prop where
  handle : m.handle = m'.handle
  rif : m.rif = m'.rif
  ports : ∀ port, m.ports.contains port = m'.ports.contains port

structure Group.Same (g g' : Group) : Prop where
  id : g.id = g'.id
  owner : g.owner = g'.owner
  rpfGroup : g.rpfGroup = g'.rpfGroup
  ipmcGroup : g.ipmcGroup = g'.ipmcGroup
  members : ∀ role rif, Option.Rel Member.Same ((g.members.ofRole role).find? rif)
    ((g'.members.ofRole role).find? rif)
  entries : ∀ family key, (g.entries family).contains key = (g'.entries family).contains key

/-- The same groups with the same members and entry sets, the same routes with their payload, and
the same statistics, all by look-up. -/
structure DeviceCache.Same (c c' : DeviceCache) : Prop where
  groups : ∀ id, Option.Rel Group.Same (c.groups.find? id) (c'.groups.find? id)
  routes : ∀ key, c.routes.find? key = c'.routes.find? key
  stats : c.stats = c'.stats

theorem Option.rel_eq {α : Type} {r : α → α → Prop} (hr : ∀ {a b}, r a b → a = b) {x y : Option α}
    (h : Option.Rel r x y) : x = y := by
  cases h with
  | some h => rw [hr h]
  | none => rfl

theorem KeySet.ext_contains {κ : Type} [SortKey κ] {s t : KeySet κ}
    (h : ∀ k, s.contains k = t.contains k) : s = t := by
  refine Table.ext_find? fun k => ?_
  have hk := h k
  unfold Table.contains at hk
  cases hs : s.find? k <;> cases ht : t.find? k <;> simp [hs, ht] at hk ⊢

theorem Member.Same.eq {m m' : Member} (h : m.Same m') : m = m' := by
  have hports : m.ports = m'.ports := KeySet.ext_contains h.ports
  obtain ⟨handle, rif, ports⟩ := m
  obtain ⟨rfl, rfl, -⟩ := h
  cases hports
  rfl

theorem Group.Same.eq {g g' : Group} (h : g.Same g') : g = g' := by
  have hmembers : ∀ role, g.members.ofRole role = g'.members.ofRole role := fun role =>
    Table.ext_find? fun rif => Option.rel_eq Member.Same.eq (h.members role rif)
  have hentries : ∀ family, g.entries family = g'.entries family := fun family =>
    KeySet.ext_contains (h.entries family)
  have hrpf : g.members.rpf = g'.members.rpf := hmembers .rpf
  have hipmc : g.members.ipmc = g'.members.ipmc := hmembers .ipmc
  have h4 : g.ipv4Entries = g'.ipv4Entries := hentries .ipv4
  have h6 : g.ipv6Entries = g'.ipv6Entries := hentries .ipv6
  obtain ⟨id, owner, rpfGroup, ipmcGroup, ⟨rpf, ipmc⟩, keys4, keys6⟩ := g
  obtain ⟨rfl, rfl, rfl, rfl, -, -⟩ := h
  cases hrpf
  cases hipmc
  cases h4
  cases h6
  rfl

theorem DeviceCache.same_iff {c c' : DeviceCache} : c.Same c' ↔ c = c' := by
  constructor
  · intro h
    have hgroups : c.groups = c'.groups :=
      Table.ext_find? fun id => Option.rel_eq Group.Same.eq (h.groups id)
    have hroutes : c.routes = c'.routes := Table.ext_find? h.routes
    obtain ⟨groups, routes, stats⟩ := c
    obtain ⟨-, -, rfl⟩ := h
    simp only at hgroups hroutes
    rw [hgroups, hroutes]
  · rintro rfl
    refine ⟨fun id => ?_, fun _ => rfl, rfl⟩
    cases c.groups.find? id with
    | none => exact .none
    | some g =>
      refine .some ⟨rfl, rfl, rfl, rfl, fun role rif => ?_, fun _ _ => rfl⟩
      cases (g.members.ofRole role).find? rif with
      | none => exact .none
      | some m => exact .some ⟨rfl, rfl, fun _ => rfl⟩

/-- Two reachable caches of one device, read out in any orders, are dumped alike exactly when they
hold the same, as values and as texts. The dump of a cache lists, in strictly ascending order, all
that the cache holds; and its text is read back if no counter is beyond 64 bits. -/
theorem dumps_are_canonical {σ σ' : Type} {config config' : Config} {hw : Hardware σ}
    {hw' : Hardware σ'} {w : World σ} {w' : World σ'} (h : w.Reachable config hw)
    (h' : w'.Reachable config' hw') {d : DeviceId} {c c' : DeviceCache}
    (hc : w.fleet.find? d = some c) (hc' : w'.fleet.find? d = some c') (r : c.Reading)
    (r' : c'.Reading) :
    w.dump d = .ok (r.snapshot d).toJson.pretty ∧
    ((r.snapshot d).toJson = (r'.snapshot d).toJson ↔ c.Same c') ∧
    (w.dump d = w'.dump d ↔ c.Same c') ∧
    c.ShownBy d (r.snapshot d).toJson ∧
    ((∀ n ∈ c.stats.counters, n < 2 ^ 64) →
      Json.ofText? (r.snapshot d).toJson.pretty = some (r.snapshot d).toJson) := by
  have hI := h.intact d c hc
  have hI' := h'.intact d c' hc'
  have hdump : w.dump d = .ok (c.toJson d).pretty := World.dump_eq hc
  have hdump' : w'.dump d = .ok (c'.toJson d).pretty := World.dump_eq hc'
  have hsame : c.toJson d = c'.toJson d ↔ c.Same c' :=
    (hI.toJson_inj hI').trans DeviceCache.same_iff.symm
  have htext : w.dump d = w'.dump d ↔ c.Same c' := by
    rw [hdump, hdump', Except.ok.injEq, DeviceCache.pretty_toJson_inj, hsame]
  rw [hI.snapshot_eq r, hI'.snapshot_eq r', c.toJson_snapshot, c'.toJson_snapshot]
  exact ⟨hdump, hsame, htext, hI.shown d, DeviceCache.ofText?_pretty_toJson⟩

/-- Two groups with an ingress and two egress members each, and routes added to them in turn. -/
def World.crowded (routes : List Route) : World Switch :=
  let o : Orchestrator Switch := ⟨{}, Switch.hardware, .ascending⟩
  let names : List Lookup :=
    [.vrf ⟨0⟩, .rif ⟨10⟩, .rif ⟨11⟩, .rif ⟨12⟩, .port (.lag 1), .port (.lag 2)]
  let s := names.foldl (fun s l => (s.register ⟨1⟩ l).2) Switch.empty
  let w := ((Operation.attach ⟨1⟩).perform o (.start s)).world
  let create := Operation.createGroup ⟨1⟩ .ipmc ⟨⟨10⟩, []⟩ [⟨⟨12⟩, [.lag 2, .lag 1]⟩, ⟨⟨11⟩, []⟩]
  let w := (create.perform o (create.perform o w).world).world
  routes.foldl (fun w r => ((Operation.addRoute ⟨1⟩ r).perform o w).world) w

theorem World.crowded_reachable (routes : List Route) :
    (crowded routes).Reachable {} Switch.hardware := by
  have hadd : ∀ w : World Switch, w.Reachable {} Switch.hardware →
      (routes.foldl (fun w r => ((Operation.addRoute ⟨1⟩ r).perform
        ⟨{}, Switch.hardware, .ascending⟩ w).world) w).Reachable {} Switch.hardware := by
    induction routes with
    | nil => exact fun _ h => h
    | cons r rest ih => exact fun w h => ih _ (.perform .ascending _ h)
  exact hadd _ (.perform .ascending _ (.perform .ascending _ (.perform .ascending _ (.start _))))

def crowdedKey (n : UInt8) : RouteKey := .starG ⟨0⟩ (.v4 ⟨239, 1, 1, n⟩)

/-- Two routes of the first group and one of the second. -/
def crowdedRoutes : List Route :=
  [⟨crowdedKey 2, ⟨10⟩, .make .group 7, false⟩, ⟨crowdedKey 3, ⟨11⟩, .make .group 13, true⟩,
    ⟨crowdedKey 1, ⟨10⟩, .make .group 7, false⟩]

/-- The order in which routes were added, and in which maps are read out, makes no difference; a
route that is missing does. -/
theorem dumps_are_canonical_backwards :
    let w := World.crowded crowdedRoutes
    let w' := World.crowded crowdedRoutes.reverse
    let w'' := World.crowded crowdedRoutes.tail
    ∃ c c' c'', (w.fleet.find? ⟨1⟩ = some c ∧ w'.fleet.find? ⟨1⟩ = some c' ∧
        w''.fleet.find? ⟨1⟩ = some c'') ∧
      (c.backwards.ids = [.make .group 13, .make .group 7] ∧
        (c.backwards.members (.make .group 7) .ipmc).map Member.rif = [⟨12⟩, ⟨11⟩] ∧
        c.backwards.keys (.make .group 7) .ipv4 = [crowdedKey 2, crowdedKey 1] ∧
        c.backwards.routes.map Route.key = [crowdedKey 3, crowdedKey 2, crowdedKey 1]) ∧
      (c.backwards.snapshot ⟨1⟩).toJson = (c'.inOrder.snapshot ⟨1⟩).toJson ∧
      w.dump ⟨1⟩ = w'.dump ⟨1⟩ ∧
      (c.backwards.snapshot ⟨1⟩).toJson ≠ (c''.inOrder.snapshot ⟨1⟩).toJson ∧
      w.dump ⟨1⟩ ≠ w''.dump ⟨1⟩ ∧
      c.ShownBy ⟨1⟩ (c.backwards.snapshot ⟨1⟩).toJson ∧
      Json.ofText? (c.backwards.snapshot ⟨1⟩).toJson.pretty =
        some (c.backwards.snapshot ⟨1⟩).toJson := by
  intro w w' w''
  let cache (w : World Switch) : DeviceCache := (w.fleet.find? ⟨1⟩).getD .empty
  have hc : w.fleet.find? ⟨1⟩ = some (cache w) := by decide +kernel
  have hc' : w'.fleet.find? ⟨1⟩ = some (cache w') := by decide +kernel
  have hc'' : w''.fleet.find? ⟨1⟩ = some (cache w'') := by decide +kernel
  have hsame : (cache w).Same (cache w') := DeviceCache.same_iff.mpr (by decide +kernel)
  have hother : ¬(cache w).Same (cache w'') := by
    rw [DeviceCache.same_iff]
    decide +kernel
  have hsmall : ∀ n ∈ (cache w).stats.counters, n < 2 ^ 64 := by decide +kernel
  obtain ⟨-, hvalue, htext, hshown, hread⟩ :=
    dumps_are_canonical (World.crowded_reachable _) (World.crowded_reachable _) hc hc'
      (cache w).backwards (cache w').inOrder
  obtain ⟨-, hvalue'', htext'', -, -⟩ :=
    dumps_are_canonical (World.crowded_reachable _) (World.crowded_reachable _) hc hc''
      (cache w).backwards (cache w'').inOrder
  refine ⟨cache w, cache w', cache w'', ⟨hc, hc', hc''⟩, ?_, hvalue.mpr hsame, htext.mpr hsame,
    fun h => hother (hvalue''.mp h), fun h => hother (htext''.mp h), hshown, hread hsmall⟩
  exact ⟨by decide +kernel, by decide +kernel, by decide +kernel, by decide +kernel⟩

end Multicast
