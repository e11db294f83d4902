import Multicast.Orchestrator
import Multicast.Proofs.ExternalForm
import Multicast.Proofs.JsonUnique
import Multicast.Proofs.Rendering

/-! Dumps. The JSON value of a cache lists all that the cache holds, in ascending order, and its
text is that of no other cache. -/
namespace Multicast

/-! Tables as lists -/

namespace Table

variable {κ α : Type} [SortKey κ] {t : Table κ α} {key : α → κ} {l : List α}

/-- The values of the table, in strictly ascending order of the keys that they name, so each value
once, and none besides. -/
structure Lists (t : Table κ α) (key : α → κ) (l : List α) : Prop where
  ascending : (l.map key).Pairwise SortKey.Before
  complete : ∀ k a, t.find? k = some a ↔ a ∈ l ∧ key a = k

theorem KeyedBy.lists (h : t.KeyedBy key) : t.Lists key t.values where
  ascending := List.pairwise_map.mpr h.values_ascending
  complete k a := by
    constructor
    · exact fun ha => ⟨mem_values_iff.mpr ⟨k, ha⟩, h k a ha⟩
    · rintro ⟨ha, rfl⟩
      obtain ⟨k, ha⟩ := mem_values_iff.mp ha
      exact h k a ha ▸ ha

theorem Lists.keyedBy (h : t.Lists key l) : t.KeyedBy key :=
  fun k a ha => ((h.complete k a).mp ha).2

/-- A table is listed in one way only. -/
theorem Lists.eq_values (h : t.Lists key l) : l = t.values := by
  have hmem : ∀ {l'}, t.Lists key l' → ∀ a, a ∈ l' ↔ t.find? (key a) = some a :=
    fun h' a => ((h'.complete _ a).trans (and_iff_left rfl)).symm
  exact SortKey.eq_of_mem_iff key (List.pairwise_map.mp h.ascending) h.keyedBy.values_ascending
    fun a => (hmem h a).trans (hmem h.keyedBy.lists a).symm

theorem Lists.length_eq (h : t.Lists key l) : l.length = t.size :=
  h.eq_values ▸ List.length_map _

end Table

namespace KeySet

variable {κ : Type} [SortKey κ] {s : KeySet κ} {l : List κ}

/-- The keys in the set, in strictly ascending order. -/
structure Lists (s : KeySet κ) (l : List κ) : Prop where
  ascending : l.Pairwise SortKey.Before
  complete : ∀ key, key ∈ l ↔ s.contains key = true

theorem lists_keys (s : KeySet κ) : Lists s s.keys :=
  ⟨s.keys_ascending, fun _ => Table.mem_keys_iff⟩

theorem Lists.eq_keys (h : Lists s l) : l = s.keys :=
  SortKey.eq_of_mem_iff id h.ascending s.keys_ascending fun k =>
    (h.complete k).trans Table.mem_keys_iff.symm

theorem Lists.length_eq (h : Lists s l) : l.length = s.size :=
  h.eq_keys ▸ List.length_map _

end KeySet

/-! What the value shows -/

/-- The field of a dumped group that lists its members of a role. -/
def Role.field : Role → String
  | .rpf => "rpf_members"
  | .ipmc => "ipmc_members"

/-- The field of a dumped group that lists its routes of a family. -/
def Family.field : Family → String
  | .ipv4 => "ipv4_routes"
  | .ipv6 => "ipv6_routes"

/-- The value has the handles of the group, its members by their interfaces and its routes by their
keys. -/
structure Group.ShownBy (g : Group) (v : Json) : Prop where
  id : v.get? "id" = some g.id.toJson
  owner : v.get? "owner" = some g.owner.toJson
  rpfGroup : v.get? "rpf_group" = some g.rpfGroup.toJson
  ipmcGroup : v.get? "ipmc_group" = some g.ipmcGroup.toJson
  members : ∀ role, ∃ members, v.get? role.field = some (.arr (members.map Member.toJson)) ∧
    (g.members.ofRole role).Lists Member.rif members
  routes : ∀ family, ∃ keys, v.get? family.field = some (.arr (keys.map RouteKey.toJson)) ∧
    KeySet.Lists (g.entries family) keys

/-- The value has the groups of the cache by their handles, its routes by their keys, and its
statistics. -/
structure DeviceCache.ShownBy (c : DeviceCache) (d : DeviceId) (v : Json) : Prop where
  device : v.get? "device" = some d.toJson
  groups : ∃ groups items, v.get? "groups" = some (.arr items) ∧ c.groups.Lists Group.id groups ∧
    List.Forall₂ Group.ShownBy groups items
  routes : ∃ routes, v.get? "routes" = some (.arr (routes.map Route.toJson)) ∧
    c.routes.Lists Route.key routes
  stats : v.get? "stats" = some c.stats.toJson

theorem Group.Intact.shown {g : Group} (h : g.Intact) : g.ShownBy g.toJson where
  id := rfl
  owner := rfl
  rpfGroup := rfl
  ipmcGroup := rfl
  members role := by
    refine ⟨g.members.list role, ?_, (h.keyedBy role).lists⟩
    cases role <;> rfl
  routes family := by
    refine ⟨(g.entries family).keys, ?_, KeySet.lists_keys _⟩
    cases family <;> rfl

/-- The dump of a cache shows what it holds. -/
theorem DeviceCache.Intact.shown {c : DeviceCache} {max : Nat} (h : c.Intact max) (d : DeviceId) :
    c.ShownBy d (c.toJson d) where
  device := rfl
  groups := by
    refine ⟨c.groups.values, _, rfl, h.groups_keyedBy.lists, ?_⟩
    rw [List.forall₂_map_right_iff, List.forall₂_same]
    intro g hg
    obtain ⟨id, hg⟩ := Table.mem_values_iff.mp hg
    exact (h.groups id g hg).2.shown
  routes := ⟨c.routes.values, rfl, h.routes_keyedBy.lists⟩
  stats := rfl

/-! Its text -/

section Numbers

variable {p : Json.Number → Prop} (hp : ∀ n : Nat, n < 2 ^ 64 → p (.int n))

include hp

theorem PortSet.numbers_toJson (s : PortSet) : s.toJson.Numbers p :=
  Json.numbersItems_map fun q _ => q.numbers_toJson hp

theorem Member.numbers_toJson (m : Member) : m.toJson.Numbers p :=
  ⟨hp _ m.handle.raw.toNat_lt, Json.numbers_word hp _, m.ports.numbers_toJson hp, trivial⟩

theorem Route.numbers_toJson (r : Route) : r.toJson.Numbers p :=
  ⟨r.key.numbers_toJson hp, Json.numbers_word hp _, trivial, trivial, trivial⟩

theorem Group.numbers_toJson (g : Group) : g.toJson.Numbers p := by
  have hmembers : ∀ role, Json.NumbersItems p ((g.members.list role).map Member.toJson) :=
    fun _ => Json.numbersItems_map fun m _ => m.numbers_toJson hp
  have hroutes : ∀ keys : List RouteKey, Json.NumbersItems p (keys.map RouteKey.toJson) :=
    fun _ => Json.numbersItems_map fun k _ => k.numbers_toJson hp
  have howner : g.owner.toJson.Numbers p := by cases g.owner <;> trivial
  exact ⟨trivial, howner, trivial, trivial, hmembers .rpf, hmembers .ipmc, hroutes _, hroutes _,
    trivial⟩

end Numbers

def Stats.counters (s : Stats) : List Nat :=
  [s.groupsCreated, s.groupsRemoved, s.membersAdded, s.membersRemoved, s.membersUpdated,
    s.membersFailed, s.routesAdded, s.routesRemoved, s.routesUpdated, s.rollbacks]

theorem Stats.numbers_toJson {p : Json.Number → Prop} {s : Stats}
    (hs : ∀ n ∈ s.counters, p (.int n)) : s.toJson.Numbers p := by
  simpa [counters, toJson, Json.nat, Json.Numbers, Json.NumbersFields] using hs

namespace DeviceCache

variable {c c' : DeviceCache} {d : DeviceId}

theorem numbers_toJson {p : Json.Number → Prop} (hp : ∀ n : Nat, n < 2 ^ 64 → p (.int n))
    (hs : ∀ n ∈ c.stats.counters, p (.int n)) : (c.toJson d).Numbers p :=
  ⟨Json.numbers_word hp _, Json.numbersItems_map fun g _ => g.numbers_toJson hp,
    Json.numbersItems_map fun r _ => r.numbers_toJson hp, Stats.numbers_toJson hs, trivial⟩

/-- The text of a dump tells its value. -/
theorem pretty_toJson_inj : (c.toJson d).pretty = (c'.toJson d).pretty ↔ c.toJson d = c'.toJson d :=
  Json.pretty_inj (numbers_toJson (fun _ _ => trivial) fun _ _ => trivial)
    (numbers_toJson (fun _ _ => trivial) fun _ _ => trivial)

/-- The text of a dump is read back, as long as its counters are words of 64 bits. -/
theorem ofText?_pretty_toJson (hs : ∀ n ∈ c.stats.counters, n < 2 ^ 64) :
    Json.ofText? (c.toJson d).pretty = some (c.toJson d) :=
  Json.ofText?_pretty <| numbers_toJson Json.Number.integral_of_lt fun n hn =>
    Json.Number.integral_of_lt n (hs n hn)

end DeviceCache

theorem World.dump_eq {σ : Type} {w : World σ} {d : DeviceId} {c : DeviceCache}
    (hc : w.fleet.find? d = some c) : w.dump d = .ok (c.toJson d).pretty := by
  have hcache : w.fleet.cache d = .ok c := Fleet.cache_eq_ok_iff.mpr hc
  simp only [dump, ask, hcache]

end Multicast
