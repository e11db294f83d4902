import Multicast.Proofs.CacheStep

/-! What the consistency check of a cache decides, whatever the cache. It lets one disagreement
pass: a key in the set of the other family, when the set of its own family has it as well. -/
namespace Multicast

/-! Checks of all elements of a list -/

section

variable {ε α : Type} {f : α → Except ε Unit} {l : List α}

theorem Except.forM_cons (a : α) (rest : List α) :
    (a :: rest).forM f = (f a >>= fun _ => rest.forM f) := rfl

theorem Except.forM_eq_ok_iff : l.forM f = .ok () ↔ ∀ a ∈ l, f a = .ok () := by
  induction l with
  | nil => exact ⟨fun _ => List.forall_mem_nil _, fun _ => rfl⟩
  | cons a rest ih =>
    rw [forM_cons, bind_eq_ok_iff, List.forall_mem_cons, ← ih]
    constructor
    · rintro ⟨_, ha, hrest⟩
      exact ⟨ha, hrest⟩
    · rintro ⟨ha, hrest⟩
      exact ⟨_, ha, hrest⟩

theorem Except.exists_of_forM_eq_error {e : ε} (h : l.forM f = .error e) :
    ∃ a ∈ l, f a = .error e := by
  induction l with
  | nil => cases h
  | cons a rest ih =>
    rw [forM_cons] at h
    cases ha : f a with
    | error e' =>
      rw [ha] at h
      cases h
      exact ⟨a, List.mem_cons_self, ha⟩
    | ok _ =>
      rw [ha] at h
      obtain ⟨b, hb, he⟩ := ih h
      exact ⟨b, List.mem_cons_of_mem a hb, he⟩

end

theorem Group.mem_routeKeys {g : Group} {key : RouteKey} :
    key ∈ g.routeKeys ↔ ∃ f, (g.entries f).contains key = true := by
  unfold routeKeys
  rw [List.mem_append, Table.mem_keys_iff, Table.mem_keys_iff]
  constructor
  · rintro (h | h)
    · exact ⟨.ipv4, h⟩
    · exact ⟨.ipv6, h⟩
  · rintro ⟨f, h⟩
    cases f
    · exact .inl h
    · exact .inr h

namespace DeviceCache

/-! What groups and index should agree on -/

/-- What the check and the invariant have in common. -/
structure Linked (c : DeviceCache) : Prop where
  rpfOnce : ∀ id g, c.groups.find? id = some g → g.members.size .rpf ≤ 1
  indexed : ∀ id g f key, c.groups.find? id = some g → (g.entries f).contains key = true →
    ∃ r, c.routes.find? key = some r ∧ r.group = g.id
  listed : ∀ key r, c.routes.find? key = some r →
    ∃ g, c.groups.find? r.group = some g ∧ (g.entries r.key.family).contains r.key = true

/-- The invariant of the cache: each key set of a group holds keys of its own family only. -/
structure Consistent (c : DeviceCache) : Prop extends c.Linked where
  family : ∀ id g f key, c.groups.find? id = some g → (g.entries f).contains key = true →
    key.family = f

/-- What the check asks for in its place: a key in any set is in the set of its family. -/
structure Agrees (c : DeviceCache) : Prop extends c.Linked where
  filed : ∀ id g f key, c.groups.find? id = some g → (g.entries f).contains key = true →
    (g.entries key.family).contains key = true

/-- No key is in both sets of a group. -/
def FiledOnce (c : DeviceCache) : Prop :=
  ∀ id g key, c.groups.find? id = some g →
    ¬((g.entries .ipv4).contains key = true ∧ (g.entries .ipv6).contains key = true)

end DeviceCache

/-- What an inconsistency says of a cache. -/
def Inconsistency.HoldsIn (c : DeviceCache) : Inconsistency → Prop
  | .missingGroup key id =>
    c.groups.find? id = none ∧ ∃ r, c.routes.find? key = some r ∧ r.group = id
  | .extraRpfMembers id count =>
    ∃ g ∈ c.groups.values, g.id = id ∧ g.members.size .rpf = count ∧ 1 < count
  | .wrongFamily key id =>
    ∃ g ∈ c.groups.values, g.id = id ∧ key ∈ g.routeKeys ∧
      (g.entries key.family).contains key = false
  | .indexedElsewhere key id owner =>
    ∃ g ∈ c.groups.values, g.id = id ∧ key ∈ g.routeKeys ∧
      ∃ r, c.routes.find? key = some r ∧ r.group = owner ∧ owner ≠ id
  | .notIndexed key id =>
    ∃ g ∈ c.groups.values, g.id = id ∧ key ∈ g.routeKeys ∧ c.routes.find? key = none
  | .notListed key id =>
    ∃ r ∈ c.routes.values, r.key = key ∧ r.group = id ∧
      ∀ g, c.groups.find? id = some g → (g.entries key.family).contains key = false

namespace DeviceCache

variable {c : DeviceCache} {g : Group} {key : RouteKey} {r : Route} {e : CacheError}

/-! What each part of the check decides -/

theorem checkListed_eq_ok_iff :
    c.checkListed g key = .ok () ↔ (g.entries key.family).contains key = true ∧
      ∃ r, c.routes.find? key = some r ∧ r.group = g.id := by
  unfold checkListed
  cases hfiled : (g.entries key.family).contains key with
  | false => simp
  | true =>
    cases hr : c.routes.find? key with
    | none => simp
    | some r => by_cases hid : r.group = g.id <;> simp [hid]

theorem checkGroup_eq_ok_iff :
    c.checkGroup g = .ok () ↔
      g.members.size .rpf ≤ 1 ∧ ∀ key ∈ g.routeKeys, c.checkListed g key = .ok () := by
  unfold checkGroup
  split
  · next hsize => simp [Nat.not_le.mpr hsize]
  · next hsize =>
    rw [Except.forM_eq_ok_iff]
    simp [Nat.not_lt.mp hsize]

theorem checkIndexed_eq_ok_iff :
    c.checkIndexed r = .ok () ↔
      ∃ g, c.groups.find? r.group = some g ∧ (g.entries r.key.family).contains r.key = true := by
  unfold checkIndexed
  cases c.groups.find? r.group with
  | none => simp
  | some g => simp

theorem checkListed_eq_error (hg : g ∈ c.groups.values) (hkey : key ∈ g.routeKeys)
    (h : c.checkListed g key = .error e) : ∃ why, e = .inconsistent why ∧ why.HoldsIn c := by
  unfold checkListed at h
  split at h
  · next hfiled =>
    cases h
    exact ⟨_, rfl, g, hg, rfl, hkey, by simpa using hfiled⟩
  · split at h
    · next r hr =>
      split at h
      · cases h
      · next hid =>
        cases h
        exact ⟨_, rfl, g, hg, rfl, hkey, r, hr, rfl, hid⟩
    · next hr =>
      cases h
      exact ⟨_, rfl, g, hg, rfl, hkey, hr⟩

theorem checkGroup_eq_error (hg : g ∈ c.groups.values) (h : c.checkGroup g = .error e) :
    ∃ why, e = .inconsistent why ∧ why.HoldsIn c := by
  unfold checkGroup at h
  split at h
  · next hsize =>
    cases h
    exact ⟨_, rfl, g, hg, rfl, rfl, hsize⟩
  · obtain ⟨key, hkey, h⟩ := Except.exists_of_forM_eq_error h
    exact checkListed_eq_error hg hkey h

theorem checkIndexed_eq_error (hr : r ∈ c.routes.values) (h : c.checkIndexed r = .error e) :
    ∃ why, e = .inconsistent why ∧ why.HoldsIn c := by
  unfold checkIndexed at h
  split at h
  · next g hg =>
    split at h
    · cases h
    · next hlisted =>
      cases h
      refine ⟨_, rfl, r, hr, rfl, rfl, ?_⟩
      intro g' hg'
      rw [hg] at hg'
      cases hg'
      exact Bool.eq_false_iff.mpr hlisted
  · next hnone =>
    cases h
    refine ⟨_, rfl, r, hr, rfl, rfl, ?_⟩
    intro g hg
    rw [hnone] at hg
    cases hg

/-! What the whole check decides -/

theorem checkConsistency_eq_ok_iff : c.checkConsistency = .ok () ↔ c.Agrees := by
  have hparts : c.checkConsistency = .ok () ↔
      (∀ g ∈ c.groups.values, c.checkGroup g = .ok ()) ∧
        ∀ r ∈ c.routes.values, c.checkIndexed r = .ok () := by
    rw [← Except.forM_eq_ok_iff, ← Except.forM_eq_ok_iff]
    exact Except.bind_eq_ok_iff.trans ⟨fun ⟨_, h⟩ => h, fun h => ⟨(), h⟩⟩
  simp only [hparts, checkGroup_eq_ok_iff, checkListed_eq_ok_iff, checkIndexed_eq_ok_iff,
    Table.mem_values_iff, Group.mem_routeKeys]
  constructor
  · rintro ⟨hgroups, hroutes⟩
    refine ⟨⟨?_, ?_, ?_⟩, ?_⟩
    · intro id g hg
      exact (hgroups g ⟨id, hg⟩).1
    · intro id g f key hg hkey
      exact ((hgroups g ⟨id, hg⟩).2 key ⟨f, hkey⟩).2
    · intro key r hr
      exact hroutes r ⟨key, hr⟩
    · intro id g f key hg hkey
      exact ((hgroups g ⟨id, hg⟩).2 key ⟨f, hkey⟩).1
  · intro h
    constructor
    · rintro g ⟨id, hg⟩
      refine ⟨h.rpfOnce id g hg, ?_⟩
      rintro key ⟨f, hkey⟩
      exact ⟨h.filed id g f key hg hkey, h.indexed id g f key hg hkey⟩
    · rintro r ⟨key, hr⟩
      exact h.listed key r hr

theorem checkConsistency_eq_error (h : c.checkConsistency = .error e) :
    ∃ why, e = .inconsistent why ∧ why.HoldsIn c := by
  unfold checkConsistency at h
  cases hgroups : c.groups.values.forM c.checkGroup with
  | error e' =>
    rw [hgroups] at h
    cases h
    obtain ⟨g, hg, he⟩ := Except.exists_of_forM_eq_error hgroups
    exact checkGroup_eq_error hg he
  | ok _ =>
    rw [hgroups] at h
    obtain ⟨r, hr, he⟩ := Except.exists_of_forM_eq_error h
    exact checkIndexed_eq_error hr he

theorem Consistent.agrees (h : c.Consistent) : c.Agrees where
  toLinked := h.toLinked
  filed := by
    intro id g f key hg hkey
    rw [h.family id g f key hg hkey]
    exact hkey

theorem Consistent.filedOnce (h : c.Consistent) : c.FiledOnce := by
  rintro id g key hg ⟨h4, h6⟩
  have hfour := h.family id g .ipv4 key hg h4
  rw [h.family id g .ipv6 key hg h6] at hfour
  cases hfour

/-- A key in the set of the other family is then in both sets. -/
theorem Agrees.consistent (h : c.Agrees) (honce : c.FiledOnce) : c.Consistent where
  toLinked := h.toLinked
  family := by
    intro id g f key hg hkey
    have hown := h.filed id g f key hg hkey
    cases f <;> cases hfamily : key.family
    · rfl
    · rw [hfamily] at hown
      exact (honce id g key hg ⟨hkey, hown⟩).elim
    · rw [hfamily] at hown
      exact (honce id g key hg ⟨hown, hkey⟩).elim
    · rfl

/-- Of caches that file each key once the check accepts the consistent ones, and only those.
Whatever it reports is so. -/
theorem check_decides_consistency (c : DeviceCache) :
    (c.checkConsistency = .ok () ↔ c.Agrees) ∧
    (c.checkConsistency = .ok () ∧ c.FiledOnce ↔ c.Consistent) ∧
    ∀ e, c.checkConsistency = .error e → ∃ why, e = .inconsistent why ∧ why.HoldsIn c := by
  refine ⟨checkConsistency_eq_ok_iff, ?_, fun e => checkConsistency_eq_error⟩
  rw [checkConsistency_eq_ok_iff]
  constructor
  · rintro ⟨h, honce⟩
    exact h.consistent honce
  · intro h
    exact ⟨h.agrees, h.filedOnce⟩

def strayRoute : Route :=
  ⟨.starG ⟨0⟩ (.v6 ⟨[0xff0e, 0, 0, 0, 0, 0, 0, 1], rfl⟩), ⟨100⟩, ⟨1⟩, false⟩

/-- The group of an IPv6 route, which has it in its IPv4 set as well. -/
def strayGroup : Group :=
  { Group.new ⟨1⟩ .ipmc ⟨0x65⟩ .null with
    ipv4Entries := KeySet.insert ∅ strayRoute.key
    ipv6Entries := KeySet.insert ∅ strayRoute.key }

def filedTwice : DeviceCache :=
  ⟨(∅ : GroupTable).insert ⟨1⟩ strayGroup, (∅ : RouteTable).insert strayRoute.key strayRoute, {}⟩

/-- A key filed twice, once under the wrong family, passes the check. -/
theorem check_passes_filedTwice :
    filedTwice.checkConsistency = .ok () ∧ ¬filedTwice.Consistent := by
  refine ⟨rfl, fun h => ?_⟩
  exact h.filedOnce ⟨1⟩ strayGroup strayRoute.key rfl ⟨rfl, rfl⟩

end DeviceCache

end Multicast
