import Multicast.Proofs.InPlace
import Multicast.Proofs.Rendering

/-! A route that was added, removed or moved can be taken back: the edit the other way restores the
cache, as long as groups and index point at each other. -/
namespace Multicast

/-- An index that its own operations built. -/
inductive RouteTable.Built : RouteTable → Prop where
  | empty : Built ∅
  | addRoute {t t' : RouteTable} {r : Route} : t.Built → t.addRoute r = .ok t' → Built t'
  | removeRoute {t t' : RouteTable} {key : RouteKey} {r : Route} :
    t.Built → t.removeRoute key = .ok (r, t') → Built t'
  | setGroup {t t' : RouteTable} {key : RouteKey} {group : Handle} :
    t.Built → t.setGroup key group = .ok t' → Built t'
  | setCopyToCpu {t t' : RouteTable} {key : RouteKey} {value : Bool} :
    t.Built → t.setCopyToCpu key value = .ok t' → Built t'
  | setIif {t t' : RouteTable} {key : RouteKey} {rif : RifId} :
    t.Built → t.setIif key rif = .ok t' → Built t'

namespace RouteTable

variable {t t' : RouteTable} {key : RouteKey} {r : Route}

theorem addRoute_eq_ok_iff :
    t.addRoute r = .ok t' ↔ t.find? r.key = none ∧ t' = t.insert r.key r := by
  unfold addRoute
  rw [← Table.add_eq_ok_iff]
  cases t.add r.key r <;> simp

theorem removeRoute_eq_ok_iff :
    t.removeRoute key = .ok (r, t') ↔ t.find? key = some r ∧ t' = t.erase key := by
  unfold removeRoute Table.remove
  cases t.find? key <;> simp [eq_comm]

theorem keyedBy_update (h : t.KeyedBy Route.key) {f : Route → Route}
    (ht : t.update key f = .ok t') (hf : ∀ r, (f r).key = r.key) : t'.KeyedBy Route.key := by
  unfold update at ht
  split at ht
  · cases ht
    exact h.modify key hf
  · cases ht

/-- Its routes are under their own keys: no change of a payload touches the key. -/
theorem Built.keyedBy (h : t.Built) : t.KeyedBy Route.key := by
  induction h with
  | empty => exact Table.keyedBy_empty
  | addRoute _ hadd ih =>
    rw [(addRoute_eq_ok_iff.mp hadd).2]
    exact ih.insert _
  | removeRoute _ hremove ih =>
    rw [(removeRoute_eq_ok_iff.mp hremove).2]
    exact ih.erase _
  | setGroup _ ht ih => exact keyedBy_update ih ht fun _ => rfl
  | setCopyToCpu _ ht ih => exact keyedBy_update ih ht fun _ => rfl
  | setIif _ ht ih => exact keyedBy_update ih ht fun _ => rfl

end RouteTable

/-! Filing a key -/

namespace Group

variable {g : Group} {key : RouteKey}

theorem setEntries_setEntries (g : Group) (s s' : KeySet RouteKey) (f : Family) :
    (g.setEntries s f).setEntries s' f = g.setEntries s' f := by
  cases f <;> rfl

theorem setEntries_entries (g : Group) (f : Family) : g.setEntries (g.entries f) f = g := by
  cases f <;> rfl

theorem dropKey_addKey (h : (g.entries key.family).contains key = false) :
    (g.addKey key).dropKey key = g := by
  have hout : (KeySet.insert (g.entries key.family) key).erase key = g.entries key.family :=
    Table.erase_insert () (Table.contains_eq_false_iff.mp h)
  rw [dropKey, addKey, setEntries_setEntries, entries_setEntries, if_pos rfl, hout,
    setEntries_entries]

theorem addKey_dropKey (h : (g.entries key.family).contains key = true) :
    (g.dropKey key).addKey key = g := by
  obtain ⟨_, hkey⟩ := Table.contains_iff.mp h
  have hin : KeySet.insert ((g.entries key.family).erase key) key = g.entries key.family :=
    Table.insert_erase hkey
  rw [addKey, dropKey, setEntries_setEntries, entries_setEntries, if_pos rfl, hin,
    setEntries_entries]

end Group

namespace DeviceCache

/-- Groups and index point at each other. In the set of its family a key stands with the group that
it is indexed to, and with no other; what the sets hold of the wrong family does not matter. -/
structure Mutual (c : DeviceCache) : Prop where
  listed : ∀ id g key, c.groups.find? id = some g →
    ((g.entries key.family).contains key = true ↔
      ∃ r, c.routes.find? key = some r ∧ r.group = id)
  grouped : ∀ key r, c.routes.find? key = some r → ∃ g, c.groups.find? r.group = some g

variable {c c' : DeviceCache} {key : RouteKey} {r : Route}

/-- The check of the cache asks for more. -/
theorem Agrees.mutual (h : c.Agrees) (hgroups : c.groups.KeyedBy Group.id)
    (hroutes : c.routes.KeyedBy Route.key) : c.Mutual where
  listed := by
    intro id g key hg
    constructor
    · intro hkey
      obtain ⟨r, hr, hid⟩ := h.indexed id g key.family key hg hkey
      exact ⟨r, hr, hid.trans (hgroups id g hg)⟩
    · rintro ⟨r, hr, rfl⟩
      obtain ⟨g', hg', hkey⟩ := h.listed key r hr
      rw [hg] at hg'
      cases hg'
      rwa [hroutes key r hr] at hkey
  grouped := by
    intro key r hr
    obtain ⟨g, hg, -⟩ := h.listed key r hr
    exact ⟨g, hg⟩

theorem Intact.mutual {max : Nat} (h : c.Intact max) : c.Mutual :=
  h.consistent.agrees.mutual h.groups_keyedBy h.routes_keyedBy

namespace Mutual

theorem contains (h : c.Mutual) (hr : c.routes.find? key = some r) {g : Group}
    (hg : c.groups.find? r.group = some g) : (g.entries key.family).contains key = true :=
  (h.listed r.group g key hg).mpr ⟨r, hr, rfl⟩

/-- No group but the one that the index tells has the key. -/
theorem not_contains (h : c.Mutual) {id : Handle} {g : Group} (hg : c.groups.find? id = some g)
    (hid : ∀ r, c.routes.find? key = some r → r.group ≠ id) :
    (g.entries key.family).contains key = false := by
  rw [Bool.eq_false_iff]
  intro hkey
  obtain ⟨r, hr, h⟩ := (h.listed id g key hg).mp hkey
  exact hid r hr h

theorem removeRoute_of_addRoute (h : c.Mutual) (hadd : c.addRoute r = .ok c') :
    c'.removeRoute r.key = .ok (r, c) := by
  obtain ⟨hnone, g, hg, rfl⟩ := addRoute_eq_ok_iff.mp hadd
  have hfresh : (g.entries r.key.family).contains r.key = false :=
    h.not_contains hg fun r' hr' => by
      rw [hnone] at hr'
      cases hr'
  have hfiled : (c.insertRoute r g).groups.find? r.group = some (g.addKey r.key) :=
    Table.find?_modify_self _ hg
  rw [removeRoute_eq_ok (Table.find?_insert_self _ _ _) hfiled, eraseRoute, insertRoute,
    Table.modify_modify, Group.dropKey_addKey hfresh, Table.modify_eq_self hg rfl,
    Table.erase_insert _ hnone]

theorem addRoute_of_removeRoute (h : c.Mutual) (hindex : c.routes.KeyedBy Route.key)
    (hremove : c.removeRoute key = .ok (r, c')) : c'.addRoute r = .ok c := by
  rw [removeRoute_eq] at hremove
  cases hr : c.routes.find? key with
  | none => simp [hr] at hremove
  | some r' =>
    obtain ⟨g, hg⟩ := h.grouped key r' hr
    simp only [hr, Table.contains_of_find? hg, if_true, Except.ok.injEq, Prod.mk.injEq] at hremove
    obtain ⟨rfl, rfl⟩ := hremove
    have hkey := hindex key r' hr
    subst hkey
    have hdropped : (c.groups.modify r'.group (·.dropKey r'.key)).find? r'.group =
        some (g.dropKey r'.key) :=
      Table.find?_modify_self _ hg
    have hback : c.groups.modify r'.group (fun _ => g) = c.groups := Table.modify_eq_self hg rfl
    refine addRoute_eq_ok_iff.mpr ⟨Table.find?_erase_self _ _, _, hdropped, ?_⟩
    rw [insertRoute, Table.modify_modify, Group.addKey_dropKey (h.contains hr hg), hback,
      Table.insert_erase hr]

theorem moveRoute_back (h : c.Mutual) {source target : Handle}
    (hmove : c.moveRoute key target = .ok (source, c')) :
    c'.moveRoute key source = .ok (target, c) := by
  cases hr : c.routes.find? key with
  | none => simp [moveRoute_eq, hr] at hmove
  | some r =>
    by_cases hsame : r.group = target
    · subst hsame
      rw [moveRoute_self hr] at hmove
      cases hmove
      exact moveRoute_self hr
    · obtain ⟨g, hg⟩ := h.grouped key r hr
      cases hg' : c.groups.find? target with
      | none => simp [moveRoute_eq, hr, hsame, Table.contains_eq_false_iff.mpr hg'] at hmove
      | some g' =>
        rw [moveRoute_eq_ok hr hg hg' hsame] at hmove
        cases hmove
        have hthere : (c.groups.modify r.group fun _ => g.dropKey key).find? target = some g' := by
          rw [Table.find?_modify_of_ne _ _ (Ne.symm hsame), hg']
        have hsource : ((c.groups.modify r.group fun _ => g.dropKey key).modify target fun _ =>
            g'.addKey key).find? r.group = some (g.dropKey key) := by
          rw [Table.find?_modify_of_ne _ _ hsame, Table.find?_modify_self _ hg]
        have hother : (g'.entries key.family).contains key = false :=
          h.not_contains hg' fun r' hr' => by
            rw [hr] at hr'
            cases hr'
            exact hsame
        -- each of the two groups changed twice, and so did the route
        rw [moveRoute_eq_ok (Table.find?_modify_self _ hr) (Table.find?_modify_self _ hthere)
          hsource (Ne.symm hsame), Table.modify_modify, Group.dropKey_addKey hother,
          Group.addKey_dropKey (h.contains hr hg), Table.modify_eq_self hthere rfl,
          Table.modify_modify, Table.modify_eq_self hg rfl, Table.modify_modify,
          Table.modify_eq_self hr rfl]

end Mutual

/-- What an edit of a route does to the cache, the edit the other way takes back. -/
structure TakesBack (c : DeviceCache) : Prop where
  added : ∀ r c', (Edit.addRoute r).on c = (.ok (), c') →
    (Edit.removeRoute r.key).on c' = (.ok r, c)
  removed : ∀ key r c', (Edit.removeRoute key).on c = (.ok r, c') →
    (Edit.addRoute r).on c' = (.ok (), c)
  moved : ∀ key source target c', (Edit.moveRoute key target).on c = (.ok source, c') →
    (Edit.moveRoute key source).on c' = (.ok target, c)

theorem Mutual.takesBack (h : c.Mutual) (hindex : c.routes.Built) : c.TakesBack := by
  have hadd : ∀ r c₁ c₂, (Edit.addRoute r).on c₁ = (.ok (), c₂) ↔ c₁.addRoute r = .ok c₂ := by
    intro r c₁ c₂
    rw [Edit.addRoute_eq_change, Edit.change_on_eq_ok_iff]
    cases c₁.addRoute r <;> simp [Except.map]
  constructor
  · intro r c' hc'
    rw [Edit.removeRoute_eq_change, Edit.change_on_eq_ok_iff]
    exact h.removeRoute_of_addRoute ((hadd r c c').mp hc')
  · intro key r c' hc'
    rw [Edit.removeRoute_eq_change, Edit.change_on_eq_ok_iff] at hc'
    exact (hadd r c' c).mpr (h.addRoute_of_removeRoute hindex.keyedBy hc')
  · intro key source target c' hc'
    rw [Edit.moveRoute_eq_change, Edit.change_on_eq_ok_iff] at hc' ⊢
    exact h.moveRoute_back hc'

/-- A refused edit of a route changes nothing in any cache. Where groups and index point at each
other each edit can be taken back. -/
theorem route_edits_atomic_and_invertible :
    (∀ r, (Edit.addRoute r).Atomic) ∧ (∀ key, (Edit.removeRoute key).Atomic) ∧
    (∀ key target, (Edit.moveRoute key target).Atomic) ∧
    ∀ c : DeviceCache, c.routes.Built → c.Mutual → c.TakesBack := by
  refine ⟨fun r => ?_, fun key => ?_, fun key target => ?_, fun c hindex h => h.takesBack hindex⟩
  · rw [Edit.addRoute_eq_change]
    exact Edit.atomic_change _
  · rw [Edit.removeRoute_eq_change]
    exact Edit.atomic_change _
  · rw [Edit.moveRoute_eq_change]
    exact Edit.atomic_change _

/-- Two groups, of which one has the key of the only route twice. -/
def forked : DeviceCache := filedTwice.insertGroup (.new ⟨2⟩ .ipmc ⟨0x66⟩ .null)

/-- A route that `forked` has room for, on its second group. -/
def newRoute : Route := ⟨.starG ⟨0⟩ (.v4 ⟨239, 1, 1, 1⟩), ⟨100⟩, ⟨2⟩, true⟩

/-- An addition, a removal and a move, each of which changes the cache and is taken back. -/
theorem route_edits_invertible_forked :
    forked.TakesBack ∧
    (∃ c', c' ≠ forked ∧ (Edit.addRoute newRoute).on forked = (.ok (), c') ∧
      (Edit.removeRoute newRoute.key).on c' = (.ok newRoute, forked)) ∧
    (∃ c', c' ≠ forked ∧ (Edit.removeRoute strayRoute.key).on forked = (.ok strayRoute, c') ∧
      (Edit.addRoute strayRoute).on c' = (.ok (), forked)) ∧
    ∃ c', c' ≠ forked ∧ (Edit.moveRoute strayRoute.key ⟨2⟩).on forked = (.ok ⟨1⟩, c') ∧
      (Edit.moveRoute strayRoute.key ⟨1⟩).on c' = (.ok ⟨2⟩, forked) := by
  have hindex : forked.routes.Built := .addRoute .empty rfl
  have hgroups : forked.groups.KeyedBy Group.id :=
    (Table.keyedBy_empty.insert strayGroup).insert (Group.new ⟨2⟩ .ipmc ⟨0x66⟩ .null)
  have hmutual : forked.Mutual :=
    (checkConsistency_eq_ok_iff.mp rfl).mutual hgroups hindex.keyedBy
  have hback : forked.TakesBack := route_edits_atomic_and_invertible.2.2.2 forked hindex hmutual
  have hadd : (Edit.addRoute newRoute).on forked =
      (.ok (), ((Edit.addRoute newRoute).on forked).2) := rfl
  have hremove : (Edit.removeRoute strayRoute.key).on forked =
      (.ok strayRoute, ((Edit.removeRoute strayRoute.key).on forked).2) := rfl
  have hmove : (Edit.moveRoute strayRoute.key ⟨2⟩).on forked =
      (.ok ⟨1⟩, ((Edit.moveRoute strayRoute.key ⟨2⟩).on forked).2) := rfl
  refine ⟨hback, ⟨_, ?_, hadd, hback.added _ _ hadd⟩, ⟨_, ?_, hremove, hback.removed _ _ _ hremove⟩,
    ⟨_, ?_, hmove, hback.moved _ _ _ _ hmove⟩⟩ <;>
  decide +kernel

end DeviceCache

end Multicast
