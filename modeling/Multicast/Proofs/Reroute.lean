import Multicast.Proofs.Session

/-! Changing the payload of a route writes the attributes that change with it, and no others. The
entry then shows the new payload, and nothing else is touched. -/
namespace Multicast

/-! The cache -/

/-- The groups differ at most in whether `key` is filed. -/
structure Group.Refiled (key : RouteKey) (g g' : Group) : Prop where
  id : g'.id = g.id
  owner : g'.owner = g.owner
  rpfGroup : g'.rpfGroup = g.rpfGroup
  ipmcGroup : g'.ipmcGroup = g.ipmcGroup
  members : g'.members = g.members
  entries : ∀ f key', key' ≠ key → (g'.entries f).contains key' = (g.entries f).contains key'

namespace Group.Refiled

theorem refl (key : RouteKey) (g : Group) : g.Refiled key g :=
  ⟨rfl, rfl, rfl, rfl, rfl, fun _ _ _ => rfl⟩

theorem setEntries {key : RouteKey} {g : Group} {s : KeySet RouteKey} {f : Family}
    (hs : ∀ key', key' ≠ key → s.contains key' = (g.entries f).contains key') :
    g.Refiled key (g.setEntries s f) := by
  refine ⟨by simp, by cases f <;> rfl, by simp, by simp, by simp, ?_⟩
  intro f' key' hkey
  rw [entries_setEntries]
  split
  · next hf => rw [hf, hs key' hkey]
  · rfl

theorem addKey (key : RouteKey) (g : Group) : g.Refiled key (g.addKey key) := by
  apply setEntries
  intro key' hkey
  rw [Bool.eq_iff_iff, KeySet.contains_insert]
  simp [hkey]

theorem dropKey (key : RouteKey) (g : Group) : g.Refiled key (g.dropKey key) := by
  apply setEntries
  intro key' hkey
  rw [Bool.eq_iff_iff, KeySet.contains_erase]
  simp [hkey]

end Group.Refiled

/-- The route `old` has become `new`, and its key is filed with the group of `new` alone. -/
structure DeviceCache.Rerouted (c : DeviceCache) (old new : Route) (c' : DeviceCache) : Prop where
  payload : c'.routes.find? old.key = some new
  routes : ∀ key, key ≠ old.key → c'.routes.find? key = c.routes.find? key
  filed : ∀ id g f, c'.groups.find? id = some g →
    ((g.entries f).contains old.key = true ↔ id = new.group ∧ f = old.key.family)
  groups : ∀ id, id ≠ old.group → id ≠ new.group → c'.groups.find? id = c.groups.find? id
  refiled : ∀ id g, c.groups.find? id = some g →
    ∃ g', c'.groups.find? id = some g' ∧ g.Refiled old.key g'

variable {config : Config} {c c' : DeviceCache} {route new : Route} {g g' : Group} {max : Nat}

theorem DeviceCache.refiled_setRoute (hg : c.groups.find? route.group = some g)
    (hg' : c.groups.find? new.group = some g') {id : Handle} {g₀ : Group}
    (hid : c.groups.find? id = some g₀) :
    ∃ g₁, (c.setRoute route g new g').groups.find? id = some g₁ ∧ g₀.Refiled route.key g₁ := by
  unfold setRoute
  split
  · exact ⟨g₀, hid, .refl _ _⟩
  · next hne =>
    rw [Table.find?_modify, Table.find?_modify]
    by_cases hnew : id = new.group
    · subst hnew
      obtain rfl : g₀ = g' := Option.some.inj (hid.symm.trans hg')
      exact ⟨_, by simp [Ne.symm hne, hg'], .addKey _ _⟩
    · by_cases hold : id = route.group
      · obtain rfl : g₀ = g := Option.some.inj (hid.symm.trans (hold ▸ hg))
        exact ⟨_, by simp [hold, hne, hg], .dropKey _ _⟩
      · exact ⟨g₀, by simp [hnew, hold, hid], .refl _ _⟩

theorem DeviceCache.rerouted (hI : c'.Intact max) (hr : c.routes.find? route.key = some route)
    (hg : c.groups.find? route.group = some g) (hg' : c.groups.find? new.group = some g')
    (hgroups : c'.groups = (c.setRoute route g new g').groups)
    (hroutes : c'.routes = (c.setRoute route g new g').routes) : c.Rerouted route new c' := by
  have hpayload : c'.routes.find? route.key = some new := by
    rw [hroutes]
    exact Table.find?_modify_self _ hr
  refine ⟨hpayload, ?_, ?_, ?_, ?_⟩
  · intro key hkey
    rw [hroutes]
    exact Table.find?_modify_of_ne _ _ hkey
  · intro id g f hid
    rw [hI.filed id g f route.key hid, hpayload]
    simp [eq_comm, and_comm]
  · intro id hold hnew
    rw [hgroups, setRoute]
    split
    · rfl
    · rw [Table.find?_modify_of_ne _ _ hnew, Table.find?_modify_of_ne _ _ hold]
  · intro id g₀ hid
    rw [hgroups]
    exact refiled_setRoute hg hg' hid

/-! The hardware -/

namespace Session

/-- Only the attributes that differ are written, in their order; none if the new payload shows as
the old one did. -/
theorem updateRoute_writes_minimum {s : Session} (h : s.Reached config)
    (hundo : failedUndos s.events = 0) (order : RouteOrder) {d : DeviceId} {key : RouteKey}
    {u : RouteUpdate}
    (hok : ((Operation.updateRoute d key u).perform ⟨config, Testbed.hardware, order⟩
      s.world).result = .ok ()) :
    let out := (Operation.updateRoute d key u).perform ⟨config, Testbed.hardware, order⟩ s.world
    let before := s.world.state.switch
    let after := out.world.state.switch
    ∃ c c' route e old new,
      s.world.fleet.find? d = some c ∧ c.routes.find? key = some route ∧ route.key = key ∧
      entryAt before.mappings d key = some e ∧
      c.imageOf config before.mappings d route = some old ∧
      c.imageOf config before.mappings d (u.apply route) = some new ∧
      (∀ ids, before.readEntry d e ids = .ok (ids.map old.read)) ∧
      callsOf out.events = ([EntryAttr.Id.packetAction, .outputGroup, .rpfGroup, .ingress].filter
        fun id => old.read id ≠ new.read id).map (fun id => (d, .setEntry e (new.read id), none)) ∧
      (∀ ids, after.readEntry d e ids = .ok (ids.map new.read)) ∧
      (∀ k, k ≠ (d, e) → after.entries.find? k = before.entries.find? k) ∧
      after.objects = before.objects ∧
      c.Rerouted route (u.apply route) c' ∧
      out.world.fleet = s.world.fleet.modify d fun _ => c' := by
  intro out before after
  obtain ⟨items, E, hsound⟩ := h.sound
  rw [hundo] at hsound
  have hout : out.world.Intact config.maxGroups := by
    obtain ⟨_, _, hafter⟩ := hsound.perform order (.updateRoute d key u)
    exact hafter.intact
  have hchange : ∀ c (hc : s.world.fleet.find? d = some c),
      ((Orchestrator.bench config order).changeRoute d key u).Ends ⟨s.world.state, c, []⟩ _ _ :=
    fun c hc => Orchestrator.changeRoute_rewrites key u (hsound.intact d c hc) (hsound.tallies hc)
  obtain ⟨c, r, hc, hworld, hcalls, route, g, g', e, old, new, hroute, ht, hw⟩ :=
    Orchestrator.audited_onDevice_of_ok hok hchange
  obtain ⟨hroute, hg, hg', he, hold, hnew⟩ := hroute
  have hworld : out.world = ⟨r.state, s.world.fleet.modify d fun _ => r.cache⟩ := hworld
  have hcalls : callsOf out.events = callsOf r.events := hcalls
  have hkey : route.key = key := ((hsound.intact d c hc).routes key route hroute).1
  have hI : r.cache.Intact config.maxGroups := by
    apply hout d
    rw [hworld]
    exact Table.find?_modify_self _ hc
  have hE : E (d, e) = some old := by
    obtain ⟨e', v, he', hv, hE⟩ := (hsound.tallies hc).ledger.routed.shown key route hroute
    obtain rfl : e' = e := Option.some.inj (he'.symm.trans he)
    obtain rfl : v = old := Option.some.inj (hv.symm.trans hold)
    exact hE
  have hbooks : Books items (E.set (d, e) (some new)) r.state.switch 0 := by
    have hbooks := ht.accounts.books
    rw [hw.undone] at hbooks
    exact hbooks
  refine ⟨c, r.cache, route, e, old, new, hc, hroute, hkey, he, hold, hnew, ?_, ?_, ?_, ?_, ?_, ?_,
    ?_⟩
  · intro ids
    rw [hsound.books.readEntry, hE]
  · rw [hcalls, hw.calls, RouteImage.changed, List.map_map]
    rfl
  · intro ids
    simp only [after, hworld]
    rw [hbooks.readEntry, Programming.set, if_pos rfl]
  · simpa only [after, hworld] using hw.entries
  · simpa only [after, hworld] using hw.objects
  · exact DeviceCache.rerouted hI (hkey ▸ hroute) hg hg' ht.holds.1 ht.holds.2
  · rw [hworld]

/-- The move to the second group is written. The copy to the CPU, whose packets are forwarded like
all others, and the interface, which stays the same, are not. -/
theorem updateRoute_writes_minimum_moved :
    let config : Config := { copyAction := .forward }
    let s := start.run config (groundwork ++ [.operate .ascending
      (.createGroup ⟨1⟩ .ipmc ⟨⟨10⟩, [.lag 1]⟩ [⟨⟨20⟩, [.lag 1]⟩])])
    let key : RouteKey := .starG ⟨0⟩ (.v4 ⟨239, 1, 1, 1⟩)
    let e : Entry := .ofKey (.make .virtualRouter 4) key
    let u : RouteUpdate := ⟨some (.make .group 8), some true, some ⟨10⟩⟩
    let out := (Operation.updateRoute ⟨1⟩ key u).perform
      ⟨config, Testbed.hardware, .ascending⟩ s.world
    (s.Reached config ∧ failedUndos s.events = 0 ∧ out.result = .ok ()) ∧
      callsOf out.events =
        [(⟨1⟩, .setEntry e (.outputGroup (.make (.subGroup .ipmc) 9)), none),
          (⟨1⟩, .setEntry e (.rpfGroup (.make (.subGroup .rpf) 10)), none)] ∧
      out.world.state.switch.objects = s.world.state.switch.objects := by
  intro config s key e u out
  have hreached : s.Reached config := Reached.start.run (by decide +kernel)
  have hundo : failedUndos s.events = 0 := by decide +kernel
  have hok : out.result = .ok () := by decide +kernel
  have hcalls : callsOf out.events =
      [(⟨1⟩, .setEntry e (.outputGroup (.make (.subGroup .ipmc) 9)), none),
        (⟨1⟩, .setEntry e (.rpfGroup (.make (.subGroup .rpf) 10)), none)] := by decide +kernel
  clear_value s
  obtain ⟨_, _, _, _, _, _, -, -, -, -, -, -, -, -, -, -, hobjects, -⟩ :=
    updateRoute_writes_minimum hreached hundo .ascending hok
  exact ⟨⟨hreached, hundo, hok⟩, hcalls, hobjects⟩

end Session

end Multicast
