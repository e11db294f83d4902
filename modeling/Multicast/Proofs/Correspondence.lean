import Multicast.Proofs.Session

/-! What the caches of a session say of the hardware. As long as every undo call has succeeded they
say everything; each that fails may leave one object behind that no cache knows of. -/
namespace Multicast

theorem DeviceCache.device_of_mem_holdings {d : DeviceId} {c : DeviceCache} {x : Holding}
    (h : x ∈ c.holdings d) : x.device = d := by
  have hrole : ∀ (g : Group) role, x ∈ g.roleHoldings d role → x.device = d := by
    intro g role hx
    rcases List.mem_append.mp hx with hx | hx
    · split at hx
      · cases hx
      · rw [List.mem_singleton.mp hx]
    · obtain ⟨m, _, rfl⟩ := List.mem_map.mp hx
      rfl
  obtain ⟨g, _, hx⟩ := List.mem_flatMap.mp h
  rcases List.mem_cons.mp hx with rfl | hx
  · rfl
  · rcases List.mem_append.mp hx with hx | hx
    · exact hrole g .rpf hx
    · exact hrole g .ipmc hx

theorem Fleet.mem_holdings_iff {f : Fleet} {x : Holding} :
    x ∈ Fleet.holdings f ↔ ∃ d c, f.find? d = some c ∧ x ∈ c.holdings d := by
  unfold Fleet.holdings
  rw [List.mem_flatMap]
  constructor
  · rintro ⟨⟨d, c⟩, hmem, hx⟩
    exact ⟨d, c, Table.find?_eq_some_iff.mpr hmem, hx⟩
  · rintro ⟨d, c, hc, hx⟩
    exact ⟨(d, c), Table.find?_eq_some_iff.mp hc, hx⟩

namespace World

variable {config : Config} {failed : Nat} {items : List (Handle × Switch.Object)}
  {E : Programming} {w : World Testbed} {d : DeviceId}

theorem mem_holdings_cacheOf {x : Holding} :
    x ∈ (w.cacheOf d).holdings d ↔ ∃ c, w.fleet.find? d = some c ∧ x ∈ c.holdings d := by
  unfold cacheOf
  cases w.fleet.find? d with
  | none =>
    constructor
    · intro hx
      cases hx
    · rintro ⟨_, hc, _⟩
      cases hc
  | some c => simp

theorem mem_holdings_fleet {x : Holding} (hx : x ∈ (w.cacheOf d).holdings d) :
    x ∈ Fleet.holdings w.fleet := by
  obtain ⟨c, hc, hx⟩ := mem_holdings_cacheOf.mp hx
  exact Fleet.mem_holdings_iff.mpr ⟨d, c, hc, hx⟩

/-- Whatever a cache holds is there. -/
theorem Sound.live (h : w.Sound config failed items E) {lost : List Handle}
    (hstock : Switch.Stock w.state.switch.objects items lost) {x : Holding}
    (hx : x ∈ Fleet.holdings w.fleet) :
    ∃ o, w.state.switch.objects.find? x.handle = some o ∧
      x.Fits w.state.switch.mappings (x.handle, o) := by
  obtain ⟨o, hmem, hfits⟩ := h.objects.exists_of_mem hx
  exact ⟨o, hstock.live _ hmem, hfits⟩

theorem Sound.mem_items_iff (h : w.Sound config failed items E) {x : Handle} :
    x ∈ items.map Prod.fst ↔ x ∈ (Fleet.holdings w.fleet).map Holding.handle :=
  h.objects.handles_perm.mem_iff.symm

/-- Entries are those of the cached routes. -/
theorem Sound.contains_iff (h : w.Sound config failed items E) {e : Entry} :
    w.state.switch.entries.contains (d, e) = true ↔
      ∃ key r, (w.cacheOf d).routes.find? key = some r ∧
        entryAt w.state.switch.mappings d key = some e := by
  rw [h.books.routed, Option.isSome_iff_exists]
  constructor
  · rintro ⟨v, hv⟩
    exact (h.routed d).only e v hv
  · rintro ⟨key, r, hr, he⟩
    obtain ⟨e', v, he', _, hE⟩ := (h.routed d).shown key r hr
    obtain rfl : e' = e := Option.some.inj (he'.symm.trans he)
    exact ⟨v, hE⟩

end World

/-! Everything undone -/

/-- The switch has of a device exactly what is cached. -/
structure Switch.Mirrors (config : Config) (d : DeviceId) (c : DeviceCache) (s : Switch) :
    Prop where
  distinct : ((c.holdings d).map Holding.handle).Nodup
  held : ∀ x ∈ c.holdings d, ∃ o, s.objects.find? x.handle = some o ∧
    x.Fits s.mappings (x.handle, o)
  onlyHeld : ∀ h o, s.objects.find? h = some o → o.device = d →
    ∃ x ∈ c.holdings d, x.handle = h
  routed : ∀ key r, c.routes.find? key = some r → ∃ e v attrs,
    entryAt s.mappings d key = some e ∧ c.imageOf config s.mappings d r = some v ∧
      s.entries.find? (d, e) = some attrs ∧ attrs.Perm v.attrs
  onlyRouted : ∀ e, s.entries.contains (d, e) = true →
    ∃ key r, c.routes.find? key = some r ∧ entryAt s.mappings d key = some e
  apart : ∀ key key' r r' e, c.routes.find? key = some r → c.routes.find? key' = some r' →
    entryAt s.mappings d key = some e → entryAt s.mappings d key' = some e → key = key'

theorem World.Sound.mirrors {config : Config} {items : List (Handle × Switch.Object)}
    {E : Programming} {w : World Testbed} (h : w.Sound config 0 items E)
    (hcount : w.state.switch.counter < 2 ^ 48) (d : DeviceId) :
    w.state.switch.Mirrors config d (w.cacheOf d) := by
  obtain ⟨lost, hlost, hstock⟩ := h.books.stock hcount
  obtain rfl := List.eq_nil_of_length_eq_zero (Nat.le_zero.mp hlost)
  refine ⟨?_, ?_, ?_, ?_, ?_, (h.routed d).apart⟩
  · have hnodup : ((Fleet.holdings w.fleet).map Holding.handle).Nodup :=
      h.objects.handles_perm.nodup_iff.mpr hstock.distinct
    unfold World.cacheOf
    cases hc : w.fleet.find? d with
    | none => exact .nil
    | some c =>
      rw [((Fleet.holdings_perm_erase hc).map _).nodup_iff, List.map_append] at hnodup
      exact (List.nodup_append.mp hnodup).1
  · exact fun x hx => h.live hstock (World.mem_holdings_fleet hx)
  · intro x o ho hd
    have hitem : x ∈ items.map Prod.fst := by
      simpa using hstock.covered x o ho
    obtain ⟨y, hy, rfl⟩ := List.mem_map.mp (h.mem_items_iff.mp hitem)
    obtain ⟨o', ho', hfits⟩ := h.live hstock hy
    obtain rfl : o' = o := Option.some.inj (ho'.symm.trans ho)
    obtain ⟨d', c, hc, hyc⟩ := Fleet.mem_holdings_iff.mp hy
    have hd' : d' = d :=
      (DeviceCache.device_of_mem_holdings hyc).symm.trans (hfits.device.symm.trans hd)
    exact ⟨y, World.mem_holdings_cacheOf.mpr ⟨c, hd' ▸ hc, hd' ▸ hyc⟩, rfl⟩
  · intro key r hr
    obtain ⟨e, v, he, hv, hE⟩ := (h.routed d).shown key r hr
    obtain ⟨attrs, hattrs, hperm⟩ := h.books.shown rfl _ v hE
    exact ⟨e, v, attrs, he, hv, hattrs, hperm⟩
  · exact fun e => h.contains_iff.mp

/-- As long as every undo call has succeeded, the hardware has exactly what is cached, and nothing
of a device that is not attached. -/
theorem Session.hardware_mirrors_caches {config : Config} {s : Session} (h : s.Reached config)
    (hundo : failedUndos s.events = 0) (hcount : s.world.state.switch.counter < 2 ^ 48)
    (d : DeviceId) :
    s.world.state.switch.Mirrors config d (s.world.cacheOf d) ∧
      (s.world.fleet.find? d = none →
        (∀ h o, s.world.state.switch.objects.find? h = some o → o.device ≠ d) ∧
          ∀ e, s.world.state.switch.entries.contains (d, e) = false) := by
  obtain ⟨items, E, hsound⟩ := h.sound
  rw [hundo] at hsound
  have hmirrors := hsound.mirrors hcount d
  refine ⟨hmirrors, ?_⟩
  intro hnone
  have hempty : s.world.cacheOf d = .empty := by
    rw [World.cacheOf, hnone]
    rfl
  rw [hempty] at hmirrors
  constructor
  · intro h o ho hd
    obtain ⟨x, hx, _⟩ := hmirrors.onlyHeld h o ho hd
    cases hx
  · intro e
    rw [Bool.eq_false_iff]
    intro he
    obtain ⟨key, r, hr, _⟩ := hmirrors.onlyRouted e he
    cases hr

/-- The groundwork, and an egress member that is added at the second attempt. -/
def Session.retried : Session := start.run {} (groundwork ++
  [.failNth (.createMember .ipmc) 1 .failure,
    .operate .ascending (.updateMember ⟨1⟩ (.make .group 5) .add .ipmc ⟨⟨20⟩, [.lag 1]⟩),
    .operate .ascending (.updateMember ⟨1⟩ (.make .group 5) .add .ipmc ⟨⟨20⟩, [.lag 1]⟩)])

theorem Session.hardware_mirrors_caches_retried :
    (failedUndos retried.events = 0 ∧ retried.world.state.switch.counter < 2 ^ 48 ∧
      retried.world.state.switch.objects.size = 5 ∧
      retried.world.state.switch.entries.size = 1) ∧
    retried.world.state.switch.Mirrors {} ⟨1⟩ (retried.world.cacheOf ⟨1⟩) :=
  have hreached : retried.Reached {} := Reached.start.run (by decide +kernel)
  ⟨by decide +kernel, (Session.hardware_mirrors_caches hreached (by decide +kernel)
    (by decide +kernel) ⟨1⟩).1⟩

/-- An operation that fails leaves the hardware as it was if all its undo calls succeed; only a
group that is half deleted stays so. Routes need no more than that. An object whose handle is given
out again is overwritten, and then removed by the undo, so for the objects no handle may have come
twice: `Handle.number_eq_of_make_eq` has this for the first `2 ^ 48`. -/
theorem Session.failed_operation_restores_hardware {config : Config} {s : Session}
    (h : s.Reached config) (hundo : failedUndos s.events = 0) (order : RouteOrder)
    {op : Operation} (hop : ∀ d id, op ≠ .deleteGroup d id) {e : OpError}
    {out : Outcome Testbed op.Reply}
    (hout : op.perform ⟨config, Testbed.hardware, order⟩ s.world = out)
    (herror : out.result = .error e) (hundone : failedUndos out.events = 0) :
    (out.world.state.switch.counter < 2 ^ 48 →
      out.world.state.switch.objects = s.world.state.switch.objects) ∧
    (∀ k, out.world.state.switch.entries.contains k = s.world.state.switch.entries.contains k) ∧
    ∀ d e ids, out.world.state.switch.readEntry d e ids =
      s.world.state.switch.readEntry d e ids := by
  obtain ⟨items, E, hsound⟩ := h.sound
  rw [hundo] at hsound
  subst hout
  obtain ⟨hafter, hcounter⟩ := hsound.perform_of_error order hop herror
  rw [hundone] at hafter
  refine ⟨?_, ?_, ?_⟩
  · intro hcount
    obtain ⟨lost, hlost, hstock⟩ := hsound.books.stock (Nat.lt_of_le_of_lt hcounter hcount)
    obtain ⟨lost', hlost', hstock'⟩ := hafter.books.stock hcount
    obtain rfl := List.eq_nil_of_length_eq_zero (Nat.le_zero.mp hlost)
    obtain rfl := List.eq_nil_of_length_eq_zero (Nat.le_zero.mp hlost')
    exact hstock'.table_eq hstock
  · intro k
    rw [hafter.books.routed, hsound.books.routed]
  · intro d e ids
    rw [hafter.books.readEntry, hsound.books.readEntry]

/-- The groundwork, and a fault that the first egress member runs into when it is made and its
sub-group is put on the route. -/
def Session.faulty : Session := start.run {} (groundwork ++ [.failNth .setEntry 1 .failure])

theorem Session.failed_operation_restores_hardware_faulty :
    let out := (Operation.updateMember ⟨1⟩ (.make .group 5) .add .ipmc ⟨⟨20⟩, [.lag 1]⟩).perform
      ⟨{}, Testbed.hardware, .ascending⟩ faulty.world
    (out.result = .error (.hardware .setEntry (.ofStatus .failure)) ∧
      out.world.state.switch.counter < 2 ^ 48) ∧
    out.world.state.switch.objects = faulty.world.state.switch.objects :=
  have hreached : faulty.Reached {} := Reached.start.run (by decide +kernel)
  ⟨by decide +kernel, (Session.failed_operation_restores_hardware hreached (by decide +kernel)
    .ascending (by simp) rfl (e := .hardware .setEntry (.ofStatus .failure))
    (by decide +kernel) (by decide +kernel)).1 (by decide +kernel)⟩

/-! Undo calls that fail -/

/-- Live objects that no cache holds. -/
def World.orphans (w : World Testbed) : List Handle :=
  w.state.switch.objects.keys.filter fun h =>
    h ∉ (Fleet.holdings w.fleet).map Holding.handle

/-- Even when undo calls fail, whatever a cache holds is there, the entries are those of the cached
routes, and each failed undo call leaves at most one object behind. -/
theorem Session.caches_never_dangle {config : Config} {s : Session} (h : s.Reached config)
    (hcount : s.world.state.switch.counter < 2 ^ 48) :
    (∀ d, ∀ x ∈ (s.world.cacheOf d).holdings d,
      ∃ o, s.world.state.switch.objects.find? x.handle = some o ∧ o.device = d ∧
        o.kind = x.kind ∧ o.parent = x.parent) ∧
    (∀ d key r, (s.world.cacheOf d).routes.find? key = some r →
      ∃ e, entryAt s.world.state.switch.mappings d key = some e ∧
        s.world.state.switch.entries.contains (d, e) = true) ∧
    (∀ d e, s.world.state.switch.entries.contains (d, e) = true →
      ∃ key r, (s.world.cacheOf d).routes.find? key = some r ∧
        entryAt s.world.state.switch.mappings d key = some e) ∧
    s.world.orphans.length ≤ failedUndos s.events := by
  obtain ⟨items, E, hsound⟩ := h.sound
  obtain ⟨lost, hlost, hstock⟩ := hsound.books.stock hcount
  refine ⟨?_, ?_, ?_, ?_⟩
  · intro d x hx
    obtain ⟨o, ho, hfits⟩ := hsound.live hstock (World.mem_holdings_fleet hx)
    have hdevice : o.device = d :=
      hfits.device.trans (DeviceCache.device_of_mem_holdings hx)
    exact ⟨o, ho, hdevice, hfits.kind, hfits.parent⟩
  · intro d key r hr
    obtain ⟨e, _, he, _, _⟩ := (hsound.routed d).shown key r hr
    exact ⟨e, he, hsound.contains_iff.mpr ⟨key, r, hr, he⟩⟩
  · exact fun d e => hsound.contains_iff.mp
  · refine Nat.le_trans ?_ hlost
    unfold World.orphans
    simp only [← hsound.mem_items_iff]
    exact hstock.length_unlisted_le

/-- The groundwork, and an egress member that cannot be made; nor can its sub-group be removed. -/
def Session.stuck : Session := start.run {} (groundwork ++
  [.failNth (.createMember .ipmc) 1 .failure, .failNth (.removeSubGroup .ipmc) 1 .failure,
    .operate .ascending (.updateMember ⟨1⟩ (.make .group 5) .add .ipmc ⟨⟨20⟩, [.lag 1]⟩)])

theorem Session.caches_never_dangle_stuck :
    (failedUndos stuck.events = 1 ∧ stuck.world.state.switch.counter < 2 ^ 48 ∧
      stuck.world.orphans = [.make (.subGroup .ipmc) 8]) ∧
    stuck.world.orphans.length ≤ failedUndos stuck.events :=
  have hreached : stuck.Reached {} := Reached.start.run (by decide +kernel)
  ⟨by decide +kernel, (Session.caches_never_dangle hreached (by decide +kernel)).2.2.2⟩

end Multicast
