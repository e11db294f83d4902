import Multicast.Proofs.Feasibility
import Multicast.Proofs.Locality

/-! Worlds in which nothing keeps calls from succeeding, and what operations yield there. -/
namespace Multicast

variable {α : Type} {config : Config} {order : RouteOrder} {w : World Testbed} {d : DeviceId}
  {c : DeviceCache} {k n : Nat}

/-- No fault is pending, nothing was left behind, and `k` handles were given out. -/
structure World.Calm (config : Config) (k : Nat) (w : World Testbed) : Prop where
  sound : ∃ items E, w.Sound config 0 items E
  named : w.state.switch.Named
  faults : w.state.switch.faults = []
  used : w.state.switch.counter = k

/-- The operation answers `a` and leaves the world calm and its device with the cache `x`, after
`k` handles in all. -/
structure Outcome.Yields (config : Config) (w : World Testbed) (d : DeviceId) (a : α)
    (x : Option DeviceCache) (k : Nat) (out : Outcome Testbed α) : Prop where
  result : out.result = .ok a
  cache : out.world.fleet.find? d = x
  others : ∀ d', d' ≠ d → out.world.fleet.find? d' = w.fleet.find? d'
  names : out.world.state.switch.mappings = w.state.switch.mappings
  calm : out.world.Calm config k

namespace Outcome.Yields

variable {a : α} {x : Option DeviceCache}

theorem audited {out : Outcome Testbed α} (h : out.Yields config w d a x k)
    (o : Orchestrator Testbed) (record : Audit.Record) :
    (o.audited out record).Yields config w d a x k := by
  have hworld := o.world_audited out record
  refine ⟨(o.result_audited out record).trans h.result, ?_, ?_, ?_, ?_⟩ <;> rw [hworld]
  exacts [h.cache, h.others, h.names, h.calm]

theorem noted {out : Outcome Testbed Unit} {x : Option DeviceCache}
    (h : out.Yields config w d () x k) (message : String) :
    (Orchestrator.noted out message).Yields config w d () x k := by
  have hworld := Orchestrator.world_noted out message
  refine ⟨(Orchestrator.result_noted out message).trans h.result, ?_, ?_, ?_, ?_⟩ <;> rw [hworld]
  exacts [h.cache, h.others, h.names, h.calm]

end Outcome.Yields

theorem Group.roleParts_ne_whole (g : Group) (role : Role) :
    ∀ p ∈ g.roleParts role, ∀ x, p ≠ .whole x := by
  rintro p hp x rfl
  unfold roleParts at hp
  cases hnull : (g.subGroup role).isNull <;> simp [hnull] at hp

theorem GroupTable.erase_foldl_without (t : GroupTable) (id : Handle) {parts : List Group.Part}
    (hparts : ∀ p ∈ parts, ∀ x, p ≠ .whole x) :
    (parts.foldl (without id) t).erase id = t.erase id := by
  induction parts generalizing t with
  | nil => rfl
  | cons p rest ih =>
    have hp : without id t p = t.modify id (·.without p) := by
      cases p with
      | whole x => exact (hparts _ List.mem_cons_self x rfl).elim
      | member | subGroup => rfl
    rw [List.foldl_cons, ih _ fun p hp => hparts p (List.mem_cons_of_mem _ hp), hp,
      Table.erase_modify]

/-- Deleting all parts of a group deletes it. -/
theorem GroupTable.foldl_without_parts (t : GroupTable) (g : Group) (id : Handle) :
    g.parts.foldl (without id) t = t.erase id := by
  rw [Group.parts, List.foldl_append, List.foldl_append, List.foldl_cons, List.foldl_nil]
  exact (erase_foldl_without _ id (g.roleParts_ne_whole .ipmc)).trans
    (erase_foldl_without t id (g.roleParts_ne_whole .rpf))

/-- No call makes a fault, or hides a name. -/
theorem Testbed.faultless_frame (d : DeviceId) :
    CommitFrame hardware d fun r r' => (r.state.switch.faults = [] → r'.state.switch.faults = []) ∧
      r'.state.hidden = r.state.hidden := by
  refine commitFrame (R := fun t t' => (t.switch.faults = [] → t'.switch.faults = []) ∧
    t'.hidden = t.hidden) (fun _ => ⟨fun h => h, rfl⟩)
    (fun h h' => ⟨fun hf => h'.1 (h.1 hf), h'.2.trans h.2⟩) fun t c => ⟨fun hf => ?_, ?_⟩
  · rw [(t.call_snd d c).1, Switch.call_of_faultless (by simp [hf])]
    cases hs : Switch.perform { t.switch with journal := c.kind :: t.switch.journal } d c with
    | error _ => exact hf
    | ok x => exact (Switch.perform_stable hs).1.trans hf
  · exact (t.call_snd d c).2

namespace Orchestrator

theorem unmakeGroup_delivers {b : Opening} {t : Testbed} {others : List Holding}
    {items : List (Handle × Switch.Object)} {E : Programming} {r : Run Testbed} {id : Handle}
    {g : Group} (hI : c.Intact config.maxGroups) (hr : r.Tallies config b d others c items E)
    (habroad : Abroad d others E) (hg : c.groups.find? id = some g)
    (hunused : g.isInUse = false) (h : Tracked b t n items E c k r) :
    ((bench config order).unmakeGroup d id).Ends r
      (fun _ r' => ∃ c' items' E', (c'.groups = c.groups.erase id ∧ c'.routes = c.routes) ∧
        Tracked b t n items' E' c' k r')
      fun _ _ => False := by
  have hkeeps := ((Testbed.faultless_frame d).unmakeGroup (o := bench config order) id).ends r
  have hsheds : ((bench config order).unmakeGroup d id).Ends r _ _ :=
    unmakeGroup_sheds hI hr habroad h.undone h.count_lt hg hunused
  refine ((hsheds.and (unmakeGroup_mirrors hI hr)).and hkeeps).mono ?_ ?_
  · rintro _ r' ⟨⟨⟨-, hshed⟩, _, items', E', hr', -⟩, hfaults, hhidden⟩
    refine ⟨r'.cache, items', E', ⟨?_, ?_⟩, ⟨hr'.accounts, fun d l => ?_, hfaults h.faults, ?_, ?_⟩,
      rfl, ?_⟩
    · rw [hshed.groups, GroupTable.foldl_without_parts, h.cache]
    · rw [hshed.routes, h.cache]
    · rw [← h.names, Testbed.lookup_eq, Testbed.lookup_eq, hhidden, hr'.accounts.mappings,
        h.mappings]
    · rw [hshed.counter]
      exact h.room
    · rw [hshed.undone]
      exact h.undone
    · rw [hshed.counter]
      exact h.used
  · rintro _ _ ⟨⟨⟨_, _, _, _, _, hfiring, _⟩, -⟩, -⟩
    rw [h.faults, Switch.firing_nil] at hfiring
    cases hfiring

end Orchestrator

namespace World.Calm

/-- Steps that end well yield what they end with. -/
theorem onDevice (h : w.Calm config k) (hc : w.fleet.find? d = some c) (hroom : k + n < 2 ^ 48)
    {act : Act Testbed α} (hsettles : act.Settles config d) (k' : Nat) (Q : α → DeviceCache → Prop)
    (hact : ∀ b others items E r, c.Intact config.maxGroups →
      Run.Tallies config b d others c items E r → Abroad d others E →
      Mappings.Apart b.mappings → Tracked b w.state n items E c k r →
      act.Ends r (fun a r' => ∃ c' n' items' E', Q a c' ∧
        Tracked b w.state n' items' E' c' k' r') fun _ _ => False) :
    ∃ a c', Q a c' ∧ (Orchestrator.onDevice w d act).Yields config w d a (some c') k' := by
  obtain ⟨items, E, hsound⟩ := h.sound
  have hcount : w.state.switch.counter < 2 ^ 48 := by
    rw [h.used]
    omega
  have hends := hact _ _ items E _ (hsound.intact d c hc) (hsound.tallies hc) (hsound.abroad d)
    (h.named.apart hcount) ⟨hsound.steady hc h.faults (h.used ▸ hroom), rfl, h.used⟩
  obtain ⟨r, hworld, hevents, ⟨a, hok, c', _, _, _, hQ, ht⟩ | ⟨_, _, hf⟩⟩ :=
    Orchestrator.onDevice_ends hc hends
  · obtain ⟨items', E', hsound'⟩ := hsound.onDevice hsettles
    have hundone : 0 + failedUndos (Orchestrator.onDevice w d act).events = 0 :=
      hevents ▸ ht.undone
    rw [hundone] at hsound'
    refine ⟨a, c', hQ, hok, ?_, fun d' hd => Orchestrator.find?_onDevice w hd act, ?_,
      ⟨items', E', hsound'⟩, ?_, ?_, ?_⟩
    · rw [hworld, Table.find?_modify_self _ hc, ht.cache]
    · rw [hworld]
      exact ht.mappings
    · rw [hworld]
      exact h.named.of_mappings ht.mappings ht.counter
    · rw [hworld]
      exact ht.faults
    · rw [hworld]
      exact ht.used
  · exact hf.elim

theorem attach (h : w.Calm config k) (order : RouteOrder) (hd : w.fleet.find? d = none) :
    ((Orchestrator.bench config order).attach w d).Yields config w d () (some .empty) k := by
  obtain ⟨items, E, hsound⟩ := h.sound
  have hattach : w.fleet.attach d = .ok (w.fleet.insert d .empty) :=
    Fleet.attach_eq_ok_iff.mpr ⟨hd, rfl⟩
  have hout : Orchestrator.changeFleet w (·.attach d) =
      ⟨.ok (), [], { w with fleet := w.fleet.insert d .empty }⟩ := by
    simp [Orchestrator.changeFleet, hattach]
  have hsound' := hsound.attach d
  have hyields :
      (Orchestrator.changeFleet w (·.attach d)).Yields config w d () (some .empty) k := by
    rw [hout] at hsound' ⊢
    exact ⟨rfl, Table.find?_insert_self _ _ _, fun _ hd' => Table.find?_insert_of_ne _ _ hd', rfl,
      hsound', h.named, h.faults, h.used⟩
  exact (hyields.audited _ _).noted _

theorem detach (h : w.Calm config k) (order : RouteOrder) (hc : w.fleet.find? d = some c)
    (hsize : c.groups.size = 0) :
    ((Orchestrator.bench config order).detach w d).Yields config w d () none k := by
  obtain ⟨items, E, hsound⟩ := h.sound
  have hdetach : w.fleet.detach d = .ok (w.fleet.erase d) :=
    Fleet.detach_eq_ok_iff.mpr ⟨c, hc, hsize, rfl⟩
  have hout : Orchestrator.changeFleet w (·.detach d) =
      ⟨.ok (), [], { w with fleet := w.fleet.erase d }⟩ := by
    simp [Orchestrator.changeFleet, hdetach]
  have hsound' := hsound.detach d
  have hyields : (Orchestrator.changeFleet w (·.detach d)).Yields config w d () none k := by
    rw [hout] at hsound' ⊢
    exact ⟨rfl, Table.find?_erase_self _ _, fun _ hd' => Table.find?_erase_of_ne _ hd', rfl,
      hsound', h.named, h.faults, h.used⟩
  exact (hyields.audited _ _).noted _

theorem createGroup (h : w.Calm config k) (order : RouteOrder) (hc : w.fleet.find? d = some c)
    (owner : Owner) {rpf : MemberSpec} {ipmc : List MemberSpec}
    (hsize : c.groups.size < config.maxGroups) (hrpf : rpf.Resolves w.state d)
    (hresolves : ∀ spec ∈ ipmc, spec.Resolves w.state d)
    (hdistinct : (ipmc.map MemberSpec.rif).Nodup) (hroom : k + Group.handles ipmc < 2 ^ 48) :
    ∃ id g, g.id = id ∧ g.Formed rpf ipmc ∧ c.groups.find? id = none ∧
      ((Orchestrator.bench config order).createGroup w d owner rpf ipmc).Yields config w d id
        (some (c.withGroup g (1 + ipmc.length))) (k + Group.handles ipmc) := by
  have hout := h.onDevice hc hroom
    (Orchestrator.makeGroup_reverts order d owner rpf ipmc).settles (k + Group.handles ipmc)
    (fun id c' => ∃ g, g.id = id ∧ g.Formed rpf ipmc ∧ c.groups.find? id = none ∧
      c' = c.withGroup g (1 + ipmc.length)) ?_
  · obtain ⟨id, _, ⟨g, hid, hformed, hnone, rfl⟩, hyields⟩ := hout
    exact ⟨id, g, hid, hformed, hnone, hyields.audited _ _⟩
  · intro b others items E r hI hr _ _ ht
    rw [← Nat.zero_add (Group.handles ipmc)] at ht
    refine (Orchestrator.makeGroup_delivers owner hI hr.ledger hsize hrpf hresolves hdistinct
      ht).mono ?_ fun _ _ h => h
    rintro id r' ⟨g, items', hid, hformed, hnone, ht'⟩
    exact ⟨_, _, items', E, ⟨g, hid, hformed, hnone, rfl⟩, ht'⟩

theorem addRoute (h : w.Calm config k) (order : RouteOrder) (hc : w.fleet.find? d = some c)
    (hroom : k < 2 ^ 48) {route : Route} (hadmits : c.Admits config w.state (.addRoute d route)) :
    ∃ g, c.groups.find? route.group = some g ∧
      ((Orchestrator.bench config order).addRoute w d route).Yields config w d ()
        (some ((c.insertRoute route g).counted fun s =>
          { s with routesAdded := s.routesAdded + 1 })) k := by
  have hout := h.onDevice (n := 0) hc hroom (Orchestrator.makeRoute_reverts order d route).settles k
    (fun _ c' => ∃ g, c.groups.find? route.group = some g ∧
      c' = (c.insertRoute route g).counted fun s => { s with routesAdded := s.routesAdded + 1 }) ?_
  · obtain ⟨_, _, ⟨g, hg, rfl⟩, hyields⟩ := hout
    exact ⟨g, hg, hyields.audited _ _⟩
  · intro b others items E r hI hr _ happart ht
    refine (Orchestrator.makeRoute_delivers hadmits hr.ledger happart ht).mono ?_ fun _ _ h => h
    rintro _ r' ⟨g, E', hg, ht'⟩
    exact ⟨_, _, items, E', ⟨g, hg, rfl⟩, ht'⟩

theorem deleteRoute (h : w.Calm config k) (order : RouteOrder) (hc : w.fleet.find? d = some c)
    (hroom : k < 2 ^ 48) {key : RouteKey}
    (hadmits : c.Admits config w.state (.deleteRoute d key)) :
    ∃ route g, c.routes.find? key = some route ∧ c.groups.find? route.group = some g ∧
      ((Orchestrator.bench config order).deleteRoute w d key).Yields config w d ()
        (some ((c.eraseRoute route g).counted fun s =>
          { s with routesRemoved := s.routesRemoved + 1 })) k := by
  have hout := h.onDevice (n := 0) hc hroom (Orchestrator.unmakeRoute_reverts order d key).settles
    k (fun _ c' => ∃ route g, c.routes.find? key = some route ∧
      c.groups.find? route.group = some g ∧
      c' = (c.eraseRoute route g).counted fun s =>
        { s with routesRemoved := s.routesRemoved + 1 }) ?_
  · obtain ⟨_, _, ⟨route, g, hroute, hg, rfl⟩, hyields⟩ := hout
    exact ⟨route, g, hroute, hg, hyields.audited _ _⟩
  · intro b others items E r hI hr _ _ ht
    refine (Orchestrator.unmakeRoute_delivers hadmits hI hr.ledger ht).mono ?_ fun _ _ h => h
    rintro _ r' ⟨route, g, E', hroute, hg, ht'⟩
    exact ⟨_, _, items, E', ⟨route, g, hroute, hg, rfl⟩, ht'⟩

theorem verifyRoute (h : w.Calm config k) (order : RouteOrder) (hc : w.fleet.find? d = some c)
    (hroom : k < 2 ^ 48) {key : RouteKey}
    (hadmits : c.Admits config w.state (.verifyRoute d key)) :
    ((Orchestrator.bench config order).verifyRoute w d key).Yields config w d true (some c) k := by
  have hout := h.onDevice (n := 0) hc hroom (Orchestrator.checkRoute_reverts order d key).settles k
    (fun same c' => same = true ∧ c' = c) ?_
  · obtain ⟨_, _, ⟨rfl, rfl⟩, hyields⟩ := hout
    exact hyields
  · intro b others items E r hI hr _ _ ht
    refine (Orchestrator.checkRoute_delivers hadmits hI hr.ledger ht).mono ?_ fun _ _ h => h
    exact fun _ _ h => ⟨_, _, items, E, ⟨h.1, rfl⟩, h.2⟩

theorem deleteGroup (h : w.Calm config k) (order : RouteOrder) (hc : w.fleet.find? d = some c)
    (hroom : k < 2 ^ 48) {id : Handle}
    (hadmits : c.Admits config w.state (.deleteGroup d id)) :
    ∃ c', c'.groups = c.groups.erase id ∧ c'.routes = c.routes ∧
      ((Orchestrator.bench config order).deleteGroup w d id).Yields config w d () (some c') k := by
  obtain ⟨⟨g, hg⟩, hunused⟩ := hadmits
  have hout := h.onDevice (n := 0) hc hroom (Orchestrator.unmakeGroup_settles order d id) k
    (fun _ c' => c'.groups = c.groups.erase id ∧ c'.routes = c.routes) ?_
  · obtain ⟨_, c', ⟨hgroups, hroutes⟩, hyields⟩ := hout
    exact ⟨c', hgroups, hroutes, hyields.audited _ _⟩
  · intro b others items E r hI hr habroad _ ht
    have hunused : g.isInUse = false := (hI.isInUse_eq_false_iff hg).mpr hunused
    refine (Orchestrator.unmakeGroup_delivers hI hr habroad hg hunused ht).mono ?_ fun _ _ h => h
    rintro _ r' ⟨_, items', E', ⟨hgroups, hroutes⟩, ht'⟩
    exact ⟨_, _, items', E', ⟨hgroups, hroutes⟩, ht'⟩

end World.Calm

end Multicast
