import Multicast.Proofs.Consistency
import Multicast.Proofs.Mirror

/-! Worlds on a testbed whose switch is on the books, and whose caches agree with them. Every
operation keeps a world so; one that fails leaves the books as they were. -/
namespace Multicast

variable {m m' : Mappings}

theorem Holding.Fits.of_extends {x : Holding} {y : Handle × Switch.Object} (h : x.Fits m y)
    (hm : Extends m m') : x.Fits m' y where
  handle := h.handle
  device := h.device
  kind := h.kind
  parent := h.parent
  ports := by
    refine ⟨fun p hp => ?_, fun h' hh' => ?_⟩
    · obtain ⟨h', hh', hmem⟩ := h.ports.registered p hp
      exact ⟨h', hm _ _ hh', hmem⟩
    · obtain ⟨p, hp, hh⟩ := h.ports.only h' hh'
      exact ⟨p, hp, hm _ _ hh⟩

theorem Matched.of_extends {held : List Holding} {items : List (Handle × Switch.Object)}
    (h : Matched m held items) (hm : Extends m m') : Matched m' held items := by
  obtain ⟨items', hfits, hperm⟩ := h
  exact ⟨items', hfits.imp fun _ _ hx => hx.of_extends hm, hperm⟩

/-! What all caches hold -/

namespace Fleet

def holdings (f : Fleet) : List Holding := f.entries.flatMap fun p => p.2.holdings p.1

variable {f : Fleet} {d : DeviceId} {c : DeviceCache}

theorem holdings_perm_erase (h : f.find? d = some c) :
    (holdings f).Perm (c.holdings d ++ holdings (f.erase d)) :=
  (Table.entries_perm_erase h).flatMap_right _

theorem holdings_modify (h : f.find? d = some c) (c' : DeviceCache) :
    (holdings (f.modify d fun _ => c')).Perm (c'.holdings d ++ holdings (f.erase d)) := by
  have := holdings_perm_erase (Table.find?_modify_self (fun _ => c') h)
  rwa [Table.erase_modify] at this

theorem holdings_insert_empty (h : f.find? d = none) :
    (holdings (f.insert d .empty)).Perm (holdings f) := by
  have := holdings_perm_erase (Table.find?_insert_self f d .empty)
  rwa [Table.erase_insert _ h] at this

end Fleet

namespace World

/-- A device that is not attached has nothing cached. -/
def cacheOf {σ : Type} (w : World σ) (d : DeviceId) : DeviceCache := (w.fleet.find? d).getD .empty

/-- `failed` undo calls have failed so far. -/
structure Sound (config : Config) (failed : Nat) (items : List (Handle × Switch.Object))
    (E : Programming) (w : World Testbed) : Prop where
  intact : w.Intact config.maxGroups
  overrides : w.state.overrides = []
  books : Books items E w.state.switch failed
  objects : Matched w.state.switch.mappings (Fleet.holdings w.fleet) items
  routed : ∀ d, Routed config w.state.switch.mappings d (w.cacheOf d) E
  rooted : ∀ d id g, (w.cacheOf d).groups.find? id = some g → g.ipmcGroup.isNull = true →
    g.members.list .ipmc = []

namespace Sound

variable {config : Config} {failed : Nat} {items : List (Handle × Switch.Object)}
  {E E' : Programming} {w w' : World Testbed} {d : DeviceId} {c : DeviceCache}

theorem start (config : Config) : Sound config 0 [] (fun _ => none) (.start .empty) where
  intact := by
    intro d c hc
    cases hc
  overrides := rfl
  books := .empty
  objects := .nil _
  routed := fun _ => .empty fun _ => rfl
  rooted := by
    intro d id g hg
    cases hg

/-- Faults, look-ups and new names may change as they like. -/
theorem of_state (h : Sound config failed items E w) {t : Testbed}
    (hover : t.overrides = w.state.overrides)
    (hmap : Extends w.state.switch.mappings t.switch.mappings)
    (hcounter : w.state.switch.counter ≤ t.switch.counter)
    (hobjects : t.switch.objects = w.state.switch.objects)
    (hentries : t.switch.entries = w.state.switch.entries) :
    Sound config failed items E { w with state := t } where
  intact := h.intact
  overrides := hover.trans h.overrides
  books := h.books.mono hcounter hobjects hentries (Nat.le_refl _)
  objects := h.objects.of_extends hmap
  routed := fun d => (h.routed d).of_extends hmap
  rooted := h.rooted

/-! Runs on one device -/

/-- What a run in this world starts from. -/
def opening (w : World Testbed) (failed : Nat) : Opening :=
  ⟨w.state.switch.mappings, w.state.switch.counter, failed⟩

theorem tallies (h : Sound config failed items E w) (hc : w.fleet.find? d = some c) :
    Run.Tallies config (opening w failed) d (Fleet.holdings (w.fleet.erase d)) c items E
      ⟨w.state, c, []⟩ where
  holds := ⟨rfl, rfl⟩
  accounts := ⟨h.overrides, rfl, Nat.le_refl _, h.books⟩
  ledger := by
    have hcache : w.cacheOf d = c := by
      rw [cacheOf, hc]
      rfl
    refine ⟨h.objects.perm_held (Fleet.holdings_perm_erase hc), hcache ▸ h.routed d, ?_⟩
    have := h.rooted d
    rwa [hcache] at this

theorem of_tallies (h : Sound config failed items E w) (hc : w.fleet.find? d = some c)
    {c' : DeviceCache} {items' : List (Handle × Switch.Object)} {r : Run Testbed}
    (hI : r.cache.Intact config.maxGroups) (hE : E.SameBut E' d)
    (hr : r.Tallies config (opening w failed) d (Fleet.holdings (w.fleet.erase d)) c' items' E') :
    Sound config (failed + failedUndos r.events) items' E'
      ⟨r.state, w.fleet.modify d fun _ => r.cache⟩ := by
  have hm : r.state.switch.mappings = w.state.switch.mappings := hr.accounts.mappings
  have hl := hr.ledger.of_tables hr.holds.1 hr.holds.2
  have hself : (World.mk r.state (w.fleet.modify d fun _ => r.cache)).cacheOf d = r.cache := by
    rw [cacheOf, Table.find?_modify_self _ hc]
    rfl
  have hother : ∀ d', d' ≠ d →
      (World.mk r.state (w.fleet.modify d fun _ => r.cache)).cacheOf d' = w.cacheOf d' := by
    intro d' hd
    rw [cacheOf, cacheOf, Table.find?_modify_of_ne _ _ hd]
  refine ⟨?_, hr.accounts.overrides, hr.accounts.books, ?_, ?_, ?_⟩
  · intro d' c₀ hc₀
    by_cases hd : d' = d
    · rw [hd, Table.find?_modify_self _ hc] at hc₀
      cases hc₀
      exact hI
    · rw [Table.find?_modify_of_ne _ _ hd] at hc₀
      exact h.intact d' c₀ hc₀
  · rw [hm]
    exact hl.objects.perm_held (Fleet.holdings_modify hc r.cache).symm
  · intro d'
    rw [hm]
    by_cases hd : d' = d
    · rw [hd, hself]
      exact hl.routed
    · rw [hother d' hd]
      exact (h.routed d').congr fun e => hE d' e hd
  · intro d'
    by_cases hd : d' = d
    · rw [hd, hself]
      exact hl.rooted
    · rw [hother d' hd]
      exact h.rooted d'

end Sound

end World

/-! Operations -/

variable {α : Type} {config : Config}

/-- Run on a device, the steps keep the books and the cache in agreement. -/
def Act.Settles (config : Config) (d : DeviceId) (act : Act Testbed α) : Prop :=
  ∀ b others c items E r, c.Intact config.maxGroups → Run.Tallies config b d others c items E r →
    act.Ends r (fun _ r' => r'.cache.Intact config.maxGroups ∧ r'.Mirrors config b d others E)
      fun _ r' => r'.cache.Intact config.maxGroups ∧ r'.Mirrors config b d others E

/-- Steps that fail leave the books and the cache as they were, too. -/
def Act.Reverts (config : Config) (d : DeviceId) (act : Act Testbed α) : Prop :=
  ∀ b others c items E r, c.Intact config.maxGroups → Run.Tallies config b d others c items E r →
    act.Ends r (fun _ r' => r'.cache.Intact config.maxGroups ∧ r'.Mirrors config b d others E)
      fun _ r' => Run.Tallies config b d others c items E r'

theorem Act.Reverts.settles {d : DeviceId} {act : Act Testbed α} (h : act.Reverts config d) :
    act.Settles config d := by
  intro b others c items E r hI hr
  refine (h b others c items E r hI hr).mono (fun _ _ h => h) ?_
  exact fun _ _ h => ⟨hI.of_holds h.holds, h.mirrors⟩

/-- What is known of the cache, whatever the hardware, and what is known of the books. -/
theorem Act.Reverts.of_ends {d : DeviceId} {act : Act Testbed α} {f : RouteTable → RouteTable}
    (hcache : act.Upholds config.maxGroups f)
    (hbooks : ∀ b others c items E r, c.Intact config.maxGroups →
      Run.Tallies config b d others c items E r →
      act.Ends r (fun _ r' => r'.Mirrors config b d others E) fun _ r' => Accounts b items E r') :
    act.Reverts config d := by
  intro b others c items E r hI h
  refine ((hcache _ r (hI.of_holds h.holds) rfl).and (hbooks b others c items E r hI h)).mono
    (fun _ _ h => ⟨h.1.1, h.2⟩) ?_
  exact fun _ _ hf => h.of_accounts (h.holds.recovers hf.1) hf.2

namespace Orchestrator

variable (order : RouteOrder) (d : DeviceId)

theorem makeGroup_reverts (owner : Owner) (rpf : MemberSpec) (ipmc : List MemberSpec) :
    ((bench config order).makeGroup d owner rpf ipmc).Reverts config d := by
  apply Act.Reverts.of_ends
  · exact makeGroup_upholds (o := bench config order) owner rpf ipmc
  · exact fun b others c items E r => makeGroup_mirrors owner rpf ipmc

theorem changeMember_reverts (id : Handle) (op : MemberOp) (role : Role) (spec : MemberSpec) :
    ((bench config order).changeMember d id op role spec).Reverts config d := by
  apply Act.Reverts.of_ends
  · exact (changeMember_carries (.any _) d _ id op role spec).upholds
  · exact fun b others c items E r => changeMember_mirrors op

theorem makeRoute_reverts (route : Route) :
    ((bench config order).makeRoute d route).Reverts config d := by
  apply Act.Reverts.of_ends
  · exact (makeRoute_carries (.any _) d _ route).upholds
  · exact fun b others c items E r _ => makeRoute_mirrors route

theorem unmakeRoute_reverts (key : RouteKey) :
    ((bench config order).unmakeRoute d key).Reverts config d := by
  apply Act.Reverts.of_ends
  · exact (unmakeRoute_carries (.any _) d _ key).upholds
  · exact fun b others c items E r => unmakeRoute_mirrors key

theorem changeRoute_reverts (key : RouteKey) (u : RouteUpdate) :
    ((bench config order).changeRoute d key u).Reverts config d := by
  apply Act.Reverts.of_ends
  · exact (changeRoute_carries (.any _) d _ key u).upholds
  · exact fun b others c items E r => changeRoute_mirrors key u

theorem checkRoute_reverts (key : RouteKey) :
    ((bench config order).checkRoute d key).Reverts config d := by
  intro b others c items E r hI h
  have hS := quiet_frame (bench config order).hardware d
  refine (((hS.checkRoute key).holds h.holds).and (checkRoute_accounts key h.accounts)).mono ?_ ?_
  · exact fun _ _ hf => ⟨hI.of_holds hf.1, (h.of_accounts hf.1 hf.2).mirrors⟩
  · exact fun _ _ hf => h.of_accounts hf.1 hf.2

theorem unmakeGroup_settles (id : Handle) :
    ((bench config order).unmakeGroup d id).Settles config d := by
  intro b others c items E r hI h
  have hIr := hI.of_holds h.holds
  refine ((unmakeGroup_ends (.any _) d id hIr).and (unmakeGroup_mirrors hI h)).mono ?_ ?_
  · exact fun _ _ h => ⟨(h.1.upholds hIr).1, h.2⟩
  · exact fun _ _ h => ⟨(h.1.1.upholds hIr).1, h.2⟩

end Orchestrator

@[simp] theorem failedUndos_audited (o : Orchestrator Testbed) (out : Outcome Testbed α)
    (record : Audit.Record) :
    failedUndos (o.audited out record).events = failedUndos out.events := by
  unfold Orchestrator.audited
  split
  · exact failedUndos_append _ _
  · rfl

@[simp] theorem failedUndos_noted (out : Outcome Testbed Unit) (message : String) :
    failedUndos (Orchestrator.noted out message).events = failedUndos out.events := by
  unfold Orchestrator.noted
  split
  · exact failedUndos_append _ _
  · rfl

namespace Outcome

variable {failed : Nat}

def Sound (config : Config) (failed : Nat) (out : Outcome Testbed α) : Prop :=
  ∃ items E, out.world.Sound config (failed + failedUndos out.events) items E

theorem Sound.audited {out : Outcome Testbed α} (h : out.Sound config failed)
    (o : Orchestrator Testbed) (record : Audit.Record) :
    (o.audited out record).Sound config failed := by
  unfold Sound
  rw [Orchestrator.world_audited, failedUndos_audited]
  exact h

theorem Sound.noted {out : Outcome Testbed Unit} (h : out.Sound config failed) (message : String) :
    (Orchestrator.noted out message).Sound config failed := by
  unfold Sound
  rw [Orchestrator.world_noted, failedUndos_noted]
  exact h

/-- The books are those of the world before, and no fewer handles are given out. -/
def Restores (config : Config) (failed : Nat) (items : List (Handle × Switch.Object))
    (E : Programming) (w : World Testbed) (out : Outcome Testbed α) : Prop :=
  out.world.Sound config (failed + failedUndos out.events) items E ∧
    w.state.switch.counter ≤ out.world.state.switch.counter

theorem Restores.audited {items : List (Handle × Switch.Object)} {E : Programming}
    {w : World Testbed} {out : Outcome Testbed α} (h : out.Restores config failed items E w)
    (o : Orchestrator Testbed) (record : Audit.Record) :
    (o.audited out record).Restores config failed items E w := by
  unfold Restores
  rw [Orchestrator.world_audited, failedUndos_audited]
  exact h

end Outcome

namespace World.Sound

variable {failed : Nat} {items : List (Handle × Switch.Object)} {E : Programming}
  {w : World Testbed} {d : DeviceId}

theorem onDevice (h : w.Sound config failed items E) {act : Act Testbed α}
    (hact : act.Settles config d) : (Orchestrator.onDevice w d act).Sound config failed := by
  cases hc : w.fleet.find? d with
  | none =>
    rw [Orchestrator.onDevice_of_find?_eq_none hc]
    exact ⟨items, E, h⟩
  | some c =>
    obtain ⟨r, hworld, hevents, hr⟩ := Orchestrator.onDevice_ends hc
      (hact _ _ c items E _ (h.intact d c hc) (h.tallies hc))
    have hr : r.cache.Intact config.maxGroups ∧
        r.Mirrors config (opening w failed) d (Fleet.holdings (w.fleet.erase d)) E := by
      rcases hr with ⟨_, _, hr⟩ | ⟨_, _, hr⟩ <;> exact hr
    obtain ⟨hI, c', items', E', hr, hE⟩ := hr
    unfold Outcome.Sound
    rw [hworld, hevents]
    exact ⟨items', E', h.of_tallies hc hI hE hr⟩

/-- Steps that fail leave the books as they were. -/
theorem onDevice_of_error (h : w.Sound config failed items E) {act : Act Testbed α}
    (hact : act.Reverts config d) {e : OpError}
    (herror : (Orchestrator.onDevice w d act).result = .error e) :
    (Orchestrator.onDevice w d act).Restores config failed items E w := by
  cases hc : w.fleet.find? d with
  | none =>
    rw [Orchestrator.onDevice_of_find?_eq_none hc]
    exact ⟨h, Nat.le_refl _⟩
  | some c =>
    have hI := h.intact d c hc
    obtain ⟨r, hworld, hevents, hr⟩ := Orchestrator.onDevice_ends hc
      (hact _ _ c items E _ hI (h.tallies hc))
    rcases hr with ⟨a, hok, _⟩ | ⟨_, _, hr⟩
    · rw [hok] at herror
      cases herror
    · unfold Outcome.Restores
      rw [hworld, hevents]
      exact ⟨h.of_tallies hc (hI.of_holds hr.holds) (.refl E d) hr, hr.accounts.counter⟩

/-- Fleets with the same tables hold the same. -/
theorem of_fleet (h : w.Sound config failed items E) {fleet : Fleet}
    (hI : (World.mk w.state fleet).Intact config.maxGroups)
    (hheld : (Fleet.holdings fleet).Perm (Fleet.holdings w.fleet))
    (hgroups : ∀ d, ((World.mk w.state fleet).cacheOf d).groups = (w.cacheOf d).groups)
    (hroutes : ∀ d, ((World.mk w.state fleet).cacheOf d).routes = (w.cacheOf d).routes) :
    Sound config failed items E ⟨w.state, fleet⟩ where
  intact := hI
  overrides := h.overrides
  books := h.books
  objects := h.objects.perm_held hheld.symm
  routed := by
    intro d
    refine (h.routed d).refile (hroutes d) fun _ _ _ => ?_
    unfold DeviceCache.imageOf
    rw [hgroups]
  rooted := by
    intro d id g hg
    rw [hgroups] at hg
    exact h.rooted d id g hg

theorem changeFleet_of_error (h : w.Sound config failed items E)
    {f : Fleet → Except CacheError Fleet} {e : OpError}
    (herror : (Orchestrator.changeFleet w f).result = .error e) :
    (Orchestrator.changeFleet w f).Restores config failed items E w := by
  rcases Orchestrator.changeFleet_cases w f with ⟨fleet, _, hout⟩ | ⟨e', hout⟩
  · rw [hout] at herror
    cases herror
  · rw [hout]
    exact ⟨h, Nat.le_refl _⟩

theorem attach (h : w.Sound config failed items E) (d : DeviceId) :
    (Orchestrator.changeFleet w (·.attach d)).Sound config failed := by
  have hI := (Outcome.Upholds.attach h.intact d).intact
  rcases Orchestrator.changeFleet_cases w (·.attach d) with ⟨f, hf, hout⟩ | ⟨e, hout⟩
  · obtain ⟨hnone, rfl⟩ := Fleet.attach_eq_ok_iff.mp hf
    rw [hout] at hI ⊢
    have hcache : ∀ d', (World.mk w.state (w.fleet.insert d .empty)).cacheOf d' = w.cacheOf d' := by
      intro d'
      unfold cacheOf
      by_cases hd : d' = d
      · rw [hd, Table.find?_insert_self, hnone]
        rfl
      · rw [Table.find?_insert_of_ne _ _ hd]
    exact ⟨items, E, h.of_fleet hI (Fleet.holdings_insert_empty hnone)
      (fun d' => by rw [hcache d']) fun d' => by rw [hcache d']⟩
  · rw [hout]
    exact ⟨items, E, h⟩

/-- A device that goes has no groups, and so no routes. -/
theorem detach (h : w.Sound config failed items E) (d : DeviceId) :
    (Orchestrator.changeFleet w (·.detach d)).Sound config failed := by
  have hI := (Outcome.Upholds.detach h.intact d).intact
  rcases Orchestrator.changeFleet_cases w (·.detach d) with ⟨f, hf, hout⟩ | ⟨e, hout⟩
  · obtain ⟨c, hc, hsize, rfl⟩ := Fleet.detach_eq_ok_iff.mp hf
    rw [hout] at hI ⊢
    have hgroups : c.groups = ∅ := Table.eq_empty_of_size_eq_zero hsize
    have hroutes := (h.intact d c hc).routes_eq_empty hsize
    have hheld : (Fleet.holdings (w.fleet.erase d)).Perm (Fleet.holdings w.fleet) := by
      have := Fleet.holdings_perm_erase hc
      rw [DeviceCache.holdings, hgroups] at this
      exact this.symm
    have hsame : ∀ d', ((World.mk w.state (w.fleet.erase d)).cacheOf d').groups =
        (w.cacheOf d').groups ∧
        ((World.mk w.state (w.fleet.erase d)).cacheOf d').routes = (w.cacheOf d').routes := by
      intro d'
      unfold cacheOf
      by_cases hd : d' = d
      · rw [hd, Table.find?_erase_self, hc]
        exact ⟨hgroups.symm, hroutes.symm⟩
      · rw [Table.find?_erase_of_ne _ hd]
        exact ⟨rfl, rfl⟩
    exact ⟨items, E, h.of_fleet hI hheld (fun d' => (hsame d').1) fun d' => (hsame d').2⟩
  · rw [hout]
    exact ⟨items, E, h⟩

end World.Sound

/-- Whatever an operation does, it keeps a world sound. -/
theorem World.Sound.perform {failed : Nat} {items : List (Handle × Switch.Object)}
    {E : Programming} {w : World Testbed} (h : w.Sound config failed items E) (order : RouteOrder)
    (op : Operation) : (op.perform (Orchestrator.bench config order) w).Sound config failed := by
  cases op with
  | attach d => exact ((h.attach d).audited _ _).noted _
  | detach d => exact ((h.detach d).audited _ _).noted _
  | createGroup d owner rpf ipmc =>
    exact (h.onDevice (Orchestrator.makeGroup_reverts order d owner rpf ipmc).settles).audited _ _
  | deleteGroup d id =>
    exact (h.onDevice (Orchestrator.unmakeGroup_settles order d id)).audited _ _
  | updateMember d id op role spec =>
    exact (h.onDevice (Orchestrator.changeMember_reverts order d id op role spec).settles).audited
      _ _
  | addRoute d route =>
    exact (h.onDevice (Orchestrator.makeRoute_reverts order d route).settles).audited _ _
  | deleteRoute d key =>
    exact (h.onDevice (Orchestrator.unmakeRoute_reverts order d key).settles).audited _ _
  | updateRoute d key u =>
    exact (h.onDevice (Orchestrator.changeRoute_reverts order d key u).settles).audited _ _
  | verifyRoute d key =>
    exact h.onDevice (Orchestrator.checkRoute_reverts order d key).settles

/-- An operation that fails leaves the books as they were, unless it deletes a group. -/
theorem World.Sound.perform_of_error {failed : Nat} {items : List (Handle × Switch.Object)}
    {E : Programming} {w : World Testbed} (h : w.Sound config failed items E) (order : RouteOrder)
    {op : Operation} (hop : ∀ d id, op ≠ .deleteGroup d id) {e : OpError}
    (herror : (op.perform (Orchestrator.bench config order) w).result = .error e) :
    (op.perform (Orchestrator.bench config order) w).Restores config failed items E w := by
  cases op with
  | attach d =>
    rw [Operation.perform, Orchestrator.attach, Orchestrator.result_noted,
      Orchestrator.result_audited] at herror
    unfold Outcome.Restores
    simp only [Operation.perform, Orchestrator.attach, Orchestrator.world_noted,
      Orchestrator.world_audited, failedUndos_noted, failedUndos_audited]
    exact h.changeFleet_of_error herror
  | detach d =>
    rw [Operation.perform, Orchestrator.detach, Orchestrator.result_noted,
      Orchestrator.result_audited] at herror
    unfold Outcome.Restores
    simp only [Operation.perform, Orchestrator.detach, Orchestrator.world_noted,
      Orchestrator.world_audited, failedUndos_noted, failedUndos_audited]
    exact h.changeFleet_of_error herror
  | deleteGroup d id => exact (hop d id rfl).elim
  | createGroup d owner rpf ipmc =>
    rw [Operation.perform, Orchestrator.createGroup, Orchestrator.result_audited] at herror
    exact (h.onDevice_of_error (Orchestrator.makeGroup_reverts order d owner rpf ipmc)
      herror).audited _ _
  | updateMember d id op role spec =>
    rw [Operation.perform, Orchestrator.updateMember, Orchestrator.result_audited] at herror
    exact (h.onDevice_of_error (Orchestrator.changeMember_reverts order d id op role spec)
      herror).audited _ _
  | addRoute d route =>
    rw [Operation.perform, Orchestrator.addRoute, Orchestrator.result_audited] at herror
    exact (h.onDevice_of_error (Orchestrator.makeRoute_reverts order d route) herror).audited _ _
  | deleteRoute d key =>
    rw [Operation.perform, Orchestrator.deleteRoute, Orchestrator.result_audited] at herror
    exact (h.onDevice_of_error (Orchestrator.unmakeRoute_reverts order d key) herror).audited _ _
  | updateRoute d key u =>
    rw [Operation.perform, Orchestrator.updateRoute, Orchestrator.result_audited] at herror
    exact (h.onDevice_of_error (Orchestrator.changeRoute_reverts order d key u) herror).audited _ _
  | verifyRoute d key =>
    exact h.onDevice_of_error (Orchestrator.checkRoute_reverts order d key) herror

end Multicast
