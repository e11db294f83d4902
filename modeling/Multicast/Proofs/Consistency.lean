import Multicast.Proofs.Operation
import Multicast.Proofs.Upkeep
import Multicast.Switch

/-! Every cache stays intact along every run, whatever the hardware answers. -/
namespace Multicast

variable {σ α : Type} {max : Nat}

def World.Intact (max : Nat) (w : World σ) : Prop :=
  ∀ d c, w.fleet.find? d = some c → c.Intact max

/-- The routes cached of a device; none if it is not attached. -/
def World.routesOf (w : World σ) (d : DeviceId) : RouteTable :=
  (w.fleet.find? d).elim ∅ (·.routes)

/-- What an operation that succeeds makes of the routes of its device. -/
def Operation.reroute : Operation → RouteTable → RouteTable
  | .addRoute _ r, routes => routes.insert r.key r
  | .deleteRoute _ key, routes => routes.erase key
  | .updateRoute _ key u, routes => routes.modify key u.apply
  | _, routes => routes

theorem World.Intact.modify {w : World σ} (hw : w.Intact max) {c : DeviceCache}
    (hc : c.Intact max) (d : DeviceId) (state : σ) :
    (World.mk state (w.fleet.modify d fun _ => c)).Intact max := by
  intro d' c' hc'
  rw [Table.find?_modify] at hc'
  split at hc'
  · obtain ⟨_, _, rfl⟩ := Option.map_eq_some_iff.mp hc'
    exact hc
  · exact hw d' c' hc'

theorem World.routesOf_modify {w : World σ} {d : DeviceId} {c : DeviceCache}
    (hc : w.fleet.find? d = some c) (c' : DeviceCache) (state : σ) (d' : DeviceId) :
    (World.mk state (w.fleet.modify d fun _ => c')).routesOf d' =
      if d' = d then c'.routes else w.routesOf d' := by
  unfold routesOf
  split
  · next hd => rw [hd, Table.find?_modify_self _ hc, Option.elim]
  · next hd => rw [Table.find?_modify_of_ne _ _ hd]

theorem World.routesOf_of_find? {w : World σ} {d : DeviceId} {c : DeviceCache}
    (hc : w.fleet.find? d = some c) : w.routesOf d = c.routes := by
  rw [routesOf, hc, Option.elim]

/-- Every cache stays intact. The routes of `d` change by `f`, or the operation fails and counts at
most one rollback there. -/
structure Outcome.Upholds (max : Nat) (w : World σ) (d : DeviceId) (f : RouteTable → RouteTable)
    (out : Outcome σ α) : Prop where
  intact : out.world.Intact max
  routes : ∀ a, out.result = .ok a →
    ∀ d', out.world.routesOf d' = if d' = d then f (w.routesOf d') else w.routesOf d'
  recovers : ∀ e, out.result = .error e →
    out.world.fleet = w.fleet ∨ out.world.fleet = w.fleet.modify d DeviceCache.rolledBack

namespace Outcome.Upholds

variable {w : World σ} {d : DeviceId} {f : RouteTable → RouteTable}

theorem audited {out : Outcome σ α} (h : out.Upholds max w d f) (o : Orchestrator σ)
    (record : Audit.Record) : (o.audited out record).Upholds max w d f :=
  ⟨by simpa using h.intact, by simpa using h.routes, by simpa using h.recovers⟩

theorem noted {out : Outcome σ Unit} (h : out.Upholds max w d f) (message : String) :
    (Orchestrator.noted out message).Upholds max w d f :=
  ⟨by simpa using h.intact, by simpa using h.routes, by simpa using h.recovers⟩

theorem onDevice (hw : w.Intact max) {act : Act σ α} (h : act.Upholds max f) :
    (Orchestrator.onDevice w d act).Upholds max w d f := by
  cases hc : w.fleet.find? d with
  | none =>
    rw [Orchestrator.onDevice_of_find?_eq_none hc]
    exact ⟨hw, fun _ h => (nomatch h), fun _ _ => .inl rfl⟩
  | some c =>
    obtain ⟨r, hworld, _, hr⟩ :=
      Orchestrator.onDevice_ends hc (h c ⟨w.state, c, []⟩ (hw d c hc) rfl)
    rcases hr with ⟨a, hresult, hr⟩ | ⟨e, hresult, hr⟩
    · refine ⟨hworld ▸ hw.modify hr.1 d _, fun _ _ d' => ?_, fun _ h => ?_⟩
      · rw [hworld, World.routesOf_modify hc, hr.2]
        split
        · next hd => rw [hd, World.routesOf_of_find? hc]
        · rfl
      · rw [hresult] at h
        cases h
    · refine ⟨hworld ▸ hw.modify ((hw d c hc).of_holds hr.holds) d _, fun _ h => ?_, fun _ _ => ?_⟩
      · rw [hresult] at h
        cases h
      · rw [hworld]
        rcases hr with hr | hr
        · exact .inl (Table.modify_eq_self hc hr)
        · exact .inr (Table.modify_congr hc hr)

theorem attach (hw : w.Intact max) (d : DeviceId) :
    (Orchestrator.changeFleet w (·.attach d)).Upholds max w d fun routes => routes := by
  rcases Orchestrator.changeFleet_cases w (·.attach d) with ⟨fleet, hf, h⟩ | ⟨e, h⟩
  · obtain ⟨hnone, rfl⟩ := Fleet.attach_eq_ok_iff.mp hf
    rw [h]
    refine ⟨?_, fun _ _ d' => ?_, fun _ h => nomatch h⟩
    · intro d' c hc
      by_cases hd : d' = d
      · rw [hd, Table.find?_insert_self] at hc
        cases hc
        exact .empty max
      · rw [Table.find?_insert_of_ne _ _ hd] at hc
        exact hw d' c hc
    · by_cases hd : d' = d
      · simp [World.routesOf, hd, hnone, DeviceCache.empty]
      · simp [World.routesOf, hd, Table.find?_insert_of_ne _ _ hd]
  · rw [h]
    exact ⟨hw, fun _ h => (nomatch h), fun _ _ => .inl rfl⟩

/-- A device without groups has no routes to lose. -/
theorem detach (hw : w.Intact max) (d : DeviceId) :
    (Orchestrator.changeFleet w (·.detach d)).Upholds max w d fun routes => routes := by
  rcases Orchestrator.changeFleet_cases w (·.detach d) with ⟨fleet, hf, h⟩ | ⟨e, h⟩
  · obtain ⟨c, hc, hempty, rfl⟩ := Fleet.detach_eq_ok_iff.mp hf
    have hroutes := (hw d c hc).routes_eq_empty hempty
    rw [h]
    refine ⟨?_, fun _ _ d' => ?_, fun _ h => nomatch h⟩
    · intro d' c' hc'
      by_cases hd : d' = d
      · rw [hd, Table.find?_erase_self] at hc'
        cases hc'
      · rw [Table.find?_erase_of_ne _ hd] at hc'
        exact hw d' c' hc'
    · by_cases hd : d' = d
      · simp [World.routesOf, hd, hc, hroutes]
      · simp [World.routesOf, hd, Table.find?_erase_of_ne _ hd]
  · rw [h]
    exact ⟨hw, fun _ h => (nomatch h), fun _ _ => .inl rfl⟩

end Outcome.Upholds

/-- Deleting a group keeps every cache intact and every route, also when it gets only half way. -/
theorem Orchestrator.deleteGroup_keeps (o : Orchestrator σ) {w : World σ} (hw : w.Intact max)
    (d : DeviceId) (id : Handle) :
    (o.deleteGroup w d id).world.Intact max ∧
      ∀ d', (o.deleteGroup w d id).world.routesOf d' = w.routesOf d' := by
  simp only [deleteGroup, world_audited]
  cases hc : w.fleet.find? d with
  | none =>
    rw [onDevice_of_find?_eq_none hc]
    exact ⟨hw, fun _ => rfl⟩
  | some c =>
    have hI : (⟨w.state, c, []⟩ : Run σ).cache.Intact max := hw d c hc
    obtain ⟨r, hworld, _, hr⟩ := onDevice_ends hc (unmakeGroup_ends (.any o.hardware) d id hI)
    have hr : r.Upholds max c.routes := by
      rcases hr with ⟨_, _, hr⟩ | ⟨_, _, hr, _⟩ <;> exact hr.upholds hI
    rw [hworld]
    refine ⟨hw.modify hr.1 d _, fun d' => ?_⟩
    rw [World.routesOf_modify hc, hr.2]
    split
    · next hd => rw [hd, World.routesOf_of_find? hc]
    · rfl

/-- Every operation but the deletion of a group either does what it says or recovers. -/
theorem Operation.perform_upholds {w : World σ} (o : Orchestrator σ)
    (hw : w.Intact o.config.maxGroups) (op : Operation) (hop : ∀ d id, op ≠ .deleteGroup d id) :
    (op.perform o w).Upholds o.config.maxGroups w op.device op.reroute := by
  cases op with
  | attach d => exact ((Outcome.Upholds.attach hw d).audited o _).noted _
  | detach d => exact ((Outcome.Upholds.detach hw d).audited o _).noted _
  | createGroup d owner rpf ipmc =>
    exact (Outcome.Upholds.onDevice hw (Orchestrator.makeGroup_upholds owner rpf ipmc)).audited o _
  | deleteGroup d id => exact (hop d id rfl).elim
  | updateMember d id op role spec =>
    refine (Outcome.Upholds.onDevice hw ?_).audited o _
    exact (Orchestrator.changeMember_carries (.any _) d _ id op role spec).upholds
  | addRoute d route =>
    refine (Outcome.Upholds.onDevice hw ?_).audited o _
    exact (Orchestrator.makeRoute_carries (.any _) d _ route).upholds
  | deleteRoute d key =>
    refine (Outcome.Upholds.onDevice hw ?_).audited o _
    exact (Orchestrator.unmakeRoute_carries (.any _) d _ key).upholds
  | updateRoute d key u =>
    refine (Outcome.Upholds.onDevice hw ?_).audited o _
    exact (Orchestrator.changeRoute_carries (.any _) d _ key u).upholds
  | verifyRoute d key =>
    exact Outcome.Upholds.onDevice hw (Orchestrator.checkRoute_carries (.any _) d _ key).upholds

theorem World.Intact.perform {w : World σ} (o : Orchestrator σ)
    (hw : w.Intact o.config.maxGroups) (op : Operation) :
    (op.perform o w).world.Intact o.config.maxGroups := by
  cases op with
  | deleteGroup d id => exact (o.deleteGroup_keeps hw d id).1
  | _ =>
    refine (Operation.perform_upholds o hw _ ?_).intact
    intro _ _ h
    cases h

/-- Only an operation that succeeds changes routes, and only those of its device. -/
theorem Operation.routesOf_perform {w : World σ} (o : Orchestrator σ)
    (hw : w.Intact o.config.maxGroups) (op : Operation) (d : DeviceId) :
    (op.perform o w).world.routesOf d =
      if (op.perform o w).result.isOk = true ∧ d = op.device then op.reroute (w.routesOf d)
      else w.routesOf d := by
  by_cases hop : ∀ d id, op ≠ .deleteGroup d id
  · have hupholds := op.perform_upholds o hw hop
    cases hresult : (op.perform o w).result with
    | ok a => simp [hupholds.routes a hresult, Except.isOk, Except.toBool]
    | error e =>
      rw [if_neg (by simp [Except.isOk, Except.toBool])]
      rcases hupholds.recovers e hresult with hfleet | hfleet
      · rw [World.routesOf, hfleet, World.routesOf]
      · rw [World.routesOf, hfleet, World.routesOf, Table.find?_modify]
        split
        · cases w.fleet.find? d <;> rfl
        · rfl
  · cases op with
    | deleteGroup d' id =>
      rw [show (Operation.deleteGroup d' id).reroute (w.routesOf d) = w.routesOf d from rfl,
        ite_self]
      exact (o.deleteGroup_keeps hw d' id).2 d
    | _ => exact (hop fun _ _ h => nomatch h).elim

theorem World.Reachable.intact {config : Config} {hw : Hardware σ} {w : World σ}
    (h : w.Reachable config hw) : w.Intact config.maxGroups := by
  induction h with
  | start state =>
    intro d c hc
    cases hc
  | perform order op _ ih => exact ih.perform ⟨config, hw, order⟩ op
  | drift state _ ih => exact ih

theorem World.ask_blameless {w : World σ} {d : DeviceId} {f : DeviceCache → Except CacheError α}
    (hf : ∀ c, w.fleet.find? d = some c → Blameless (f c)) {e : OpError}
    (he : w.ask d f = .error e) : e.kind ≠ .fail := by
  obtain ⟨e', rfl, hcache | ⟨c, hc, hask⟩⟩ := World.ask_eq_error he
  · exact w.fleet.cache_blameless d e' hcache
  · exact hf c hc e' hask

/-- Questions fail only for want of what they ask about. -/
theorem Question.ask_blameless {w : World σ} (hw : w.Intact max) (q : Question) {e : OpError}
    (he : q.ask w = .error e) : e.kind ≠ .fail := by
  cases q with
  | route d key => exact World.ask_blameless (fun c _ => c.routes.get_blameless key) he
  | group d id => exact World.ask_blameless (fun c _ => c.groups.get_blameless id) he
  | groupIds d | stats d | snapshot d | dump d => exact World.ask_blameless (fun _ _ => .ok _) he
  | consistency d =>
    exact World.ask_blameless (fun c hc => (hw d c hc).checkConsistency ▸ .ok _) he

/-- Referential integrity of every cache in every reachable world. -/
theorem reachable_caches_intact {config : Config} {hw : Hardware σ} {w : World σ}
    (h : w.Reachable config hw) {d : DeviceId} {c : DeviceCache}
    (hc : w.fleet.find? d = some c) :
    c.Intact config.maxGroups ∧ w.checkConsistency d = .ok () := by
  have hI := h.intact d c hc
  refine ⟨hI, ?_⟩
  unfold World.checkConsistency World.ask Fleet.cache
  rw [hc]
  simp only [hI.checkConsistency]

/-- A device with a group and a route on it. -/
def World.routed : World Switch :=
  let o : Orchestrator Switch := ⟨{}, Switch.hardware, .ascending⟩
  let s := ((Switch.empty.register ⟨1⟩ (.rif ⟨10⟩)).2.register ⟨1⟩ (.vrf ⟨0⟩)).2
  let w := ((Operation.attach ⟨1⟩).perform o (.start s)).world
  let w := ((Operation.createGroup ⟨1⟩ .ipmc ⟨⟨10⟩, []⟩ []).perform o w).world
  ((Operation.addRoute ⟨1⟩
    ⟨.starG ⟨0⟩ (.v4 ⟨239, 1, 1, 1⟩), ⟨10⟩, .make .group 3, false⟩).perform o w).world

theorem reachable_caches_intact_routed :
    let c := (World.routed.fleet.find? ⟨1⟩).getD .empty
    (World.routed.fleet.find? ⟨1⟩ = some c ∧ c.groups.size = 1 ∧ c.routes.size = 1) ∧
      c.Intact 4096 ∧ World.routed.checkConsistency ⟨1⟩ = .ok () :=
  have hreached : World.routed.Reachable {} Switch.hardware :=
    .perform .ascending _ (.perform .ascending _ (.perform .ascending _ (.start _)))
  ⟨by decide +kernel, reachable_caches_intact hreached (by decide +kernel)⟩

end Multicast
