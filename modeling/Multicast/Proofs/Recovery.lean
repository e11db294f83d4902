import Multicast.Proofs.Consistency

/-! What a failed operation leaves of the caches, whatever the hardware answers, also to the calls
that take things back. -/
namespace Multicast

variable {σ : Type}

theorem Fleet.devices_modify (fleet : Fleet) (d : DeviceId) (f : DeviceCache → DeviceCache) :
    Fleet.devices (fleet.modify d f) = fleet.devices :=
  Table.map_fst_modifyEntry d f fleet.entries

/-- Attached devices, groups and routes stay as they were. Counters do, too, but for one rollback on
the device of the operation. -/
theorem failed_operation_recovers_caches {config : Config} {hw : Hardware σ} {w : World σ}
    (h : w.Reachable config hw) (order : RouteOrder) (op : Operation)
    (hop : ∀ d id, op ≠ .deleteGroup d id) {e : OpError}
    (he : (op.perform ⟨config, hw, order⟩ w).result = .error e) :
    let w' := (op.perform ⟨config, hw, order⟩ w).world
    w'.devices = w.devices ∧
      ∀ d c, w.fleet.find? d = some c → ∃ c', w'.fleet.find? d = some c' ∧
        c'.groups = c.groups ∧ c'.routes = c.routes ∧
        (c'.stats = c.stats ∨
          d = op.device ∧ c'.stats = { c.stats with rollbacks := c.stats.rollbacks + 1 }) := by
  intro w'
  have hupholds := op.perform_upholds ⟨config, hw, order⟩ h.intact hop
  rcases hupholds.recovers e he with hfleet | hfleet
  · have hsame : w'.fleet = w.fleet := hfleet
    refine ⟨congrArg Fleet.devices hsame, fun d c hc => ?_⟩
    exact ⟨c, hsame ▸ hc, rfl, rfl, .inl rfl⟩
  · have hcounted : w'.fleet = w.fleet.modify op.device DeviceCache.rolledBack := hfleet
    refine ⟨(congrArg Fleet.devices hcounted).trans (Fleet.devices_modify _ _ _), fun d c hc => ?_⟩
    rw [hcounted]
    by_cases hd : d = op.device
    · subst hd
      exact ⟨c.rolledBack, Table.find?_modify_self _ hc, rfl, rfl, .inr ⟨rfl, rfl⟩⟩
    · exact ⟨c, (Table.find?_modify_of_ne _ _ hd).trans hc, rfl, rfl, .inl rfl⟩

/-- Hardware that gives all objects one handle and takes nothing back. -/
def Hardware.sticky : Hardware Unit where
  call := fun _ c s =>
    match c with
    | .createGroup _ => (⟨.ok (.make .group 1), []⟩, s)
    | .createSubGroup _ _ => (⟨.ok (.make .group 1), []⟩, s)
    | .createMember _ _ => (⟨.ok (.make .group 1), []⟩, s)
    | _ => (⟨.error (.status .failure), []⟩, s)
  lookup := fun _ l s => (some (.make l.kind 1), s)

/-- One device, and the one group that there can be. -/
def World.stuck : World Unit :=
  let o : Orchestrator Unit := ⟨{}, .sticky, .ascending⟩
  let w := ((Operation.attach ⟨1⟩).perform o (.start ())).world
  ((Operation.createGroup ⟨1⟩ .ipmc ⟨⟨10⟩, []⟩ []).perform o w).world

/-- A second group gets the handle of the first, and none of its objects can be removed again. -/
theorem failed_operation_recovers_caches_stuck :
    let op := Operation.createGroup ⟨1⟩ .ipmc ⟨⟨11⟩, []⟩ [⟨⟨12⟩, []⟩]
    let out := op.perform ⟨{}, .sticky, .ascending⟩ World.stuck
    out.result = .error (.cache (.groupExists (.make .group 1))) ∧
      out.world.devices = World.stuck.devices ∧
      ∀ d c, World.stuck.fleet.find? d = some c → ∃ c', out.world.fleet.find? d = some c' ∧
        c'.groups = c.groups ∧ c'.routes = c.routes ∧
        (c'.stats = c.stats ∨
          d = op.device ∧ c'.stats = { c.stats with rollbacks := c.stats.rollbacks + 1 }) := by
  have hreached : World.stuck.Reachable {} .sticky :=
    .perform .ascending _ (.perform .ascending _ (.start _))
  have hfails : ((Operation.createGroup ⟨1⟩ .ipmc ⟨⟨11⟩, []⟩ [⟨⟨12⟩, []⟩]).perform
      ⟨{}, .sticky, .ascending⟩ World.stuck).result =
      .error (.cache (.groupExists (.make .group 1))) := by rfl
  exact ⟨hfails, failed_operation_recovers_caches hreached .ascending _ (fun _ _ h => nomatch h)
    hfails⟩

end Multicast
