import Mathlib.Data.List.Induction
import Multicast.Proofs.Consistency

/-! The routes of a device as a plain map, read off the operations that succeeded on it. A route is
what the last addition of its key gave, changed by every update since. -/
namespace Multicast

variable {σ : Type}

/-- Operations of a run, the earliest first, each with whether it succeeded. -/
abbrev History := List (Operation × Bool)

/-- Operations that succeeded on a device. -/
def History.on (history : History) (d : DeviceId) : List Operation :=
  (history.filter fun x => x.2 && x.1.device = d).map Prod.fst

/-- Worlds that operations reach, with what was performed on the way. Between operations the
hardware may change in any way. -/
inductive World.Traced (config : Config) (hw : Hardware σ) : History → World σ → Prop where
  | start (state : σ) : Traced config hw [] (.start state)
  | perform {history : History} {w : World σ} (order : RouteOrder) (op : Operation)
    (h : Traced config hw history w) :
    Traced config hw (history ++ [(op, (op.perform ⟨config, hw, order⟩ w).result.isOk)])
      (op.perform ⟨config, hw, order⟩ w).world
  | drift {history : History} {w : World σ} (state : σ) (h : Traced config hw history w) :
    Traced config hw history { w with state := state }

theorem World.Traced.reachable {config : Config} {hw : Hardware σ} {history : History}
    {w : World σ} (h : w.Traced config hw history) : w.Reachable config hw := by
  induction h with
  | start state => exact .start state
  | perform order op _ ih => exact .perform order op ih
  | drift state _ ih => exact .drift state ih

/-- Performs operations in turn, and tells which of them succeeded. -/
def World.performAll (o : Orchestrator σ) : World σ → List Operation → History × World σ
  | w, [] => ([], w)
  | w, op :: rest =>
    let out := op.perform o w
    let (history, w) := performAll o out.world rest
    ((op, out.result.isOk) :: history, w)

theorem World.Traced.performAll {config : Config} {hw : Hardware σ} {history : History}
    {w : World σ} (h : w.Traced config hw history) (order : RouteOrder) (ops : List Operation) :
    (w.performAll ⟨config, hw, order⟩ ops).2.Traced config hw
      (history ++ (w.performAll ⟨config, hw, order⟩ ops).1) := by
  induction ops generalizing history w with
  | nil =>
    rw [World.performAll, List.append_nil]
    exact h
  | cons op rest ih =>
    have hrest := ih (h.perform order op)
    rw [List.append_assoc] at hrest
    exact hrest

/-! One key -/

namespace Operation

variable {key : RouteKey} {op : Operation}

/-- What an operation that succeeds makes of the route at `key`. -/
def rewrite (key : RouteKey) (op : Operation) (current : Option Route) : Option Route :=
  match op with
  | .addRoute _ r => if r.key = key then some r else current
  | .deleteRoute _ k => if k = key then none else current
  | .updateRoute _ k u => if k = key then current.map u.apply else current
  | _ => current

/-- Whether the operation adds or deletes the route at `key`, whatever is there. -/
def Replaces (key : RouteKey) : Operation → Prop
  | .addRoute _ r => r.key = key
  | .deleteRoute _ k => k = key
  | _ => False

def update? (key : RouteKey) : Operation → Option RouteUpdate
  | .updateRoute _ k u => if k = key then some u else none
  | _ => none

theorem find?_reroute (op : Operation) (routes : RouteTable) (key : RouteKey) :
    (op.reroute routes).find? key = op.rewrite key (routes.find? key) := by
  cases op with
  | addRoute d r =>
    simp only [reroute, rewrite]
    split
    · next hkey => rw [← hkey, Table.find?_insert_self]
    · next hkey => rw [Table.find?_insert_of_ne _ _ (Ne.symm hkey)]
  | deleteRoute d k =>
    simp only [reroute, rewrite]
    split
    · next hkey => rw [← hkey, Table.find?_erase_self]
    · next hkey => rw [Table.find?_erase_of_ne _ (Ne.symm hkey)]
  | updateRoute d k u =>
    simp only [reroute, rewrite]
    split
    · next hkey => rw [← hkey, Table.find?_modify, if_pos rfl]
    · next hkey => rw [Table.find?_modify_of_ne _ _ (Ne.symm hkey)]
  | _ => rfl

theorem rewrite_of_not_replaces (h : ¬op.Replaces key) (current : Option Route) :
    op.rewrite key current =
      current.map fun r => (op.update? key).toList.foldl (fun r u => u.apply r) r := by
  cases op with
  | addRoute d r => simp [rewrite, update?, show r.key ≠ key from h]
  | deleteRoute d k => simp [rewrite, update?, show k ≠ key from h]
  | updateRoute d k u =>
    simp only [rewrite, update?]
    split <;> simp
  | _ => simp [rewrite, update?]

/-- The route at `key` after operations that succeeded. -/
def routeAfter (key : RouteKey) (ops : List Operation) : Option Route :=
  ops.foldl (fun current op => op.rewrite key current) none

/-- The updates of the route at `key`, in order. -/
def updates (key : RouteKey) (ops : List Operation) : List RouteUpdate :=
  ops.filterMap (update? key)

theorem routeAfter_append (key : RouteKey) (ops : List Operation) (op : Operation) :
    routeAfter key (ops ++ [op]) = op.rewrite key (routeAfter key ops) := by
  simp [routeAfter, List.foldl_append]

/-- Only the last addition of the key counts, and the updates after it. -/
theorem routeAfter_eq_some_iff {ops : List Operation} {r : Route} :
    routeAfter key ops = some r ↔
      ∃ earlier d added later, ops = earlier ++ .addRoute d added :: later ∧ added.key = key ∧
        (∀ op ∈ later, ¬op.Replaces key) ∧
        r = (updates key later).foldl (fun r u => u.apply r) added := by
  constructor
  · intro h
    induction ops using List.reverseRecOn generalizing r with
    | nil => cases h
    | append_singleton ops op ih =>
      rw [routeAfter_append] at h
      by_cases hop : op.Replaces key
      · cases op with
        | addRoute d added =>
          simp only [rewrite, if_pos (show added.key = key from hop)] at h
          cases h
          exact ⟨ops, d, r, [], rfl, hop, fun _ h => (nomatch h), rfl⟩
        | deleteRoute d k =>
          simp only [rewrite, if_pos (show k = key from hop)] at h
          cases h
        | _ => exact hop.elim
      · rw [rewrite_of_not_replaces hop, Option.map_eq_some_iff] at h
        obtain ⟨r', hr', rfl⟩ := h
        obtain ⟨earlier, d, added, later, rfl, hkey, hlater, rfl⟩ := ih hr'
        refine ⟨earlier, d, added, later ++ [op], by simp, hkey, ?_, ?_⟩
        · intro op' hop'
          rcases List.mem_append.mp hop' with hop' | hop'
          · exact hlater op' hop'
          · rwa [List.mem_singleton.mp hop']
        · cases hu : op.update? key <;> simp [updates, hu]
  · rintro ⟨earlier, d, added, later, rfl, hkey, hlater, rfl⟩
    induction later using List.reverseRecOn with
    | nil => simp [routeAfter_append, rewrite, hkey, updates]
    | append_singleton later op ih =>
      have hop : ¬op.Replaces key := hlater op (by simp)
      have ih := ih fun op' hop' => hlater op' (List.mem_append_left _ hop')
      rw [← List.cons_append, ← List.append_assoc, routeAfter_append, ih,
        rewrite_of_not_replaces hop]
      cases hu : op.update? key <;> simp [updates, hu]

end Operation

/-! Runs -/

variable {config : Config} {hw : Hardware σ} {history : History} {w : World σ}

theorem History.on_append (history : History) (op : Operation) (ok : Bool) (d : DeviceId) :
    History.on (history ++ [(op, ok)]) d =
      if ok = true ∧ d = op.device then history.on d ++ [op] else history.on d := by
  unfold History.on
  by_cases hd : d = op.device
  · cases ok <;> simp [hd]
  · simp [hd, Ne.symm hd]

/-- The cached routes are the plain map that the operations make. -/
theorem World.Traced.find?_routesOf (h : w.Traced config hw history) (d : DeviceId)
    (key : RouteKey) :
    (w.routesOf d).find? key = Operation.routeAfter key (history.on d) := by
  induction h with
  | start state => rfl
  | drift state _ ih => exact ih
  | @perform history w order op h ih =>
    rw [op.routesOf_perform ⟨config, hw, order⟩ h.reachable.intact, History.on_append]
    split
    · rw [Operation.find?_reroute, ih, Operation.routeAfter_append]
    · exact ih

theorem History.device_of_mem_on {history : History} {d : DeviceId} {op : Operation}
    (h : op ∈ history.on d) : op.device = d := by
  obtain ⟨x, hx, rfl⟩ := List.mem_map.mp h
  have hx := (List.mem_filter.mp hx).2
  simp only [Bool.and_eq_true, decide_eq_true_eq] at hx
  exact hx.2

/-- What is read of a route of an attached device. -/
theorem World.route_eq {d : DeviceId} (hd : w.fleet.contains d = true) (key : RouteKey) :
    w.route d key =
      ((w.routesOf d).find? key).elim (.error (.cache (.routeNotFound key))) .ok := by
  obtain ⟨c, hc⟩ := Table.contains_iff.mp hd
  unfold World.route World.ask Fleet.cache RouteTable.get
  rw [World.routesOf_of_find? hc, hc]
  cases hr : c.routes.find? key <;> simp [hr]

/-- The route that an operation is about. -/
def Operation.routeKey? : Operation → Option (DeviceId × RouteKey)
  | .addRoute d r => some (d, r.key)
  | .deleteRoute d key => some (d, key)
  | .updateRoute d key _ => some (d, key)
  | _ => none

theorem Operation.rewrite_of_routeKey? {op : Operation} {key : RouteKey}
    (h : op.routeKey? ≠ some (op.device, key)) (current : Option Route) :
    op.rewrite key current = current := by
  cases op <;> simp_all [routeKey?, device, rewrite]

namespace World

theorem Traced.route_eq_ok_iff (h : w.Traced config hw history) {d : DeviceId}
    (hd : w.fleet.contains d = true) {key : RouteKey} {r : Route} :
    w.route d key = .ok r ↔
      ∃ earlier added later, history.on d = earlier ++ .addRoute d added :: later ∧
        added.key = key ∧ (∀ op ∈ later, ¬op.Replaces key) ∧
        r = (Operation.updates key later).foldl (fun r u => u.apply r) added := by
  have hread : w.route d key = .ok r ↔ Operation.routeAfter key (history.on d) = some r := by
    rw [World.route_eq hd, h.find?_routesOf]
    cases Operation.routeAfter key (history.on d) <;> simp
  rw [hread, Operation.routeAfter_eq_some_iff]
  constructor
  · rintro ⟨earlier, d', added, later, hon, hrest⟩
    have hmem : Operation.addRoute d' added ∈ history.on d :=
      hon ▸ List.mem_append_right _ List.mem_cons_self
    have hd' : d' = d := History.device_of_mem_on hmem
    exact ⟨earlier, added, later, hd' ▸ hon, hrest⟩
  · rintro ⟨earlier, added, later, hon, hrest⟩
    exact ⟨earlier, d, added, later, hon, hrest⟩

/-- What fails or is about something else leaves the route alone. -/
theorem route_perform (hI : w.Intact config.maxGroups) (order : RouteOrder) {op : Operation}
    {d : DeviceId} {key : RouteKey} (hd : w.fleet.contains d = true)
    (hd' : (op.perform ⟨config, hw, order⟩ w).world.fleet.contains d = true)
    (hop : (op.perform ⟨config, hw, order⟩ w).result.isOk = false ∨
      op.routeKey? ≠ some (d, key)) :
    (op.perform ⟨config, hw, order⟩ w).world.route d key = w.route d key := by
  rw [World.route_eq hd, World.route_eq hd', op.routesOf_perform ⟨config, hw, order⟩ hI]
  split
  · next hdone =>
    have hkey : op.routeKey? ≠ some (op.device, key) := by
      rcases hop with hop | hop
      · rw [hdone.1] at hop
        cases hop
      · rwa [← hdone.2]
    rw [Operation.find?_reroute, Operation.rewrite_of_routeKey? hkey]
  · rfl

/-- A device that may go has no routes. -/
theorem route_of_detach (hI : w.Intact config.maxGroups) (order : RouteOrder) {d : DeviceId}
    (hd : w.fleet.contains d = true)
    (hok : ((Operation.detach d).perform ⟨config, hw, order⟩ w).result = .ok ())
    (key : RouteKey) : w.route d key = .error (.cache (.routeNotFound key)) := by
  have hok : (Orchestrator.changeFleet w (·.detach d)).result = .ok () := by
    simpa [Operation.perform, Orchestrator.detach] using hok
  rcases Orchestrator.changeFleet_cases w (·.detach d) with ⟨fleet, hf, _⟩ | ⟨e, he⟩
  · obtain ⟨c, hc, hempty, _⟩ := Fleet.detach_eq_ok_iff.mp hf
    rw [World.route_eq hd, World.routesOf_of_find? hc, (hI d c hc).routes_eq_empty hempty]
    rfl
  · rw [he] at hok
    cases hok

end World

/-- A route is read as the last addition of its key made it, with every later update applied in
order; without an addition since the last deletion there is none. What fails or is about something
else leaves it alone, and a device with routes stays. -/
theorem route_table_refines_history (h : w.Traced config hw history) {d : DeviceId}
    (hd : w.fleet.contains d = true) :
    (∀ key r, w.route d key = .ok r ↔
      ∃ earlier added later, history.on d = earlier ++ .addRoute d added :: later ∧
        added.key = key ∧ (∀ op ∈ later, ¬op.Replaces key) ∧
        r = (Operation.updates key later).foldl (fun r u => u.apply r) added) ∧
    (∀ key, (∀ r, w.route d key ≠ .ok r) → w.route d key = .error (.cache (.routeNotFound key))) ∧
    (∀ order (op : Operation) key,
      (op.perform ⟨config, hw, order⟩ w).world.fleet.contains d = true →
      (op.perform ⟨config, hw, order⟩ w).result.isOk = false ∨ op.routeKey? ≠ some (d, key) →
      (op.perform ⟨config, hw, order⟩ w).world.route d key = w.route d key) ∧
    ∀ order, ((Operation.detach d).perform ⟨config, hw, order⟩ w).result = .ok () →
      ∀ key, w.route d key = .error (.cache (.routeNotFound key)) := by
  have hI := h.reachable.intact
  refine ⟨fun _ _ => h.route_eq_ok_iff hd, fun key hnone => ?_,
    fun order _ _ hd' hop => World.route_perform hI order hd hd' hop,
    fun order hok => World.route_of_detach hI order hd hok⟩
  rw [World.route_eq hd] at hnone ⊢
  cases hr : (w.routesOf d).find? key with
  | none => rfl
  | some r =>
    rw [hr] at hnone
    exact (hnone r rfl).elim

/-- Hardware that does all it is asked, with one handle for every object. -/
def Hardware.lenient : Hardware Unit where
  call := fun _ c s =>
    match c with
    | .createGroup _ => (⟨.ok (.make .group 1), []⟩, s)
    | .createSubGroup _ _ => (⟨.ok (.make .group 1), []⟩, s)
    | .createMember _ _ => (⟨.ok (.make .group 1), []⟩, s)
    | .readEntry _ _ => (⟨.ok [], []⟩, s)
    | .removeGroup _ => (⟨.ok (), []⟩, s)
    | .removeSubGroup _ _ => (⟨.ok (), []⟩, s)
    | .removeMember _ _ => (⟨.ok (), []⟩, s)
    | .setMember _ _ _ => (⟨.ok (), []⟩, s)
    | .createEntry _ _ => (⟨.ok (), []⟩, s)
    | .removeEntry _ => (⟨.ok (), []⟩, s)
    | .setEntry _ _ => (⟨.ok (), []⟩, s)
  lookup := fun _ l s => (some (.make l.kind 1), s)

/-- A route that goes to the CPU from its first update on and comes in elsewhere from its second. -/
theorem route_table_refines_history_updated :
    let key : RouteKey := .starG ⟨0⟩ (.v4 ⟨239, 1, 1, 1⟩)
    (World.performAll ⟨{}, .lenient, .ascending⟩ (.start ())
      [.attach ⟨1⟩, .createGroup ⟨1⟩ .ipmc ⟨⟨10⟩, []⟩ [],
        .addRoute ⟨1⟩ ⟨key, ⟨10⟩, .make .group 1, false⟩,
        .updateRoute ⟨1⟩ key ⟨none, some true, none⟩,
        .updateRoute ⟨1⟩ key ⟨none, none, some ⟨20⟩⟩]).2.route ⟨1⟩ key =
      .ok ⟨key, ⟨20⟩, .make .group 1, true⟩ := by
  intro key
  have hstart : World.Traced {} .lenient [] (.start ()) := .start ()
  have htraced := hstart.performAll .ascending [.attach ⟨1⟩, .createGroup ⟨1⟩ .ipmc ⟨⟨10⟩, []⟩ [],
      .addRoute ⟨1⟩ ⟨key, ⟨10⟩, .make .group 1, false⟩,
      .updateRoute ⟨1⟩ key ⟨none, some true, none⟩, .updateRoute ⟨1⟩ key ⟨none, none, some ⟨20⟩⟩]
  have hread := (route_table_refines_history htraced (d := ⟨1⟩) (by decide +kernel)).1 key
    ⟨key, ⟨20⟩, .make .group 1, true⟩
  refine hread.mpr ⟨[.attach ⟨1⟩, .createGroup ⟨1⟩ .ipmc ⟨⟨10⟩, []⟩ []],
    ⟨key, ⟨10⟩, .make .group 1, false⟩, [.updateRoute ⟨1⟩ key ⟨none, some true, none⟩,
      .updateRoute ⟨1⟩ key ⟨none, none, some ⟨20⟩⟩], by decide +kernel, rfl, ?_, rfl⟩
  simp [Operation.Replaces]

end Multicast
