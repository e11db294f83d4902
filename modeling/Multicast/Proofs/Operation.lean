import Multicast.Orchestrator
import Multicast.Proofs.Blameless

/-! The operations of the orchestrator as one type, and the worlds that runs of them reach. -/
namespace Multicast

inductive Operation where
  | attach (d : DeviceId)
  | detach (d : DeviceId)
  | createGroup (d : DeviceId) (owner : Owner) (rpf : MemberSpec) (ipmc : List MemberSpec)
  | deleteGroup (d : DeviceId) (id : Handle)
  | updateMember (d : DeviceId) (id : Handle) (op : Orchestrator.MemberOp) (role : Role)
    (spec : MemberSpec)
  | addRoute (d : DeviceId) (r : Route)
  | deleteRoute (d : DeviceId) (key : RouteKey)
  | updateRoute (d : DeviceId) (key : RouteKey) (u : RouteUpdate)
  | verifyRoute (d : DeviceId) (key : RouteKey)
  deriving DecidableEq

namespace Operation

def device : Operation → DeviceId
  | .attach d | .detach d => d
  | .createGroup d _ _ _ | .deleteGroup d _ | .updateMember d _ _ _ _ => d
  | .addRoute d _ | .deleteRoute d _ | .updateRoute d _ _ | .verifyRoute d _ => d

abbrev Reply : Operation → Type
  | .createGroup .. => Handle
  | .verifyRoute .. => Bool
  | _ => Unit

def perform {σ : Type} (o : Orchestrator σ) (w : World σ) : (op : Operation) → Outcome σ op.Reply
  | .attach d => o.attach w d
  | .detach d => o.detach w d
  | .createGroup d owner rpf ipmc => o.createGroup w d owner rpf ipmc
  | .deleteGroup d id => o.deleteGroup w d id
  | .updateMember d id op role spec => o.updateMember w d id op role spec
  | .addRoute d r => o.addRoute w d r
  | .deleteRoute d key => o.deleteRoute w d key
  | .updateRoute d key u => o.updateRoute w d key u
  | .verifyRoute d key => o.verifyRoute w d key

end Operation

/-- What the cache of one device answers alone. -/
inductive Question where
  | route (d : DeviceId) (key : RouteKey)
  | group (d : DeviceId) (id : Handle)
  | groupIds (d : DeviceId)
  | stats (d : DeviceId)
  | snapshot (d : DeviceId)
  | dump (d : DeviceId)
  | consistency (d : DeviceId)
  deriving DecidableEq

namespace Question

abbrev Reply : Question → Type
  | .route .. => Route
  | .group .. => Group
  | .groupIds _ => List Handle
  | .stats _ => Stats
  | .snapshot _ => Json
  | .dump _ => String
  | .consistency _ => Unit

def ask {σ : Type} (w : World σ) : (q : Question) → Except OpError q.Reply
  | .route d key => w.route d key
  | .group d id => w.group d id
  | .groupIds d => w.groupIds d
  | .stats d => w.stats d
  | .snapshot d => w.snapshot d
  | .dump d => w.dump d
  | .consistency d => w.checkConsistency d

end Question

variable {σ α : Type}

/-- Worlds that operations reach. Each may visit routes in its own order, and between operations
the hardware may change in any way. -/
inductive World.Reachable (config : Config) (hw : Hardware σ) : World σ → Prop where
  | start (state : σ) : Reachable config hw (.start state)
  | perform {w : World σ} (order : RouteOrder) (op : Operation) (h : Reachable config hw w) :
    Reachable config hw (op.perform ⟨config, hw, order⟩ w).world
  | drift {w : World σ} (state : σ) (h : Reachable config hw w) :
    Reachable config hw { w with state := state }

theorem World.ask_eq_error {w : World σ} {d : DeviceId} {f : DeviceCache → Except CacheError α}
    {e : OpError} (he : w.ask d f = .error e) :
    ∃ e', e = .cache e' ∧
      (w.fleet.cache d = .error e' ∨ ∃ c, w.fleet.find? d = some c ∧ f c = .error e') := by
  unfold ask at he
  cases hcache : w.fleet.cache d with
  | error e' =>
    rw [hcache] at he
    cases he
    exact ⟨e', rfl, .inl rfl⟩
  | ok c =>
    rw [hcache] at he
    cases hask : f c with
    | ok a =>
      simp only [hask] at he
      cases he
    | error e' =>
      simp only [hask] at he
      cases he
      exact ⟨e', rfl, .inr ⟨c, Fleet.cache_eq_ok_iff.mp hcache, hask⟩⟩

/-- Questions fail through the cache alone. -/
theorem Question.ask_eq_error {w : World σ} (q : Question) {e : OpError} (he : q.ask w = .error e) :
    ∃ e', e = .cache e' := by
  cases q <;>
  · simp only [ask, World.route, World.group, World.groupIds, World.stats, World.snapshot,
      World.dump, World.checkConsistency] at he
    exact (World.ask_eq_error he).imp fun _ h => h.1

namespace Orchestrator

@[simp] theorem world_audited (o : Orchestrator σ) (out : Outcome σ α) (record : Audit.Record) :
    (o.audited out record).world = out.world := by
  unfold audited
  split <;> rfl

@[simp] theorem result_audited (o : Orchestrator σ) (out : Outcome σ α) (record : Audit.Record) :
    (o.audited out record).result = out.result := by
  unfold audited
  split <;> rfl

@[simp] theorem world_noted (out : Outcome σ Unit) (message : String) :
    (noted out message).world = out.world := by
  unfold noted
  split <;> rfl

@[simp] theorem result_noted (out : Outcome σ Unit) (message : String) :
    (noted out message).result = out.result := by
  unfold noted
  split <;> rfl

theorem changeFleet_cases (w : World σ) (f : Fleet → Except CacheError Fleet) :
    (∃ fleet, f w.fleet = .ok fleet ∧ changeFleet w f = ⟨.ok (), [], { w with fleet := fleet }⟩) ∨
      ∃ e, changeFleet w f = ⟨.error (.cache e), [], w⟩ := by
  unfold changeFleet
  split
  · next fleet h => exact .inl ⟨fleet, h, rfl⟩
  · next e _ => exact .inr ⟨e, rfl⟩

theorem onDevice_of_find? {w : World σ} {d : DeviceId} {c : DeviceCache}
    (hc : w.fleet.find? d = some c) (act : Act σ α) :
    onDevice w d act =
      let x := act.run.run ⟨w.state, c, []⟩
      ⟨x.1, x.2.events, ⟨x.2.state, w.fleet.modify d fun _ => x.2.cache⟩⟩ := by
  unfold onDevice
  rw [hc]
  rfl

/-- An operation on an attached device ends as its steps do. -/
theorem onDevice_ends {w : World σ} {d : DeviceId} {c : DeviceCache} {act : Act σ α}
    {Q : α → Run σ → Prop} {E : OpError → Run σ → Prop} (hc : w.fleet.find? d = some c)
    (h : act.Ends ⟨w.state, c, []⟩ Q E) :
    ∃ r : Run σ, (onDevice w d act).world = ⟨r.state, w.fleet.modify d fun _ => r.cache⟩ ∧
      (onDevice w d act).events = r.events ∧
      ((∃ a, (onDevice w d act).result = .ok a ∧ Q a r) ∨
        ∃ e, (onDevice w d act).result = .error e ∧ E e r) := by
  rw [onDevice_of_find? hc]
  refine ⟨(act.run.run ⟨w.state, c, []⟩).2, rfl, rfl, ?_⟩
  unfold Act.Ends Effect.Ends at h
  cases hresult : (act.run.run ⟨w.state, c, []⟩).1 with
  | ok a =>
    rw [hresult] at h
    exact .inl ⟨a, hresult, h⟩
  | error e =>
    rw [hresult] at h
    exact .inr ⟨e, hresult, h⟩

theorem onDevice_of_find?_eq_none {w : World σ} {d : DeviceId} (hc : w.fleet.find? d = none)
    (act : Act σ α) : onDevice w d act = ⟨.error (.cache (.deviceNotFound d)), [], w⟩ := by
  unfold onDevice
  rw [hc]

end Orchestrator

end Multicast
