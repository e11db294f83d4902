import Multicast.Proofs.Admission
import Multicast.Proofs.Bench

/-! No failures but those of the caller. In a session without pending faults, in which every undo
call has succeeded, an operation succeeds if and only if the caches and the names admit it. -/
namespace Multicast

variable {α : Type} {config : Config} {failed : Nat} {items : List (Handle × Switch.Object)}
  {E : Programming} {w : World Testbed} {d : DeviceId}

/-- What a session does, anything else may do. -/
theorem Session.Reached.benched {s : Session} (h : s.Reached config) : s.world.Benched config := by
  induction h with
  | start => exact .start
  | @step s input _ _ ih =>
    cases input with
    | operate order op => exact ih.step (.operate order op)
    | register d l => exact ih.step (.feed (.switch (.register d l)))
    | failNth kind nth status => exact ih.step (.feed (.switch (.failNth kind nth status)))
    | clearFaults => exact ih.step (.feed (.switch .clearFaults))
    | hide d l => exact ih.step (.feed (.hide d l))
    | unhide d l => exact ih.step (.feed (.unhide d l))

theorem Session.Reached.named {s : Session} (h : s.Reached config) :
    s.world.state.switch.Named :=
  h.benched.named

/-! Operations -/

/-- What an operation needs in order to succeed. -/
def Operation.Feasible (config : Config) (w : World Testbed) : Operation → Prop
  | .attach d => w.fleet.find? d = none
  | op => ∃ c, w.fleet.find? op.device = some c ∧ c.Admits config w.state op

/-- Neither hardware nor cache are at fault. -/
def Unfailing (result : Except OpError α) : Prop := ∀ e, result = .error e → e.kind ≠ .fail

/-- The operation succeeds if `P` holds. If not it fails for its caller. -/
def Outcome.Decides (P : Prop) (out : Outcome Testbed α) : Prop :=
  (out.result.isOk = true ↔ P) ∧ Unfailing out.result

namespace Outcome.Decides

variable {P : Prop}

theorem audited {out : Outcome Testbed α} (h : out.Decides P) (o : Orchestrator Testbed)
    (record : Audit.Record) : (o.audited out record).Decides P := by
  rw [Decides, Orchestrator.result_audited]
  exact h

theorem noted {out : Outcome Testbed Unit} (h : out.Decides P) (message : String) :
    (Orchestrator.noted out message).Decides P := by
  rw [Decides, Orchestrator.result_noted]
  exact h

theorem onDevice {P : DeviceCache → Prop} {act : Act Testbed α}
    (h : ∀ c, w.fleet.find? d = some c → act.Decides ⟨w.state, c, []⟩ (P c)) :
    (Orchestrator.onDevice w d act).Decides (∃ c, w.fleet.find? d = some c ∧ P c) := by
  cases hc : w.fleet.find? d with
  | none =>
    rw [Orchestrator.onDevice_of_find?_eq_none hc]
    constructor
    · simp [Except.isOk, Except.toBool]
    · rintro _ ⟨⟩ ⟨⟩
  | some c =>
    have hP : (∃ c', some c = some c' ∧ P c') ↔ P c := by simp
    obtain ⟨r, _, _, ⟨_, hresult, hadmits⟩ | ⟨e, hresult, hdenied, hkind⟩⟩ :=
      Orchestrator.onDevice_ends hc (h c hc)
    · rw [Decides, hresult, hP]
      refine ⟨iff_of_true rfl hadmits, ?_⟩
      rintro _ ⟨⟩
    · rw [Decides, hresult, hP]
      refine ⟨iff_of_false Bool.false_ne_true hdenied, fun _ he => ?_⟩
      cases he
      exact hkind

theorem changeFleet {f : Fleet → Except CacheError Fleet}
    (hf : Blameless (f w.fleet)) :
    (Orchestrator.changeFleet w f).Decides (∃ fleet, f w.fleet = .ok fleet) := by
  unfold Orchestrator.changeFleet Decides
  cases hfleet : f w.fleet with
  | ok fleet => simp [Except.isOk, Except.toBool, Unfailing]
  | error e =>
    have hkind := hf e hfleet
    simpa [Except.isOk, Except.toBool, Unfailing] using hkind

theorem attach (w : World Testbed) (d : DeviceId) :
    (Orchestrator.changeFleet w (·.attach d)).Decides (w.fleet.find? d = none) := by
  have hok : (∃ fleet, w.fleet.attach d = .ok fleet) ↔ w.fleet.find? d = none := by
    simp [Fleet.attach_eq_ok_iff]
  rw [← hok]
  exact changeFleet (w.fleet.attach_blameless d)

theorem detach (w : World Testbed) (d : DeviceId) :
    (Orchestrator.changeFleet w (·.detach d)).Decides
      (∃ c, w.fleet.find? d = some c ∧ c.groups.size = 0) := by
  have hok : (∃ fleet, w.fleet.detach d = .ok fleet) ↔
      ∃ c, w.fleet.find? d = some c ∧ c.groups.size = 0 := by
    simp [Fleet.detach_eq_ok_iff]
  rw [← hok]
  exact changeFleet (w.fleet.detach_blameless d)

end Outcome.Decides

/-- Questions fail only for want of what they ask about. -/
structure World.Answers (w : World Testbed) : Prop where
  route : ∀ d key, Unfailing (w.route d key)
  group : ∀ d id, Unfailing (w.group d id)
  groupIds : ∀ d, Unfailing (w.groupIds d)
  stats : ∀ d, Unfailing (w.stats d)
  snapshot : ∀ d, Unfailing (w.snapshot d)
  dump : ∀ d, Unfailing (w.dump d)
  consistency : ∀ d, Unfailing (w.checkConsistency d)

theorem World.Intact.answers {max : Nat} (h : w.Intact max) : w.Answers where
  route := fun d key _ he => Question.ask_blameless h (.route d key) he
  group := fun d id _ he => Question.ask_blameless h (.group d id) he
  groupIds := fun d _ he => Question.ask_blameless h (.groupIds d) he
  stats := fun d _ he => Question.ask_blameless h (.stats d) he
  snapshot := fun d _ he => Question.ask_blameless h (.snapshot d) he
  dump := fun d _ he => Question.ask_blameless h (.dump d) he
  consistency := fun d _ he => Question.ask_blameless h (.consistency d) he

/-- What a run starts from in a session in which nothing went wrong. -/
theorem World.Sound.steady (h : w.Sound config 0 items E) {c : DeviceCache} {n : Nat}
    (hc : w.fleet.find? d = some c) (hfaults : w.state.switch.faults = [])
    (hroom : w.state.switch.counter + n < 2 ^ 48) :
    Steady (World.Sound.opening w 0) w.state n items E ⟨w.state, c, []⟩ where
  toAccounts := (h.tallies hc).accounts
  names := fun _ _ => rfl
  faults := hfaults
  room := hroom
  undone := rfl

theorem World.Sound.perform_decides (h : w.Sound config 0 items E) (hnamed : w.state.switch.Named)
    (hfaults : w.state.switch.faults = []) (hroom : w.state.switch.counter + 5 < 2 ^ 48)
    (order : RouteOrder) (op : Operation) :
    (op.perform (Orchestrator.bench config order) w).Decides (op.Feasible config w) := by
  have happart := hnamed.apart (by omega)
  cases op with
  | attach d => exact ((Outcome.Decides.attach w d).audited _ _).noted _
  | detach d => exact ((Outcome.Decides.detach w d).audited _ _).noted _
  | createGroup d owner rpf ipmc =>
    refine (Outcome.Decides.onDevice fun c hc => ?_).audited _ _
    have hr := h.tallies hc
    exact Orchestrator.makeGroup_decides (n := 0) owner rpf ipmc (h.intact d c hc) hr.holds
      hr.ledger (h.steady hc hfaults hroom)
  | deleteGroup d id =>
    refine (Outcome.Decides.onDevice fun c hc => ?_).audited _ _
    exact Orchestrator.unmakeGroup_decides (h.intact d c hc) (h.tallies hc) (h.abroad d)
      (h.steady hc hfaults hroom)
  | updateMember d id op role spec =>
    refine (Outcome.Decides.onDevice fun c hc => ?_).audited _ _
    have hr := h.tallies hc
    exact Orchestrator.changeMember_decides (n := 3) op (h.intact d c hc) hr.holds hr.ledger
      (h.abroad d) (h.steady hc hfaults hroom)
  | addRoute d route =>
    refine (Outcome.Decides.onDevice fun c hc => ?_).audited _ _
    have hr := h.tallies hc
    exact Orchestrator.makeRoute_decides route hr.holds hr.ledger happart
      (h.steady hc hfaults hroom)
  | deleteRoute d key =>
    refine (Outcome.Decides.onDevice fun c hc => ?_).audited _ _
    have hr := h.tallies hc
    exact Orchestrator.unmakeRoute_decides key (h.intact d c hc) hr.holds hr.ledger
      (h.steady hc hfaults hroom)
  | updateRoute d key u =>
    refine (Outcome.Decides.onDevice fun c hc => ?_).audited _ _
    have hr := h.tallies hc
    exact Orchestrator.changeRoute_decides key u (h.intact d c hc) hr.holds hr.ledger rfl
      (h.steady hc hfaults hroom)
  | verifyRoute d key =>
    refine Outcome.Decides.onDevice fun c hc => ?_
    have hr := h.tallies hc
    exact Orchestrator.checkRoute_decides key (h.intact d c hc) hr.holds hr.ledger
      (h.steady hc hfaults hroom)

namespace Session

/-- As long as undo calls succeed, no operation fails through the hardware or the cache unless a
fault makes it: each succeeds if and only if the cache of its device and the names admit it. Nor
does any question. The bound leaves handles for the objects of one operation, cf.
`Handle.number_eq_of_make_eq`. -/
theorem operation_succeeds_iff_feasible {s : Session} (h : s.Reached config)
    (hundo : failedUndos s.events = 0) (hfaults : s.world.state.switch.faults = [])
    (hroom : s.world.state.switch.counter + 5 < 2 ^ 48) (order : RouteOrder) (op : Operation) :
    let out := op.perform ⟨config, Testbed.hardware, order⟩ s.world
    (out.result.isOk = true ↔ op.Feasible config s.world) ∧ Unfailing out.result ∧
      s.world.Answers := by
  obtain ⟨items, E, hsound⟩ := h.sound
  rw [hundo] at hsound
  obtain ⟨hiff, hunfailing⟩ := hsound.perform_decides h.named hfaults hroom order op
  exact ⟨hiff, hunfailing, hsound.intact.answers⟩

/-- The VRF of the one route no longer resolves. -/
def unrouted : Session := start.run {} (groundwork ++ [.hide ⟨1⟩ (.vrf ⟨0⟩)])

/-- The first egress member would have to show in the route, and for ingress there is a member
already. That one can be deleted. -/
theorem operation_succeeds_iff_feasible_unrouted :
    let add (role : Role) : Operation :=
      .updateMember ⟨1⟩ (.make .group 5) .add role ⟨⟨20⟩, [.lag 1]⟩
    let delete : Operation :=
      .updateMember ⟨1⟩ (.make .group 5) .delete .rpf ⟨⟨10⟩, []⟩
    ¬(add .ipmc).Feasible {} unrouted.world ∧ ¬(add .rpf).Feasible {} unrouted.world ∧
      delete.Feasible {} unrouted.world := by
  intro add delete
  have hreached : unrouted.Reached {} := Reached.start.run (by decide +kernel)
  have hiff := operation_succeeds_iff_feasible hreached (by decide +kernel) (by decide +kernel)
    (by decide +kernel) .ascending
  refine ⟨fun h => ?_, fun h => ?_, (hiff delete).1.mp (by decide +kernel)⟩
  · exact absurd ((hiff (add .ipmc)).1.mpr h) (by decide +kernel)
  · exact absurd ((hiff (add .rpf)).1.mpr h) (by decide +kernel)

end Session

end Multicast
