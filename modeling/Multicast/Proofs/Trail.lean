import Multicast.Proofs.Bisimulation
import Multicast.Proofs.TakingBack

/-! The audit trail. Each change of state ends with one record, which tells how it ended; before it
stands the record of the rollback, if the operation has rolled a new group back. -/
namespace Multicast

variable {σ α : Type}

/-- The name under which an operation is recorded. What only reads is not recorded. -/
def Operation.action? : Operation → Option String
  | .attach _ => some "attach_device"
  | .detach _ => some "detach_device"
  | .createGroup .. => some "create_replication_group"
  | .deleteGroup .. => some "delete_replication_group"
  | .updateMember .. => some "update_group_membership"
  | .addRoute .. => some "add_route"
  | .deleteRoute .. => some "delete_route"
  | .updateRoute .. => some "update_route"
  | .verifyRoute .. => none

/-- The record tells how an operation ended. -/
structure Audit.Record.Tells (record : Audit.Record) (result : Except OpError α) : Prop where
  success : record.outcome = .success ↔ ∃ a, result = .ok a
  failure : record.outcome = .failure ↔ ∃ e, result = .error e ∧ e.kind = .fail
  denied : record.outcome = .denied ↔ ∃ e, result = .error e ∧ e.kind ≠ .fail
  error : ∀ text, record.error = some text ↔ ∃ e, result = .error e ∧ text = e.message

/-- The record tells of a rollback in which `failed` removals failed. -/
structure Audit.Record.TellsRollback (record : Audit.Record) (failed : Nat) : Prop where
  category : record.category = .rollback
  details : record.details = some (.obj [("failed_steps", .nat failed)])
  success : record.outcome = .success ↔ failed = 0
  failure : record.outcome = .failure ↔ failed ≠ 0

namespace Orchestrator

theorem rollbackRecord_tells (draft : Draft) (failed : Nat) :
    (rollbackRecord draft failed).TellsRollback failed := by
  unfold rollbackRecord
  dsimp only
  split
  · next h => exact ⟨rfl, rfl, by simp [Audit.Record.withOutcome, h],
      by simp [Audit.Record.withOutcome, h]⟩
  · next h => exact ⟨rfl, rfl, by simp [Audit.Record.withError, Audit.Record.new,
      Audit.Record.withDetails, Audit.Record.withObjectId, Audit.Record.withObjectType, h],
      by simp [Audit.Record.withError, Audit.Record.new,
      Audit.Record.withDetails, Audit.Record.withObjectId, Audit.Record.withObjectType, h]⟩

/-- A record is denied before it takes its error, which would else make it a failure. -/
theorem finish_tells {record : Audit.Record} (hnew : record.error = none)
    (hopen : record.outcome = .inProgress) (result : Except OpError α) :
    (finish record result).Tells result := by
  cases result with
  | ok a =>
    exact ⟨by simp [finish, Audit.Record.withOutcome], by simp [finish, Audit.Record.withOutcome],
      by simp [finish, Audit.Record.withOutcome], by simp [finish, Audit.Record.withOutcome, hnew]⟩
  | error e =>
    by_cases hkind : e.kind = .fail
    · have hfinish : finish record (.error e : Except OpError α) =
          { record with error := some e.message, outcome := .failure } := by
        simp [finish, hkind, Audit.Record.withError, hopen]
      rw [hfinish]
      exact ⟨by simp, by simp [hkind], by simp [hkind], by simp [eq_comm]⟩
    · have hfinish : finish record (.error e : Except OpError α) =
          { record with error := some e.message, outcome := .denied } := by
        simp [finish, hkind, Audit.Record.withError, Audit.Record.withOutcome]
      rw [hfinish]
      exact ⟨by simp, by simp [hkind], by simp [hkind], by simp [eq_comm]⟩

theorem spares_onDevice {p : Call → Bool} (w : World σ) (d : DeviceId) {act : Act σ α}
    (hact : act.Keeps (Run.Spares p)) : ∀ e ∈ (onDevice w d act).events, e.spares p = true := by
  cases hc : w.fleet.find? d with
  | none =>
    rw [onDevice_of_find?_eq_none hc]
    exact fun _ he => (List.not_mem_nil he).elim
  | some c =>
    obtain ⟨events, hevents, hall⟩ := hact ⟨w.state, c, []⟩
    intro e he
    rw [onDevice_of_find? hc] at he
    change e ∈ (act.run.run ⟨w.state, c, []⟩).2.events at he
    rw [hevents] at he
    exact hall e he

theorem events_changeFleet (w : World σ) (f : Fleet → Except CacheError Fleet) :
    (changeFleet w f).events = [] := by
  rcases changeFleet_cases w f with ⟨_, _, h⟩ | ⟨_, h⟩ <;> rw [h]

end Orchestrator

/-- The events of an operation before its own record. -/
def Orchestrator.Leaves (trail : Bool) (events : List Event) : Prop :=
  rolledBack events = false ∧ auditsOf events = [] ∨
    rolledBack events = true ∧ ∃ draft,
      auditsOf events = if trail then [rollbackRecord draft (failedRemovals events)] else []

/-- The trail that an operation leaves: last its own record, and before it that of the rollback, if
a new group was taken back. -/
structure Outcome.Trail (action : String) (out : Outcome σ α) (rolled : List Audit.Record)
    (own : Audit.Record) : Prop where
  records : auditsOf out.events = rolled ++ [own]
  action : own.action = action
  category : own.category ≠ .rollback
  tells : own.Tells out.result
  kept : rolledBack out.events = false → rolled = []
  takenBack : rolledBack out.events = true →
    ∃ record, rolled = [record] ∧ record.TellsRollback (failedRemovals out.events)

namespace Orchestrator

theorem Leaves.of_spares {trail : Bool} {events : List Event}
    (h : ∀ e ∈ events, e.spares Call.removesGroup = true) : Leaves trail events :=
  .inl ⟨rolledBack_of_spares h, auditsOf_of_spares h⟩

theorem leaves_makeGroup (o : Orchestrator σ) (w : World σ) (d : DeviceId) (owner : Owner)
    (rpf : MemberSpec) (ipmc : List MemberSpec) :
    Leaves o.config.audit (onDevice w d (o.makeGroup d owner rpf ipmc)).events := by
  cases hc : w.fleet.find? d with
  | none =>
    rw [onDevice_of_find?_eq_none hc]
    exact .inl ⟨rfl, rfl⟩
  | some c =>
    obtain ⟨r, -, hevents, hends⟩ :=
      onDevice_ends hc (o.makeGroup_takesBack d owner rpf ipmc ⟨w.state, c, []⟩)
    have hspares : Run.Spares Call.removesGroup ⟨w.state, c, []⟩ r →
        Leaves o.config.audit r.events := by
      rintro ⟨events, hr, hall⟩
      exact hr.symm ▸ .of_spares hall
    rw [hevents]
    rcases hends with ⟨_, -, h⟩ | ⟨_, -, h | ⟨draft, events, hr, hback, haudits⟩⟩
    · exact hspares h
    · exact hspares h
    · exact hr.symm ▸ .inr ⟨hback, draft, haudits⟩

theorem rolledBack_audited (o : Orchestrator σ) (out : Outcome σ α) (record : Audit.Record) :
    rolledBack (o.audited out record).events = rolledBack out.events := by
  unfold audited
  split
  · rw [rolledBack_append]
    exact Bool.or_false _
  · rfl

theorem failedRemovals_audited (o : Orchestrator σ) (out : Outcome σ α) (record : Audit.Record) :
    failedRemovals (o.audited out record).events = failedRemovals out.events := by
  unfold audited
  split
  · rw [failedRemovals_append]
    rfl
  · rfl

/-- A line of the log is all that noting adds. -/
theorem spares_noted (out : Outcome σ Unit) (message : String) :
    ∃ lines, (noted out message).events = out.events ++ lines ∧
      ∀ p, ∀ e ∈ lines, e.spares p = true := by
  unfold noted
  split
  · refine ⟨_, rfl, fun p e he => ?_⟩
    rw [List.mem_singleton.mp he]
    rfl
  · exact ⟨[], (List.append_nil _).symm, fun _ _ he => (List.not_mem_nil he).elim⟩

end Orchestrator

/-- An operation that is recorded leaves its trail, if one is kept; otherwise there are no
records. -/
def Outcome.Told (trail : Bool) (action? : Option String) (out : Outcome σ α) : Prop :=
  match trail, action? with
  | true, some action => ∃ rolled own, out.Trail action rolled own
  | _, _ => auditsOf out.events = []

namespace Outcome.Told

/-- What an operation leaves, its own record tells of. -/
theorem audited {o : Orchestrator σ} {out : Outcome σ α}
    (h : Orchestrator.Leaves o.config.audit out.events) {category : Audit.Category}
    {action objectId objectType : String} {details : Json} (hcategory : category ≠ .rollback) :
    (o.audited out (Orchestrator.record category action objectId objectType details)).Told
      o.config.audit (some action) := by
  generalize hrecord : Orchestrator.record category action objectId objectType details = record
  cases htrail : o.config.audit with
  | false =>
    rw [htrail] at h
    have hnone : auditsOf out.events = [] := by
      rcases h with ⟨-, hnone⟩ | ⟨-, _, hnone⟩ <;> exact hnone
    change auditsOf (o.audited out record).events = []
    unfold Orchestrator.audited
    rwa [if_neg (by simp [htrail])]
  | true =>
    rw [htrail] at h
    have hevents : auditsOf (o.audited out record).events =
        auditsOf out.events ++ [Orchestrator.finish record out.result] := by
      unfold Orchestrator.audited
      rw [if_pos htrail, auditsOf_append]
      rfl
    have hfinish : (Orchestrator.finish record out.result).action = record.action ∧
        (Orchestrator.finish record out.result).category = record.category := by
      unfold Orchestrator.finish
      split
      · exact ⟨rfl, rfl⟩
      · split <;> exact ⟨rfl, rfl⟩
    refine ⟨_, _, hevents, ?_, ?_, ?_, fun hkept => ?_, fun htaken => ?_⟩
    · rw [hfinish.1, ← hrecord]
      rfl
    · rw [hfinish.2, ← hrecord]
      exact hcategory
    · rw [Orchestrator.result_audited]
      exact Orchestrator.finish_tells (hrecord ▸ rfl) (hrecord ▸ rfl) out.result
    · rw [Orchestrator.rolledBack_audited] at hkept
      rcases h with ⟨-, hnone⟩ | ⟨htaken, -⟩
      · exact hnone
      · rw [htaken] at hkept
        cases hkept
    · rw [Orchestrator.rolledBack_audited] at htaken
      rw [Orchestrator.failedRemovals_audited]
      rcases h with ⟨hkept, -⟩ | ⟨-, draft, haudits⟩
      · rw [hkept] at htaken
        cases htaken
      · exact ⟨_, haudits, Orchestrator.rollbackRecord_tells draft _⟩

theorem noted {trail : Bool} {action? : Option String} {out : Outcome σ Unit}
    (h : out.Told trail action?) (message : String) :
    (Orchestrator.noted out message).Told trail action? := by
  obtain ⟨lines, hevents, hall⟩ := Orchestrator.spares_noted out message
  have haudits : auditsOf (Orchestrator.noted out message).events = auditsOf out.events := by
    rw [hevents, auditsOf_append, auditsOf_of_spares (hall Call.dismantles), List.append_nil]
  match trail, action? with
  | true, some action =>
    obtain ⟨rolled, own, h⟩ := h
    refine ⟨rolled, own, haudits.trans h.records, h.action, h.category, ?_, ?_, ?_⟩
    · rw [Orchestrator.result_noted]
      exact h.tells
    · rw [hevents, rolledBack_append, rolledBack_of_spares (hall _), Bool.or_false]
      exact h.kept
    · rw [hevents, rolledBack_append, rolledBack_of_spares (hall _), Bool.or_false,
        failedRemovals_append, failedRemovals_of_spares (hall _), Nat.add_zero]
      exact h.takenBack
  | true, none => exact haudits.trans h
  | false, some _ => exact haudits.trans h
  | false, none => exact haudits.trans h

end Outcome.Told

namespace Operation

theorem perform_told (o : Orchestrator σ) (w : World σ) (op : Operation) :
    (op.perform o w).Told o.config.audit op.action? := by
  have hF := Run.Spares.frame (σ := σ) o.hardware
  have hfleet : ∀ f, Orchestrator.Leaves o.config.audit (Orchestrator.changeFleet w f).events :=
    fun f => by
      rw [Orchestrator.events_changeFleet]
      exact .inl ⟨rfl, rfl⟩
  have hdevice : ∀ {α : Type} {d : DeviceId} {act : Act σ α},
      act.Keeps (Run.Spares Call.removesGroup) →
        Orchestrator.Leaves o.config.audit (Orchestrator.onDevice w d act).events :=
    fun hact => .of_spares (Orchestrator.spares_onDevice w _ hact)
  cases op with
  | attach d | detach d =>
    exact (Outcome.Told.audited (hfleet _) (by decide)).noted _
  | createGroup d owner rpf ipmc =>
    exact .audited (o.leaves_makeGroup w d owner rpf ipmc) (by decide)
  | deleteGroup d id => exact .audited (hdevice ((hF d).unmakeGroup id)) (by decide)
  | updateMember d id op role spec =>
    exact .audited (hdevice ((hF d).changeMember id op role spec)) (by decide)
  | addRoute d r => exact .audited (hdevice ((hF d).makeRoute r)) (by decide)
  | deleteRoute d key => exact .audited (hdevice ((hF d).unmakeRoute key)) (by decide)
  | updateRoute d key u => exact .audited (hdevice ((hF d).changeRoute key u)) (by decide)
  | verifyRoute d key =>
    have hnone := auditsOf_of_spares (Orchestrator.spares_onDevice w d ((hF d).checkRoute key))
    unfold Outcome.Told
    split
    · next h => cases h
    · exact hnone

/-- Only a create takes a group back. -/
theorem rolledBack_perform {o : Orchestrator σ} {w : World σ} {op : Operation}
    (h : rolledBack (op.perform o w).events = true) :
    ∃ d owner rpf ipmc, op = .createGroup d owner rpf ipmc := by
  have hF := Run.Spares.frame (σ := σ) o.hardware
  have hfleet : ∀ f record message, rolledBack (Orchestrator.noted
      (o.audited (Orchestrator.changeFleet w f) record) message).events = false := by
    intro f record message
    obtain ⟨lines, hevents, hall⟩ :=
      Orchestrator.spares_noted (o.audited (Orchestrator.changeFleet w f) record) message
    rw [hevents, rolledBack_append, Orchestrator.rolledBack_audited,
      Orchestrator.events_changeFleet, rolledBack_of_spares (hall _)]
    rfl
  have hdevice : ∀ {α : Type} {d : DeviceId} {act : Act σ α} {record : Audit.Record},
      act.Keeps (Run.Spares Call.removesGroup) →
        rolledBack (o.audited (Orchestrator.onDevice w d act) record).events ≠ true := by
    intro α d act record hact
    rw [Orchestrator.rolledBack_audited,
      rolledBack_of_spares (Orchestrator.spares_onDevice w d hact)]
    decide
  cases op with
  | createGroup d owner rpf ipmc => exact ⟨d, owner, rpf, ipmc, rfl⟩
  | attach d | detach d => cases (hfleet _ _ _).symm.trans h
  | deleteGroup d id => exact (hdevice ((hF d).unmakeGroup id) h).elim
  | updateMember d id op role spec =>
    exact (hdevice ((hF d).changeMember id op role spec) h).elim
  | addRoute d r => exact (hdevice ((hF d).makeRoute r) h).elim
  | deleteRoute d key => exact (hdevice ((hF d).unmakeRoute key) h).elim
  | updateRoute d key u => exact (hdevice ((hF d).changeRoute key u) h).elim
  | verifyRoute d key =>
    have hkept := rolledBack_of_spares (Orchestrator.spares_onDevice w d ((hF d).checkRoute key))
    cases hkept.symm.trans h

end Operation

/-! With and without a trail -/

/-- What is done to a world: an operation, or a change of the hardware from outside. -/
inductive Move (σ : Type) where
  /-- Runs an operation, which visits routes in the order given. -/
  | operate (order : RouteOrder) (op : Operation)
  | drift (f : σ → σ)

/-- A world after some moves, and what the operations among them have returned and left. -/
structure Play (σ : Type) where
  world : World σ
  results : List ((op : Operation) × Except OpError op.Reply)
  events : List Event

namespace Play

variable {config config' : Config} {hw : Hardware σ}

def step (config : Config) (hw : Hardware σ) (p : Play σ) : Move σ → Play σ
  | .operate order op =>
    let out := op.perform ⟨config, hw, order⟩ p.world
    ⟨out.world, p.results ++ [⟨op, out.result⟩], p.events ++ out.events⟩
  | .drift f => { p with world := { p.world with state := f p.world.state } }

def run (config : Config) (hw : Hardware σ) (w : World σ) (moves : List (Move σ)) : Play σ :=
  moves.foldl (step config hw) ⟨w, [], []⟩

/-- The two differ in their audit records at most. -/
structure Same (p p' : Play σ) : Prop where
  world : p.world = p'.world
  results : p.results = p'.results
  events : withoutAudits p.events = withoutAudits p'.events

theorem Same.step {p p' : Play σ} (h : p.Same p') (hmax : config.maxGroups = config'.maxGroups)
    (hcopy : config.copyAction = config'.copyAction) (move : Move σ) :
    (p.step config hw move).Same (p'.step config' hw move) := by
  cases move with
  | drift f =>
    refine ⟨?_, h.results, h.events⟩
    change World.mk _ _ = World.mk _ _
    rw [h.world]
  | operate order op =>
    have hsame : Orchestrator.Bisimilar ⟨config, hw, order⟩ ⟨config', hw, order⟩ Eq :=
      ⟨.refl hw, hmax, hcopy, rfl⟩
    have hworld : p.world.Alike Eq p'.world :=
      ⟨congrArg World.state h.world, congrArg World.fleet h.world⟩
    have halike := op.perform_alike hsame hworld
    refine ⟨?_, ?_, ?_⟩
    · exact congrArg₂ World.mk halike.world.state halike.world.fleet
    · change _ ++ [_] = _ ++ [_]
      rw [h.results, halike.result]
    · change withoutAudits (_ ++ _) = withoutAudits (_ ++ _)
      rw [withoutAudits_append, withoutAudits_append, h.events, halike.events]

theorem Same.run {p p' : Play σ} (h : p.Same p') (hmax : config.maxGroups = config'.maxGroups)
    (hcopy : config.copyAction = config'.copyAction) (moves : List (Move σ)) :
    (moves.foldl (Play.step config hw) p).Same (moves.foldl (Play.step config' hw) p') := by
  induction moves generalizing p p' with
  | nil => exact h
  | cons move rest ih => exact ih (h.step hmax hcopy move)

/-- Without a trail no move leaves a record. -/
theorem auditsOf_run (hnone : config.audit = false) {p : Play σ} (h : auditsOf p.events = [])
    (moves : List (Move σ)) : auditsOf (moves.foldl (Play.step config hw) p).events = [] := by
  induction moves generalizing p with
  | nil => exact h
  | cons move rest ih =>
    refine ih ?_
    cases move with
    | drift f => exact h
    | operate order op =>
      have htold := op.perform_told ⟨config, hw, order⟩ p.world
      unfold Outcome.Told at htold
      rw [hnone] at htold
      change auditsOf (_ ++ _) = []
      rw [auditsOf_append, h]
      exact htold

end Play

/-- With a trail each operation that is recorded leaves its own record last, and before it no other
but that of the rollback of a new group; the records tell how operation and rollback ended. What is
only asked is not recorded. Without a trail there are no records, and for the same moves nothing
else differs. -/
theorem audit_trail_is_truthful (config : Config) (hw : Hardware σ) (w : World σ) :
    (∀ order (op : Operation),
      let out := op.perform ⟨{ config with audit := true }, hw, order⟩ w
      (∀ action, op.action? = some action → ∃ rolled own, out.Trail action rolled own) ∧
      (op.action? = none → auditsOf out.events = []) ∧
      (rolledBack out.events = true →
        ∃ d owner rpf ipmc, op = .createGroup d owner rpf ipmc)) ∧
    ∀ moves : List (Move σ),
      let p := Play.run { config with audit := true } hw w moves
      let p' := Play.run { config with audit := false } hw w moves
      p.Same p' ∧ auditsOf p'.events = [] := by
  refine ⟨fun order op => ⟨fun action haction => ?_, fun haction => ?_, fun hback => ?_⟩,
    fun moves => ⟨?_, ?_⟩⟩
  · have htold := op.perform_told ⟨{ config with audit := true }, hw, order⟩ w
    rw [haction] at htold
    exact htold
  · have htold := op.perform_told ⟨{ config with audit := true }, hw, order⟩ w
    rw [haction] at htold
    exact htold
  · exact op.rolledBack_perform hback
  · have hstart : Play.Same ⟨w, [], []⟩ (⟨w, [], []⟩ : Play σ) := ⟨rfl, rfl, rfl⟩
    unfold Play.run
    refine hstart.run ?_ ?_ moves <;> rfl
  · exact Play.auditsOf_run rfl rfl moves

end Multicast
