import Multicast.Proofs.Bench
import Multicast.Proofs.Tally
import Multicast.Proofs.Trail

/-! Rollbacks that are counted but not recorded. The taking back of a new group is both; that of an
egress sub-group and the restoring of a route are only counted. -/
namespace Multicast

variable {σ α : Type}

/-! Steps that count rollbacks -/

/-- Since `r` no group was taken back and nothing was recorded. As many rollbacks were counted as
`μ` reads off the trace. -/
def Run.Counts (μ : List Event → Nat) (r r' : Run σ) : Prop :=
  ∃ events, r'.events = r.events ++ events ∧
    (∀ e ∈ events, e.spares Call.removesGroup = true) ∧
    r'.cache.stats.rollbacks = r.cache.stats.rollbacks + μ events

theorem Run.Uncounted.counts {p : Call → Bool} {r r' : Run σ} (h : r.Uncounted p r')
    (hp : ∀ c, c.removesGroup = true → p c = true) {μ : List Event → Nat}
    (hμ : ∀ events : List Event, (∀ e ∈ events, e.spares p = true) → μ events = 0) :
    r.Counts μ r' := by
  obtain ⟨events, hevents, hall⟩ := h.spares
  refine ⟨events, hevents, fun e he => Event.spares_mono hp (hall e he), ?_⟩
  rw [h.rollbacks, hμ events hall, Nat.add_zero]

namespace Run.Counts

variable {r r' r'' : Run σ} {o : Orchestrator σ} {d : DeviceId}

theorem trans {μ : List Event → Nat} (hμ : ∀ l l', μ (l ++ l') = μ l + μ l') (h : r.Counts μ r')
    (h' : r'.Counts μ r'') : r.Counts μ r'' := by
  obtain ⟨l, hl, hall, hcount⟩ := h
  obtain ⟨l', hl', hall', hcount'⟩ := h'
  refine ⟨l ++ l', by rw [hl', hl, List.append_assoc], fun e he => ?_, ?_⟩
  · exact (List.mem_append.mp he).elim (hall e) (hall' e)
  · rw [hcount', hcount, hμ, Nat.add_assoc]

theorem egress (h : r.Uncounted Call.dismantles r') : r.Counts egressUndone r' :=
  h.counts (fun c hc => by cases c <;> first | rfl | cases hc) fun _ hall =>
    egressUndone_of_spares fun e he =>
      Event.spares_mono (fun _ => Call.dismantles_of_removesEgress) (hall e he)

theorem egressFrame (hw : Hardware σ) (d : DeviceId) :
    LookupFrame hw d (Run.Counts egressUndone) where
  refl _ := egress (.of_eq rfl rfl)
  trans := trans egressUndone_append
  lookup _ _ := egress (.of_eq rfl rfl)

/-- The rollback of an egress sub-group is counted, but not recorded. -/
theorem undoEgressGroup (context : String) (subGroup : Handle) :
    Effect.Keeps (Run.Counts egressUndone) (do
      o.undoEgressGroup d context subGroup
      Effect.countRollback) := by
  intro r
  obtain ⟨hcache, events, hevents, hall, hcount, -⟩ := Effect.undo_undoes o.hardware d
    "remove_ipmc_group" context (.removeSubGroup .ipmc subGroup) r
  refine ⟨events, hevents, hall _ rfl, ?_⟩
  rw [hcount, ← hcache]
  rfl

theorem undoMember (context : String) (role : Role) (member : Handle) :
    (o.undoMember d context role member).Keeps (Run.Counts egressUndone) :=
  (egressFrame o.hardware d).bind
    (fun r => egress (Run.Uncounted.undo o.hardware d _ context (by rfl) r)) fun _ =>
    (egressFrame o.hardware d).pure _

theorem undoFirstEgress (context : String) (subGroup member : Handle) :
    Effect.Keeps (Run.Counts egressUndone) (do
      o.undoMember d context .ipmc member
      o.undoEgressGroup d context subGroup
      Effect.countRollback) :=
  (egressFrame o.hardware d).bind (undoMember _ _ _) fun _ => undoEgressGroup _ _

theorem repoint (undo : Bool) (subGroup : Handle) (visited : List Entry) (keys : List RouteKey) :
    (o.repoint d undo subGroup visited keys).Keeps (Run.Counts egressUndone) := by
  have hS := egressFrame (σ := σ) o.hardware d
  induction keys generalizing visited with
  | nil => exact hS.act_pure _
  | cons key rest ih =>
    rw [Orchestrator.repoint]
    refine hS.act_bind (hS.orCleanUp ?_ fun _ => ?_) fun _ => ih _
    · refine hS.act_bind (hS.entryOf key) fun entry => hS.act_bind (hS.act_call_of fun r => ?_)
        fun _ => hS.act_pure _
      exact egress (.call r fun _ => rfl)
    · refine hS.forM (fun entry => hS.bind (fun r => ?_) fun _ => hS.pure _) visited
      exact egress (Run.Uncounted.undo o.hardware d _ _ (by rfl) r)

theorem addFirstEgress (id : Handle) (routes : List RouteKey) (rif : Handle) (ports : List Handle)
    (spec : MemberSpec) :
    (o.addFirstEgress d id routes rif ports spec).Keeps (Run.Counts egressUndone) := by
  have hS := egressFrame (σ := σ) o.hardware d
  have hrequest : ∀ c, (Act.request o.hardware d c).Keeps (Run.Counts egressUndone) :=
    fun c r => egress (Run.Uncounted.request _ _ _ c r)
  have hnote : ∀ level message, (Effect.note level message : Effect σ Unit).Keeps
      (Run.Counts egressUndone) := fun _ _ r => egress (.emit r rfl)
  refine hS.act_bind (hrequest _) fun subGroup => hS.act_bind (hS.act_lift (hnote _ _)) fun _ =>
    hS.act_bind (hS.orCleanUp (hrequest _) fun _ => undoEgressGroup _ _) fun member =>
    hS.act_bind (hS.orCleanUp (repoint _ _ _ _) fun _ => undoFirstEgress _ _ _) fun _ =>
    hS.orCleanUp (fun r => egress (Run.Uncounted.changeGroup id _ r)) fun e => ?_
  refine hS.bind (hnote _ _) fun _ => hS.bind (repoint _ _ _ _) fun result => ?_
  cases result with
  | ok _ => exact undoFirstEgress _ _ _
  | error _ => exact hS.bind (hnote _ _) fun _ => undoFirstEgress _ _ _

theorem addMember (id : Handle) (role : Role) (spec : MemberSpec) :
    (o.addMember d id role spec).Keeps (Run.Counts egressUndone) :=
  Orchestrator.addMember_keeps (egressFrame o.hardware d) egress fun _ routes rif ports =>
    addFirstEgress id routes rif ports spec

theorem addEgressMembers (id : Handle) (specs : List MemberSpec) :
    (o.addEgressMembers d id specs).Keeps (Run.Counts egressUndone) := by
  have hS := egressFrame (σ := σ) o.hardware d
  have hcount : ∀ f : Stats → Stats, (∀ s, (f s).rollbacks = s.rollbacks) →
      (Effect.count f : Effect σ Unit).Keeps (Run.Counts egressUndone) :=
    fun f hf r => egress (.count hf r)
  induction specs with
  | nil => exact hS.pure _
  | cons spec rest ih =>
    refine hS.bind (addMember id .ipmc spec) fun result => ?_
    cases result with
    | ok _ => exact hS.bind (hcount _ fun _ => rfl) fun _ => ih
    | error _ =>
      exact hS.bind (fun r => egress (.emit r rfl)) fun _ =>
        hS.bind (hcount _ fun _ => rfl) fun _ => ih

end Run.Counts

/-! Taking back a new group -/

namespace Orchestrator

variable {o : Orchestrator σ} {d : DeviceId}

theorem undoMade_cache (what context : String) (h : Handle) (c : Call) (r : Run σ) :
    (o.undoMade d what context h c).Ends r fun _ r' => r'.cache = r.cache := by
  unfold undoMade
  split
  · rfl
  · exact (Effect.undo_undoes _ _ _ _ _ _).mono fun _ _ h => h.cache

theorem rollBack_counts (draft : Draft) (r : Run σ) :
    (o.rollBack d draft).Ends r fun _ r' =>
      r'.cache.stats.rollbacks = r.cache.stats.rollbacks + 1 := by
  refine (undoMade_cache _ _ _ _ r).bind fun _ r₁ h₁ => ?_
  refine (undoMade_cache _ _ _ _ r₁).bind fun _ r₂ h₂ => ?_
  refine (Effect.undo_undoes _ _ _ _ _ r₂).bind fun _ r₃ h₃ => ?_
  have hcache : r₃.cache = r.cache := h₃.cache.trans (h₂.trans h₁)
  have hcount : (Effect.countRollback : Effect σ Unit).Ends r₃ fun _ r' =>
      r'.cache.stats.rollbacks = r.cache.stats.rollbacks + 1 := by
    rw [← hcache]
    rfl
  refine hcount.bind fun _ r₄ h₄ => ?_
  split
  · exact h₄
  · exact h₄

theorem buildFrame_uncounted (o : Orchestrator σ) (d : DeviceId) :
    BuildFrame o d (Run.Uncounted Call.dismantles) where
  toLookupFrame := Run.Uncounted.lookupFrame _ o.hardware d
  log r _ := .emit r rfl
  request c := .request _ _ _ c
  count r _ hf := .count hf r
  commitGroup owner draft := .commitGroup owner draft
  addIngress _ _ := addMember_keeps (Run.Uncounted.lookupFrame _ o.hardware d) (fun h => h) nofun
  dropGroup id := .dropGroup id

/-- A create that fails counts one rollback and records it, if it has taken the group back. -/
theorem makeGroup_counts (o : Orchestrator σ) (d : DeviceId) (owner : Owner) (rpf : MemberSpec)
    (ipmc : List MemberSpec) (r : Run σ) :
    (o.makeGroup d owner rpf ipmc).Ends r (fun _ r' => r.Counts egressUndone r')
      fun _ r' => r.Counts egressUndone r' ∨ TakesBack o.config.audit r r' ∧
        r'.cache.stats.rollbacks = r.cache.stats.rollbacks + 1 := by
  refine ((buildFrame_uncounted o d).makeGroup_ends (Run.Counts.egressFrame o.hardware d) .egress
    (fun id specs => .addEgressMembers id specs) owner rpf ipmc r).mono (fun _ _ h => h) ?_
  rintro _ _ (h | ⟨draft, r₁, hr₁, rfl⟩)
  · exact .inl h
  · refine .inr ⟨RollsBack.takesBack ⟨draft, r₁, hr₁.spares, rfl⟩, ?_⟩
    rw [← hr₁.rollbacks]
    exact rollBack_counts draft r₁

/-! Restoring the attributes of a route -/

/-- Restoring makes undo calls, if there is anything to restore. -/
theorem restore_ends (context : String) (entry : Entry) (replaced : List EntryAttr) (r : Run σ) :
    (replaced.forM fun old => discard (Effect.undo o.hardware d "restore_route_attribute" context
      (.setEntry entry old)) : Effect σ Unit).Ends r fun _ r' =>
      r'.cache = r.cache ∧ ∃ events, r'.events = r.events ++ events ∧
        (∀ e ∈ events, e.spares Call.removesGroup = true) ∧
        undoes events = !replaced.isEmpty := by
  induction replaced generalizing r with
  | nil => exact ⟨rfl, [], (List.append_nil _).symm, fun _ he => (List.not_mem_nil he).elim, rfl⟩
  | cons old rest ih =>
    have hfirst : (discard (Effect.undo o.hardware d "restore_route_attribute" context
        (.setEntry entry old)) : Effect σ Unit).Ends r
          fun _ r' => r.Undoes (.setEntry entry old) r' :=
      Effect.undo_undoes _ _ _ _ _ r
    refine hfirst.bind ?_
    rintro _ r₁ ⟨hcache₁, l₁, hl₁, hall₁, -, hundoes₁⟩
    refine (ih r₁).mono ?_
    rintro _ r₂ ⟨hcache₂, l₂, hl₂, hall₂, -⟩
    refine ⟨hcache₂.trans hcache₁, l₁ ++ l₂, by rw [hl₂, hl₁, List.append_assoc],
      fun e he => ?_, ?_⟩
    · exact (List.mem_append.mp he).elim (hall₁ _ rfl e) (hall₂ e)
    · rw [undoes_append, hundoes₁]
      rfl

end Orchestrator

/-- One rollback, if anything was taken back. -/
def undoings (events : List Event) : Nat := (undoes events).toNat

theorem Run.Counts.plain {r r' : Run σ} (h : r.Uncounted (fun _ => true) r') :
    r.Counts undoings r' :=
  h.counts (fun _ _ => rfl) fun _ hall => congrArg Bool.toNat (undoes_of_spares hall)

/-- What takes nothing back does not matter. -/
theorem Run.Counts.after {r r' r'' : Run σ} (h : r'.Counts undoings r'')
    (h' : r.Uncounted (fun _ => true) r') : r.Counts undoings r'' := by
  obtain ⟨l, hl, hall⟩ := h'.spares
  obtain ⟨l', hl', hall', hcount⟩ := h
  refine ⟨l ++ l', by rw [hl', hl, List.append_assoc], fun e he => ?_, ?_⟩
  · exact (List.mem_append.mp he).elim
      (fun he => Event.spares_mono (fun _ _ => rfl) (hall e he)) (hall' e)
  · rw [hcount, h'.rollbacks, undoings, undoings, undoes_append, undoes_of_spares hall,
      Bool.false_or]

namespace Orchestrator

variable {o : Orchestrator σ} {d : DeviceId}

/-- Attributes that are restored count as one rollback, which is not recorded. -/
theorem writeAttrs_counts (key : RouteKey) (entry : Entry) (replaced : List EntryAttr)
    (changes : List (EntryAttr × EntryAttr)) (r : Run σ) :
    (o.writeAttrs d key entry replaced changes).Ends r
      (fun _ r' => r.Uncounted (fun _ => true) r') fun _ r' => r.Counts undoings r' := by
  induction changes generalizing replaced r with
  | nil => exact (Run.Uncounted.lookupFrame _ o.hardware d).refl r
  | cons change rest ih =>
    rw [writeAttrs]
    have hset := (Run.Uncounted.request (fun _ => true) o.hardware d
      (.setEntry entry change.2)).ends r
    refine Act.Ends.andThen (hset.orCleanUp (E := fun _ r' => r.Counts undoings r') ?_) ?_
    · intro e r₁ hr₁
      refine (restore_ends key.text entry replaced r₁).bind ?_
      rintro _ r₂ ⟨hcache, events, hevents, hall, hundoes⟩
      refine Effect.Ends.mono (P := fun _ r' => r.Counts undoings r')
        (Q := fun _ r' => r₁.Counts undoings r') ?_ fun _ _ h => h.after hr₁
      cases hempty : replaced.isEmpty <;> rw [hempty] at hundoes
      · exact ⟨events, hevents, hall, by rw [undoings, hundoes, ← hcache]; rfl⟩
      · exact ⟨events, hevents, hall, by rw [undoings, hundoes, ← hcache]; rfl⟩
    · intro _ r₁ hr₁
      exact (ih _ r₁).mono (fun _ _ h => hr₁.trans h) fun _ _ h => h.after hr₁

theorem changeRoute_counts (key : RouteKey) (u : RouteUpdate) :
    (o.changeRoute d key u).Keeps (Run.Counts undoings) := by
  have hS := Run.Uncounted.lookupFrame (σ := σ) (fun _ => true) o.hardware d
  refine Act.keeps_of_ends fun r => Act.Ends.cache ?_
  refine Act.Ends.ofCache (fun current _ => ?_) fun _ => .plain (hS.refl r)
  refine Act.Ends.ofCache (fun oldGroup _ => ?_) fun _ => .plain (hS.refl r)
  refine Act.Ends.usableGroup (fun newGroup _ _ => ?_) fun _ => .plain (hS.refl r)
  refine ((hS.act_lookup _).ends r).bind ?_ fun _ _ h => .plain h
  intro oldIif r₁ hr₁
  have hiif : Act.Keeps (Run.Uncounted fun _ => true)
      (if u.iif.getD current.iif = current.iif then pure oldIif
      else Act.lookup o.hardware d (.rif (u.iif.getD current.iif)) : Act σ Handle) := by
    split
    · exact hS.act_pure _
    · exact hS.act_lookup _
  refine (hiif.ends r₁).bind ?_ fun _ _ h => .plain (hr₁.trans h)
  intro newIif r₂ hr₂
  have hr₂ := hr₁.trans hr₂
  refine Act.Ends.bind (P := fun _ r' => r₂.Uncounted (fun _ => true) r')
    (F := fun _ r' => r₂.Counts undoings r') ?_ ?_ fun _ _ h => h.after hr₂
  · split
    · exact hS.refl r₂
    · refine ((hS.entryOf key).ends r₂).bind ?_ fun _ _ h => .plain h
      intro entry r₃ hr₃
      exact (writeAttrs_counts key entry [] _ r₃).mono (fun _ _ h => hr₃.trans h)
        fun _ _ h => h.after hr₃
  · intro _ r₃ hr₃
    have hcommit : Act.Keeps (Run.Uncounted fun _ => true)
        (Act.changeCache (updateCache key u) : Act σ Unit) :=
      .changeCache fun _ _ => stats_updateCache
    have hcount : (Act.count fun s => { s with routesUpdated := s.routesUpdated + 1 } :
        Act σ Unit).Keeps (Run.Uncounted fun _ => true) := .act_count _ fun _ => rfl
    refine Act.Ends.mono (Act.Keeps.ends (hS.act_bind hcommit fun _ =>
      hS.act_bind hcount fun _ => .act_note _ _) r₃) ?_ ?_
    · exact fun _ _ h => .plain ((hr₂.trans hr₃).trans h)
    · exact fun _ _ h => .plain ((hr₂.trans hr₃).trans h)

theorem addEgress_counts (id : Handle) (spec : MemberSpec) :
    (o.changeMember d id .add .ipmc spec).Keeps (Run.Counts egressUndone) := by
  have hS := Run.Counts.egressFrame (σ := σ) o.hardware d
  have hcount : (Act.count fun s => { s with membersAdded := s.membersAdded + 1 } :
      Act σ Unit).Keeps (Run.Uncounted Call.dismantles) := .act_count _ fun _ => rfl
  have hnote : ∀ level message, (Act.note level message : Act σ Unit).Keeps
      (Run.Uncounted Call.dismantles) := fun level message => .act_note level message
  exact hS.act_bind hS.cache fun _ => hS.act_bind (hS.ofCache _) fun _ =>
    hS.act_bind (.addMember _ _ _) fun _ => hS.act_bind (fun r => .egress (hcount r)) fun _ r =>
    .egress (hnote _ _ r)

end Orchestrator

/-! Operations -/

/-- Records of rollbacks. -/
def rollbackRecords (events : List Event) : Nat :=
  (auditsOf events).countP (·.category = .rollback)

/-- Rollbacks counted for a device; none, if it is not attached. -/
def World.rollbacks (w : World σ) (d : DeviceId) : Nat :=
  (w.fleet.find? d).elim 0 (·.stats.rollbacks)

/-- Rollbacks of an operation that no record tells of. -/
def Operation.unrecorded (events : List Event) : Operation → Nat
  | .createGroup .. => if rolledBack events then 0 else egressUndone events
  | .updateMember _ _ .add .ipmc _ => egressUndone events
  | .updateRoute .. => undoings events
  | _ => 0

/-- A run from no events that takes no group back. -/
theorem Run.Counts.rise {μ : List Event → Nat} {s : σ} {c : DeviceCache} {r : Run σ}
    (h : Run.Counts μ ⟨s, c, []⟩ r) : rolledBack r.events = false ∧
      r.cache.stats.rollbacks = c.stats.rollbacks + μ r.events := by
  obtain ⟨events, hevents, hall, hcount⟩ := h
  have hevents : r.events = events := hevents
  rw [hevents]
  exact ⟨rolledBack_of_spares hall, hcount⟩

namespace Orchestrator

theorem egressUndone_audited (o : Orchestrator σ) (out : Outcome σ α) (record : Audit.Record) :
    egressUndone (o.audited out record).events = egressUndone out.events := by
  unfold audited
  split
  · rw [egressUndone_append]
    rfl
  · rfl

theorem undoings_audited (o : Orchestrator σ) (out : Outcome σ α) (record : Audit.Record) :
    undoings (o.audited out record).events = undoings out.events := by
  unfold audited
  split
  · rw [undoings, undoes_append]
    exact congrArg Bool.toNat (Bool.or_false _)
  · rfl

theorem rollbacks_onDevice {w : World σ} {d : DeviceId} {act : Act σ α} {n : List Event → Nat}
    (hact : ∀ c, act.Ends ⟨w.state, c, []⟩
      (fun _ r => r.cache.stats.rollbacks = c.stats.rollbacks + n r.events)
      fun _ r => r.cache.stats.rollbacks = c.stats.rollbacks + n r.events)
    {c' : DeviceCache} (hc' : (onDevice w d act).world.fleet.find? d = some c') :
    c'.stats.rollbacks = w.rollbacks d + n (onDevice w d act).events := by
  cases hc : w.fleet.find? d with
  | none =>
    rw [onDevice_of_find?_eq_none hc, hc] at hc'
    cases hc'
  | some c =>
    obtain ⟨r, hworld, hevents, hends⟩ := onDevice_ends hc (hact c)
    rw [hworld, Table.find?_modify_self _ hc] at hc'
    cases hc'
    rw [hevents, World.rollbacks, hc]
    rcases hends with ⟨_, -, h⟩ | ⟨_, -, h⟩ <;> exact h

/-- An operation that takes no group back. -/
theorem rise_onDevice {w : World σ} {d : DeviceId} {act : Act σ α} {μ : List Event → Nat}
    (hact : act.Keeps (Run.Counts μ)) {c' : DeviceCache}
    (hc' : (onDevice w d act).world.fleet.find? d = some c') :
    c'.stats.rollbacks = w.rollbacks d +
      ((rolledBack (onDevice w d act).events).toNat + μ (onDevice w d act).events) := by
  refine rollbacks_onDevice (n := fun events => (rolledBack events).toNat + μ events)
    (fun c => ?_) hc'
  refine (hact.ends _).mono (fun _ r h => ?_) fun _ r h => ?_ <;>
  · rw [h.rise.1, h.rise.2]
    exact congrArg _ (Nat.zero_add _).symm

end Orchestrator

namespace Operation

theorem perform_counts (o : Orchestrator σ) (w : World σ) (op : Operation) {c : DeviceCache}
    (hc : (op.perform o w).world.fleet.find? op.device = some c) :
    c.stats.rollbacks = w.rollbacks op.device +
      ((rolledBack (op.perform o w).events).toNat + op.unrecorded (op.perform o w).events) := by
  have hnone : ∀ {α : Type} {d : DeviceId} {act : Act σ α} {c : DeviceCache},
      act.Keeps (Run.Uncounted fun _ => true) →
      (Orchestrator.onDevice w d act).world.fleet.find? d = some c →
      c.stats.rollbacks =
        w.rollbacks d + ((rolledBack (Orchestrator.onDevice w d act).events).toNat + 0) :=
    fun hact => Orchestrator.rise_onDevice (μ := fun _ => 0) fun r =>
      (hact r).counts (fun _ _ => rfl) fun _ _ => rfl
  have hkept : (¬∃ d owner rpf ipmc, op = .createGroup d owner rpf ipmc) →
      rolledBack (op.perform o w).events = false :=
    fun h => Bool.eq_false_iff.mpr fun hback => h (op.rolledBack_perform hback)
  cases op with
  | attach d =>
    rw [hkept (by rintro ⟨_, _, _, _, h⟩; cases h)]
    simp only [perform, Orchestrator.attach, Orchestrator.world_noted,
      Orchestrator.world_audited] at hc
    rcases Orchestrator.changeFleet_cases w (·.attach d) with ⟨fleet, hfleet, h⟩ | ⟨_, h⟩
    · rw [h] at hc
      obtain ⟨hnew, rfl⟩ := Fleet.attach_eq_ok_iff.mp hfleet
      cases (Table.find?_insert_self _ _ _).symm.trans hc
      simp [World.rollbacks, device, hnew, unrecorded, DeviceCache.empty]
    · rw [h] at hc
      simp [World.rollbacks, hc, unrecorded]
  | detach d =>
    rw [hkept (by rintro ⟨_, _, _, _, h⟩; cases h)]
    simp only [perform, Orchestrator.detach, Orchestrator.world_noted,
      Orchestrator.world_audited] at hc
    rcases Orchestrator.changeFleet_cases w (·.detach d) with ⟨fleet, hfleet, h⟩ | ⟨_, h⟩
    · rw [h] at hc
      obtain ⟨_, -, -, rfl⟩ := Fleet.detach_eq_ok_iff.mp hfleet
      cases (Table.find?_erase_self _ _).symm.trans hc
    · rw [h] at hc
      simp [World.rollbacks, hc, unrecorded]
  | createGroup d owner rpf ipmc =>
    simp only [perform, Orchestrator.createGroup, Orchestrator.world_audited, unrecorded,
      Orchestrator.rolledBack_audited, Orchestrator.egressUndone_audited] at hc ⊢
    refine Orchestrator.rollbacks_onDevice (n := fun events => (rolledBack events).toNat +
      if rolledBack events then 0 else egressUndone events) (fun c => ?_) hc
    have hkept : ∀ r : Run σ, Run.Counts egressUndone ⟨w.state, c, []⟩ r →
        r.cache.stats.rollbacks = c.stats.rollbacks + ((rolledBack r.events).toNat +
          if rolledBack r.events then 0 else egressUndone r.events) := by
      intro r h
      rw [h.rise.1, h.rise.2]
      exact congrArg _ (Nat.zero_add _).symm
    refine (o.makeGroup_counts d owner rpf ipmc _).mono (fun _ r h => hkept r h) ?_
    rintro _ r (h | ⟨⟨_, events, hevents, hback, -⟩, hcount⟩)
    · exact hkept r h
    · have hevents : r.events = events := hevents
      rw [hevents, hback]
      exact hcount
  | updateMember d id op role spec =>
    simp only [perform, Orchestrator.updateMember, Orchestrator.world_audited,
      Orchestrator.rolledBack_audited] at hc ⊢
    by_cases h : op = .add ∧ role = .ipmc
    · obtain ⟨rfl, rfl⟩ := h
      simp only [unrecorded, Orchestrator.egressUndone_audited]
      exact Orchestrator.rise_onDevice (Orchestrator.addEgress_counts id spec) hc
    · have hrest : ∀ events, unrecorded events (.updateMember d id op role spec) = 0 := by
        intro events
        cases op <;> cases role <;> first | rfl | exact (h ⟨rfl, rfl⟩).elim
      rw [hrest]
      exact hnone (Orchestrator.changeMember_uncounted h id spec) hc
  | updateRoute d key u =>
    simp only [perform, Orchestrator.updateRoute, Orchestrator.world_audited, unrecorded,
      Orchestrator.rolledBack_audited, Orchestrator.undoings_audited] at hc ⊢
    exact Orchestrator.rise_onDevice (Orchestrator.changeRoute_counts key u) hc
  | deleteGroup d id =>
    simp only [perform, Orchestrator.deleteGroup, Orchestrator.world_audited,
      Orchestrator.rolledBack_audited] at hc ⊢
    exact hnone (Orchestrator.unmakeGroup_uncounted id) hc
  | addRoute d r =>
    simp only [perform, Orchestrator.addRoute, Orchestrator.world_audited,
      Orchestrator.rolledBack_audited] at hc ⊢
    exact hnone (Orchestrator.makeRoute_uncounted r) hc
  | deleteRoute d key =>
    simp only [perform, Orchestrator.deleteRoute, Orchestrator.world_audited,
      Orchestrator.rolledBack_audited] at hc ⊢
    exact hnone (Orchestrator.unmakeRoute_uncounted key) hc
  | verifyRoute d key => exact hnone (Orchestrator.checkRoute_uncounted key) hc

theorem rollbackRecords_perform {o : Orchestrator σ} (haudit : o.config.audit = true) (w : World σ)
    (op : Operation) :
    rollbackRecords (op.perform o w).events = (rolledBack (op.perform o w).events).toNat := by
  have htold := op.perform_told o w
  cases haction : op.action? with
  | none =>
    rw [haudit, haction] at htold
    have hnone : auditsOf (op.perform o w).events = [] := htold
    rw [rollbackRecords, hnone]
    cases hback : rolledBack (op.perform o w).events with
    | false => rfl
    | true =>
      obtain ⟨_, _, _, _, rfl⟩ := op.rolledBack_perform hback
      cases haction
  | some action =>
    rw [haudit, haction] at htold
    obtain ⟨rolled, own, htrail⟩ := htold
    rw [rollbackRecords, htrail.records]
    cases hback : rolledBack (op.perform o w).events with
    | false => simp [htrail.kept hback, htrail.category]
    | true =>
      obtain ⟨record, rfl, hrecord⟩ := htrail.takenBack hback
      simp [htrail.category, hrecord.category]

end Operation

/-- The taking back of a new group is recorded, and no other rollback. A device counts in addition
the egress sub-groups that were taken back, when members were added, and the restoring of a
route. -/
theorem rollbacks_recorded (config : Config) (hw : Hardware σ) (order : RouteOrder) (w : World σ)
    (op : Operation) :
    let out := op.perform ⟨{ config with audit := true }, hw, order⟩ w
    rollbackRecords out.events = (rolledBack out.events).toNat ∧
      ∀ c, out.world.fleet.find? op.device = some c →
        c.stats.rollbacks =
          w.rollbacks op.device + rollbackRecords out.events + op.unrecorded out.events := by
  intro out
  have hrecords : rollbackRecords out.events = (rolledBack out.events).toNat :=
    op.rollbackRecords_perform rfl w
  refine ⟨hrecords, fun c hc => ?_⟩
  rw [hrecords, Nat.add_assoc]
  exact op.perform_counts _ w hc

/-- A device on which the first ingress member cannot be made. -/
def World.barred : World Testbed :=
  (World.start .empty).run {}
    [.feed (.switch (.register ⟨1⟩ (.rif ⟨10⟩))), .operate .ascending (.attach ⟨1⟩),
      .feed (.switch (.failNth (.createMember .rpf) 1 .failure))]

/-- The new group is taken back, which one record tells. -/
theorem rollbacks_recorded_barred :
    let op := Operation.createGroup ⟨1⟩ .ipmc ⟨⟨10⟩, []⟩ []
    let out := op.perform (Orchestrator.bench {} .ascending) World.barred
    rollbackRecords out.events = 1 ∧
      ∃ c, out.world.fleet.find? ⟨1⟩ = some c ∧ c.stats.rollbacks = 1 := by
  intro op out
  have hrecords : rollbackRecords out.events = 1 := by decide +kernel
  have hbefore : World.barred.rollbacks ⟨1⟩ = 0 := by decide +kernel
  have hunrecorded : op.unrecorded out.events = 0 := by decide +kernel
  obtain ⟨c, hc⟩ : ∃ c, out.world.fleet.find? ⟨1⟩ = some c :=
    Option.isSome_iff_exists.mp (by decide +kernel)
  have hcount := (rollbacks_recorded {} Testbed.hardware .ascending World.barred op).2 c hc
  refine ⟨hrecords, c, hc, hcount.trans ?_⟩
  exact congrArg₂ _ (congrArg₂ _ hbefore hrecords) hunrecorded

/-- A route of which one attribute can be written, and no second. -/
def World.halting : World Testbed :=
  (World.start .empty).run {}
    [.feed (.switch (.register ⟨1⟩ (.rif ⟨10⟩))), .feed (.switch (.register ⟨1⟩ (.rif ⟨20⟩))),
      .feed (.switch (.register ⟨1⟩ (.vrf ⟨0⟩))), .operate .ascending (.attach ⟨1⟩),
      .operate .ascending (.createGroup ⟨1⟩ .ipmc ⟨⟨10⟩, []⟩ []),
      .operate .ascending
        (.addRoute ⟨1⟩ ⟨.starG ⟨0⟩ (.v4 ⟨239, 1, 1, 1⟩), ⟨10⟩, .make .group 4, false⟩),
      .feed (.switch (.failNth .setEntry 2 .failure))]

/-- The attribute that was written is restored, which the device counts and no record tells. -/
theorem restored_route_is_not_recorded :
    let w := World.halting
    let key : RouteKey := .starG ⟨0⟩ (.v4 ⟨239, 1, 1, 1⟩)
    let op := Operation.updateRoute ⟨1⟩ key ⟨none, some true, some ⟨20⟩⟩
    let out := op.perform (Orchestrator.bench {} .ascending) w
    w.Reachable {} Testbed.hardware ∧ rollbackRecords out.events = 0 ∧ w.rollbacks ⟨1⟩ = 0 ∧
      out.world.rollbacks ⟨1⟩ = 1 :=
  ⟨(World.Benched.start.run _).reachable, by decide +kernel, by decide +kernel, by decide +kernel⟩

end Multicast
