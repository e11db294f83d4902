import Multicast.Proofs.Frame

/-! What a trace shows of a new group that was taken back: the removals that failed, and the record
of them. -/
namespace Multicast

variable {σ α : Type}

/-! What a trace says of audits and removals -/

def auditsOf (events : List Event) : List Audit.Record :=
  events.filterMap fun
    | .audit record => some record
    | _ => none

def Call.removesGroup : Call → Bool
  | .removeGroup _ => true
  | _ => false

/-- Whether a call removes a group or one of its sub-groups. -/
def Call.dismantles : Call → Bool
  | .removeGroup _ | .removeSubGroup .. => true
  | _ => false

/-- Whether a group was taken back. -/
def rolledBack (events : List Event) : Bool :=
  events.any fun
    | .call _ c true _ => c.removesGroup
    | _ => false

/-- Removals of groups and sub-groups that were tried in vain while taking back what was made. -/
def failedRemovals (events : List Event) : Nat :=
  events.countP fun
    | .call _ c true (some _) => c.dismantles
    | _ => false

theorem auditsOf_append (l l' : List Event) : auditsOf (l ++ l') = auditsOf l ++ auditsOf l' :=
  List.filterMap_append

theorem rolledBack_append (l l' : List Event) :
    rolledBack (l ++ l') = (rolledBack l || rolledBack l') :=
  List.any_append

theorem failedRemovals_append (l l' : List Event) :
    failedRemovals (l ++ l') = failedRemovals l + failedRemovals l' :=
  List.countP_append

/-- Neither an audit record nor an undo call that `p` picks. -/
def Event.spares (p : Call → Bool) : Event → Bool
  | .audit _ => false
  | .call _ c true _ => !p c
  | _ => true

theorem auditsOf_of_spares {p : Call → Bool} {events : List Event}
    (h : ∀ e ∈ events, e.spares p = true) : auditsOf events = [] := by
  refine List.filterMap_eq_nil_iff.mpr fun e he => ?_
  cases e with
  | audit => cases h _ he
  | _ => rfl

theorem rolledBack_of_spares {events : List Event}
    (h : ∀ e ∈ events, e.spares Call.removesGroup = true) : rolledBack events = false := by
  refine List.any_eq_false.mpr fun e he => ?_
  have he := h e he
  match e with
  | .call _ c true _ => simpa [Event.spares] using he
  | .call _ _ false _ | .log _ | .refusal _ | .audit _ => simp

theorem failedRemovals_of_spares {events : List Event}
    (h : ∀ e ∈ events, e.spares Call.dismantles = true) : failedRemovals events = 0 := by
  refine List.countP_eq_zero.mpr fun e he => ?_
  have he := h e he
  match e with
  | .call _ c true (some _) => simpa [Event.spares] using he
  | .call _ _ true none | .call _ _ false _ | .log _ | .refusal _ | .audit _ => simp

theorem Event.spares_mono {p q : Call → Bool} (hpq : ∀ c, q c = true → p c = true) {e : Event}
    (h : e.spares p = true) : e.spares q = true := by
  cases e with
  | audit => exact h
  | log | refusal => rfl
  | call d c undo failure =>
    cases undo with
    | false => rfl
    | true =>
      have hp : p c = false := (Bool.not_eq_true' _).mp h
      refine (Bool.not_eq_true' _).mpr (Bool.eq_false_iff.mpr fun hq => ?_)
      cases hp.symm.trans (hpq c hq)

theorem Event.spares_logs (p : Call → Bool) (notes : List Log.Line) :
    ∀ e ∈ notes.map Event.log, e.spares p = true := by
  intro e he
  obtain ⟨_, -, rfl⟩ := List.mem_map.mp he
  rfl

/-! Steps that leave no such events -/

/-- The events of the run since `r` have neither an audit record nor an undo call that `p` picks. -/
def Run.Spares (p : Call → Bool) (r r' : Run σ) : Prop :=
  ∃ events, r'.events = r.events ++ events ∧ ∀ e ∈ events, e.spares p = true

namespace Run.Spares

variable {p q : Call → Bool} {r r' r'' : Run σ} {hw : Hardware σ} {d : DeviceId}

theorem of_eq (h : r'.events = r.events) : r.Spares p r' :=
  ⟨[], by rw [h, List.append_nil], fun _ he => (List.not_mem_nil he).elim⟩

theorem trans (h : r.Spares p r') (h' : r'.Spares p r'') : r.Spares p r'' := by
  obtain ⟨l, hl, hall⟩ := h
  obtain ⟨l', hl', hall'⟩ := h'
  refine ⟨l ++ l', by rw [hl', hl, List.append_assoc], fun e he => ?_⟩
  exact (List.mem_append.mp he).elim (hall e) (hall' e)

theorem mono (h : r.Spares p r') (hpq : ∀ c, q c = true → p c = true) : r.Spares q r' := by
  obtain ⟨l, hl, hall⟩ := h
  exact ⟨l, hl, fun e he => Event.spares_mono hpq (hall e he)⟩

theorem emit (r : Run σ) {e : Event} (he : e.spares p = true) :
    r.Spares p { r with events := r.events ++ [e] } :=
  ⟨[e], rfl, fun _ h => List.mem_singleton.mp h ▸ he⟩

theorem call (r : Run σ) {undo : Bool} {c : Call} (hc : undo = true → p c = false) :
    r.Spares p ((Effect.call hw d undo c).run r).2 := by
  refine ⟨_, List.append_assoc r.events ((hw.call d c r.state).1.notes.map .log)
    [.call d c undo (Effect.failure? (hw.call d c r.state).1.result)], fun e he => ?_⟩
  rcases List.mem_append.mp he with he | he
  · exact Event.spares_logs p _ e he
  · rw [List.mem_singleton.mp he]
    cases undo with
    | false => rfl
    | true => simp [Event.spares, hc rfl]

theorem lookupFrame (p : Call → Bool) (hw : Hardware σ) (d : DeviceId) :
    LookupFrame hw d (Run.Spares p) where
  refl _ := of_eq rfl
  trans := trans
  lookup _ _ := of_eq rfl

/-- No group is taken back but in the rollback of a new one. -/
theorem frame (hw : Hardware σ) (d : DeviceId) :
    CommitFrame hw d (Run.Spares Call.removesGroup) where
  toLookupFrame := lookupFrame _ hw d
  log r _ := emit r rfl
  undoCall r c hc := call r fun _ => by
    cases c with
    | removeGroup h => exact (hc h rfl).elim
    | _ => rfl
  neededCall r _ := call r nofun
  count _ _ := of_eq rfl
  commit _ _ := of_eq rfl
  refusal r _ := emit r rfl

theorem request (p : Call → Bool) (hw : Hardware σ) (d : DeviceId) (c : Call) :
    (Act.request hw d c).Keeps (Run.Spares p) :=
  (lookupFrame p hw d).act_call_of fun r => call r nofun

theorem changeCache (p : Call → Bool) (hw : Hardware σ) (d : DeviceId)
    (f : DeviceCache → Except CacheError DeviceCache) :
    (Act.changeCache f : Act σ Unit).Keeps (Run.Spares p) := by
  have hS := lookupFrame p hw d
  refine hS.act_bind hS.cache fun c => ?_
  cases f c with
  | ok _ => exact hS.act_lift fun _ => of_eq rfl
  | error e => exact hS.act_bind (hS.act_lift fun r => emit r rfl) fun _ => hS.act_throw _

/-- The ingress member needs no sub-group of its own, so none is taken back with it. -/
theorem addMember_rpf (o : Orchestrator σ) (d : DeviceId) (id : Handle) (spec : MemberSpec) :
    (o.addMember d id .rpf spec).Keeps (Run.Spares Call.dismantles) := by
  have hS := lookupFrame (σ := σ) Call.dismantles o.hardware d
  have hnote : ∀ level message, (Effect.note level message : Effect σ Unit).Keeps
      (Run.Spares Call.dismantles) := fun _ _ r => emit r rfl
  have hundo : ∀ context member,
      (Effect.undo o.hardware d "remove_member" context (.removeMember .rpf member)).Keeps
        (Run.Spares Call.dismantles) := by
    intro context member
    refine hS.bind (fun r => call r (c := .removeMember .rpf member) fun _ => rfl) fun result => ?_
    cases result with
    | ok _ => exact hS.bind (hnote _ _) fun _ => hS.pure _
    | error _ => exact hS.bind (hnote _ _) fun _ => hS.pure _
  refine hS.act_bind (hS.usableGroup _) fun g => hS.act_bind (hS.ofCache _) fun _ =>
    hS.act_bind (hS.act_lookup _) fun rif => hS.act_bind (hS.act_lookupPorts _) fun ports =>
    hS.act_bind (request _ _ _ _) fun member =>
    hS.orCleanUp (changeCache _ o.hardware d _) fun e => ?_
  exact hS.bind (hnote _ _) fun _ => hS.bind (hundo _ _) fun _ _ => of_eq rfl

theorem dropGroup (id : Handle) :
    (Orchestrator.dropGroup id : Effect σ Unit).Keeps (Run.Spares p) := by
  have hbind : ∀ {α β : Type} {x : Effect σ α} {f : α → Effect σ β}, x.Keeps (Run.Spares p) →
      (∀ a, (f a).Keeps (Run.Spares p)) → (x >>= f).Keeps (Run.Spares p) :=
    fun hx hf r => (hx r).trans (hf _ _)
  have hcount : ∀ f, (Effect.count f : Effect σ Unit).Keeps (Run.Spares p) := fun _ _ => of_eq rfl
  refine hbind (fun _ => of_eq rfl) fun r => ?_
  cases r.cache.groups.delete id with
  | ok _ => exact hbind (fun _ => of_eq rfl) fun _ => hcount _
  | error e =>
    exact hbind (fun r => emit r rfl) fun _ => hbind (fun r => emit r rfl) fun _ => hcount _

end Run.Spares

/-! Taking back a new group -/

/-- What an undo call adds to a trace. -/
structure Undone (c : Call) (failed : Bool) (events : List Event) : Prop where
  audits : auditsOf events = []
  rolledBack : rolledBack events = c.removesGroup
  failures : failedRemovals events = if c.dismantles && failed then 1 else 0

theorem Effect.run_undo (hw : Hardware σ) (d : DeviceId) (what context : String) (c : Call)
    (r : Run σ) :
    let failure := failure? (hw.call d c r.state).1.result
    ∃ line, (undo hw d what context c).run r = (failure.isSome,
      ⟨(hw.call d c r.state).2, r.cache, r.events ++ (hw.call d c r.state).1.notes.map .log ++
        [.call d c true failure] ++ [.log line]⟩) := by
  have hcall : (call hw d true c).run r = ((hw.call d c r.state).1.result,
      ⟨(hw.call d c r.state).2, r.cache, r.events ++ (hw.call d c r.state).1.notes.map .log ++
        [.call d c true (failure? (hw.call d c r.state).1.result)]⟩) := rfl
  unfold undo
  rw [StateT.run_bind, hcall]
  cases (hw.call d c r.state).1.result with
  | ok _ => exact ⟨_, rfl⟩
  | error e => exact ⟨_, rfl⟩

theorem Effect.undo_ends (hw : Hardware σ) (d : DeviceId) (what context : String) (c : Call)
    (r : Run σ) :
    (undo hw d what context c).Ends r fun failed r' =>
      ∃ events, r'.events = r.events ++ events ∧ Undone c failed events := by
  obtain ⟨line, hrun⟩ := run_undo hw d what context c r
  unfold Ends
  rw [hrun]
  have hspares := fun p => Event.spares_logs p (hw.call d c r.state).1.notes
  refine ⟨_, (List.append_assoc _ _ _).trans (List.append_assoc _ _ _), ?_, ?_, ?_⟩
  · rw [auditsOf_append, auditsOf_of_spares (hspares Call.dismantles)]
    rfl
  · rw [rolledBack_append, rolledBack_of_spares (hspares _)]
    simp [Multicast.rolledBack]
  · rw [failedRemovals_append, failedRemovals_of_spares (hspares _)]
    cases failure? (hw.call d c r.state).1.result <;> cases hc : c.dismantles <;>
      simp [failedRemovals, hc]

namespace Orchestrator

theorem undoMade_ends (o : Orchestrator σ) (d : DeviceId) (what context : String) (h : Handle)
    {c : Call} (hc : c.removesGroup = false) (r : Run σ) :
    (o.undoMade d what context h c).Ends r fun failed r' =>
      ∃ events, r'.events = r.events ++ events ∧ Undone c failed events := by
  unfold undoMade
  split
  · exact ⟨[], (List.append_nil _).symm, rfl, hc.symm, by simp [failedRemovals]⟩
  · exact Effect.undo_ends _ _ _ _ _ _

/-- The run has taken a new group back, and recorded that if there is a `trail`. -/
def TakesBack (trail : Bool) (r r' : Run σ) : Prop :=
  ∃ draft events, r'.events = r.events ++ events ∧ rolledBack events = true ∧
    auditsOf events = if trail then [rollbackRecord draft (failedRemovals events)] else []

theorem rollBack_takesBack (o : Orchestrator σ) (d : DeviceId) (draft : Draft) (r : Run σ) :
    (o.rollBack d draft).Ends r fun _ r' => TakesBack o.config.audit r r' := by
  refine (o.undoMade_ends d _ _ _ rfl r).bind ?_
  rintro rpf r₁ ⟨l₁, hl₁, h₁⟩
  refine (o.undoMade_ends d _ _ _ rfl r₁).bind ?_
  rintro ipmc r₂ ⟨l₂, hl₂, h₂⟩
  refine (Effect.undo_ends o.hardware d _ _ (.removeGroup draft.group) r₂).bind ?_
  rintro group r₃ ⟨l₃, hl₃, h₃⟩
  have hevents : r₃.events = r.events ++ (l₁ ++ l₂ ++ l₃) := by
    rw [hl₃, hl₂, hl₁]
    simp only [List.append_assoc]
  have hback : rolledBack (l₁ ++ l₂ ++ l₃) = true := by
    rw [rolledBack_append, h₃.rolledBack]
    simp [Call.removesGroup]
  have haudits : auditsOf (l₁ ++ l₂ ++ l₃) = [] := by
    simp [auditsOf_append, h₁.audits, h₂.audits, h₃.audits]
  have hfailed : failedRemovals (l₁ ++ l₂ ++ l₃) = [rpf, ipmc, group].count true := by
    rw [failedRemovals_append, failedRemovals_append, h₁.failures, h₂.failures, h₃.failures]
    cases rpf <;> cases ipmc <;> cases group <;> rfl
  refine Effect.Ends.bind (P := fun _ r' => r'.events = r₃.events) rfl fun _ r₄ hr₄ => ?_
  split
  · next htrail =>
    let record := rollbackRecord draft ([rpf, ipmc, group].count true)
    refine ⟨draft, l₁ ++ l₂ ++ l₃ ++ [.audit record], ?_, ?_, ?_⟩
    · change r₄.events ++ [_] = _
      rw [hr₄, hevents, List.append_assoc]
    · rw [rolledBack_append, hback]
      rfl
    · rw [auditsOf_append, haudits, failedRemovals_append, hfailed, htrail]
      rfl
  · next htrail =>
    refine ⟨draft, l₁ ++ l₂ ++ l₃, hr₄.trans hevents, hback, ?_⟩
    rw [haudits, if_neg htrail]

theorem TakesBack.after {trail : Bool} {r r' r'' : Run σ} (h : TakesBack trail r' r'')
    (hr : r.Spares Call.dismantles r') : TakesBack trail r r'' := by
  obtain ⟨l, hl, hall⟩ := hr
  obtain ⟨draft, events, hevents, hback, haudits⟩ := h
  refine ⟨draft, l ++ events, by rw [hevents, hl, List.append_assoc], ?_, ?_⟩
  · rw [rolledBack_append, hback, Bool.or_true]
  · rw [auditsOf_append, auditsOf_of_spares hall, failedRemovals_append,
      failedRemovals_of_spares hall, haudits, Nat.zero_add]
    rfl

/-- The last step is the rollback of a new group, up to which the run is related to `r`. -/
def RollsBack (o : Orchestrator σ) (d : DeviceId) (S : Run σ → Run σ → Prop) (r r' : Run σ) :
    Prop :=
  ∃ draft r₁, S r r₁ ∧ r' = ((o.rollBack d draft).run r₁).2

end Orchestrator

/-- A relation that allows what a create does up to its rollback or its egress members. -/
structure BuildFrame (o : Orchestrator σ) (d : DeviceId) (S : Run σ → Run σ → Prop) : Prop
    extends LookupFrame o.hardware d S where
  log : ∀ r line, S r { r with events := r.events ++ [.log line] }
  request : ∀ c, (Act.request o.hardware d c).Keeps S
  count : ∀ r (f : Stats → Stats), (∀ s, (f s).rollbacks = s.rollbacks) →
    S r { r with cache := { r.cache with stats := f r.cache.stats } }
  commitGroup : ∀ owner draft, (Orchestrator.commitGroup owner draft).Keeps S
  addIngress : ∀ id spec, (o.addMember d id .rpf spec).Keeps S
  dropGroup : ∀ id, (Orchestrator.dropGroup id).Keeps S

namespace BuildFrame

variable {o : Orchestrator σ} {d : DeviceId} {S : Run σ → Run σ → Prop}

theorem note (hS : BuildFrame o d S) (level : Log.Level) (message : String) :
    (Effect.note level message).Keeps S :=
  fun r => hS.log r _

theorem act_count (hS : BuildFrame o d S) (f : Stats → Stats)
    (hf : ∀ s, (f s).rollbacks = s.rollbacks) : (Act.count f).Keeps S :=
  hS.act_lift fun r => hS.count r f hf

theorem rollsBack_after (hS : BuildFrame o d S) {r r' r'' : Run σ} (h : S r r')
    (h' : o.RollsBack d S r' r'') : o.RollsBack d S r r'' := by
  obtain ⟨draft, r₁, hr₁, hr''⟩ := h'
  exact ⟨draft, r₁, hS.trans h hr₁, hr''⟩

/-- A step that rolls back when it fails. -/
theorem orRollBack (hS : BuildFrame o d S) {x : Act σ α} (hx : x.Keeps S)
    {cleanUp : OpError → Effect σ Unit} (hc : ∀ e, (cleanUp e).Keeps S)
    (draft : Orchestrator.Draft) (r : Run σ) :
    (x.orCleanUp fun e => do
      cleanUp e
      o.rollBack d draft).Ends r (fun _ r' => S r r') fun _ r' => o.RollsBack d S r r' :=
  (hx.ends r).orCleanUp fun e r₁ hr₁ => Effect.Ends.bind (P := fun _ r' => S r₁ r') (hc e r₁)
    fun _ r₂ hr₂ => ⟨draft, r₂, hS.trans hr₁ hr₂, rfl⟩

/-- A create that fails ends with a rollback, or has nothing to roll back. -/
theorem buildGroup_ends (hS : BuildFrame o d S) (owner : Owner) (needed : Bool) (r : Run σ) :
    (o.buildGroup d owner needed).Ends r (fun _ r' => S r r')
      fun _ r' => S r r' ∨ o.RollsBack d S r r' := by
  have hbuild : ∀ role what draft r, (o.buildSubGroup d role what draft).Ends r
      (fun _ r' => S r r') fun _ r' => o.RollsBack d S r r' :=
    fun role what draft r => hS.orRollBack (hS.request _) (fun _ => hS.note _ _) draft r
  refine ((hS.request _).ends r).bind ?_ fun _ _ h => .inl h
  intro group r₁ hr₁
  refine Act.Ends.bind (P := fun _ r' => S r r') (F := fun _ r' => o.RollsBack d S r r') ?_ ?_
    fun _ _ h => .inr h
  · split
    · exact (hbuild _ _ _ r₁).mono (fun _ _ h => hS.trans hr₁ h) fun _ _ => hS.rollsBack_after hr₁
    · exact hr₁
  · intro ipmc r₂ hr₂
    exact (hbuild _ _ _ r₂).bind (fun _ _ h => hS.trans hr₂ h)
      fun _ _ h => .inr (hS.rollsBack_after hr₂ h)

/-- From its ingress member on, a create keeps what the adding of egress members keeps. -/
theorem makeGroup_ends (hS : BuildFrame o d S) {G : Run σ → Run σ → Prop}
    (hG : LookupFrame o.hardware d G) (hSG : ∀ {r r'}, S r r' → G r r')
    (hegress : ∀ id specs, (o.addEgressMembers d id specs).Keeps G) (owner : Owner)
    (rpf : MemberSpec) (ipmc : List MemberSpec) (r : Run σ) :
    (o.makeGroup d owner rpf ipmc).Ends r (fun _ r' => G r r')
      fun _ r' => G r r' ∨ o.RollsBack d S r r' := by
  refine Act.Ends.cache ?_
  split
  · exact .inl (hG.refl r)
  refine ((hS.act_lookup _).ends r).bind ?_ fun _ _ h => .inl (hSG h)
  intro _ r₁ hr₁
  refine ((hS.act_lookupPorts _).ends r₁).bind ?_ fun _ _ h => .inl (hSG (hS.trans hr₁ h))
  intro _ r₂ hr₂
  have hr₂ := hS.trans hr₁ hr₂
  refine (hS.buildGroup_ends owner _ r₂).bind ?_ ?_
  rotate_left
  · exact fun _ _ h => h.imp (fun h => hSG (hS.trans hr₂ h)) fun h => hS.rollsBack_after hr₂ h
  intro draft r₃ hr₃
  have hr₃ := hS.trans hr₂ hr₃
  refine (hS.orRollBack (hS.commitGroup owner draft) (fun _ => hS.note _ _) draft r₃).bind ?_
    fun _ _ h => .inr (hS.rollsBack_after hr₃ h)
  intro _ r₄ hr₄
  refine ((hS.act_count _ ?_).ends r₄).bind ?_
    fun _ _ h => .inl (hSG (hS.trans (hS.trans hr₃ hr₄) h))
  · exact fun _ => rfl
  intro _ r₅ hr₅
  have hr₅ := hS.trans (hS.trans hr₃ hr₄) hr₅
  have hingress := hS.orRollBack (hS.addIngress draft.group rpf) (fun e => hS.bind
    (hS.note .error ("failed to add RPF member rif " ++ rpf.rif.text ++ " to " ++
      draft.group.text ++ ": " ++ e.message)) fun _ => hS.dropGroup draft.group) draft r₅
  refine hingress.bind ?_ fun _ _ h => .inr (hS.rollsBack_after hr₅ h)
  intro _ r₆ hr₆
  have hcount := hS.act_count (fun s => { s with membersAdded := s.membersAdded + 1 }) fun _ => rfl
  have hnote : ∀ level message, (Act.note level message).Keeps G :=
    fun level message r => hSG (hS.act_lift (hS.note level message) r)
  have hr₆ := hSG (hS.trans hr₅ hr₆)
  exact Act.Ends.mono (Act.Keeps.ends (hG.act_bind (fun r => hSG (hcount r)) fun _ =>
    hG.act_bind (hG.act_lift (hegress _ _)) fun _ => hG.act_bind hG.cache fun _ =>
    hG.act_bind (hnote _ _) fun _ => hG.act_pure _) r₆) (fun _ _ h => hG.trans hr₆ h)
    fun _ _ h => .inl (hG.trans hr₆ h)

end BuildFrame

theorem Run.Spares.buildFrame (o : Orchestrator σ) (d : DeviceId) :
    BuildFrame o d (Run.Spares Call.dismantles) where
  toLookupFrame := lookupFrame _ o.hardware d
  log r _ := emit r rfl
  request c := Run.Spares.request _ _ _ c
  count _ _ _ := of_eq rfl
  commitGroup _ _ := changeCache _ o.hardware d _
  addIngress id spec := addMember_rpf o d id spec
  dropGroup id := Run.Spares.dropGroup id

namespace Orchestrator

theorem RollsBack.takesBack {o : Orchestrator σ} {d : DeviceId} {r r' : Run σ}
    (h : o.RollsBack d (Run.Spares Call.dismantles) r r') : TakesBack o.config.audit r r' := by
  obtain ⟨draft, r₁, hr₁, rfl⟩ := h
  exact TakesBack.after (o.rollBack_takesBack d draft r₁) hr₁

/-- A create that fails has taken back what it made, or has made nothing. -/
theorem makeGroup_takesBack (o : Orchestrator σ) (d : DeviceId) (owner : Owner)
    (rpf : MemberSpec) (ipmc : List MemberSpec) (r : Run σ) :
    (o.makeGroup d owner rpf ipmc).Ends r (fun _ r' => r.Spares Call.removesGroup r')
      fun _ r' => r.Spares Call.removesGroup r' ∨ TakesBack o.config.audit r r' := by
  have hF := Run.Spares.frame (σ := σ) o.hardware d
  have hends := (Run.Spares.buildFrame o d).makeGroup_ends hF.toLookupFrame
    (fun h => h.mono fun c hc => by cases c <;> first | rfl | cases hc)
    (fun id specs => hF.addEgressMembers id specs) owner rpf ipmc r
  exact hends.mono (fun _ _ h => h) fun _ _ h => h.imp_right RollsBack.takesBack

end Orchestrator

end Multicast
