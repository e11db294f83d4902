import Multicast.Proofs.Blameless
import Multicast.Proofs.Commit
import Multicast.Proofs.TakingBack

/-! Undo calls in a trace, and the parts of operations that count no rollback: those that take
nothing back, and members that are cached as soon as they are made. -/
namespace Multicast

variable {σ α : Type}

/-! What a trace says of undo calls -/

def Call.removesEgress : Call → Bool
  | .removeSubGroup .ipmc _ => true
  | _ => false

/-- Egress sub-groups that were taken back. -/
def egressUndone (events : List Event) : Nat :=
  events.countP fun
    | .call _ c true _ => c.removesEgress
    | _ => false

/-- Whether anything was taken back. -/
def undoes (events : List Event) : Bool :=
  events.any fun
    | .call _ _ true _ => true
    | _ => false

theorem egressUndone_append (l l' : List Event) :
    egressUndone (l ++ l') = egressUndone l + egressUndone l' :=
  List.countP_append

theorem undoes_append (l l' : List Event) : undoes (l ++ l') = (undoes l || undoes l') :=
  List.any_append

theorem Call.dismantles_of_removesEgress {c : Call} (h : c.removesEgress = true) :
    c.dismantles = true := by
  cases c with
  | removeSubGroup => rfl
  | _ => cases h

theorem egressUndone_of_spares {events : List Event}
    (h : ∀ e ∈ events, e.spares Call.removesEgress = true) : egressUndone events = 0 := by
  refine List.countP_eq_zero.mpr fun e he => ?_
  have he := h e he
  match e with
  | .call _ c true _ => simpa [Event.spares] using he
  | .call _ _ false _ | .log _ | .refusal _ | .audit _ => simp

theorem undoes_of_spares {events : List Event}
    (h : ∀ e ∈ events, e.spares (fun _ => true) = true) : undoes events = false := by
  refine List.any_eq_false.mpr fun e he => ?_
  have he := h e he
  match e with
  | .call _ _ true _ => cases he
  | .call _ _ false _ | .log _ | .refusal _ | .audit _ => simp

/-- What an undo call of `c` leaves of a run: the cache as it was, and itself in the trace. -/
structure Run.Undoes (c : Call) (r r' : Run σ) : Prop where
  cache : r'.cache = r.cache
  trace : ∃ events, r'.events = r.events ++ events ∧
    (∀ p : Call → Bool, p c = false → ∀ e ∈ events, e.spares p = true) ∧
    egressUndone events = c.removesEgress.toNat ∧ undoes events = true

theorem Effect.undo_undoes (hw : Hardware σ) (d : DeviceId) (what context : String) (c : Call)
    (r : Run σ) : (undo hw d what context c).Ends r fun _ r' => r.Undoes c r' := by
  obtain ⟨line, hrun⟩ := run_undo hw d what context c r
  unfold Ends
  rw [hrun]
  refine ⟨rfl, _, (List.append_assoc _ _ _).trans (List.append_assoc _ _ _), fun p hp e he => ?_,
    ?_, ?_⟩
  · rcases List.mem_append.mp he with he | he
    · exact Event.spares_logs _ _ e he
    · rcases List.mem_cons.mp he with rfl | he
      · exact (Bool.not_eq_true' _).mpr hp
      · rw [List.mem_singleton.mp he]
        rfl
  · rw [egressUndone_append, egressUndone_of_spares (Event.spares_logs _ _)]
    cases hc : c.removesEgress <;> simp [egressUndone, hc]
  · rw [undoes_append]
    simp [undoes]

/-! Steps that count no rollback -/

theorem Act.keeps_of_ends {S : Run σ → Run σ → Prop} {x : Act σ α}
    (h : ∀ r, x.Ends r (fun _ r' => S r r') fun _ r' => S r r') : x.Keeps S := by
  intro r
  have h := h r
  unfold Ends Effect.Ends at h
  cases hresult : (x.run.run r).1 <;> rwa [hresult] at h

/-- Since `r` there was no undo call that `p` picks, and no rollback was counted. -/
structure Run.Uncounted (p : Call → Bool) (r r' : Run σ) : Prop where
  spares : r.Spares p r'
  rollbacks : r'.cache.stats.rollbacks = r.cache.stats.rollbacks

namespace Run.Uncounted

variable {p q : Call → Bool} {r r' r'' : Run σ} {hw : Hardware σ} {o : Orchestrator σ}
  {d : DeviceId}

theorem of_eq (hevents : r'.events = r.events) (hcache : r'.cache = r.cache) : r.Uncounted p r' :=
  ⟨.of_eq hevents, by rw [hcache]⟩

theorem trans (h : r.Uncounted p r') (h' : r'.Uncounted p r'') : r.Uncounted p r'' :=
  ⟨h.spares.trans h'.spares, h'.rollbacks.trans h.rollbacks⟩

theorem mono (h : r.Uncounted p r') (hpq : ∀ c, q c = true → p c = true) : r.Uncounted q r' :=
  ⟨h.spares.mono hpq, h.rollbacks⟩

theorem emit (r : Run σ) {e : Event} (he : e.spares p = true) :
    r.Uncounted p { r with events := r.events ++ [e] } :=
  ⟨.emit r he, rfl⟩

theorem call (r : Run σ) {undo : Bool} {c : Call} (hc : undo = true → p c = false) :
    r.Uncounted p ((Effect.call hw d undo c).run r).2 :=
  ⟨.call r hc, rfl⟩

theorem lookupFrame (p : Call → Bool) (hw : Hardware σ) (d : DeviceId) :
    LookupFrame hw d (Run.Uncounted p) where
  refl _ := of_eq rfl rfl
  trans := trans
  lookup _ _ := of_eq rfl rfl

theorem note (level : Log.Level) (message : String) :
    (Effect.note level message : Effect σ Unit).Keeps (Run.Uncounted p) :=
  fun r => emit r rfl

theorem act_note (level : Log.Level) (message : String) :
    (Act.note level message : Act σ Unit).Keeps (Run.Uncounted p) :=
  fun r => emit r rfl

theorem count {f : Stats → Stats} (hf : ∀ s, (f s).rollbacks = s.rollbacks) :
    (Effect.count f : Effect σ Unit).Keeps (Run.Uncounted p) :=
  fun r => ⟨.of_eq rfl, hf r.cache.stats⟩

theorem act_count (f : Stats → Stats) (hf : ∀ s, (f s).rollbacks = s.rollbacks) :
    (Act.count f : Act σ Unit).Keeps (Run.Uncounted p) :=
  fun r => count hf r

theorem request (p : Call → Bool) (hw : Hardware σ) (d : DeviceId) (c : Call) :
    (Act.request hw d c).Keeps (Run.Uncounted p) :=
  (lookupFrame p hw d).act_call_of fun r => call r nofun

theorem undo (hw : Hardware σ) (d : DeviceId) (what context : String) {c : Call}
    (hc : p c = false) : (Effect.undo hw d what context c).Keeps (Run.Uncounted p) := by
  intro r
  obtain ⟨hcache, events, hevents, hall, -⟩ := Effect.undo_undoes hw d what context c r
  exact ⟨⟨events, hevents, hall p hc⟩, by rw [hcache]⟩

/-- Groups and routes may change. -/
theorem changeCache {f : DeviceCache → Except CacheError DeviceCache}
    (hf : ∀ c c', f c = .ok c' → c'.stats = c.stats) :
    (Act.changeCache f : Act σ Unit).Keeps (Run.Uncounted p) := by
  refine Act.keeps_of_ends fun r => Act.ends_changeCache.mpr ⟨fun c hc => ?_, fun e _ => ?_⟩
  · exact ⟨.of_eq rfl, congrArg Stats.rollbacks (hf _ _ hc)⟩
  · exact emit r rfl

theorem changeGroup (id : Handle) (f : Group → Except CacheError Group) :
    (Act.changeGroup id f : Act σ Unit).Keeps (Run.Uncounted p) := by
  refine changeCache fun c c' h => ?_
  obtain ⟨groups, -, h⟩ := Except.bind_eq_ok_iff.mp h
  cases h
  rfl

theorem commitGroup (owner : Owner) (draft : Orchestrator.Draft) :
    (Orchestrator.commitGroup owner draft : Act σ Unit).Keeps (Run.Uncounted p) := by
  refine changeCache fun c c' h => ?_
  obtain ⟨groups, -, h⟩ := Except.bind_eq_ok_iff.mp h
  cases h
  rfl

theorem dropGroup (id : Handle) :
    (Orchestrator.dropGroup id : Effect σ Unit).Keeps (Run.Uncounted p) := by
  intro r
  refine ⟨Run.Spares.dropGroup id r, ?_⟩
  unfold Orchestrator.dropGroup
  rw [StateT.run_bind]
  cases h : r.cache.groups.delete id with
  | ok _ => simp [h]; rfl
  | error e => simp [h]; rfl

end Run.Uncounted

/-! Counters of the cache -/

theorem DeviceCache.stats_removeRoute {c : DeviceCache} {key : RouteKey} {x : Route × DeviceCache}
    (h : c.removeRoute key = .ok x) : x.2.stats = c.stats := by
  rw [removeRoute_eq] at h
  repeat' split at h
  all_goals cases h <;> rfl

theorem DeviceCache.stats_moveRoute {c : DeviceCache} {key : RouteKey} {target : Handle}
    {x : Handle × DeviceCache} (h : c.moveRoute key target = .ok x) : x.2.stats = c.stats := by
  rw [moveRoute_eq] at h
  repeat' split at h
  all_goals cases h <;> rfl

theorem Orchestrator.stats_updateCache {c c' : DeviceCache} {key : RouteKey} {u : RouteUpdate}
    (h : updateCache key u c = .ok c') : c'.stats = c.stats := by
  obtain ⟨c₁, hgroup, h⟩ := Except.bind_eq_ok_iff.mp h
  obtain ⟨c₂, hcopy, h⟩ := Except.bind_eq_ok_iff.mp h
  have h₁ : c₁.stats = c.stats := by
    split at hgroup
    · obtain ⟨x, hx, hgroup⟩ := Except.bind_eq_ok_iff.mp hgroup
      cases hgroup
      exact DeviceCache.stats_moveRoute hx
    · cases hgroup
      rfl
  have h₂ : c₂.stats = c₁.stats := by
    split at hcopy
    · obtain ⟨_, -, hcopy⟩ := Except.bind_eq_ok_iff.mp hcopy
      cases hcopy
      rfl
    · cases hcopy
      rfl
  have h₃ : c'.stats = c₂.stats := by
    split at h
    · obtain ⟨_, -, h⟩ := Except.bind_eq_ok_iff.mp h
      cases h
      rfl
    · cases h
      rfl
  exact h₃.trans (h₂.trans h₁)

/-! Members -/

namespace Orchestrator

variable {o : Orchestrator σ} {d : DeviceId} {p : Call → Bool}

/-- What was checked before the calls is committed, so the member is not taken back. -/
theorem addToSubGroup_uncounted {c : DeviceCache} {id : Handle} {g : Group} {role : Role}
    {spec : MemberSpec} {r : Run σ} (hr : r.Holds c) (hg : c.groups.find? id = some g)
    (hcheck : g.members.checkAdd role spec.rif = .ok ()) (subGroup rif : Handle)
    (ports : List Handle) :
    (o.addToSubGroup d id role subGroup rif ports spec).Ends r (fun _ r' => r.Uncounted p r')
      fun _ r' => r.Uncounted p r' := by
  have hquiet := (quiet_frame o.hardware d).createMember role subGroup rif ports
  refine (((Run.Uncounted.request p _ d _).ends r).and (hquiet.holds hr)).bind ?_
    fun _ _ h => h.1
  rintro member r₁ ⟨hr₁, hholds⟩
  refine Act.Ends.orCleanUp (F := fun _ _ => False) ?_ fun _ _ h => h.elim
  refine ((commitMember_ends (m := .ofSpec member spec) hholds hg hcheck none).and
    ((Run.Uncounted.changeGroup (p := p) id _).ends r₁)).mono (fun _ _ h => ?_) fun _ _ h => h.1
  exact hr₁.trans h.2

/-- Adding a member keeps what both ways of adding one keep. -/
theorem addMember_keeps {S : Run σ → Run σ → Prop} (hS : LookupFrame o.hardware d S)
    (hUS : ∀ {r r'}, r.Uncounted p r' → S r r') {id : Handle} {role : Role}
    {spec : MemberSpec}
    (hfirst : role = .ipmc → ∀ routes rif ports,
      (o.addFirstEgress d id routes rif ports spec).Keeps S) :
    (o.addMember d id role spec).Keeps S := by
  have hq := quiet_frame o.hardware d
  refine Act.keeps_of_ends fun r => Act.Ends.usableGroup (fun g hg _ => ?_) fun _ => hS.refl r
  refine Act.Ends.ofCache (fun _ hcheck => ?_) fun _ => hS.refl r
  have hr : r.Holds r.cache := ⟨rfl, rfl⟩
  refine (((hS.act_lookup _).ends r).and ((hq.act_lookup _).holds hr)).bind ?_ fun _ _ h => h.1
  rintro rif r₁ ⟨hr₁, hholds₁⟩
  refine (((hS.act_lookupPorts _).ends r₁).and ((hq.act_lookupPorts _).holds hholds₁)).bind ?_
    fun _ _ h => hS.trans hr₁ h.1
  rintro ports r₂ ⟨hr₂, hholds₂⟩
  have hr₂ := hS.trans hr₁ hr₂
  have hsub : ∀ subGroup, (o.addToSubGroup d id role subGroup rif ports spec).Ends r₂
      (fun _ r' => S r r') fun _ r' => S r r' := fun subGroup =>
    (addToSubGroup_uncounted hholds₂ hg hcheck subGroup rif ports).mono
      (fun _ _ h => hS.trans hr₂ (hUS h)) fun _ _ h => hS.trans hr₂ (hUS h)
  cases role with
  | rpf => exact hsub g.rpfGroup
  | ipmc =>
    simp only
    split
    · exact ((hfirst rfl _ rif ports).ends r₂).mono (fun _ _ h => hS.trans hr₂ h)
        fun _ _ h => hS.trans hr₂ h
    · exact hsub g.ipmcGroup

theorem removeMember_uncounted (id : Handle) (role : Role) (rif : RifId) (member : Handle) :
    (o.removeMember d id role rif member).Keeps (Run.Uncounted p) := by
  have hS := Run.Uncounted.lookupFrame (σ := σ) p o.hardware d
  exact hS.act_bind (.request p _ _ _) fun _ => hS.act_bind (.changeGroup _ _) fun _ =>
    .act_count _ fun _ => rfl

theorem removeMembers_uncounted (id : Handle) (role : Role) (members : List Member) :
    (o.removeMembers d id role members).Keeps (Run.Uncounted p) := by
  have hS := Run.Uncounted.lookupFrame (σ := σ) p o.hardware d
  induction members with
  | nil => exact hS.act_pure _
  | cons m rest ih => exact hS.act_bind (removeMember_uncounted _ _ _ _) fun _ => ih

/-- Only an egress member that is added may come with an egress sub-group of its own. -/
theorem changeMember_uncounted {op : MemberOp} {role : Role} (h : ¬(op = .add ∧ role = .ipmc))
    (id : Handle) (spec : MemberSpec) :
    (o.changeMember d id op role spec).Keeps (Run.Uncounted p) := by
  have hS := Run.Uncounted.lookupFrame (σ := σ) p o.hardware d
  refine hS.act_bind hS.cache fun _ => hS.act_bind (hS.ofCache _) fun g => ?_
  cases op with
  | add =>
    refine hS.act_bind (addMember_keeps hS (fun h => h) fun hrole => (h ⟨rfl, hrole⟩).elim) fun _ =>
      hS.act_bind (.act_count _ fun _ => rfl) fun _ => .act_note _ _
  | delete =>
    exact hS.act_bind (hS.ofCache _) fun _ => hS.act_bind (removeMember_uncounted _ _ _ _) fun _ =>
      .act_note _ _
  | update =>
    exact hS.act_bind (hS.ofCache _) fun _ => hS.act_bind (hS.act_lookupPorts _) fun _ =>
      hS.act_bind (.request p _ _ _) fun _ => hS.act_bind (.changeGroup _ _) fun _ =>
      hS.act_bind (.act_count _ fun _ => rfl) fun _ => .act_note _ _

/-! Groups and routes -/

theorem removeSubGroup_uncounted (id : Handle) (role : Role) (subGroup : Handle) :
    (o.removeSubGroup d id role subGroup).Keeps (Run.Uncounted p) := by
  have hS := Run.Uncounted.lookupFrame (σ := σ) p o.hardware d
  unfold removeSubGroup
  split
  · exact hS.act_bind (.request p _ _ _) fun _ => .changeGroup _ _
  · exact hS.act_pure _

theorem unmakeGroup_uncounted (id : Handle) :
    (o.unmakeGroup d id).Keeps (Run.Uncounted p) := by
  have hS := Run.Uncounted.lookupFrame (σ := σ) p o.hardware d
  refine hS.act_bind hS.cache fun c => hS.act_bind (hS.ofCache _) fun g => ?_
  split
  · exact hS.act_throw _
  refine hS.act_bind (removeMembers_uncounted _ _ _) fun _ =>
    hS.act_bind (removeSubGroup_uncounted _ _ _) fun _ =>
    hS.act_bind (removeMembers_uncounted _ _ _) fun _ =>
    hS.act_bind (removeSubGroup_uncounted _ _ _) fun _ => hS.act_bind (.request p _ _ _) fun _ =>
    hS.act_bind (.changeCache fun c c' h => ?_) fun _ =>
    hS.act_bind (.act_count _ fun _ => rfl) fun _ => .act_note _ _
  obtain ⟨_, -, h⟩ := Except.bind_eq_ok_iff.mp h
  cases h
  rfl

theorem makeRoute_uncounted (route : Route) :
    (o.makeRoute d route).Keeps (Run.Uncounted p) := by
  have hS := Run.Uncounted.lookupFrame (σ := σ) p o.hardware d
  unfold makeRoute
  split
  · refine hS.act_bind hS.cache fun _ => hS.act_bind (hS.ofCache _) fun _ =>
      hS.act_bind (hS.usableGroup _) fun _ => hS.act_bind (hS.entryOf _) fun _ =>
      hS.act_bind (hS.act_lookup _) fun _ => hS.act_bind (.request p _ _ _) fun _ =>
      hS.act_bind (.changeCache fun c c' h => ?_) fun _ =>
      hS.act_bind (.act_count _ fun _ => rfl) fun _ => .act_note _ _
    obtain ⟨-, g, -, rfl⟩ := DeviceCache.addRoute_eq_ok_iff.mp h
    rfl
  · exact hS.act_throw _

theorem unmakeRoute_uncounted (key : RouteKey) :
    (o.unmakeRoute d key).Keeps (Run.Uncounted p) := by
  have hS := Run.Uncounted.lookupFrame (σ := σ) p o.hardware d
  refine hS.act_bind hS.cache fun _ => hS.act_bind (hS.ofCache _) fun _ =>
    hS.act_bind (hS.entryOf _) fun _ => hS.act_bind (.request p _ _ _) fun _ =>
    hS.act_bind (.changeCache fun c c' h => ?_) fun _ =>
    hS.act_bind (.act_count _ fun _ => rfl) fun _ => .act_note _ _
  obtain ⟨x, hx, h⟩ := Except.bind_eq_ok_iff.mp h
  cases h
  exact DeviceCache.stats_removeRoute hx

/-- Any hardware and device will do, as nothing is called. -/
theorem compareAttrs_uncounted (hw : Hardware σ) (d : DeviceId) (key : RouteKey)
    (found wanted : List EntryAttr) :
    (compareAttrs key found wanted : Effect σ Bool).Keeps (Run.Uncounted p) := by
  have hS := Run.Uncounted.lookupFrame (σ := σ) p hw d
  induction wanted with
  | nil => exact hS.pure _
  | cons a rest ih =>
    rw [compareAttrs]
    split
    · exact hS.bind (.note _ _) fun _ => hS.bind ih fun _ => hS.pure _
    · exact hS.bind ih fun _ => hS.pure _

theorem checkRoute_uncounted (key : RouteKey) :
    (o.checkRoute d key).Keeps (Run.Uncounted p) := by
  have hS := Run.Uncounted.lookupFrame (σ := σ) p o.hardware d
  exact hS.act_bind hS.cache fun _ => hS.act_bind (hS.ofCache _) fun _ =>
    hS.act_bind (hS.ofCache _) fun _ => hS.act_bind (hS.act_lookup _) fun _ =>
    hS.act_bind (hS.entryOf _) fun _ => hS.act_bind (.request p _ _ _) fun _ =>
    hS.act_bind (hS.act_lift (compareAttrs_uncounted o.hardware d key _ _)) fun _ => hS.act_pure _

end Orchestrator

end Multicast
