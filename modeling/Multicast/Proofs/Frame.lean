import Multicast.Orchestrator
import Multicast.Proofs.Triple

/-! Relations between runs that the steps of an operation respect. What holds of one call, one
look-up and one change of the cache then holds of a whole operation. -/
namespace Multicast

variable {σ α β : Type} {S : Run σ → Run σ → Prop}

/-- Whatever the step starts from, it ends in a run related to it. -/
def Effect.Keeps (S : Run σ → Run σ → Prop) (x : Effect σ α) : Prop := ∀ r, S r (x.run r).2

def Act.Keeps (S : Run σ → Run σ → Prop) (x : Act σ α) : Prop := Effect.Keeps S x.run

/-- A relation that allows look-ups. -/
structure LookupFrame (hw : Hardware σ) (d : DeviceId) (S : Run σ → Run σ → Prop) : Prop where
  refl : ∀ r, S r r
  trans : ∀ {r r' r''}, S r r' → S r' r'' → S r r''
  lookup : ∀ r l, S r { r with state := (hw.lookup d l r.state).2 }

/-- A relation that allows what cleaning up takes, too: log lines and undo calls that leave groups
alone. -/
structure UndoFrame (hw : Hardware σ) (d : DeviceId) (S : Run σ → Run σ → Prop) : Prop
    extends LookupFrame hw d S where
  log : ∀ r line, S r { r with events := r.events ++ [.log line] }
  undoCall : ∀ r c, (∀ h, c ≠ .removeGroup h) → S r ((Effect.call hw d true c).run r).2

/-- A relation that allows what only the rollback of a group does. -/
structure RollBackFrame (hw : Hardware σ) (d : DeviceId) (S : Run σ → Run σ → Prop) : Prop where
  undoGroup : ∀ r h, S r ((Effect.call hw d true (.removeGroup h)).run r).2
  audit : ∀ r record, S r { r with events := r.events ++ [.audit record] }

/-- A relation that allows all calls. -/
structure Frame (hw : Hardware σ) (d : DeviceId) (S : Run σ → Run σ → Prop) : Prop
    extends UndoFrame hw d S where
  neededCall : ∀ r c, S r ((Effect.call hw d false c).run r).2

/-- A relation that allows counters, too. -/
structure CountingFrame (hw : Hardware σ) (d : DeviceId) (S : Run σ → Run σ → Prop) : Prop
    extends Frame hw d S where
  count : ∀ r (f : Stats → Stats), S r { r with cache := { r.cache with stats := f r.cache.stats } }

theorem Act.Keeps.ends {x : Act σ α} (h : x.Keeps S) (r : Run σ) :
    x.Ends r (fun _ r' => S r r') fun _ r' => S r r' := by
  unfold Act.Ends Effect.Ends
  have := h r
  cases (x.run.run r).1 <;> exact this

namespace LookupFrame

variable {hw : Hardware σ} {d : DeviceId} (hS : LookupFrame hw d S)
include hS

/-! Steps that cannot fail -/

theorem pure (a : α) : Effect.Keeps S (Pure.pure a) := fun r => hS.refl r

theorem bind {x : Effect σ α} {f : α → Effect σ β} (hx : x.Keeps S) (hf : ∀ a, (f a).Keeps S) :
    (x >>= f).Keeps S :=
  fun r => hS.trans (hx r) (hf _ _)

theorem forM {γ : Type} {f : γ → Effect σ PUnit} (hf : ∀ a, (f a).Keeps S) (l : List γ) :
    Effect.Keeps S (l.forM f) := by
  induction l with
  | nil => exact hS.pure _
  | cons a rest ih => exact hS.bind (hf a) fun _ => ih

/-! Steps that may fail -/

theorem act_pure (a : α) : Act.Keeps S (Pure.pure a) := hS.pure _

theorem act_throw (e : OpError) : Act.Keeps S (throw e : Act σ α) := hS.pure _

theorem act_lift {x : Effect σ α} (hx : x.Keeps S) : Act.Keeps S (ExceptT.lift x) :=
  hS.bind hx fun _ => hS.pure _

theorem act_bind {x : Act σ α} {f : α → Act σ β} (hx : x.Keeps S) (hf : ∀ a, (f a).Keeps S) :
    (x >>= f).Keeps S := by
  change Effect.Keeps S (x.run >>= ExceptT.bindCont f)
  refine hS.bind hx fun result => ?_
  cases result with
  | ok a => exact hf a
  | error e => exact hS.pure _

theorem orCleanUp {x : Act σ α} {cleanUp : OpError → Effect σ Unit} (hx : x.Keeps S)
    (hc : ∀ e, (cleanUp e).Keeps S) : (x.orCleanUp cleanUp).Keeps S := by
  unfold Act.orCleanUp
  simp only [tryCatch, tryCatchThe, MonadExceptOf.tryCatch, ExceptT.tryCatch]
  change Effect.Keeps S (x.run >>= fun _ => _)
  refine hS.bind hx fun result => ?_
  cases result with
  | ok a => exact hS.pure _
  | error e => exact hS.act_bind (hS.act_lift (hc e)) fun _ => hS.act_throw e

theorem cache : Act.cache.Keeps S := fun r => hS.refl r

theorem ofCache (x : Except CacheError α) : (Act.ofCache x).Keeps S := by
  cases x with
  | ok a => exact hS.act_pure a
  | error e => exact hS.act_throw _

theorem act_call_of {undo : Bool} {c : Call}
    (hcall : ∀ r, S r ((Effect.call hw d undo c).run r).2) : (Act.call hw d undo c).Keeps S := by
  refine hS.act_bind (hS.act_lift hcall) fun result => ?_
  cases result with
  | ok a => exact hS.act_pure a
  | error e => exact hS.act_throw _

theorem act_lookup (l : Lookup) : (Act.lookup hw d l).Keeps S := by
  refine hS.act_bind (fun r => hS.lookup r l) fun found => ?_
  cases found with
  | some h => exact hS.act_pure h
  | none => exact hS.act_throw _

theorem lookups (ports : List Port) (r : Run σ) :
    S r { r with state := (hw.lookupPorts d ports r.state).2 } := by
  induction ports generalizing r with
  | nil => exact hS.refl r
  | cons p rest ih =>
    have hfirst := hS.lookup r (.port p)
    have hrest := ih { r with state := (hw.lookup d (.port p) r.state).2 }
    rw [Hardware.lookupPorts]
    rcases hp : hw.lookup d (.port p) r.state with ⟨_ | h, s⟩
    · rw [hp] at hfirst
      exact hfirst
    · rw [hp] at hfirst hrest
      dsimp only at hrest ⊢
      rcases hl : hw.lookupPorts d rest s with ⟨_ | l, s'⟩ <;>
        · rw [hl] at hrest
          exact hS.trans hfirst hrest

theorem act_lookupPorts (ports : List Port) :
    (Act.lookupPorts hw d ports).Keeps S := by
  refine hS.act_bind (fun r => hS.lookups ports r) fun found => ?_
  cases found with
  | ok l => exact hS.act_pure l
  | error l => exact hS.act_throw _

theorem entryOf (key : RouteKey) : (Act.entryOf hw d key).Keeps S :=
  hS.act_bind (hS.act_lookup _) fun _ => hS.act_pure _

theorem usableGroup (id : Handle) : (Act.usableGroup id).Keeps S := by
  refine hS.act_bind hS.cache fun _ => hS.act_bind (hS.ofCache _) fun g => ?_
  split
  · exact hS.act_pure g
  · exact hS.act_throw _

end LookupFrame

/-! Parts of operations that leave the groups and routes of the cache alone -/

namespace UndoFrame

variable {hw : Hardware σ} {d : DeviceId} {o : Orchestrator σ}

theorem note (hS : UndoFrame hw d S) (level : Log.Level) (message : String) :
    (Effect.note level message).Keeps S :=
  fun r => hS.log r _

theorem act_note (hS : UndoFrame hw d S) (level : Log.Level) (message : String) :
    (Act.note level message).Keeps S :=
  hS.note _ _

theorem undo_of_call (hS : UndoFrame hw d S) (what context : String) {c : Call}
    (hcall : ∀ r, S r ((Effect.call hw d true c).run r).2) :
    (Effect.undo hw d what context c).Keeps S := by
  refine hS.bind hcall fun result => ?_
  cases result with
  | ok _ => exact hS.bind (hS.note _ _) fun _ => hS.pure _
  | error _ => exact hS.bind (hS.note _ _) fun _ => hS.pure _

theorem undo (hS : UndoFrame hw d S) (what context : String) {c : Call}
    (hc : ∀ h, c ≠ .removeGroup h) : (Effect.undo hw d what context c).Keeps S :=
  hS.undo_of_call what context fun r => hS.undoCall r c hc

theorem undoMember (hS : UndoFrame o.hardware d S) (context : String) (role : Role)
    (member : Handle) : (o.undoMember d context role member).Keeps S :=
  hS.undo _ _ nofun

theorem undoEgressGroup (hS : UndoFrame o.hardware d S) (context : String) (subGroup : Handle) :
    (o.undoEgressGroup d context subGroup).Keeps S :=
  hS.undo _ _ nofun

theorem repoint_of_call (hS : UndoFrame o.hardware d S) {undo : Bool}
    (hcall : ∀ r e a, S r ((Effect.call o.hardware d undo (.setEntry e a)).run r).2)
    (subGroup : Handle) (visited : List Entry) (keys : List RouteKey) :
    (o.repoint d undo subGroup visited keys).Keeps S := by
  induction keys generalizing visited with
  | nil => exact hS.act_pure _
  | cons key rest ih =>
    rw [Orchestrator.repoint]
    refine hS.act_bind (hS.orCleanUp ?_ fun _ => ?_) fun _ => ih _
    · refine hS.act_bind (hS.entryOf key) fun _ => ?_
      exact hS.act_bind (hS.act_call_of fun r => hcall r _ _) fun _ => hS.act_pure _
    · exact hS.forM (fun _ => hS.undo _ _ (by nofun)) visited

theorem undoMade (hS : UndoFrame o.hardware d S) (what context : String) (h : Handle) {c : Call}
    (hc : ∀ h, c ≠ .removeGroup h) : (o.undoMade d what context h c).Keeps S := by
  unfold Orchestrator.undoMade
  split
  · exact hS.pure _
  · exact hS.undo _ _ hc

theorem rollBack (hS : UndoFrame o.hardware d S) (hR : RollBackFrame o.hardware d S)
    (hcount : Effect.countRollback.Keeps S) (draft : Orchestrator.Draft) :
    (o.rollBack d draft).Keeps S := by
  refine hS.bind (hS.undoMade _ _ _ nofun) fun _ => hS.bind (hS.undoMade _ _ _ nofun) fun _ =>
    hS.bind (hS.undo_of_call _ _ fun r => hR.undoGroup r _) fun _ => hS.bind hcount fun _ => ?_
  split
  · exact fun r => hR.audit r _
  · exact hS.pure _

theorem compareAttrs (hS : UndoFrame hw d S) (key : RouteKey) (found wanted : List EntryAttr) :
    (Orchestrator.compareAttrs key found wanted).Keeps S := by
  induction wanted with
  | nil => exact hS.pure _
  | cons a rest ih =>
    rw [Orchestrator.compareAttrs]
    split
    · exact hS.bind (hS.note _ _) fun _ => hS.bind ih fun _ => hS.pure _
    · exact hS.bind ih fun _ => hS.pure _

end UndoFrame

namespace Frame

variable {hw : Hardware σ} {d : DeviceId} {o : Orchestrator σ}

theorem request (hS : Frame hw d S) (c : Call) : (Act.request hw d c).Keeps S :=
  hS.act_call_of fun r => hS.neededCall r c

theorem createMember (hS : Frame o.hardware d S) (role : Role) (subGroup rif : Handle)
    (ports : List Handle) : (o.createMember d role subGroup rif ports).Keeps S :=
  hS.request _

theorem repoint (hS : Frame o.hardware d S) (undo : Bool) (subGroup : Handle)
    (visited : List Entry) (keys : List RouteKey) :
    (o.repoint d undo subGroup visited keys).Keeps S := by
  refine hS.repoint_of_call (fun r e a => ?_) subGroup visited keys
  cases undo with
  | true => exact hS.undoCall r _ nofun
  | false => exact hS.neededCall r _

theorem checkRoute (hS : Frame o.hardware d S) (key : RouteKey) :
    (o.checkRoute d key).Keeps S := by
  refine hS.act_bind hS.cache fun _ => hS.act_bind (hS.ofCache _) fun _ =>
    hS.act_bind (hS.ofCache _) fun _ => hS.act_bind (hS.act_lookup _) fun _ =>
    hS.act_bind (hS.entryOf _) fun _ => hS.act_bind (hS.request _) fun _ => ?_
  exact hS.act_bind (hS.act_lift (hS.compareAttrs key _ _)) fun _ => hS.act_pure _

end Frame

namespace CountingFrame

variable {hw : Hardware σ} {d : DeviceId} {o : Orchestrator σ}

theorem counts (hS : CountingFrame hw d S) (f : Stats → Stats) : (Effect.count f).Keeps S :=
  fun r => hS.count r f

theorem countRollback (hS : CountingFrame hw d S) : Effect.countRollback.Keeps S :=
  hS.counts _

theorem buildSubGroup (hS : CountingFrame o.hardware d S) (hR : RollBackFrame o.hardware d S)
    (role : Role) (what : String) (draft : Orchestrator.Draft) :
    (o.buildSubGroup d role what draft).Keeps S :=
  hS.orCleanUp (hS.request _) fun _ =>
    hS.bind (hS.note _ _) fun _ => hS.rollBack hR hS.countRollback draft

theorem buildGroup (hS : CountingFrame o.hardware d S) (hR : RollBackFrame o.hardware d S)
    (owner : Owner) (needed : Bool) : (o.buildGroup d owner needed).Keeps S := by
  refine hS.act_bind (hS.request _) fun _ => hS.act_bind ?_ fun _ =>
    hS.act_bind (hS.buildSubGroup hR _ _ _) fun _ => hS.act_pure _
  split
  · exact hS.buildSubGroup hR _ _ _
  · exact hS.act_pure _

theorem writeAttrs (hS : CountingFrame o.hardware d S) (key : RouteKey) (entry : Entry)
    (replaced : List EntryAttr) (changes : List (EntryAttr × EntryAttr)) :
    (o.writeAttrs d key entry replaced changes).Keeps S := by
  induction changes generalizing replaced with
  | nil => exact hS.act_pure _
  | cons change rest ih =>
    rw [Orchestrator.writeAttrs]
    refine hS.act_bind (hS.orCleanUp (hS.request _) fun _ => ?_) fun _ => ih _
    refine hS.bind (hS.forM (fun _ => hS.undo _ _ (by nofun)) replaced) fun _ => ?_
    split
    · exact hS.countRollback
    · exact hS.pure _

theorem writeChanges (hS : CountingFrame o.hardware d S) (key : RouteKey)
    (changes : List (EntryAttr × EntryAttr)) :
    Act.Keeps S (if changes.isEmpty then pure ()
      else do
        let entry ← Act.entryOf o.hardware d key
        o.writeAttrs d key entry [] changes : Act σ Unit) := by
  split
  · exact hS.act_pure _
  · exact hS.act_bind (hS.entryOf _) fun _ => hS.writeAttrs _ _ _ _

end CountingFrame

/-- A relation that allows all that an operation does, changes of groups and routes included. -/
structure CommitFrame (hw : Hardware σ) (d : DeviceId) (S : Run σ → Run σ → Prop) : Prop
    extends CountingFrame hw d S where
  commit : ∀ r c, S r { r with cache := c }
  refusal : ∀ r e, S r { r with events := r.events ++ [.refusal e] }

/-- A relation between states of the hardware, which says nothing of the cache. -/
theorem CommitFrame.ofState {hw : Hardware σ} {d : DeviceId} {R : σ → σ → Prop}
    (refl : ∀ s, R s s) (trans : ∀ {s s' s''}, R s s' → R s' s'' → R s s'')
    (call : ∀ s c, R s (hw.call d c s).2) (lookup : ∀ s l, R s (hw.lookup d l s).2) :
    CommitFrame hw d fun r r' => R r.state r'.state where
  refl := fun r => refl r.state
  trans := trans
  lookup := fun r l => lookup r.state l
  log := fun r _ => refl r.state
  undoCall := fun r c _ => call r.state c
  neededCall := fun r c => call r.state c
  count := fun r _ => refl r.state
  commit := fun r _ => refl r.state
  refusal := fun r _ => refl r.state

/-- The hardware does not know which calls are undo calls. -/
theorem RollBackFrame.ofState {hw : Hardware σ} {d : DeviceId} {R : σ → σ → Prop}
    (hS : Frame hw d fun r r' => R r.state r'.state) :
    RollBackFrame hw d fun r r' => R r.state r'.state where
  undoGroup := fun r _ => hS.neededCall r _
  audit := fun r _ => hS.refl r

namespace CommitFrame

variable {hw : Hardware σ} {d : DeviceId} {o : Orchestrator σ}

/-! Steps -/

theorem act_count (hS : CommitFrame hw d S) (f : Stats → Stats) : (Act.count f).Keeps S :=
  hS.act_lift (hS.counts f)

theorem changeCache (hS : CommitFrame hw d S) (f : DeviceCache → Except CacheError DeviceCache) :
    (Act.changeCache f).Keeps S := by
  refine hS.act_bind hS.cache fun c => ?_
  cases f c with
  | ok c' => exact hS.act_lift fun r => hS.commit r c'
  | error e => exact hS.act_bind (hS.act_lift fun r => hS.refusal r e) fun _ => hS.act_throw _

/-! Members -/

variable (hS : CommitFrame o.hardware d S)
include hS

theorem commitMember (id : Handle) (role : Role) (m : Member) (madeFor : Option Handle) :
    (Orchestrator.commitMember id role m madeFor).Keeps S :=
  hS.changeCache _

theorem noteRefusal (id : Handle) (role : Role) (rif : RifId) (e : OpError) :
    (Orchestrator.noteRefusal id role rif e).Keeps S :=
  hS.note _ _

theorem addToSubGroup (id : Handle) (role : Role) (subGroup rif : Handle) (ports : List Handle)
    (spec : MemberSpec) : (o.addToSubGroup d id role subGroup rif ports spec).Keeps S := by
  refine hS.act_bind (hS.createMember _ _ _ _) fun member =>
    hS.orCleanUp (hS.commitMember _ _ _ _) fun e => ?_
  exact hS.bind (hS.noteRefusal _ _ _ _) fun _ => hS.bind (hS.undoMember _ _ _) fun _ =>
    hS.countRollback

theorem undoFirstEgress (context : String) (subGroup member : Handle) :
    Effect.Keeps S (do
      o.undoMember d context .ipmc member
      o.undoEgressGroup d context subGroup
      Effect.countRollback) :=
  hS.bind (hS.undoMember _ _ _) fun _ => hS.bind (hS.undoEgressGroup _ _) fun _ => hS.countRollback

theorem addFirstEgress (id : Handle) (routes : List RouteKey) (rif : Handle) (ports : List Handle)
    (spec : MemberSpec) : (o.addFirstEgress d id routes rif ports spec).Keeps S := by
  refine hS.act_bind (hS.request _) fun subGroup => hS.act_bind (hS.act_note _ _) fun _ =>
    hS.act_bind ?_ fun member => hS.act_bind ?_ fun _ => hS.orCleanUp (hS.commitMember _ _ _ _) ?_
  · exact hS.orCleanUp (hS.createMember _ _ _ _) fun _ =>
      hS.bind (hS.undoEgressGroup _ _) fun _ => hS.countRollback
  · exact hS.orCleanUp (hS.repoint _ _ _ _) fun _ => hS.undoFirstEgress _ _ _
  · intro e
    refine hS.bind (hS.noteRefusal _ _ _ _) fun _ => hS.bind (hS.repoint _ _ _ _) fun result => ?_
    cases result with
    | ok _ => exact hS.undoFirstEgress _ _ _
    | error _ => exact hS.bind (hS.note _ _) fun _ => hS.undoFirstEgress _ _ _

theorem addMember (id : Handle) (role : Role) (spec : MemberSpec) :
    (o.addMember d id role spec).Keeps S := by
  refine hS.act_bind (hS.usableGroup _) fun g => hS.act_bind (hS.ofCache _) fun _ =>
    hS.act_bind (hS.act_lookup _) fun rif => hS.act_bind (hS.act_lookupPorts _) fun ports => ?_
  cases role with
  | rpf => exact hS.addToSubGroup _ _ _ _ _ _
  | ipmc =>
    simp only
    split
    · exact hS.addFirstEgress _ _ _ _ _
    · exact hS.addToSubGroup _ _ _ _ _ _

theorem removeMember (id : Handle) (role : Role) (rif : RifId) (member : Handle) :
    (o.removeMember d id role rif member).Keeps S :=
  hS.act_bind (hS.request _) fun _ => hS.act_bind (hS.changeCache _) fun _ => hS.act_count _

theorem removeMembers (id : Handle) (role : Role) (members : List Member) :
    (o.removeMembers d id role members).Keeps S := by
  induction members with
  | nil => exact hS.act_pure _
  | cons m rest ih => exact hS.act_bind (hS.removeMember _ _ _ _) fun _ => ih

theorem changeMember (id : Handle) (op : Orchestrator.MemberOp) (role : Role) (spec : MemberSpec) :
    (o.changeMember d id op role spec).Keeps S := by
  refine hS.act_bind hS.cache fun _ => hS.act_bind (hS.ofCache _) fun g => ?_
  cases op with
  | add =>
    exact hS.act_bind (hS.addMember _ _ _) fun _ => hS.act_bind (hS.act_count _) fun _ =>
      hS.act_note _ _
  | delete =>
    exact hS.act_bind (hS.ofCache _) fun _ => hS.act_bind (hS.removeMember _ _ _ _) fun _ =>
      hS.act_note _ _
  | update =>
    exact hS.act_bind (hS.ofCache _) fun _ => hS.act_bind (hS.act_lookupPorts _) fun _ =>
      hS.act_bind (hS.request _) fun _ => hS.act_bind (hS.changeCache _) fun _ =>
      hS.act_bind (hS.act_count _) fun _ => hS.act_note _ _

/-! Groups -/

theorem dropGroup (id : Handle) : (Orchestrator.dropGroup id).Keeps S := by
  refine hS.bind (fun r => hS.refl r) fun r => ?_
  cases r.cache.groups.delete id with
  | ok x =>
    exact hS.bind (fun r => hS.commit r { r.cache with groups := x.2 }) fun _ => hS.counts _
  | error e =>
    exact hS.bind (fun r => hS.refusal r e) fun _ => hS.bind (hS.note _ _) fun _ => hS.counts _

theorem addEgressMembers (id : Handle) (specs : List MemberSpec) :
    (o.addEgressMembers d id specs).Keeps S := by
  induction specs with
  | nil => exact hS.pure _
  | cons spec rest ih =>
    refine hS.bind (hS.addMember id .ipmc spec) fun result => ?_
    cases result with
    | ok _ => exact hS.bind (hS.counts _) fun _ => ih
    | error _ => exact hS.bind (hS.note _ _) fun _ => hS.bind (hS.counts _) fun _ => ih

theorem makeGroup (hR : RollBackFrame o.hardware d S) (owner : Owner) (rpf : MemberSpec)
    (ipmc : List MemberSpec) : (o.makeGroup d owner rpf ipmc).Keeps S := by
  refine hS.act_bind hS.cache fun c => ?_
  split
  · exact fun r => hS.refl r
  · refine hS.act_bind (hS.act_lookup _) fun _ => hS.act_bind (hS.act_lookupPorts _) fun _ =>
      hS.act_bind (hS.buildGroup hR _ _) fun draft => hS.act_bind ?_ fun _ =>
      hS.act_bind (hS.act_count _) fun _ => hS.act_bind ?_ fun _ =>
      hS.act_bind (hS.act_count _) fun _ => hS.act_bind (hS.act_lift (hS.addEgressMembers _ _))
      fun _ => hS.act_bind hS.cache fun _ => hS.act_bind (hS.act_note _ _) fun _ => hS.act_pure _
    · exact hS.orCleanUp (hS.changeCache _) fun _ =>
        hS.bind (hS.note _ _) fun _ => hS.rollBack hR hS.countRollback draft
    · exact hS.orCleanUp (hS.addMember _ _ _) fun _ => hS.bind (hS.note _ _) fun _ =>
        hS.bind (hS.dropGroup _) fun _ => hS.rollBack hR hS.countRollback draft

theorem removeSubGroup (id : Handle) (role : Role) (subGroup : Handle) :
    (o.removeSubGroup d id role subGroup).Keeps S := by
  unfold Orchestrator.removeSubGroup
  split
  · exact hS.act_bind (hS.request _) fun _ => hS.changeCache _
  · exact hS.act_pure _

theorem unmakeGroup (id : Handle) : (o.unmakeGroup d id).Keeps S := by
  refine hS.act_bind hS.cache fun c => hS.act_bind (hS.ofCache _) fun g => ?_
  split
  · exact fun r => hS.refl r
  · exact hS.act_bind (hS.removeMembers _ _ _) fun _ =>
      hS.act_bind (hS.removeSubGroup _ _ _) fun _ => hS.act_bind (hS.removeMembers _ _ _) fun _ =>
      hS.act_bind (hS.removeSubGroup _ _ _) fun _ => hS.act_bind (hS.request _) fun _ =>
      hS.act_bind (hS.changeCache _) fun _ => hS.act_bind (hS.act_count _) fun _ =>
      hS.act_note _ _

/-! Routes -/

theorem makeRoute (r : Route) : (o.makeRoute d r).Keeps S := by
  unfold Orchestrator.makeRoute
  split
  · exact hS.act_bind hS.cache fun _ => hS.act_bind (hS.ofCache _) fun _ =>
      hS.act_bind (hS.usableGroup _) fun _ => hS.act_bind (hS.entryOf _) fun _ =>
      hS.act_bind (hS.act_lookup _) fun _ => hS.act_bind (hS.request _) fun _ =>
      hS.act_bind (hS.changeCache _) fun _ => hS.act_bind (hS.act_count _) fun _ =>
      hS.act_note _ _
  · exact fun r => hS.refl r

theorem unmakeRoute (key : RouteKey) : (o.unmakeRoute d key).Keeps S :=
  hS.act_bind hS.cache fun _ => hS.act_bind (hS.ofCache _) fun _ =>
    hS.act_bind (hS.entryOf _) fun _ => hS.act_bind (hS.request _) fun _ =>
    hS.act_bind (hS.changeCache _) fun _ => hS.act_bind (hS.act_count _) fun _ => hS.act_note _ _

theorem changeRoute (key : RouteKey) (u : RouteUpdate) : (o.changeRoute d key u).Keeps S := by
  refine hS.act_bind hS.cache fun c => hS.act_bind (hS.ofCache _) fun current =>
    hS.act_bind (hS.ofCache _) fun oldGroup => hS.act_bind (hS.usableGroup _) fun newGroup =>
    hS.act_bind (hS.act_lookup _) fun oldIif => hS.act_bind ?_ fun newIif =>
    hS.act_bind (hS.writeChanges _ _) fun _ => hS.act_bind (hS.changeCache _) fun _ =>
    hS.act_bind (hS.act_count _) fun _ => hS.act_note _ _
  split
  · exact hS.act_pure _
  · exact hS.act_lookup _

end CommitFrame

end Multicast
