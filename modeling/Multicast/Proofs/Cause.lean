import Mathlib.Control.Monad.Basic
import Multicast.Proofs.Consistency

/-! The error that the caller sees. When a call that an operation needs fails, only undo calls
follow, and the operation ends in the error of that very call whatever they answer. The one
exception is an egress member of a new group, which is left out. -/
namespace Multicast

variable {σ α β : Type} {hw : Hardware σ} {d : DeviceId}

/-! Needed calls -/

/-- Calls but undo calls, and their errors, in order. -/
def neededCalls (events : List Event) : List (Call × Option HardwareError) :=
  events.filterMap fun
    | .call _ c false failure => some (c, failure)
    | _ => none

theorem neededCalls_append (l l' : List Event) :
    neededCalls (l ++ l') = neededCalls l ++ neededCalls l' :=
  List.filterMap_append

theorem neededCalls_logs (notes : List Log.Line) : neededCalls (notes.map .log) = [] := by
  induction notes with
  | nil => rfl
  | cons note rest ih => exact ih

@[simp] theorem neededCalls_audited (o : Orchestrator σ) (out : Outcome σ α)
    (record : Audit.Record) :
    neededCalls (o.audited out record).events = neededCalls out.events := by
  unfold Orchestrator.audited
  split
  · exact (neededCalls_append _ _).trans (List.append_nil _)
  · rfl

def AllSucceed (calls : List (Call × Option HardwareError)) : Prop := ∀ x ∈ calls, x.2 = none

/-- The error tells how the calls ended: the last one failed, or none did. -/
inductive Reports : List (Call × Option HardwareError) → OpError → Prop where
  | denied {calls : List (Call × Option HardwareError)} {e : OpError} (h : AllSucceed calls)
    (he : ¬e.OfHardware) : Reports calls e
  | failed {calls : List (Call × Option HardwareError)} (h : AllSucceed calls) (c : Call)
    (x : HardwareError) : Reports (calls ++ [(c, some x)]) (.hardware c.kind x)

section

variable {calls calls' : List (Call × Option HardwareError)} {e : OpError}

theorem AllSucceed.append (h : AllSucceed calls) (h' : AllSucceed calls') :
    AllSucceed (calls ++ calls') :=
  fun x hx => (List.mem_append.mp hx).elim (h x) (h' x)

theorem Reports.append (h : AllSucceed calls) (h' : Reports calls' e) :
    Reports (calls ++ calls') e := by
  cases h' with
  | denied h' he => exact .denied (h.append h') he
  | failed h' c x =>
    rw [← List.append_assoc]
    exact .failed (h.append h') c x

/-- The status is that of the call that failed. -/
theorem Reports.status?_eq (h : Reports calls e) :
    e.status? = (calls.getLast?.bind Prod.snd).map HardwareError.toStatus := by
  cases h with
  | denied h he =>
    have hlast : calls.getLast?.bind Prod.snd = none := by
      cases hcalls : calls.getLast? with
      | none => rfl
      | some x => exact h x (List.mem_of_getLast? hcalls)
    cases e with
    | hardware call x => exact (he ⟨call, x, rfl⟩).elim
    | _ => rw [hlast]; rfl
  | failed h c x => simp [OpError.status?]

end

/-! Steps -/

namespace Run

/-- On the way to `r'` no needed call fails. -/
def Succeeds (r r' : Run σ) : Prop :=
  ∃ calls, neededCalls r'.events = neededCalls r.events ++ calls ∧ AllSucceed calls

/-- The error tells how the needed calls ended on the way to `r'`. -/
def Reports (r : Run σ) (e : OpError) (r' : Run σ) : Prop :=
  ∃ calls, neededCalls r'.events = neededCalls r.events ++ calls ∧ Multicast.Reports calls e

/-- No needed call is made. -/
def Silent (r r' : Run σ) : Prop := neededCalls r'.events = neededCalls r.events

variable {r r' r'' : Run σ} {e : OpError}

theorem Silent.succeeds (h : r.Silent r') : r.Succeeds r' :=
  ⟨[], by rw [h, List.append_nil], fun _ hx => nomatch hx⟩

theorem Silent.reports (h : r.Silent r') (he : ¬e.OfHardware) : r.Reports e r' :=
  ⟨[], by rw [h, List.append_nil], .denied (fun _ hx => nomatch hx) he⟩

theorem Succeeds.trans (h : r.Succeeds r') (h' : r'.Succeeds r'') : r.Succeeds r'' := by
  obtain ⟨calls, hcalls, hall⟩ := h
  obtain ⟨calls', hcalls', hall'⟩ := h'
  exact ⟨calls ++ calls', by rw [hcalls', hcalls, List.append_assoc], hall.append hall'⟩

theorem Succeeds.reports (h : r.Succeeds r') (h' : r'.Reports e r'') : r.Reports e r'' := by
  obtain ⟨calls, hcalls, hall⟩ := h
  obtain ⟨calls', hcalls', hreports⟩ := h'
  exact ⟨calls ++ calls', by rw [hcalls', hcalls, List.append_assoc], hreports.append hall⟩

/-- Cleaning up makes undo calls only. -/
theorem Reports.cleanUp (h : r.Reports e r') {x : Effect σ Unit} (hx : x.Keeps Silent) :
    x.Ends r' fun _ r'' => r.Reports e r'' := by
  obtain ⟨calls, hcalls, hreports⟩ := h
  exact ⟨calls, Eq.trans (hx r') hcalls, hreports⟩

end Run

theorem silent_undoCall (hw : Hardware σ) (d : DeviceId) (c : Call) (r : Run σ) :
    r.Silent ((Effect.call hw d true c).run r).2 := by
  have hnotes := neededCalls_logs (hw.call d c r.state).1.notes
  simp only [Run.Silent, Effect.call, StateT.run, neededCalls_append, hnotes, List.append_nil]
  exact List.append_nil _

theorem silent_frame (hw : Hardware σ) (d : DeviceId) : UndoFrame hw d Run.Silent where
  refl _ := rfl
  trans h h' := Eq.trans h' h
  lookup _ _ := rfl
  log _ _ := (neededCalls_append _ _).trans (List.append_nil _)
  undoCall r c _ := silent_undoCall hw d c r

theorem silent_rollBack (hw : Hardware σ) (d : DeviceId) : RollBackFrame hw d Run.Silent where
  undoGroup r h := silent_undoCall hw d (.removeGroup h) r
  audit _ _ := (neededCalls_append _ _).trans (List.append_nil _)

/-- However it ends, the step says how its needed calls ended. -/
def Act.Honest (act : Act σ α) : Prop :=
  ∀ r, act.Ends r (fun _ r' => r.Succeeds r') fun e r' => r.Reports e r'

namespace Act.Honest

theorem pure (a : α) : Honest (Pure.pure a : Act σ α) := fun _ => Run.Silent.succeeds rfl

theorem throw {e : OpError} (he : ¬e.OfHardware) : Honest (MonadExcept.throw e : Act σ α) :=
  fun _ => Run.Silent.reports rfl he

theorem lift {x : Effect σ α} (hx : x.Keeps Run.Silent) : Honest (ExceptT.lift x) :=
  fun r => (hx r).succeeds

theorem bind {x : Act σ α} {f : α → Act σ β} (hx : x.Honest) (hf : ∀ a, (f a).Honest) :
    (x >>= f).Honest :=
  fun r => (hx r).bind
    (fun a r' h => (hf a r').mono (fun _ _ h' => h.trans h') fun _ _ h' => h.reports h')
    fun _ _ h => h

theorem orCleanUp {x : Act σ α} {cleanUp : OpError → Effect σ Unit} (hx : x.Honest)
    (hc : ∀ e, (cleanUp e).Keeps Run.Silent) : (x.orCleanUp cleanUp).Honest :=
  fun r => (hx r).orCleanUp fun e _ h => h.cleanUp (hc e)

theorem request (hw : Hardware σ) (d : DeviceId) (c : Call) : (Act.request hw d c).Honest := by
  intro r
  have hnotes := neededCalls_logs (hw.call d c r.state).1.notes
  rw [Act.request, Act.ends_call, Effect.ends_call]
  cases hresult : (hw.call d c r.state).1.result with
  | ok a =>
    refine ⟨[(c, none)], ?_, by simp [AllSucceed]⟩
    simp only [neededCalls_append, hnotes, List.append_nil]
    rfl
  | error x =>
    have hnone : AllSucceed [] := fun _ hx => nomatch hx
    refine ⟨[(c, some x)], ?_, .failed hnone c x⟩
    simp only [neededCalls_append, hnotes, List.append_nil]
    rfl

theorem lookup (hw : Hardware σ) (d : DeviceId) (l : Lookup) : (Act.lookup hw d l).Honest := by
  intro r
  rw [Act.ends_lookup]
  cases (hw.lookup d l r.state).1 with
  | some h => exact Run.Silent.succeeds rfl
  | none => exact Run.Silent.reports rfl fun ⟨_, _, h⟩ => nomatch h

theorem lookupPorts (hw : Hardware σ) (d : DeviceId) (ports : List Port) :
    (Act.lookupPorts hw d ports).Honest := by
  intro r
  rw [Act.ends_lookupPorts]
  cases (hw.lookupPorts d ports r.state).1 with
  | ok l => exact Run.Silent.succeeds rfl
  | error l => exact Run.Silent.reports rfl fun ⟨_, _, h⟩ => nomatch h

theorem entryOf (hw : Hardware σ) (d : DeviceId) (key : RouteKey) : (Act.entryOf hw d key).Honest :=
  (lookup hw d _).bind fun _ => pure _

theorem cache : (Act.cache : Act σ DeviceCache).Honest := fun _ => Run.Silent.succeeds rfl

theorem ofCache (x : Except CacheError α) : (Act.ofCache x : Act σ α).Honest := by
  cases x with
  | ok a => exact pure a
  | error e => exact throw fun ⟨_, _, h⟩ => nomatch h

theorem changeCache (f : DeviceCache → Except CacheError DeviceCache) :
    (Act.changeCache f : Act σ Unit).Honest := by
  refine fun r => Act.ends_changeCache.mpr ⟨fun _ _ => Run.Silent.succeeds rfl, fun e _ => ?_⟩
  exact Run.Silent.reports ((neededCalls_append _ _).trans (List.append_nil _))
    fun ⟨_, _, h⟩ => nomatch h

theorem count (f : Stats → Stats) : (Act.count f : Act σ Unit).Honest := lift fun _ => rfl

theorem note (level : Log.Level) (message : String) :
    (Act.note level message : Act σ Unit).Honest :=
  lift fun _ => (neededCalls_append _ _).trans (List.append_nil _)

theorem usableGroup (id : Handle) : (Act.usableGroup id : Act σ Group).Honest := by
  refine cache.bind fun c => (ofCache _).bind fun g => ?_
  split
  · exact pure g
  · exact throw fun ⟨_, _, h⟩ => nomatch h

end Act.Honest

namespace Orchestrator

variable {o : Orchestrator σ} {id : Handle} {role : Role} {spec : MemberSpec}

open Act.Honest

/-! Members -/

theorem repoint_honest (subGroup : Handle) (visited : List Entry) (keys : List RouteKey) :
    (o.repoint d false subGroup visited keys).Honest := by
  have hS := silent_frame o.hardware d
  induction keys generalizing visited with
  | nil => exact pure _
  | cons key rest ih =>
    rw [repoint]
    refine (Act.Honest.orCleanUp ?_ fun _ => ?_).bind fun _ => ih _
    · exact (entryOf _ _ _).bind fun _ => (request _ _ _).bind fun _ => pure _
    · exact hS.forM (fun _ => hS.undo _ _ (by simp)) visited

theorem addToSubGroup_honest (subGroup rif : Handle) (ports : List Handle) :
    (o.addToSubGroup d id role subGroup rif ports spec).Honest := by
  have hS := silent_frame o.hardware d
  refine (request _ _ _).bind fun member => (changeCache _).orCleanUp fun e => ?_
  exact hS.bind (hS.note _ _) fun _ => hS.bind (hS.undoMember _ _ _) fun _ _ => rfl

theorem addFirstEgress_honest (routes : List RouteKey) (rif : Handle) (ports : List Handle) :
    (o.addFirstEgress d id routes rif ports spec).Honest := by
  have hS := silent_frame o.hardware d
  have hcount : (Effect.countRollback : Effect σ Unit).Keeps Run.Silent := fun _ => rfl
  refine (request _ _ _).bind fun subGroup => (note _ _).bind fun _ => ?_
  refine ((request _ _ _).orCleanUp fun _ => ?_).bind fun member => ?_
  · exact hS.bind (hS.undoEgressGroup _ _) fun _ => hcount
  refine ((repoint_honest _ _ _).orCleanUp fun _ => ?_).bind fun _ => ?_
  · exact hS.bind (hS.undoMember _ _ _) fun _ => hS.bind (hS.undoEgressGroup _ _) fun _ => hcount
  refine (changeCache _).orCleanUp fun e => hS.bind (hS.note _ _) fun _ => ?_
  -- this time the routes are visited by undo calls
  refine hS.bind (hS.repoint_of_call (fun r _ _ => hS.undoCall r _ nofun) _ _ _)
    fun result => ?_
  have hback := fun context => hS.bind (hS.undoMember (o := o) context .ipmc member) fun _ =>
    hS.bind (hS.undoEgressGroup context subGroup) fun _ => hcount
  cases result with
  | ok _ => exact hback _
  | error _ => exact hS.bind (hS.note _ _) fun _ => hback _

theorem addMember_honest (d : DeviceId) (id : Handle) (role : Role) (spec : MemberSpec) :
    (o.addMember d id role spec).Honest := by
  refine (usableGroup _).bind fun g => (ofCache _).bind fun _ => (lookup _ _ _).bind fun rif =>
    (lookupPorts _ _ _).bind fun ports => ?_
  cases role with
  | rpf => exact addToSubGroup_honest _ _ _
  | ipmc =>
    dsimp only
    split
    · exact addFirstEgress_honest _ _ _
    · exact addToSubGroup_honest _ _ _

theorem removeMember_honest (rif : RifId) (member : Handle) :
    (o.removeMember d id role rif member).Honest :=
  (request _ _ _).bind fun _ => (changeCache _).bind fun _ => count _

theorem removeMembers_honest (l : List Member) : (o.removeMembers d id role l).Honest := by
  induction l with
  | nil => exact pure _
  | cons m rest ih => exact (removeMember_honest _ _).bind fun _ => ih

theorem changeMember_honest (o : Orchestrator σ) (d : DeviceId) (id : Handle) (op : MemberOp)
    (role : Role) (spec : MemberSpec) : (o.changeMember d id op role spec).Honest := by
  refine cache.bind fun _ => (ofCache _).bind fun g => ?_
  cases op with
  | add => exact (addMember_honest _ _ _ _).bind fun _ => (count _).bind fun _ => note _ _
  | delete =>
    exact (ofCache _).bind fun _ => (removeMember_honest _ _).bind fun _ => note _ _
  | update =>
    exact (ofCache _).bind fun _ => (lookupPorts _ _ _).bind fun _ => (request _ _ _).bind fun _ =>
      (changeCache _).bind fun _ => (count _).bind fun _ => note _ _

/-! Groups -/

theorem removeSubGroup_honest (subGroup : Handle) :
    (o.removeSubGroup d id role subGroup).Honest := by
  unfold removeSubGroup
  split
  · exact (request _ _ _).bind fun _ => changeCache _
  · exact pure _

theorem unmakeGroup_honest (o : Orchestrator σ) (d : DeviceId) (id : Handle) :
    (o.unmakeGroup d id).Honest := by
  refine cache.bind fun _ => (ofCache _).bind fun g => ?_
  split
  · exact throw fun ⟨_, _, h⟩ => nomatch h
  · exact (removeMembers_honest _).bind fun _ => (removeSubGroup_honest _).bind fun _ =>
      (removeMembers_honest _).bind fun _ => (removeSubGroup_honest _).bind fun _ =>
      (request _ _ _).bind fun _ => (changeCache _).bind fun _ => (count _).bind fun _ => note _ _

theorem buildSubGroup_honest (role : Role) (what : String) (draft : Draft) :
    (o.buildSubGroup d role what draft).Honest := by
  have hS := silent_frame o.hardware d
  exact (request _ _ _).orCleanUp fun _ => hS.bind (hS.note _ _) fun _ =>
    hS.rollBack (silent_rollBack _ d) (fun _ => rfl) draft

theorem dropGroup_silent (hw : Hardware σ) (id : Handle) :
    (dropGroup id : Effect σ Unit).Keeps Run.Silent := by
  have hS := silent_frame hw ⟨0⟩
  have hcount : ∀ f, (Effect.count f : Effect σ Unit).Keeps Run.Silent := fun _ _ => rfl
  refine hS.bind (fun _ => rfl) fun r => ?_
  cases r.cache.groups.delete id with
  | ok _ => exact hS.bind (fun _ => rfl) fun _ => hcount _
  | error e =>
    refine hS.bind (fun r => ?_) fun _ => hS.bind (hS.note _ _) fun _ => hcount _
    exact (neededCalls_append _ _).trans (List.append_nil _)

theorem buildGroup_honest (owner : Owner) (needed : Bool) :
    (o.buildGroup d owner needed).Honest := by
  refine (request _ _ _).bind fun _ => Act.Honest.bind ?_ fun _ =>
    (buildSubGroup_honest _ _ _).bind fun _ => pure _
  split
  · exact buildSubGroup_honest _ _ _
  · exact pure _

/-! Routes -/

theorem makeRoute_honest (o : Orchestrator σ) (d : DeviceId) (route : Route) :
    (o.makeRoute d route).Honest := by
  unfold makeRoute
  cases route.key.validate with
  | error why => exact throw fun ⟨_, _, h⟩ => nomatch h
  | ok _ =>
    exact cache.bind fun _ => (ofCache _).bind fun _ => (usableGroup _).bind fun _ =>
      (entryOf _ _ _).bind fun _ => (lookup _ _ _).bind fun _ => (request _ _ _).bind fun _ =>
      (changeCache _).bind fun _ => (count _).bind fun _ => note _ _

theorem unmakeRoute_honest (o : Orchestrator σ) (d : DeviceId) (key : RouteKey) :
    (o.unmakeRoute d key).Honest :=
  cache.bind fun _ => (ofCache _).bind fun _ => (entryOf _ _ _).bind fun _ =>
    (request _ _ _).bind fun _ => (changeCache _).bind fun _ => (count _).bind fun _ => note _ _

theorem writeAttrs_honest (key : RouteKey) (entry : Entry) (replaced : List EntryAttr)
    (changes : List (EntryAttr × EntryAttr)) :
    (o.writeAttrs d key entry replaced changes).Honest := by
  have hS := silent_frame o.hardware d
  induction changes generalizing replaced with
  | nil => exact pure _
  | cons change rest ih =>
    rw [writeAttrs]
    refine ((request _ _ _).orCleanUp fun _ => ?_).bind fun _ => ih _
    refine hS.bind (hS.forM (fun _ => hS.undo _ _ (by simp)) replaced) fun _ => ?_
    split
    · exact fun _ => rfl
    · exact hS.pure _

theorem changeRoute_honest (o : Orchestrator σ) (d : DeviceId) (key : RouteKey)
    (u : RouteUpdate) : (o.changeRoute d key u).Honest := by
  refine cache.bind fun c => (ofCache _).bind fun _ => (ofCache _).bind fun _ =>
    (usableGroup _).bind fun _ => (lookup _ _ _).bind fun _ => Act.Honest.bind ?_ fun _ =>
    Act.Honest.bind ?_ fun _ => (changeCache _).bind fun _ => (count _).bind fun _ => note _ _
  · split
    · exact pure _
    · exact lookup _ _ _
  · split
    · exact pure _
    · exact (entryOf _ _ _).bind fun _ => writeAttrs_honest _ _ _ _

theorem checkRoute_honest (o : Orchestrator σ) (d : DeviceId) (key : RouteKey) :
    (o.checkRoute d key).Honest := by
  have hS := silent_frame o.hardware d
  exact cache.bind fun _ => (ofCache _).bind fun _ => (ofCache _).bind fun _ =>
    (lookup _ _ _).bind fun _ => (entryOf _ _ _).bind fun _ => (request _ _ _).bind fun _ =>
    (lift (hS.compareAttrs _ _ _)).bind fun _ => pure _

end Orchestrator

/-! New groups -/

/-- Egress members tried one after the other, which makes these calls and turns the one cache into
the other. After one that fails the next is tried. -/
inductive Tries (id : Handle) : List MemberSpec → DeviceCache →
    List (Call × Option HardwareError) → DeviceCache → Prop where
  | nil (c : DeviceCache) : Tries id [] c [] c
  | added {spec : MemberSpec} {rest : List MemberSpec} {c c₁ c' : DeviceCache}
    {calls calls' : List (Call × Option HardwareError)} (hgains : c.Gains id .ipmc spec c₁)
    (hcalls : AllSucceed calls)
    (hrest : Tries id rest (c₁.counted fun s => { s with membersAdded := s.membersAdded + 1 })
      calls' c') : Tries id (spec :: rest) c (calls ++ calls') c'
  | skipped {spec : MemberSpec} {rest : List MemberSpec} {c c₁ c' : DeviceCache}
    {calls calls' : List (Call × Option HardwareError)} {e : OpError} (hrecovers : c.Recovers c₁)
    (hcalls : Reports calls e)
    (hrest : Tries id rest (c₁.counted fun s => { s with membersFailed := s.membersFailed + 1 })
      calls' c') : Tries id (spec :: rest) c (calls ++ calls') c'

/-- The group is made with its ingress member, for which no call fails, and then its egress members
are tried. -/
def Founds (owner : Owner) (rpf : MemberSpec) (ipmc : List MemberSpec) (id : Handle)
    (c : DeviceCache) (calls : List (Call × Option HardwareError)) (c' : DeviceCache) : Prop :=
  ∃ (draft : Orchestrator.Draft) (c₁ : DeviceCache)
    (built tried : List (Call × Option HardwareError)),
    draft.group = id ∧ (draft.cached owner c).Gains id .rpf rpf c₁ ∧ AllSucceed built ∧
      calls = built ++ tried ∧
      Tries id ipmc (c₁.counted fun s => { s with membersAdded := s.membersAdded + 1 }) tried c'

/-- The run comes to `r'` with these needed calls and the cache `c`. -/
structure Run.Makes (r : Run σ) (calls : List (Call × Option HardwareError)) (c : DeviceCache)
    (r' : Run σ) : Prop where
  calls : neededCalls r'.events = neededCalls r.events ++ calls
  cache : r'.cache = c

namespace Run.Makes

variable {r r' r'' : Run σ} {calls calls' : List (Call × Option HardwareError)}
  {c c' : DeviceCache}

theorem trans (h : r.Makes calls c r') (h' : r'.Makes calls' c' r'') :
    r.Makes (calls ++ calls') c' r'' :=
  ⟨by rw [h'.calls, h.calls, List.append_assoc], h'.cache⟩

theorem count (h : r.Makes calls c r') (f : Stats → Stats) :
    (Effect.count f).Ends r' fun _ r'' => r.Makes calls (c.counted f) r'' :=
  ⟨h.calls, congrArg (DeviceCache.counted · f) h.cache⟩

theorem note (h : r.Makes calls c r') (level : Log.Level) (message : String) :
    (Effect.note level message).Ends r' fun _ r'' => r.Makes calls c r'' :=
  ⟨((neededCalls_append _ _).trans (List.append_nil _)).trans h.calls, h.cache⟩

end Run.Makes

namespace Orchestrator

variable {o : Orchestrator σ} {r : Run σ}

open Act.Honest

theorem addEgressMembers_tries (id : Handle) (specs : List MemberSpec) (r : Run σ) :
    (o.addEgressMembers d id specs).Ends r fun _ r' =>
      ∃ calls c', r.Makes calls c' r' ∧ Tries id specs r.cache calls c' := by
  induction specs generalizing r with
  | nil => exact ⟨[], r.cache, ⟨(List.append_nil _).symm, rfl⟩, .nil _⟩
  | cons spec rest ih =>
    have hmember := (addMember_ends (.any o.hardware) d id .ipmc spec r).and
      (addMember_honest d id .ipmc spec r)
    refine Effect.ends_bind.mpr (Effect.Ends.mono hmember ?_)
    intro result r₁ h
    cases result with
    | ok _ =>
      obtain ⟨⟨c₁, hgains, hreach⟩, calls, hcalls, hall⟩ := h
      have h₁ : r.Makes calls c₁ r₁ := ⟨hcalls, hreach.cache⟩
      refine (h₁.count _).bind fun _ r₂ h₂ => Effect.Ends.mono (ih r₂) ?_
      rintro _ r' ⟨calls', c', h', htries⟩
      rw [h₂.cache] at htries
      exact ⟨_, c', h₂.trans h', .added hgains hall htries⟩
    | error e =>
      obtain ⟨⟨⟨hrecovers, -⟩, -⟩, calls, hcalls, hreports⟩ := h
      have h₁ : r.Makes calls r₁.cache r₁ := ⟨hcalls, rfl⟩
      refine (h₁.note _ _).bind fun _ r₂ h₂ => (h₂.count _).bind fun _ r₃ h₃ =>
        Effect.Ends.mono (ih r₃) ?_
      rintro _ r' ⟨calls', c', h', htries⟩
      rw [h₃.cache] at htries
      exact ⟨_, c', h₃.trans h', .skipped hrecovers.cache hreports htries⟩

theorem makeGroup_founds (o : Orchestrator σ) (d : DeviceId) (owner : Owner) (rpf : MemberSpec)
    (ipmc : List MemberSpec) (r : Run σ) :
    (o.makeGroup d owner rpf ipmc).Ends r
      (fun id r' => ∃ calls c', r.Makes calls c' r' ∧ Founds owner rpf ipmc id r.cache calls c')
      fun e r' => r.Reports e r' := by
  have hS := silent_frame o.hardware d
  let T := Course.any o.hardware
  have hrollBack : ∀ draft, (o.rollBack d draft).Keeps Run.Silent :=
    hS.rollBack (silent_rollBack _ d) fun _ => rfl
  refine Act.Ends.cache ?_
  split
  · exact Run.Silent.reports rfl fun ⟨_, _, h⟩ => nomatch h
  refine ((Act.lookup_ends T d (.rif rpf.rif) r).and (lookup _ _ _ r)).bind ?_ fun _ _ h => h.2
  rintro _ r₁ ⟨⟨hlook₁, -⟩, hs₁⟩
  refine ((Act.lookupPorts_ends T d rpf.ports r₁).and (lookupPorts _ _ _ r₁)).bind ?_
    fun _ _ h => hs₁.reports h.2
  rintro _ r₂ ⟨⟨hlook₂, -⟩, hs₂⟩
  have hs₂ := hs₁.trans hs₂
  refine ((buildGroup_ends owner _ (hlook₁.trans hlook₂).reaches).and
    (buildGroup_honest owner _ r₂)).bind ?_ fun _ _ h => hs₂.reports h.2
  rintro draft r₃ ⟨⟨hr₃, -⟩, hs₃⟩
  have hs₃ := hs₂.trans hs₃
  refine Act.Ends.andThen (((commitGroup_ends owner draft hr₃.holds).and
    (changeCache _ r₃)).orCleanUp ?_) ?_
  · rintro e r' ⟨-, hreports⟩
    refine (hs₃.reports hreports).cleanUp ?_
    exact hS.bind (hS.note _ _) fun _ => hrollBack draft
  rintro _ r₄ ⟨⟨-, hr₄⟩, hs₄⟩
  obtain ⟨built, hbuilt, hall⟩ := hs₃.trans hs₄
  have h₄ : r.Makes built _ r₄ := ⟨hbuilt, (hr₃.commit hr₄ rfl).cache⟩
  refine Act.Ends.lift (h₄.count _) fun _ r₅ h₅ => ?_
  have hs₅ : r.Succeeds r₅ := ⟨built, h₅.calls, hall⟩
  refine Act.Ends.andThen (((addMember_ends T d draft.group .rpf rpf r₅).and
    (addMember_honest d draft.group .rpf rpf r₅)).orCleanUp ?_) ?_
  · rintro e r' ⟨-, hreports⟩
    refine (hs₅.reports hreports).cleanUp ?_
    exact hS.bind (hS.note _ _) fun _ =>
      hS.bind (dropGroup_silent o.hardware _) fun _ => hrollBack draft
  rintro _ r₆ ⟨⟨c₁, hgains, hreach⟩, calls, hcalls, hall'⟩
  rw [h₅.cache] at hgains
  have h₆ : r.Makes (built ++ calls) c₁ r₆ := h₅.trans ⟨hcalls, hreach.cache⟩
  refine Act.Ends.lift (h₆.count _) fun _ r₇ h₇ => ?_
  refine Act.Ends.lift (addEgressMembers_tries draft.group ipmc r₇) ?_
  rintro _ r₈ ⟨tried, c', h₈, htries⟩
  rw [h₇.cache] at htries
  refine Act.Ends.cache (Act.Ends.lift ((h₇.trans h₈).note _ _) fun _ r₉ h₉ => ?_)
  exact ⟨_, c', h₉, draft, c₁, _, tried, rfl, hgains, hall.append hall', rfl, htries⟩

end Orchestrator

/-! Operations -/

@[simp] theorem neededCalls_noted (out : Outcome σ Unit) (message : String) :
    neededCalls (Orchestrator.noted out message).events = neededCalls out.events := by
  unfold Orchestrator.noted
  split
  · exact (neededCalls_append _ _).trans (List.append_nil _)
  · rfl

/-- An error tells how the needed calls ended. With a reply `P` holds of them and of the world. -/
def Outcome.Tells (P : α → List (Call × Option HardwareError) → World σ → Prop)
    (out : Outcome σ α) : Prop :=
  match out.result with
  | .ok a => P a (neededCalls out.events) out.world
  | .error e => Reports (neededCalls out.events) e

namespace Outcome.Tells

variable {w : World σ} {P : α → List (Call × Option HardwareError) → World σ → Prop}

theorem audited {out : Outcome σ α} (h : out.Tells P) (o : Orchestrator σ) (record : Audit.Record) :
    (o.audited out record).Tells P := by
  simpa [Tells] using h

theorem noted {P : Unit → List (Call × Option HardwareError) → World σ → Prop}
    {out : Outcome σ Unit} (h : out.Tells P) (message : String) :
    (Orchestrator.noted out message).Tells P := by
  simpa [Tells] using h

theorem changeFleet (w : World σ) (f : Fleet → Except CacheError Fleet) :
    (Orchestrator.changeFleet w f).Tells fun _ calls _ => AllSucceed calls := by
  have hnone : AllSucceed [] := fun _ h => nomatch h
  rcases Orchestrator.changeFleet_cases w f with ⟨fleet, _, h⟩ | ⟨e, h⟩ <;> rw [h]
  · exact hnone
  · exact .denied hnone fun ⟨_, _, h⟩ => nomatch h

theorem onDevice {act : Act σ α}
    (h : ∀ c, w.fleet.find? d = some c → act.Ends ⟨w.state, c, []⟩
      (fun a r' => P a (neededCalls r'.events) ⟨r'.state, w.fleet.modify d fun _ => r'.cache⟩)
      fun e r' => Reports (neededCalls r'.events) e) :
    (Orchestrator.onDevice w d act).Tells P := by
  cases hc : w.fleet.find? d with
  | none =>
    rw [Orchestrator.onDevice_of_find?_eq_none hc]
    exact .denied (fun _ h => nomatch h) fun ⟨_, _, h⟩ => nomatch h
  | some c =>
    obtain ⟨r, hworld, hevents, ⟨a, hresult, hr⟩ | ⟨e, hresult, hr⟩⟩ :=
      Orchestrator.onDevice_ends hc (h c hc) <;>
    · unfold Tells
      rw [hresult, hevents]
      first | exact hr | exact hworld ▸ hr

theorem onDevice_of_honest {act : Act σ α} (h : act.Honest) :
    (Orchestrator.onDevice w d act).Tells fun _ calls _ => AllSucceed calls := by
  refine onDevice fun c _ => (h ⟨w.state, c, []⟩).mono ?_ ?_
  · rintro _ r' ⟨calls, hcalls, hall⟩
    rw [hcalls]
    exact hall
  · rintro e r' ⟨calls, hcalls, hreports⟩
    rw [hcalls]
    exact hreports

end Outcome.Tells

/-- What lies behind the reply to an operation: no needed call has failed, except for egress members
that a new group goes without. -/
def Operation.Concludes (w : World σ) (op : Operation) (reply : op.Reply)
    (calls : List (Call × Option HardwareError)) (w' : World σ) : Prop :=
  match op, reply with
  | .createGroup d owner rpf ipmc, id =>
    ∃ c c', w.fleet.find? d = some c ∧ w'.fleet.find? d = some c' ∧
      Founds owner rpf ipmc id c calls c'
  | _, _ => AllSucceed calls

theorem Operation.perform_tells (o : Orchestrator σ) (w : World σ) (op : Operation) :
    (op.perform o w).Tells (op.Concludes w) := by
  cases op with
  | attach d => exact ((Outcome.Tells.changeFleet w (·.attach d)).audited o _).noted _
  | detach d => exact ((Outcome.Tells.changeFleet w (·.detach d)).audited o _).noted _
  | createGroup d owner rpf ipmc =>
    refine (Outcome.Tells.onDevice fun c hc => ?_).audited o _
    refine (o.makeGroup_founds d owner rpf ipmc ⟨w.state, c, []⟩).mono ?_ ?_
    · rintro id r' ⟨calls, c', h, hfounds⟩
      refine ⟨c, c', hc, ?_, ?_⟩
      · rw [← h.cache]
        exact Table.find?_modify_self _ hc
      · rw [h.calls]
        exact hfounds
    · rintro e r' ⟨calls, hcalls, hreports⟩
      rw [hcalls]
      exact hreports
  | deleteGroup d id =>
    exact (Outcome.Tells.onDevice_of_honest (o.unmakeGroup_honest d id)).audited o _
  | updateMember d id op role spec =>
    exact (Outcome.Tells.onDevice_of_honest (o.changeMember_honest d id op role spec)).audited o _
  | addRoute d route =>
    exact (Outcome.Tells.onDevice_of_honest (o.makeRoute_honest d route)).audited o _
  | deleteRoute d key =>
    exact (Outcome.Tells.onDevice_of_honest (o.unmakeRoute_honest d key)).audited o _
  | updateRoute d key u =>
    exact (Outcome.Tells.onDevice_of_honest (o.changeRoute_honest d key u)).audited o _
  | verifyRoute d key => exact Outcome.Tells.onDevice_of_honest (o.checkRoute_honest d key)

/-- An operation whose needed call fails makes no other, and ends in the error of that call,
whatever the undo calls answer; only new groups may go without an egress member. Where no call
failed there is no error of the hardware. -/
theorem hardware_errors_reach_caller (o : Orchestrator σ) (w : World σ) (op : Operation) :
    let out := op.perform o w
    let calls := neededCalls out.events
    (∀ e, out.result = .error e → Reports calls e ∧
      e.status? = (calls.getLast?.bind Prod.snd).map HardwareError.toStatus) ∧
    (∀ reply, out.result = .ok reply → op.Concludes w reply calls out.world) ∧
    ∀ (q : Question) e, q.ask w = .error e → ¬e.OfHardware := by
  intro out calls
  have h : out.Tells (op.Concludes w) := op.perform_tells o w
  unfold Outcome.Tells at h
  refine ⟨fun e he => ?_, fun reply hreply => ?_, fun q e he => ?_⟩
  · rw [he] at h
    exact ⟨h, h.status?_eq⟩
  · rw [hreply] at h
    exact h
  · obtain ⟨e', rfl⟩ := q.ask_eq_error he
    exact fun ⟨_, _, h⟩ => nomatch h

/-- Hardware that makes whatever it is asked for, and neither changes nor takes back anything. -/
def Hardware.jammed : Hardware Unit where
  call := fun _ c s =>
    match c with
    | .createGroup _ => (⟨.ok (.make .group 1), []⟩, s)
    | .createSubGroup role _ => (⟨.ok (.make (.subGroup role) 1), []⟩, s)
    | .createMember role _ => (⟨.ok (.make (.member role) 1), []⟩, s)
    | .createEntry _ _ => (⟨.ok (), []⟩, s)
    | .setEntry _ _ => (⟨.error (.status .tableFull), []⟩, s)
    | _ => (⟨.error (.status .failure), []⟩, s)
  lookup := fun _ l s => (some (.make l.kind 1), s)

/-- One device, with a group and a route on it. -/
def World.jammed : World Unit :=
  let o : Orchestrator Unit := ⟨{}, .jammed, .ascending⟩
  let w := ((Operation.attach ⟨1⟩).perform o (.start ())).world
  let w := ((Operation.createGroup ⟨1⟩ .ipmc ⟨⟨10⟩, []⟩ []).perform o w).world
  ((Operation.addRoute ⟨1⟩
    ⟨.starG ⟨0⟩ (.v4 ⟨239, 1, 1, 1⟩), ⟨10⟩, .make .group 1, false⟩).perform o w).world

/-- The first egress member cannot be put on the route, and neither it nor its sub-group can be
removed again, which the caller does not see. -/
theorem hardware_errors_reach_caller_jammed :
    let op : Operation := .updateMember ⟨1⟩ (.make .group 1) .add .ipmc ⟨⟨20⟩, []⟩
    let out := op.perform ⟨{}, .jammed, .ascending⟩ World.jammed
    let e := OpError.hardware .setEntry (.status .tableFull)
    (out.result = .error e ∧
      (callsOf out.events).filterMap (·.2.2) =
        [.status .tableFull, .status .failure, .status .failure]) ∧
      Reports (neededCalls out.events) e ∧ e.status? = some .tableFull := by
  intro op out e
  have hresult : out.result = .error e := by decide +kernel
  have h := hardware_errors_reach_caller ⟨{}, .jammed, .ascending⟩ World.jammed op
  exact ⟨⟨hresult, by decide +kernel⟩, (h.1 e hresult).1, rfl⟩

end Multicast
