import Multicast.Proofs.Operation
import Multicast.Proofs.Twin

/-! Orchestrators on hardware that answers alike do alike, whether they keep an audit trail or
not. -/
namespace Multicast

variable {σ σ' α : Type}

/-- All events but the audit records. -/
def withoutAudits (events : List Event) : List Event :=
  events.filter fun
    | .audit _ => false
    | _ => true

theorem withoutAudits_append (l l' : List Event) :
    withoutAudits (l ++ l') = withoutAudits l ++ withoutAudits l' :=
  List.filter_append _ _

/-- In related states the two answer alike and stay related. -/
structure Hardware.Bisimilar (hw : Hardware σ) (hw' : Hardware σ') (B : σ → σ' → Prop) : Prop where
  call : ∀ d c s s', B s s' → (hw.call d c s).1 = (hw'.call d c s').1 ∧
    B (hw.call d c s).2 (hw'.call d c s').2
  lookup : ∀ d l s s', B s s' → (hw.lookup d l s).1 = (hw'.lookup d l s').1 ∧
    B (hw.lookup d l s).2 (hw'.lookup d l s').2

theorem Hardware.Bisimilar.refl (hw : Hardware σ) : hw.Bisimilar hw Eq where
  call := by
    rintro d c s _ rfl
    exact ⟨rfl, rfl⟩
  lookup := by
    rintro d l s _ rfl
    exact ⟨rfl, rfl⟩

/-- The two may differ in whether they keep an audit trail. -/
structure Orchestrator.Bisimilar (o : Orchestrator σ) (o' : Orchestrator σ') (B : σ → σ' → Prop) :
    Prop where
  hardware : o.hardware.Bisimilar o'.hardware B
  maxGroups : o.config.maxGroups = o'.config.maxGroups
  copyAction : o.config.copyAction = o'.config.copyAction
  order : o.order = o'.order

structure Run.Alike (B : σ → σ' → Prop) (r : Run σ) (r' : Run σ') : Prop where
  state : B r.state r'.state
  cache : r.cache = r'.cache
  events : withoutAudits r.events = withoutAudits r'.events

theorem Hardware.Bisimilar.lookupPorts {B : σ → σ' → Prop} {hw : Hardware σ} {hw' : Hardware σ'}
    (h : hw.Bisimilar hw' B) (d : DeviceId) (ports : List Port) {s : σ} {s' : σ'} (hs : B s s') :
    (hw.lookupPorts d ports s).1 = (hw'.lookupPorts d ports s').1 ∧
      B (hw.lookupPorts d ports s).2 (hw'.lookupPorts d ports s').2 := by
  induction ports generalizing s s' with
  | nil => exact ⟨rfl, hs⟩
  | cons p rest ih =>
    obtain ⟨hfound, hstate⟩ := h.lookup d (.port p) s s' hs
    obtain ⟨hrest, hstate'⟩ := ih hstate
    rw [Hardware.lookupPorts, Hardware.lookupPorts]
    rcases hp : hw.lookup d (.port p) s with ⟨found, t⟩
    rcases hp' : hw'.lookup d (.port p) s' with ⟨found', t'⟩
    rw [hp, hp'] at hfound hstate hrest hstate'
    cases hfound
    cases found with
    | none => exact ⟨rfl, hstate⟩
    | some x =>
      dsimp only at hrest hstate' ⊢
      rcases hl : hw.lookupPorts d rest t with ⟨l, u⟩
      rcases hl' : hw'.lookupPorts d rest t' with ⟨l', u'⟩
      rw [hl, hl'] at hrest hstate'
      cases hrest
      cases l <;> exact ⟨rfl, hstate'⟩

namespace Run.Alike

variable {B : σ → σ' → Prop} {hw : Hardware σ} {hw' : Hardware σ'} {r : Run σ} {r' : Run σ'}

theorem append (h : r.Alike B r') (events : List Event) :
    withoutAudits (r.events ++ events) = withoutAudits (r'.events ++ events) := by
  rw [withoutAudits_append, withoutAudits_append, h.events]

theorem emit (e : Event) : Effect.Twins (Run.Alike B) Eq (Effect.emit e) (Effect.emit e) :=
  fun _ _ h => ⟨rfl, h.state, h.cache, h.append [e]⟩

theorem note (level : Log.Level) (message : String) :
    Effect.Twins (Run.Alike B) Eq (Effect.note level message) (Effect.note level message) :=
  emit _

theorem act_note (level : Log.Level) (message : String) :
    Act.Twins (Run.Alike B) Eq (Act.note level message) (Act.note level message) :=
  .lift (note _ _)

/-- Either may keep a trail. -/
theorem audit (trail trail' : Bool) (record record' : Audit.Record) :
    Effect.Twins (Run.Alike B) Eq (if trail then Effect.emit (.audit record) else pure ())
      (if trail' then Effect.emit (.audit record') else pure ()) := by
  have hevents : ∀ (events : List Event) record,
      withoutAudits (events ++ [.audit record]) = withoutAudits events := fun events record => by
    rw [withoutAudits_append]
    exact List.append_nil _
  intro r r' h
  cases trail <;> cases trail'
  · exact ⟨rfl, h⟩
  · exact ⟨rfl, h.state, h.cache, h.events.trans (hevents _ _).symm⟩
  · exact ⟨rfl, h.state, h.cache, (hevents _ _).trans h.events⟩
  · exact ⟨rfl, h.state, h.cache, (hevents _ _).trans (h.events.trans (hevents _ _).symm)⟩

theorem count (f : Stats → Stats) :
    Effect.Twins (Run.Alike B) Eq (Effect.count f) (Effect.count f) :=
  fun r r' h => ⟨rfl, h.state, by
    change { r.cache with stats := f r.cache.stats } = { r'.cache with stats := f r'.cache.stats }
    rw [h.cache], h.events⟩

theorem act_count (f : Stats → Stats) :
    Act.Twins (Run.Alike B) Eq (Act.count f) (Act.count f) :=
  .lift (count f)

theorem readCache : Act.Twins (Run.Alike B) Eq Act.cache Act.cache :=
  fun _ _ h => ⟨h.cache, h⟩

theorem ofCache (x : Except CacheError α) :
    Act.Twins (Run.Alike B) Eq (Act.ofCache x) (Act.ofCache x) :=
  .ofCache (.refl x)

theorem changeCache (f : DeviceCache → Except CacheError DeviceCache) :
    Act.Twins (Run.Alike B) Eq (Act.changeCache f) (Act.changeCache f) := by
  intro r r' h
  rw [Act.run_changeCache, Act.run_changeCache, h.cache]
  cases f r'.cache with
  | ok c => exact ⟨rfl, h.state, rfl, h.events⟩
  | error e => exact ⟨rfl, h.state, rfl, h.append [.refusal e]⟩

theorem usableGroup (id : Handle) :
    Act.Twins (Run.Alike B) Eq (Act.usableGroup id) (Act.usableGroup id) := by
  refine readCache.andBoth fun c => (ofCache _).andBoth fun g => ?_
  split
  · exact .pure rfl
  · exact .throw _

variable (h : hw.Bisimilar hw' B) {d : DeviceId}
include h

theorem call (undo : Bool) (c : Call) :
    Effect.Twins (Run.Alike B) Eq (Effect.call hw d undo c) (Effect.call hw' d undo c) := by
  intro r r' hr
  obtain ⟨hanswer, hstate⟩ := h.call d c _ _ hr.state
  refine ⟨congrArg Answer.result hanswer, hstate, hr.cache, ?_⟩
  have hevents := hr.append ((hw.call d c r.state).1.notes.map .log ++
    [.call d c undo (Effect.failure? (hw.call d c r.state).1.result)])
  simp only [Effect.call, StateT.run]
  rw [List.append_assoc, List.append_assoc, hevents, hanswer]

theorem act_call (undo : Bool) (c : Call) :
    Act.Twins (Run.Alike B) Eq (Act.call hw d undo c) (Act.call hw' d undo c) :=
  .call (call h undo c)

theorem request (c : Call) :
    Act.Twins (Run.Alike B) Eq (Act.request hw d c) (Act.request hw' d c) :=
  act_call h false c

theorem undo (what context : String) (c : Call) :
    Effect.Twins (Run.Alike B) Eq (Effect.undo hw d what context c)
      (Effect.undo hw' d what context c) := by
  refine (call h true c).andBoth fun result => ?_
  cases result with
  | ok a => exact (note _ _).andBoth fun _ => .pure rfl
  | error e => exact (note _ _).andBoth fun _ => .pure rfl

theorem lookup (l : Lookup) :
    Act.Twins (Run.Alike B) Eq (Act.lookup hw d l) (Act.lookup hw' d l) := by
  refine Act.Twins.andBoth (.lift fun r r' hr => ?_) fun found => ?_
  · obtain ⟨hfound, hstate⟩ := h.lookup d l _ _ hr.state
    exact ⟨hfound, hstate, hr.cache, hr.events⟩
  · cases found with
    | some x => exact .pure rfl
    | none => exact .throw _

theorem lookupPorts (ports : List Port) :
    Act.Twins (Run.Alike B) Eq (Act.lookupPorts hw d ports) (Act.lookupPorts hw' d ports) := by
  refine Act.Twins.andBoth (.lift fun r r' hr => ?_) fun found => ?_
  · obtain ⟨hfound, hstate⟩ := h.lookupPorts d ports hr.state
    exact ⟨hfound, hstate, hr.cache, hr.events⟩
  · cases found with
    | ok l => exact .pure rfl
    | error l => exact .throw _

theorem entryOf (key : RouteKey) :
    Act.Twins (Run.Alike B) Eq (Act.entryOf hw d key) (Act.entryOf hw' d key) :=
  (lookup h _).andBoth fun _ => .pure rfl

end Run.Alike

namespace Orchestrator.Bisimilar

open Run.Alike

variable {o : Orchestrator σ} {o' : Orchestrator σ'} {B : σ → σ' → Prop} (h : o.Bisimilar o' B)
  {d : DeviceId}
include h

/-! Members -/

theorem createMember (role : Role) (subGroup rif : Handle) (ports : List Handle) :
    Act.Twins (Run.Alike B) Eq (o.createMember d role subGroup rif ports)
      (o'.createMember d role subGroup rif ports) :=
  request h.hardware
    (.createMember role [.subGroup subGroup, .routerInterface rif, .bridgePorts ports])

theorem undoMember (context : String) (role : Role) (member : Handle) :
    Effect.Twins (Run.Alike B) Eq (o.undoMember d context role member)
      (o'.undoMember d context role member) :=
  (undo h.hardware _ _ _).andBoth fun _ => .pure rfl

theorem undoEgressGroup (context : String) (subGroup : Handle) :
    Effect.Twins (Run.Alike B) Eq (o.undoEgressGroup d context subGroup)
      (o'.undoEgressGroup d context subGroup) :=
  (undo h.hardware _ _ _).andBoth fun _ => .pure rfl

theorem repoint (undo : Bool) (subGroup : Handle) (visited : List Entry) (keys : List RouteKey) :
    Act.Twins (Run.Alike B) Eq (o.repoint d undo subGroup visited keys)
      (o'.repoint d undo subGroup visited keys) := by
  induction keys generalizing visited with
  | nil => exact .pure rfl
  | cons key rest ih =>
    rw [Orchestrator.repoint, Orchestrator.repoint]
    refine Act.Twins.andBoth (.orCleanUp ?_ fun _ => ?_) fun _ => ih _
    · exact (entryOf h.hardware key).andBoth fun _ =>
        (act_call h.hardware undo _).andBoth fun _ => .pure rfl
    · exact Effect.Twins.forM (fun _ => (Run.Alike.undo h.hardware _ _ _).andBoth fun _ =>
        .pure rfl) visited

theorem addToSubGroup (id : Handle) (role : Role) (subGroup rif : Handle) (ports : List Handle)
    (spec : MemberSpec) :
    Act.Twins (Run.Alike B) Eq (o.addToSubGroup d id role subGroup rif ports spec)
      (o'.addToSubGroup d id role subGroup rif ports spec) := by
  refine (h.createMember _ _ _ _).andBoth fun member => .orCleanUp (changeCache _) fun e => ?_
  exact (note _ _).andBoth fun _ => (h.undoMember _ _ _).andBoth fun _ => count _

theorem undoFirstEgress (context : String) (subGroup member : Handle) :
    Effect.Twins (Run.Alike B) Eq
      (do
        o.undoMember d context .ipmc member
        o.undoEgressGroup d context subGroup
        Effect.countRollback)
      (do
        o'.undoMember d context .ipmc member
        o'.undoEgressGroup d context subGroup
        Effect.countRollback) :=
  (h.undoMember _ _ _).andBoth fun _ => (h.undoEgressGroup _ _).andBoth fun _ => count _

theorem addFirstEgress (id : Handle) (routes : List RouteKey) (rif : Handle) (ports : List Handle)
    (spec : MemberSpec) :
    Act.Twins (Run.Alike B) Eq (o.addFirstEgress d id routes rif ports spec)
      (o'.addFirstEgress d id routes rif ports spec) := by
  refine (request h.hardware _).andBoth fun subGroup => (act_note _ _).andBoth fun _ =>
    Act.Twins.andBoth (.orCleanUp (h.createMember _ _ _ _) fun _ => ?_) fun member =>
    Act.Twins.andBoth (.orCleanUp (h.repoint _ _ _ _) fun _ => h.undoFirstEgress _ _ _) fun _ =>
    .orCleanUp (changeCache _) fun e => ?_
  · exact (h.undoEgressGroup _ _).andBoth fun _ => count _
  · refine (note _ _).andBoth fun _ => Effect.Twins.bind (h.repoint true .null [] routes)
      fun result result' halike => ?_
    cases halike.eq
    cases result with
    | ok _ => exact h.undoFirstEgress _ _ _
    | error e => exact (note _ _).andBoth fun _ => h.undoFirstEgress _ _ _

theorem addMember (id : Handle) (role : Role) (spec : MemberSpec) :
    Act.Twins (Run.Alike B) Eq (o.addMember d id role spec) (o'.addMember d id role spec) := by
  refine (usableGroup _).andBoth fun g => (ofCache _).andBoth fun _ =>
    (lookup h.hardware _).andBoth fun rif => (lookupPorts h.hardware _).andBoth fun ports => ?_
  cases role with
  | rpf => exact h.addToSubGroup _ _ _ _ _ _
  | ipmc =>
    simp only [h.order]
    split
    · exact h.addFirstEgress _ _ _ _ _
    · exact h.addToSubGroup _ _ _ _ _ _

theorem removeMember (id : Handle) (role : Role) (rif : RifId) (member : Handle) :
    Act.Twins (Run.Alike B) Eq (o.removeMember d id role rif member)
      (o'.removeMember d id role rif member) :=
  (request h.hardware _).andBoth fun _ => (changeCache _).andBoth fun _ => act_count _

theorem removeMembers (id : Handle) (role : Role) (members : List Member) :
    Act.Twins (Run.Alike B) Eq (o.removeMembers d id role members)
      (o'.removeMembers d id role members) := by
  induction members with
  | nil => exact .pure rfl
  | cons m rest ih => exact (h.removeMember _ _ _ _).andBoth fun _ => ih

theorem changeMember (id : Handle) (op : Orchestrator.MemberOp) (role : Role) (spec : MemberSpec) :
    Act.Twins (Run.Alike B) Eq (o.changeMember d id op role spec)
      (o'.changeMember d id op role spec) := by
  refine readCache.andBoth fun _ => (ofCache _).andBoth fun g => ?_
  cases op with
  | add =>
    exact (h.addMember _ _ _).andBoth fun _ => (act_count _).andBoth fun _ => act_note _ _
  | delete =>
    exact (ofCache _).andBoth fun _ => (h.removeMember _ _ _ _).andBoth fun _ => act_note _ _
  | update =>
    exact (ofCache _).andBoth fun _ => (lookupPorts h.hardware _).andBoth fun _ =>
      (request h.hardware _).andBoth fun _ => (changeCache _).andBoth fun _ =>
      (act_count _).andBoth fun _ => act_note _ _

/-! Groups -/

theorem undoMade (what context : String) (x : Handle) (c : Call) :
    Effect.Twins (Run.Alike B) Eq (o.undoMade d what context x c)
      (o'.undoMade d what context x c) := by
  unfold Orchestrator.undoMade
  split
  · exact .pure rfl
  · exact undo h.hardware _ _ _

theorem rollBack (draft : Draft) :
    Effect.Twins (Run.Alike B) Eq (o.rollBack d draft) (o'.rollBack d draft) :=
  (h.undoMade _ _ _ _).andBoth fun _ => (h.undoMade _ _ _ _).andBoth fun _ =>
    (undo h.hardware _ _ _).andBoth fun _ => (count _).andBoth fun _ => audit _ _ _ _

theorem buildSubGroup (role : Role) (what : String) (draft : Draft) :
    Act.Twins (Run.Alike B) Eq (o.buildSubGroup d role what draft)
      (o'.buildSubGroup d role what draft) :=
  .orCleanUp (request h.hardware (.createSubGroup role [draft.group])) fun _ =>
    (note _ _).andBoth fun _ => h.rollBack draft

theorem buildGroup (owner : Owner) (needed : Bool) :
    Act.Twins (Run.Alike B) Eq (o.buildGroup d owner needed) (o'.buildGroup d owner needed) := by
  refine (request h.hardware _).andBoth fun _ => Act.Twins.andBoth ?_ fun _ =>
    (h.buildSubGroup _ _ _).andBoth fun _ => .pure rfl
  split
  · exact h.buildSubGroup _ _ _
  · exact .pure rfl

omit h in
theorem dropGroup (id : Handle) :
    Effect.Twins (Run.Alike B) Eq (Orchestrator.dropGroup id) (Orchestrator.dropGroup id) := by
  intro r r' hr
  have hread : Effect.Twins (Run.Alike B) (fun r r' => r.cache = r'.cache)
      (get : Effect σ (Run σ)) (get : Effect σ' (Run σ')) := fun _ _ hr => ⟨hr.cache, hr⟩
  refine Effect.Twins.bind hread (fun r r' hcache => ?_) r r' hr
  rw [hcache]
  cases r'.cache.groups.delete id with
  | ok x =>
    refine Effect.Twins.andBoth (fun r r' hr => ?_) fun _ => count _
    refine ⟨rfl, hr.state, ?_, hr.events⟩
    change { r.cache with groups := x.2 } = { r'.cache with groups := x.2 }
    rw [hr.cache]
  | error e => exact (emit _).andBoth fun _ => (note _ _).andBoth fun _ => count _

theorem addEgressMembers (id : Handle) (specs : List MemberSpec) :
    Effect.Twins (Run.Alike B) Eq (o.addEgressMembers d id specs)
      (o'.addEgressMembers d id specs) := by
  induction specs with
  | nil => exact .pure rfl
  | cons spec rest ih =>
    refine Effect.Twins.bind (h.addMember id .ipmc spec) fun result result' halike => ?_
    cases halike.eq
    cases result with
    | ok _ => exact (count _).andBoth fun _ => ih
    | error _ => exact (note _ _).andBoth fun _ => (count _).andBoth fun _ => ih

theorem makeGroup (owner : Owner) (rpf : MemberSpec) (ipmc : List MemberSpec) :
    Act.Twins (Run.Alike B) Eq (o.makeGroup d owner rpf ipmc) (o'.makeGroup d owner rpf ipmc) := by
  refine readCache.andBoth fun c => ?_
  rw [h.maxGroups]
  split
  · exact .throw _
  · refine (lookup h.hardware _).andBoth fun _ => (lookupPorts h.hardware _).andBoth fun _ =>
      (h.buildGroup _ _).andBoth fun draft => Act.Twins.andBoth ?_ fun _ =>
      (act_count _).andBoth fun _ => Act.Twins.andBoth ?_ fun _ => (act_count _).andBoth fun _ =>
      Act.Twins.andBoth (.lift (h.addEgressMembers _ _)) fun _ => readCache.andBoth fun _ =>
      (act_note _ _).andBoth fun _ => .pure rfl
    · exact .orCleanUp (changeCache _) fun _ => (note _ _).andBoth fun _ => h.rollBack draft
    · exact .orCleanUp (h.addMember _ _ _) fun _ => (note _ _).andBoth fun _ =>
        (dropGroup _).andBoth fun _ => h.rollBack draft

theorem removeSubGroup (id : Handle) (role : Role) (subGroup : Handle) :
    Act.Twins (Run.Alike B) Eq (o.removeSubGroup d id role subGroup)
      (o'.removeSubGroup d id role subGroup) := by
  unfold Orchestrator.removeSubGroup
  split
  · exact (request h.hardware _).andBoth fun _ => changeCache _
  · exact .pure rfl

theorem unmakeGroup (id : Handle) :
    Act.Twins (Run.Alike B) Eq (o.unmakeGroup d id) (o'.unmakeGroup d id) := by
  refine readCache.andBoth fun c => (ofCache _).andBoth fun g => ?_
  split
  · exact .throw _
  · exact (h.removeMembers _ _ _).andBoth fun _ => (h.removeSubGroup _ _ _).andBoth fun _ =>
      (h.removeMembers _ _ _).andBoth fun _ => (h.removeSubGroup _ _ _).andBoth fun _ =>
      (request h.hardware _).andBoth fun _ => (changeCache _).andBoth fun _ =>
      (act_count _).andBoth fun _ => act_note _ _

/-! Routes -/

theorem routeAttrs_eq (g : Group) (iif : Handle) (copyToCpu : Bool) :
    o.routeAttrs g iif copyToCpu = o'.routeAttrs g iif copyToCpu := by
  unfold routeAttrs packetAction
  rw [h.copyAction]

theorem makeRoute (r : Route) :
    Act.Twins (Run.Alike B) Eq (o.makeRoute d r) (o'.makeRoute d r) := by
  unfold Orchestrator.makeRoute
  split
  · refine readCache.andBoth fun _ => (ofCache _).andBoth fun _ =>
      (usableGroup _).andBoth fun g => (entryOf h.hardware _).andBoth fun _ =>
      (lookup h.hardware _).andBoth fun iif => ?_
    rw [h.routeAttrs_eq]
    exact (request h.hardware _).andBoth fun _ => (changeCache _).andBoth fun _ =>
      (act_count _).andBoth fun _ => act_note _ _
  · exact .throw _

theorem unmakeRoute (key : RouteKey) :
    Act.Twins (Run.Alike B) Eq (o.unmakeRoute d key) (o'.unmakeRoute d key) :=
  readCache.andBoth fun _ => (ofCache _).andBoth fun _ => (entryOf h.hardware _).andBoth fun _ =>
    (request h.hardware _).andBoth fun _ => (changeCache _).andBoth fun _ =>
    (act_count _).andBoth fun _ => act_note _ _

theorem writeAttrs (key : RouteKey) (entry : Entry) (replaced : List EntryAttr)
    (changes : List (EntryAttr × EntryAttr)) :
    Act.Twins (Run.Alike B) Eq (o.writeAttrs d key entry replaced changes)
      (o'.writeAttrs d key entry replaced changes) := by
  induction changes generalizing replaced with
  | nil => exact .pure rfl
  | cons change rest ih =>
    rw [Orchestrator.writeAttrs, Orchestrator.writeAttrs]
    refine Act.Twins.andBoth (.orCleanUp (request h.hardware (.setEntry entry change.2))
      fun _ => ?_) fun _ => ih _
    refine Effect.Twins.andBoth (.forM (fun _ => (undo h.hardware _ _ _).andBoth fun _ =>
      .pure rfl) replaced) fun _ => ?_
    split
    · exact count _
    · exact .pure rfl

theorem changeRoute (key : RouteKey) (u : RouteUpdate) :
    Act.Twins (Run.Alike B) Eq (o.changeRoute d key u) (o'.changeRoute d key u) := by
  refine readCache.andBoth fun c => (ofCache _).andBoth fun current =>
    (ofCache _).andBoth fun oldGroup => (usableGroup _).andBoth fun newGroup =>
    (lookup h.hardware _).andBoth fun oldIif => Act.Twins.andBoth ?_ fun newIif => ?_
  · split
    · exact .pure rfl
    · exact lookup h.hardware _
  simp only [h.routeAttrs_eq]
  refine Act.Twins.andBoth ?_ fun _ => (changeCache _).andBoth fun _ =>
    (act_count _).andBoth fun _ => act_note _ _
  split
  · exact .pure rfl
  · exact (entryOf h.hardware _).andBoth fun _ => h.writeAttrs _ _ _ _

omit h in
theorem compareAttrs (key : RouteKey) (found wanted : List EntryAttr) :
    Effect.Twins (Run.Alike B) Eq (Orchestrator.compareAttrs key found wanted)
      (Orchestrator.compareAttrs key found wanted) := by
  induction wanted with
  | nil => exact .pure rfl
  | cons a rest ih =>
    rw [Orchestrator.compareAttrs, Orchestrator.compareAttrs]
    split
    · exact (note _ _).andBoth fun _ => ih.andBoth fun _ => .pure rfl
    · exact ih.andBoth fun _ => .pure rfl

theorem checkRoute (key : RouteKey) :
    Act.Twins (Run.Alike B) Eq (o.checkRoute d key) (o'.checkRoute d key) := by
  refine readCache.andBoth fun _ => (ofCache _).andBoth fun _ => (ofCache _).andBoth fun _ =>
    (lookup h.hardware _).andBoth fun _ => ?_
  simp only [h.routeAttrs_eq]
  exact (entryOf h.hardware _).andBoth fun _ => (request h.hardware _).andBoth fun _ =>
    Act.Twins.andBoth (.lift (compareAttrs _ _ _)) fun _ => .pure rfl

end Orchestrator.Bisimilar

/-! Whole operations -/

structure World.Alike (B : σ → σ' → Prop) (w : World σ) (w' : World σ') : Prop where
  state : B w.state w'.state
  fleet : w.fleet = w'.fleet

structure Outcome.Alike (B : σ → σ' → Prop) (out : Outcome σ α) (out' : Outcome σ' α) : Prop where
  result : out.result = out'.result
  events : withoutAudits out.events = withoutAudits out'.events
  world : out.world.Alike B out'.world

namespace Outcome.Alike

variable {B : σ → σ' → Prop} {w : World σ} {w' : World σ'}

theorem onDevice (hw : w.Alike B w') (d : DeviceId) {act : Act σ α} {act' : Act σ' α}
    (h : Act.Twins (Run.Alike B) Eq act act') :
    Outcome.Alike B (Orchestrator.onDevice w d act) (Orchestrator.onDevice w' d act') := by
  cases hc : w.fleet.find? d with
  | none =>
    rw [Orchestrator.onDevice_of_find?_eq_none hc,
      Orchestrator.onDevice_of_find?_eq_none (hw.fleet ▸ hc)]
    exact ⟨rfl, rfl, hw⟩
  | some c =>
    obtain ⟨hresult, hrun⟩ := h ⟨w.state, c, []⟩ ⟨w'.state, c, []⟩ ⟨hw.state, rfl, rfl⟩
    rw [Orchestrator.onDevice_of_find? hc, Orchestrator.onDevice_of_find? (hw.fleet ▸ hc)]
    refine ⟨hresult.eq, hrun.events, hrun.state, ?_⟩
    dsimp only
    rw [hw.fleet, hrun.cache]

theorem changeFleet (hw : w.Alike B w') (f : Fleet → Except CacheError Fleet) :
    Outcome.Alike B (Orchestrator.changeFleet w f) (Orchestrator.changeFleet w' f) := by
  unfold Orchestrator.changeFleet
  rw [hw.fleet]
  cases f w'.fleet with
  | ok fleet => exact ⟨rfl, rfl, hw.state, rfl⟩
  | error e => exact ⟨rfl, rfl, hw⟩

theorem audited {out : Outcome σ α} {out' : Outcome σ' α} (h : out.Alike B out')
    (o : Orchestrator σ) (o' : Orchestrator σ') (record record' : Audit.Record) :
    Outcome.Alike B (o.audited out record) (o'.audited out' record') := by
  have hevents : ∀ {τ : Type} (o : Orchestrator τ) (out : Outcome τ α) record,
      withoutAudits (o.audited out record).events = withoutAudits out.events := by
    intro τ o out record
    unfold Orchestrator.audited
    split
    · rw [withoutAudits_append]
      exact List.append_nil _
    · rfl
  refine ⟨?_, ?_, ?_⟩
  · rw [Orchestrator.result_audited, Orchestrator.result_audited, h.result]
  · rw [hevents, hevents, h.events]
  · rw [Orchestrator.world_audited, Orchestrator.world_audited]
    exact h.world

theorem noted {out : Outcome σ Unit} {out' : Outcome σ' Unit} (h : out.Alike B out')
    (message : String) :
    Outcome.Alike B (Orchestrator.noted out message) (Orchestrator.noted out' message) := by
  have hevents : withoutAudits (Orchestrator.noted out message).events =
      withoutAudits (Orchestrator.noted out' message).events := by
    unfold Orchestrator.noted
    rw [h.result]
    cases out'.result with
    | ok _ =>
      dsimp only
      rw [withoutAudits_append, withoutAudits_append, h.events]
    | error _ => exact h.events
  refine ⟨?_, hevents, ?_⟩
  · rw [Orchestrator.result_noted, Orchestrator.result_noted, h.result]
  · rw [Orchestrator.world_noted, Orchestrator.world_noted]
    exact h.world

end Outcome.Alike

/-- On hardware that answers alike, operations end alike, and but for the audit records leave the
same trace. -/
theorem Operation.perform_alike {o : Orchestrator σ} {o' : Orchestrator σ'} {B : σ → σ' → Prop}
    (h : o.Bisimilar o' B) {w : World σ} {w' : World σ'} (hw : w.Alike B w') (op : Operation) :
    Outcome.Alike B (op.perform o w) (op.perform o' w') := by
  cases op with
  | attach d | detach d => exact ((Outcome.Alike.changeFleet hw _).audited o o' _ _).noted _
  | createGroup d owner rpf ipmc =>
    exact (Outcome.Alike.onDevice hw d (h.makeGroup owner rpf ipmc)).audited o o' _ _
  | deleteGroup d id => exact (Outcome.Alike.onDevice hw d (h.unmakeGroup id)).audited o o' _ _
  | updateMember d id op role spec =>
    exact (Outcome.Alike.onDevice hw d (h.changeMember id op role spec)).audited o o' _ _
  | addRoute d r => exact (Outcome.Alike.onDevice hw d (h.makeRoute r)).audited o o' _ _
  | deleteRoute d key => exact (Outcome.Alike.onDevice hw d (h.unmakeRoute key)).audited o o' _ _
  | updateRoute d key u =>
    exact (Outcome.Alike.onDevice hw d (h.changeRoute key u)).audited o o' _ _
  | verifyRoute d key => exact Outcome.Alike.onDevice hw d (h.checkRoute key)

end Multicast
