import Multicast.Proofs.Consistency
import Multicast.Proofs.Handle

/-! Reserve, then confirm: an operation asks the cache all that there is to ask before its first
call, and the cache agrees to whatever follows a call that succeeded. -/
namespace Multicast

variable {σ α : Type} {hw : Hardware σ} {max : Nat}

theorem Run.Arrives.refusals {T : Course hw} {r r' : Run σ} {routes : RouteTable}
    (h : r.Arrives T max routes r') : refusals r'.events = refusals r.events := by
  obtain ⟨c, -, -, hr⟩ := h
  exact hr.refusals

theorem Run.Recovers.refusals {T : Course hw} {r r' : Run σ} {c : DeviceCache}
    (h : r.Recovers T c r') : refusals r'.events = refusals r.events := by
  rcases h with h | h <;> exact h.refusals

namespace Run.Fails

variable {r r' : Run σ} {e : OpError} {late late' : Lookup → Prop}

theorem mono (h : r.Fails late' e r') (hlate : ∀ l, late' l → late l) : r.Fails late e r' := by
  cases h with
  | early hkind h => exact .early hkind h
  | hardware h => exact .hardware h _
  | late hl => exact .late (hlate _ hl) _

theorem of_start (h : r.Fails late e r') (hr : r.events = []) :
    (e.kind ≠ .fail ∧ callsOf r'.events = []) ∨ e.OfHardware ∨ ∃ l, late l ∧ e = .unresolved l := by
  cases h with
  | early hkind h =>
    rw [h, hr]
    exact .inl ⟨hkind, rfl⟩
  | hardware h => exact .inr (.inl h)
  | late hl => exact .inr (.inr ⟨_, hl, rfl⟩)

end Run.Fails

/-- The cache refuses no change. A failure comes before the first call, from the hardware, or for
want of a name in `late`. -/
structure Outcome.Confirms (late : Lookup → Prop) (out : Outcome σ α) : Prop where
  refusals : refusals out.events = []
  fails : ∀ e, out.result = .error e →
    (e.kind ≠ .fail ∧ callsOf out.events = []) ∨ e.OfHardware ∨ ∃ l, late l ∧ e = .unresolved l

namespace Outcome.Confirms

variable {late : Lookup → Prop} {w : World σ} {d : DeviceId}

theorem audited {out : Outcome σ α} (h : out.Confirms late) (o : Orchestrator σ)
    (record : Audit.Record) : (o.audited out record).Confirms late :=
  ⟨by simpa using h.refusals, by simpa using h.fails⟩

theorem noted {out : Outcome σ Unit} (h : out.Confirms late) (message : String) :
    (Orchestrator.noted out message).Confirms late := by
  unfold Orchestrator.noted
  split
  · next hresult =>
    refine ⟨?_, fun e he => ?_⟩
    · rw [refusals_append, h.refusals]
      rfl
    · rw [hresult] at he
      cases he
  · exact h

theorem onDevice {act : Act σ α}
    (h : ∀ c, w.fleet.find? d = some c → act.Ends ⟨w.state, c, []⟩
      (fun _ r' => Multicast.refusals r'.events = [])
      fun e r' => Multicast.refusals r'.events = [] ∧ Run.Fails ⟨w.state, c, []⟩ late e r') :
    (Orchestrator.onDevice w d act).Confirms late := by
  cases hc : w.fleet.find? d with
  | none =>
    rw [Orchestrator.onDevice_of_find?_eq_none hc]
    refine ⟨rfl, ?_⟩
    rintro _ ⟨⟩
    exact .inl ⟨(fun h => nomatch h), rfl⟩
  | some c =>
    obtain ⟨r, -, hevents, ⟨_, hresult, hr⟩ | ⟨e, hresult, hr, hfails⟩⟩ :=
      Orchestrator.onDevice_ends hc (h c hc)
    · refine ⟨hevents ▸ hr, fun e he => ?_⟩
      rw [hresult] at he
      cases he
    · refine ⟨hevents ▸ hr, fun e' he => ?_⟩
      obtain rfl := Except.error.inj (hresult.symm.trans he)
      rw [hevents]
      exact hfails.of_start rfl

theorem onDevice_of_carries {T : Course hw} {f : RouteTable → RouteTable}
    {late' : Run σ → Lookup → Prop} {act : Act σ α} (hw : w.Intact max)
    (h : act.Carries T max f late')
    (hlate : ∀ c l, w.fleet.find? d = some c → late' ⟨w.state, c, []⟩ l → late l) :
    (Orchestrator.onDevice w d act).Confirms late := by
  refine onDevice fun c hc => (h _ (hw d c hc)).mono (fun _ _ h => h.refusals) ?_
  exact fun _ _ ⟨hr, hfails⟩ => ⟨hr.refusals, hfails.mono fun l => hlate c l hc⟩

theorem changeFleet {f : Fleet → Except CacheError Fleet} (hf : Blameless (f w.fleet)) :
    (Orchestrator.changeFleet w f).Confirms late := by
  unfold Orchestrator.changeFleet
  split
  · exact ⟨rfl, fun _ h => nomatch h⟩
  · next e he =>
    refine ⟨rfl, ?_⟩
    rintro _ ⟨⟩
    exact .inl ⟨hf e he, rfl⟩

end Outcome.Confirms

namespace Operation

/-- The hardware gives a new group a handle that is not cached of its device. -/
def NamesAfresh (hw : Hardware σ) (w : World σ) : Operation → Prop
  | .createGroup d owner rpf _ =>
    ∀ c, w.fleet.find? d = some c → hw.NamesAfresh d owner rpf c w.state
  | _ => True

/-- Names that an operation may fail to look up once it has made calls. -/
def Late (T : Course hw) (w : World σ) : Operation → Lookup → Prop
  | .createGroup d _ _ _, l => T.Finds d l w.state ∧ T.Misses d l w.state
  | .updateMember d id op role _, l =>
    op = .add ∧ role = .ipmc ∧ ∃ c g, w.fleet.find? d = some c ∧ c.groups.find? id = some g ∧
      g.ipmcGroup.isNull = true ∧ T.MissesRouter d g.routeKeys l w.state
  | _, _ => False

theorem perform_confirms {o : Orchestrator σ} (T : Course o.hardware) {w : World σ}
    (hw : w.Intact o.config.maxGroups) {op : Operation}
    (hnull : ¬T.Gives op.device .rpf .null w.state) (hfresh : op.NamesAfresh o.hardware w) :
    (op.perform o w).Confirms (op.Late T w) := by
  cases op with
  | attach d =>
    exact ((Outcome.Confirms.changeFleet (w.fleet.attach_blameless d)).audited o _).noted _
  | detach d =>
    exact ((Outcome.Confirms.changeFleet (w.fleet.detach_blameless d)).audited o _).noted _
  | createGroup d owner rpf ipmc =>
    refine (Outcome.Confirms.onDevice fun c hc => ?_).audited o _
    refine (Orchestrator.makeGroup_ends T d owner rpf ipmc ⟨w.state, c, []⟩).mono
      (fun _ _ h => h.refusals) fun e r' h => ?_
    exact ⟨(h.recovers (hfresh c hc)).refusals, h.fails (hfresh c hc) hnull⟩
  | deleteGroup d id =>
    refine (Outcome.Confirms.onDevice fun c hc => ?_).audited o _
    refine (Orchestrator.unmakeGroup_ends T d id (hw d c hc)).mono (fun _ _ h => h.refusals) ?_
    exact fun _ _ h => ⟨h.1.refusals, h.2⟩
  | updateMember d id op role spec =>
    refine (Outcome.Confirms.onDevice_of_carries hw
      (Orchestrator.changeMember_carries T d _ id op role spec) ?_).audited o _
    rintro c l hc ⟨hop, hrole, g, hg⟩
    exact ⟨hop, hrole, c, g, hc, hg⟩
  | addRoute d route =>
    exact (Outcome.Confirms.onDevice_of_carries hw
      (Orchestrator.makeRoute_carries T d _ route) fun _ _ _ h => h).audited o _
  | deleteRoute d key =>
    exact (Outcome.Confirms.onDevice_of_carries hw
      (Orchestrator.unmakeRoute_carries T d _ key) fun _ _ _ h => h).audited o _
  | updateRoute d key u =>
    exact (Outcome.Confirms.onDevice_of_carries hw
      (Orchestrator.changeRoute_carries T d _ key u) fun _ _ _ h => h).audited o _
  | verifyRoute d key =>
    exact Outcome.Confirms.onDevice_of_carries hw
      (Orchestrator.checkRoute_carries T d _ key) fun _ _ _ h => h

end Operation

/-- Once a call has been made the cache refuses nothing, as long as ingress sub-groups are not null
and new groups have handles that are not cached. What it denies it denies before the first call, and
it is never found inconsistent. -/
theorem reachable_commits_confirmed {config : Config} {w : World σ} (h : w.Reachable config hw)
    (hnull : ∀ d groups s, (hw.call d (.createSubGroup .rpf groups) s).1.result ≠ .ok Handle.null)
    (order : RouteOrder) (op : Operation) (hfresh : op.NamesAfresh hw w) :
    let out := op.perform ⟨config, hw, order⟩ w
    refusals out.events = [] ∧
      (∀ e, out.result = .error (.cache e) →
        callsOf out.events = [] ∧ ∀ why, e ≠ .inconsistent why) ∧
      ∀ (q : Question) why, q.ask w ≠ .error (.cache (.inconsistent why)) := by
  intro out
  have hconfirms : out.Confirms _ := op.perform_confirms (o := ⟨config, hw, order⟩) (.any hw)
    h.intact (fun ⟨s, groups, _, hgiven⟩ => hnull op.device groups s hgiven) hfresh
  refine ⟨hconfirms.refusals, fun e he => ?_, fun q why he => ?_⟩
  · rcases hconfirms.fails _ he with ⟨hkind, hcalls⟩ | ⟨_, _, h⟩ | ⟨_, _, h⟩
    · refine ⟨hcalls, ?_⟩
      rintro why rfl
      exact hkind rfl
    · cases h
    · cases h
  · exact q.ask_blameless h.intact he rfl

namespace Switch

variable {s : Switch} {d : DeviceId}

/-- A call that succeeds has passed the faults. -/
theorem exists_perform_of_call {c : Call} {reply : c.Reply}
    (h : (hardware.call d c s).1.result = .ok reply) :
    ∃ s₀ s' : Switch, s₀.counter = s.counter ∧ s₀.perform d c = .ok (reply, s') := by
  simp only [hardware, call] at h
  split at h
  · cases h
  · split at h
    · next reply' s' hperform =>
      cases h
      exact ⟨_, s', by rfl, hperform⟩
    · cases h

theorem call_createGroup_eq {owners : List Owner} {h : Handle}
    (hcall : (hardware.call d (.createGroup owners) s).1.result = .ok h) :
    h = .make .group (s.counter + 1) := by
  obtain ⟨s₀, s', hcounter, hperform⟩ := exists_perform_of_call hcall
  cases hperform
  rw [hcounter]

theorem call_createSubGroup_ne_null (s : Switch) (d : DeviceId) (role : Role)
    (groups : List Handle) :
    (hardware.call d (.createSubGroup role groups) s).1.result ≠ .ok Handle.null := by
  intro hcall
  obtain ⟨s₀, s', -, hperform⟩ := exists_perform_of_call hcall
  cases groups with
  | nil => cases hperform
  | cons group rest =>
    obtain ⟨_, _, hinsert⟩ := Except.bind_eq_ok_iff.mp hperform
    have hnull : (Handle.make (.subGroup role) (s₀.counter + 1)).isNull = Handle.null.isNull :=
      congrArg (fun x => x.1.isNull) (Except.ok.inj hinsert)
    rw [Handle.isNull_make] at hnull
    cases hnull

theorem lookupPorts_snd (d : DeviceId) (ports : List Port) (s : Switch) :
    (hardware.lookupPorts d ports s).2 = s := by
  induction ports with
  | nil => rfl
  | cons p rest ih =>
    have hlookup : hardware.lookup d (.port p) s = (s.mappings.find? (d, .port p), s) := rfl
    rw [Hardware.lookupPorts, hlookup]
    cases s.mappings.find? (d, Lookup.port p) with
    | none => rfl
    | some h =>
      dsimp only
      rcases hrest : hardware.lookupPorts d rest s with ⟨_ | _, s'⟩ <;>
        · rw [hrest] at ih
          exact ih

/-- Looking a name up changes nothing. -/
theorem lookedUp_eq (d : DeviceId) (spec : MemberSpec) (s : Switch) :
    hardware.lookedUp d spec s = s :=
  lookupPorts_snd d spec.ports s

end Switch

/-- A second group, for which one egress member is asked twice. -/
theorem reachable_commits_confirmed_routed :
    let op : Operation := .createGroup ⟨1⟩ .ipmc ⟨⟨10⟩, []⟩ [⟨⟨10⟩, []⟩, ⟨⟨10⟩, []⟩]
    let out := op.perform ⟨{}, Switch.hardware, .ascending⟩ World.routed
    out.result.isOk = true ∧ refusals out.events = [] ∧
      ∀ why, (Question.consistency ⟨1⟩).ask World.routed ≠
        .error (.cache (.inconsistent why)) := by
  intro op out
  have hreached : World.routed.Reachable {} Switch.hardware :=
    .perform .ascending _ (.perform .ascending _ (.perform .ascending _ (.start _)))
  have hfresh : op.NamesAfresh Switch.hardware World.routed := by
    intro c hc h hgroup
    have hfree : ((World.routed.fleet.find? ⟨1⟩).elim false fun c =>
        (c.groups.find? (.make .group (World.routed.state.counter + 1))).isNone) = true := by
      decide +kernel
    rw [hc] at hfree
    rw [Switch.call_createGroup_eq hgroup, Switch.lookedUp_eq]
    exact Option.isNone_iff_eq_none.mp hfree
  have h := reachable_commits_confirmed hreached
    (fun d groups s => s.call_createSubGroup_ne_null d .rpf groups) .ascending op hfresh
  exact ⟨by decide +kernel, h.1, h.2.2 (.consistency ⟨1⟩)⟩

end Multicast
