import Multicast.Proofs.Blameless
import Multicast.Proofs.Change
import Multicast.Proofs.Operation

/-! What a run has come through since an earlier one: the cache it ends with, the states that the
hardware went through, and that the cache refused nothing on the way. -/
namespace Multicast

variable {σ α β : Type} {hw : Hardware σ}

/-! Traces -/

/-- Calls and their errors, in order. -/
def callsOf (events : List Event) : List (DeviceId × Call × Option HardwareError) :=
  events.filterMap fun
    | .call d c _ failure => some (d, c, failure)
    | _ => none

theorem callsOf_append (l l' : List Event) : callsOf (l ++ l') = callsOf l ++ callsOf l' :=
  List.filterMap_append

theorem callsOf_logs (notes : List Log.Line) : callsOf (notes.map .log) = [] := by
  induction notes with
  | nil => rfl
  | cons note rest ih => exact ih

/-- Changes that the cache refused, in order. -/
def refusals (events : List Event) : List CacheError :=
  events.filterMap fun
    | .refusal e => some e
    | _ => none

theorem refusals_append (l l' : List Event) : refusals (l ++ l') = refusals l ++ refusals l' :=
  List.filterMap_append

theorem refusals_logs (notes : List Log.Line) : refusals (notes.map .log) = [] := by
  induction notes with
  | nil => rfl
  | cons note rest ih => exact ih

section

variable (o : Orchestrator σ) (out : Outcome σ α) (record : Audit.Record)

@[simp] theorem callsOf_audited : callsOf (o.audited out record).events = callsOf out.events := by
  unfold Orchestrator.audited
  split
  · exact (callsOf_append _ _).trans (List.append_nil _)
  · rfl

@[simp] theorem refusals_audited :
    refusals (o.audited out record).events = refusals out.events := by
  unfold Orchestrator.audited
  split
  · exact (refusals_append _ _).trans (List.append_nil _)
  · rfl

end

/-- An operation that succeeds has found its device, and ends as its steps do. -/
theorem Orchestrator.audited_onDevice_of_ok {o : Orchestrator σ} {record : Audit.Record}
    {w : World σ} {d : DeviceId} {act : Act σ α} {a : α}
    (hok : (o.audited (onDevice w d act) record).result = .ok a)
    {Q : DeviceCache → α → Run σ → Prop} {E : OpError → Run σ → Prop}
    (h : ∀ c, w.fleet.find? d = some c → act.Ends ⟨w.state, c, []⟩ (Q c) E) :
    ∃ c r, w.fleet.find? d = some c ∧
      (o.audited (onDevice w d act) record).world =
        ⟨r.state, w.fleet.modify d fun _ => r.cache⟩ ∧
      callsOf (o.audited (onDevice w d act) record).events = callsOf r.events ∧ Q c a r := by
  rw [result_audited] at hok
  rw [world_audited, callsOf_audited]
  cases hc : w.fleet.find? d with
  | none =>
    rw [onDevice_of_find?_eq_none hc] at hok
    cases hok
  | some c =>
    obtain ⟨r, hworld, hevents, ⟨a', ha', hr⟩ | ⟨e, he, -⟩⟩ := onDevice_ends hc (h c hc)
    · rw [hok] at ha'
      cases ha'
      exact ⟨c, r, rfl, hworld, congrArg callsOf hevents, hr⟩
    · rw [hok] at he
      cases he

/-! The course of the hardware -/

/-- A relation between states of the hardware that calls and look-ups respect. -/
structure Course (hw : Hardware σ) where
  Leads : σ → σ → Prop
  refl : ∀ s, Leads s s
  trans : ∀ {s s' s''}, Leads s s' → Leads s' s'' → Leads s s''
  call : ∀ d c s, Leads s (hw.call d c s).2
  lookup : ∀ d l s, Leads s (hw.lookup d l s).2

namespace Course

/-- Nothing is known of the states. -/
def any (hw : Hardware σ) : Course hw where
  Leads _ _ := True
  refl _ := trivial
  trans _ _ := trivial
  call _ _ _ := trivial
  lookup _ _ _ := trivial

variable (T : Course hw) {d : DeviceId} {l : Lookup} {s s' : σ}

/-- From `s` on, the name resolves in some state. -/
def Finds (d : DeviceId) (l : Lookup) (s : σ) : Prop :=
  ∃ s' h, T.Leads s s' ∧ (hw.lookup d l s').1 = some h

/-- From `s` on, the name fails to resolve in some state. -/
def Misses (d : DeviceId) (l : Lookup) (s : σ) : Prop :=
  ∃ s', T.Leads s s' ∧ (hw.lookup d l s').1 = none

/-- From `s` on, a create of a sub-group is answered with `h` in some state. -/
def Gives (d : DeviceId) (role : Role) (h : Handle) (s : σ) : Prop :=
  ∃ s' groups, T.Leads s s' ∧ (hw.call d (.createSubGroup role groups) s').1.result = .ok h

/-- A router of these routes is among the names that fail to resolve. -/
def MissesRouter (d : DeviceId) (keys : List RouteKey) (l : Lookup) (s : σ) : Prop :=
  (∃ key ∈ keys, l = .vrf key.vrf) ∧ T.Misses d l s

variable {T}

theorem Finds.of_leads (h : T.Leads s s') (hl : T.Finds d l s') : T.Finds d l s := by
  obtain ⟨s₁, x, hs₁, hx⟩ := hl
  exact ⟨s₁, x, T.trans h hs₁, hx⟩

theorem Misses.of_leads (h : T.Leads s s') (hl : T.Misses d l s') : T.Misses d l s := by
  obtain ⟨s₁, hs₁, hnone⟩ := hl
  exact ⟨s₁, T.trans h hs₁, hnone⟩

theorem lookupPorts (T : Course hw) (d : DeviceId) (ports : List Port) (s : σ) :
    T.Leads s (hw.lookupPorts d ports s).2 ∧
      match (hw.lookupPorts d ports s).1 with
      | .ok _ => ∀ p ∈ ports, T.Finds d (.port p) s
      | .error l => ∃ p ∈ ports, l = .port p ∧ T.Misses d (.port p) s := by
  induction ports generalizing s with
  | nil => exact ⟨T.refl s, fun _ hp => nomatch hp⟩
  | cons p rest ih =>
    have hfirst := T.lookup d (.port p) s
    have hrest := ih (hw.lookup d (.port p) s).2
    rw [Hardware.lookupPorts]
    rcases hp : hw.lookup d (.port p) s with ⟨_ | h, s₁⟩
    · rw [hp] at hfirst
      exact ⟨hfirst, p, List.mem_cons_self, rfl, s, T.refl s, by rw [hp]⟩
    · rw [hp] at hfirst hrest
      have hfound : T.Finds d (.port p) s := ⟨s, h, T.refl s, by rw [hp]⟩
      dsimp only at hrest ⊢
      rcases hl : hw.lookupPorts d rest s₁ with ⟨_ | _, s₂⟩ <;> rw [hl] at hrest
      · obtain ⟨hlast, p', hp', hl', hmissed⟩ := hrest
        exact ⟨T.trans hfirst hlast, p', List.mem_cons_of_mem _ hp', hl', hmissed.of_leads hfirst⟩
      · obtain ⟨hlast, hfinds⟩ := hrest
        refine ⟨T.trans hfirst hlast, List.forall_mem_cons.mpr ⟨hfound, fun p' hp' => ?_⟩⟩
        exact (hfinds p' hp').of_leads hfirst

end Course

/-! Runs -/

/-- The run comes to `r'` with the cache `c`, and the cache refuses nothing on the way. -/
structure Run.Reaches (T : Course hw) (r : Run σ) (c : DeviceCache) (r' : Run σ) : Prop where
  cache : r'.cache = c
  refusals : refusals r'.events = refusals r.events
  course : T.Leads r.state r'.state

/-- The run comes to `r'` by look-ups alone. -/
structure Run.Looks (T : Course hw) (r r' : Run σ) : Prop where
  cache : r'.cache = r.cache
  events : r'.events = r.events
  course : T.Leads r.state r'.state

namespace Run

variable {T : Course hw} {r r' r'' : Run σ} {c c' : DeviceCache}

theorem Reaches.refl (T : Course hw) (r : Run σ) : r.Reaches T r.cache r :=
  ⟨rfl, rfl, T.refl _⟩

theorem Reaches.trans (h : r.Reaches T c r') (h' : r'.Reaches T c' r'') : r.Reaches T c' r'' :=
  ⟨h'.cache, h'.refusals.trans h.refusals, T.trans h.course h'.course⟩

theorem Looks.refl (T : Course hw) (r : Run σ) : r.Looks T r := ⟨rfl, rfl, T.refl _⟩

theorem Looks.reaches (h : r.Looks T r') : r.Reaches T r.cache r' :=
  ⟨h.cache, congrArg Multicast.refusals h.events, h.course⟩

theorem Looks.trans (h : r.Looks T r') (h' : r'.Looks T r'') : r.Looks T r'' :=
  ⟨h'.cache.trans h.cache, h'.events.trans h.events, T.trans h.course h'.course⟩

theorem Reaches.holds (h : r.Reaches T c r') : r'.Holds c := Run.holds_of_eq h.cache

/-- A commit keeps the counters. -/
theorem Reaches.commit (h : r.Reaches T c r') (hc : r'.Commits c' r'')
    (hstats : c'.stats = c.stats) : r.Reaches T c' r'' where
  cache := hc.holds.cache_eq (by rw [hc.stats, h.cache, hstats])
  refusals := by rw [hc.events, h.refusals]
  course := hc.state ▸ h.course

end Run

/-- The run keeps its cache, which refuses nothing. -/
def Still (T : Course hw) (r r' : Run σ) : Prop := r.Reaches T r.cache r'

theorem looks_frame (T : Course hw) (d : DeviceId) : LookupFrame hw d (Run.Looks T) where
  refl := fun r => .refl T r
  trans := fun h h' => h.trans h'
  lookup := fun _ _ => ⟨rfl, rfl, T.lookup _ _ _⟩

theorem still_emit (T : Course hw) (r : Run σ) {s : σ} {events : List Event}
    (hs : T.Leads r.state s) (hevents : refusals events = []) :
    Still T r ⟨s, r.cache, r.events ++ events⟩ := by
  refine ⟨rfl, ?_, hs⟩
  rw [refusals_append, hevents, List.append_nil]

theorem still_call (T : Course hw) (d : DeviceId) (undo : Bool) (c : Call) (r : Run σ) :
    Still T r ((Effect.call hw d undo c).run r).2 := by
  have h : Still T r ⟨_, r.cache, r.events ++ ((hw.call d c r.state).1.notes.map .log ++
      [.call d c undo (Effect.failure? (hw.call d c r.state).1.result)])⟩ :=
    still_emit T r (T.call d c r.state) (by rw [refusals_append, refusals_logs]; rfl)
  rw [← List.append_assoc] at h
  exact h

theorem still_frame (T : Course hw) (d : DeviceId) : Frame hw d (Still T) where
  refl r := .refl T r
  trans h h' := h.trans (h.cache ▸ h')
  lookup r l := ⟨rfl, rfl, T.lookup d l r.state⟩
  log r _ := still_emit T r (T.refl _) rfl
  undoCall r c _ := still_call T d true c r
  neededCall r c := still_call T d false c r

theorem still_rollBack (T : Course hw) (d : DeviceId) : RollBackFrame hw d (Still T) where
  undoGroup r h := still_call T d true (.removeGroup h) r
  audit r _ := still_emit T r (T.refl _) rfl

section

variable {T : Course hw} {d : DeviceId} {r₀ r : Run σ} {c : DeviceCache}

theorem Act.Keeps.still {x : Act σ α} (hx : x.Keeps (Still T)) (h : r₀.Reaches T c r) :
    x.Ends r (fun _ r' => r₀.Reaches T c r') fun _ r' => r₀.Reaches T c r' := by
  have hc := h.cache
  subst hc
  exact (hx.ends r).mono (fun _ _ h' => h.trans h') fun _ _ h' => h.trans h'

theorem Effect.Keeps.still {x : Effect σ α} (hx : x.Keeps (Still T)) (h : r₀.Reaches T c r) :
    x.Ends r fun _ r' => r₀.Reaches T c r' := by
  have hc := h.cache
  subst hc
  exact h.trans (hx r)

theorem Run.Reaches.count (h : r₀.Reaches T c r) (f : Stats → Stats) :
    (Effect.count f).Ends r fun _ r' => r₀.Reaches T (c.counted f) r' := by
  have hc := h.cache
  subst hc
  exact ⟨rfl, h.refusals, h.course⟩

end

/-! Look-ups and calls -/

namespace Act

variable {T : Course hw} {d : DeviceId} {r₀ r : Run σ} {c : DeviceCache}

theorem lookup_ends (T : Course hw) (d : DeviceId) (l : Lookup) (r : Run σ) :
    (lookup hw d l).Ends r
      (fun _ r' => r.Looks T r' ∧ r'.state = (hw.lookup d l r.state).2 ∧ T.Finds d l r.state)
      fun e r' => r.Looks T r' ∧ e = .unresolved l ∧ T.Misses d l r.state := by
  have hlooks := (looks_frame T d).lookup r l
  rw [ends_lookup]
  cases hl : (hw.lookup d l r.state).1 with
  | some h => exact ⟨hlooks, rfl, r.state, h, T.refl _, hl⟩
  | none => exact ⟨hlooks, rfl, r.state, T.refl _, hl⟩

theorem lookupPorts_ends (T : Course hw) (d : DeviceId) (ports : List Port) (r : Run σ) :
    (lookupPorts hw d ports).Ends r
      (fun _ r' => r.Looks T r' ∧ r'.state = (hw.lookupPorts d ports r.state).2 ∧
        ∀ p ∈ ports, T.Finds d (.port p) r.state)
      fun e r' => r.Looks T r' ∧
        ∃ p ∈ ports, e = .unresolved (.port p) ∧ T.Misses d (.port p) r.state := by
  have hlooks := (looks_frame T d).lookups ports r
  have hports := (T.lookupPorts d ports r.state).2
  rw [ends_lookupPorts]
  cases hl : (hw.lookupPorts d ports r.state).1 with
  | ok l =>
    rw [hl] at hports
    exact ⟨hlooks, rfl, hports⟩
  | error l =>
    rw [hl] at hports
    obtain ⟨p, hp, rfl, hmissed⟩ := hports
    exact ⟨hlooks, p, hp, rfl, hmissed⟩

theorem entryOf_ends (T : Course hw) (d : DeviceId) (key : RouteKey) (r : Run σ) :
    (entryOf hw d key).Ends r
      (fun _ r' => r.Looks T r')
      fun e r' => r.Looks T r' ∧ e = .unresolved (.vrf key.vrf) ∧
        T.Misses d (.vrf key.vrf) r.state :=
  (lookup_ends T d (.vrf key.vrf) r).bind (fun _ _ h => h.1) fun _ _ h => h

/-- A call fails with the error of the hardware. -/
theorem call_ends (h : r₀.Reaches T c r) (undo : Bool) (q : Call) :
    (call hw d undo q).Ends r
      (fun a r' => r₀.Reaches T c r' ∧ (hw.call d q r.state).1.result = .ok a)
      fun e r' => r₀.Reaches T c r' ∧ ∃ x, e = .hardware q.kind x := by
  have hstill := ((still_frame T d).act_call_of (still_call T d undo q)).still h
  rw [ends_call] at hstill ⊢
  rw [Effect.ends_call] at hstill ⊢
  cases hresult : (hw.call d q r.state).1.result with
  | ok a =>
    rw [hresult] at hstill
    exact ⟨hstill, rfl⟩
  | error x =>
    rw [hresult] at hstill
    exact ⟨hstill, x, rfl⟩

theorem request_ends (h : r₀.Reaches T c r) (q : Call) :
    (request hw d q).Ends r
      (fun a r' => r₀.Reaches T c r' ∧ (hw.call d q r.state).1.result = .ok a)
      fun e r' => r₀.Reaches T c r' ∧ ∃ x, e = .hardware q.kind x :=
  call_ends h false q

end Act

end Multicast
