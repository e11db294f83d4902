import Multicast.Proofs.Frame
import Multicast.Proofs.Precondition
import Multicast.Proofs.References

/-! Worlds that anything done to a testbed reaches. Between operations others may call the switch
and overwrite its entries, handles may be misreported and names given a new handle. -/
namespace Multicast

variable {σ α : Type}

/-! The state of the hardware after an operation -/

theorem Orchestrator.onDevice_state {R : σ → σ → Prop} (hrefl : ∀ s, R s s) (w : World σ)
    (d : DeviceId) {act : Act σ α} (hact : act.Keeps fun r r' => R r.state r'.state) :
    R w.state (onDevice w d act).world.state := by
  unfold onDevice
  split
  · exact hrefl w.state
  · next c _ => exact hact ⟨w.state, c, []⟩

theorem Orchestrator.changeFleet_state (w : World σ) (f : Fleet → Except CacheError Fleet) :
    (changeFleet w f).world.state = w.state := by
  rcases changeFleet_cases w f with ⟨_, _, h⟩ | ⟨_, h⟩ <;> rw [h]

/-- Whatever calls and look-ups on its device do to the hardware, an operation does. -/
theorem Operation.perform_state {R : σ → σ → Prop} {o : Orchestrator σ} (op : Operation)
    (hR : CommitFrame o.hardware op.device fun r r' => R r.state r'.state) (w : World σ) :
    R w.state (op.perform o w).world.state := by
  have hrefl : ∀ s, R s s := fun s => hR.refl ⟨s, .empty, []⟩
  cases op with
  | attach d | detach d =>
    simp only [perform, Orchestrator.attach, Orchestrator.detach, Orchestrator.world_noted,
      Orchestrator.world_audited, Orchestrator.changeFleet_state]
    exact hrefl w.state
  | createGroup d owner rpf ipmc =>
    simp only [perform, Orchestrator.createGroup, Orchestrator.world_audited]
    exact Orchestrator.onDevice_state hrefl w d (hR.makeGroup (.ofState hR.toFrame) owner rpf ipmc)
  | deleteGroup d id =>
    simp only [perform, Orchestrator.deleteGroup, Orchestrator.world_audited]
    exact Orchestrator.onDevice_state hrefl w d (hR.unmakeGroup id)
  | updateMember d id op role spec =>
    simp only [perform, Orchestrator.updateMember, Orchestrator.world_audited]
    exact Orchestrator.onDevice_state hrefl w d (hR.changeMember id op role spec)
  | addRoute d r =>
    simp only [perform, Orchestrator.addRoute, Orchestrator.world_audited]
    exact Orchestrator.onDevice_state hrefl w d (hR.makeRoute r)
  | deleteRoute d key =>
    simp only [perform, Orchestrator.deleteRoute, Orchestrator.world_audited]
    exact Orchestrator.onDevice_state hrefl w d (hR.unmakeRoute key)
  | updateRoute d key u =>
    simp only [perform, Orchestrator.updateRoute, Orchestrator.world_audited]
    exact Orchestrator.onDevice_state hrefl w d (hR.changeRoute key u)
  | verifyRoute d key =>
    exact Orchestrator.onDevice_state hrefl w d (hR.checkRoute key)

/-! Other devices in the fleet -/

theorem Orchestrator.find?_onDevice (w : World σ) {d d' : DeviceId} (hd : d' ≠ d)
    (act : Act σ α) : (onDevice w d act).world.fleet.find? d' = w.fleet.find? d' := by
  unfold onDevice
  split
  · rfl
  · exact Table.find?_modify_of_ne _ _ hd

/-- An operation changes the cache of its own device only, and attaches and detaches no other. -/
theorem Operation.find?_perform (o : Orchestrator σ) (op : Operation) (w : World σ) {d : DeviceId}
    (hd : d ≠ op.device) : (op.perform o w).world.fleet.find? d = w.fleet.find? d := by
  cases op with
  | attach d' =>
    simp only [perform, Orchestrator.attach, Orchestrator.world_noted, Orchestrator.world_audited]
    rcases Orchestrator.changeFleet_cases w (·.attach d') with ⟨fleet, hf, h⟩ | ⟨_, h⟩ <;> rw [h]
    rw [(Fleet.attach_eq_ok_iff.mp hf).2]
    exact Table.find?_insert_of_ne _ _ hd
  | detach d' =>
    simp only [perform, Orchestrator.detach, Orchestrator.world_noted, Orchestrator.world_audited]
    rcases Orchestrator.changeFleet_cases w (·.detach d') with ⟨fleet, hf, h⟩ | ⟨_, h⟩ <;> rw [h]
    obtain ⟨_, _, _, heq⟩ := Fleet.detach_eq_ok_iff.mp hf
    rw [heq]
    exact Table.find?_erase_of_ne _ hd
  | createGroup | deleteGroup | updateMember | addRoute | deleteRoute | updateRoute =>
    simp only [perform, Orchestrator.createGroup, Orchestrator.deleteGroup,
      Orchestrator.updateMember, Orchestrator.addRoute, Orchestrator.deleteRoute,
      Orchestrator.updateRoute, Orchestrator.world_audited]
    exact Orchestrator.find?_onDevice w hd _
  | verifyRoute d' key => exact Orchestrator.find?_onDevice w hd _

/-! Names -/

/-- Handles of names were given out, and none twice as long as handles can be told apart. -/
structure Switch.Named (s : Switch) : Prop where
  numbered : ∀ k h, s.mappings.find? k = some h → ∃ i ≤ s.counter, h = .make k.2.kind i
  apart : s.counter < 2 ^ 48 → Mappings.Apart s.mappings

namespace Switch.Named

variable {s s' : Switch}

theorem empty : Switch.empty.Named where
  numbered := fun _ _ h => nomatch h
  apart := fun _ _ _ _ h => nomatch h

theorem of_mappings (h : s.Named) (hm : s'.mappings = s.mappings) (hc : s.counter ≤ s'.counter) :
    s'.Named where
  numbered := by
    intro k x hx
    rw [hm] at hx
    obtain ⟨i, hi, hx⟩ := h.numbered k x hx
    exact ⟨i, Nat.le_trans hi hc, hx⟩
  apart := fun hc' => hm ▸ h.apart (Nat.lt_of_le_of_lt hc hc')

theorem register (h : s.Named) (d : DeviceId) (l : Lookup) : (s.register d l).2.Named where
  numbered := by
    intro k x hx
    change (s.mappings.insert (d, l) (Handle.make l.kind (s.counter + 1))).find? k = some x at hx
    by_cases hk : k = (d, l)
    · subst hk
      rw [Table.find?_insert_self] at hx
      cases hx
      exact ⟨s.counter + 1, Nat.le_refl _, rfl⟩
    · rw [Table.find?_insert_of_ne _ _ hk] at hx
      obtain ⟨i, hi, hx⟩ := h.numbered k x hx
      exact ⟨i, Nat.le_succ_of_le hi, hx⟩
  apart := by
    intro hc
    have hc : s.counter + 1 < 2 ^ 48 := hc
    -- the new handle is none of those before
    have hfresh : ∀ k, s.mappings.find? k ≠ some (.make l.kind (s.counter + 1)) := by
      intro k hk
      obtain ⟨i, hi, heq⟩ := h.numbered k _ hk
      have := Handle.number_eq_of_make_eq hc (by omega) heq
      omega
    intro k k' x hx hx'
    change (s.mappings.insert (d, l) (Handle.make l.kind (s.counter + 1))).find? k = some x at hx
    change (s.mappings.insert (d, l) (Handle.make l.kind (s.counter + 1))).find? k' = some x at hx'
    rw [Table.find?_insert] at hx hx'
    split at hx <;> split at hx'
    · next hk hk' => exact SortKey.code_injective (hk.trans hk'.symm)
    · cases hx
      exact (hfresh k' hx').elim
    · cases hx'
      exact (hfresh k hx).elim
    · exact h.apart (by omega) k k' x hx hx'

theorem call (h : s.Named) (d : DeviceId) (c : Call) : (s.call d c).2.Named :=
  h.of_mappings (s.mappings_call d c) (s.counter_le_call d c)

theorem feed (h : s.Named) (input : Switch.Input) : (s.feed input).Named := by
  cases input with
  | call d c => exact h.call d c
  | register d l => exact h.register d l
  | failNth kind nth status => exact h.of_mappings rfl (Nat.le_refl _)
  | clearFaults => exact h.of_mappings rfl (Nat.le_refl _)

end Switch.Named

/-! Worlds on the bench -/

namespace Testbed

inductive Input where
  | switch (input : Switch.Input)
  | forceAttr (d : DeviceId) (e : Entry) (a : EntryAttr)
  | override (kind : CallKind) (h : Handle)
  | hide (d : DeviceId) (l : Lookup)
  | unhide (d : DeviceId) (l : Lookup)

def feed (t : Testbed) : Input → Testbed
  | .switch input => { t with switch := t.switch.feed input }
  | .forceAttr d e a => { t with switch := t.switch.forceAttr d e a }
  | .override kind h => t.override kind h
  | .hide d l => t.hide d l
  | .unhide d l => t.unhide d l

/-- Overrides change what is reported of a call, and not what it does. -/
theorem call_snd (t : Testbed) (d : DeviceId) (c : Call) :
    (t.call d c).2.switch = (t.switch.call d c).2 ∧ (t.call d c).2.hidden = t.hidden := by
  unfold call
  rcases t.switch.call d c with ⟨⟨result, notes⟩, switch⟩
  cases result <;> exact ⟨rfl, rfl⟩

theorem lookup_snd (t : Testbed) (d : DeviceId) (l : Lookup) : (t.lookup d l).2 = t := by
  rw [lookup_eq]

/-- Look-ups do nothing to a testbed. -/
theorem commitFrame {R : Testbed → Testbed → Prop} {d : DeviceId} (refl : ∀ t, R t t)
    (trans : ∀ {t t' t''}, R t t' → R t' t'' → R t t'') (call : ∀ t c, R t (t.call d c).2) :
    CommitFrame hardware d fun r r' => R r.state r'.state :=
  .ofState refl trans call fun t l => (t.lookup_snd d l).symm ▸ refl t

/-- What calls keep of a switch, operations keep. -/
theorem perform_switch {P : Switch → Prop} (hP : ∀ s d c, P s → P (s.call d c).2)
    {config : Config} {order : RouteOrder} {w : World Testbed} (op : Operation)
    (hw : P w.state.switch) :
    P (op.perform (Orchestrator.bench config order) w).world.state.switch := by
  refine op.perform_state (R := fun t t' => P t.switch → P t'.switch)
    (o := Orchestrator.bench config order) ?_ w hw
  refine commitFrame (R := fun t t' => P t.switch → P t'.switch) (fun _ h => h)
    (fun h h' hs => h' (h hs)) fun t c hs => ?_
  rw [(t.call_snd op.device c).1]
  exact hP t.switch op.device c hs

end Testbed

namespace World

inductive Input where
  /-- Runs an operation, which visits routes in the order given. -/
  | operate (order : RouteOrder) (op : Operation)
  | feed (input : Testbed.Input)

def step (config : Config) (w : World Testbed) : Input → World Testbed
  | .operate order op => (op.perform (Orchestrator.bench config order) w).world
  | .feed input => { w with state := w.state.feed input }

inductive Benched (config : Config) : World Testbed → Prop where
  | start : Benched config (.start .empty)
  | step {w : World Testbed} (input : Input) (h : Benched config w) :
    Benched config (w.step config input)

def run (config : Config) (w : World Testbed) (inputs : List Input) : World Testbed :=
  inputs.foldl (step config) w

variable {config : Config} {w : World Testbed}

theorem Benched.run (h : w.Benched config) (inputs : List Input) :
    (w.run config inputs).Benched config := by
  induction inputs generalizing w with
  | nil => exact h
  | cons input rest ih => exact ih (h.step input)

/-- What happens between operations happens to the hardware alone. -/
theorem Benched.reachable (h : w.Benched config) : w.Reachable config Testbed.hardware := by
  induction h with
  | start => exact .start _
  | step input _ ih =>
    cases input with
    | operate order op => exact ih.perform order op
    | feed input => exact ih.drift _

theorem Benched.numbered (h : w.Benched config) : w.state.switch.Numbered := by
  induction h with
  | start => exact .empty
  | step input _ ih =>
    rcases input with ⟨order, op⟩ | ⟨input | _ | _ | _ | _⟩
    · exact Testbed.perform_switch (fun s d c hs => hs.call d c) op ih
    · exact Switch.Numbered.feed ih input
    all_goals exact ih

theorem Benched.named (h : w.Benched config) : w.state.switch.Named := by
  induction h with
  | start => exact .empty
  | step input _ ih =>
    rcases input with ⟨order, op⟩ | ⟨input | _ | _ | _ | _⟩
    · exact Testbed.perform_switch (fun s d c hs => hs.call d c) op ih
    · exact Switch.Named.feed ih input
    all_goals exact ih.of_mappings rfl (Nat.le_refl _)

end World

end Multicast
