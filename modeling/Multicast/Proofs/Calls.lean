import Multicast.Proofs.Accounts
import Multicast.Proofs.Passage

/-! One call: what stays of the switch, and what a run has to show for it. -/
namespace Multicast

/-- Handles that a call uses up. -/
def Call.handles : Call → Nat
  | .createGroup _ | .createSubGroup .. | .createMember .. => 1
  | _ => 0

namespace Switch

variable {s s' : Switch} {d : DeviceId} {c : Call}

theorem perform_stable {reply : c.Reply} (h : s.perform d c = .ok (reply, s')) :
    s'.faults = s.faults ∧ s'.counter = s.counter + c.handles ∧ s'.mappings = s.mappings := by
  cases c with
  | createGroup owners =>
    cases h
    exact ⟨rfl, rfl, rfl⟩
  | createSubGroup role groups =>
    obtain ⟨_, -, hinsert⟩ := insert_of_createSubGroup h
    cases hinsert
    exact ⟨rfl, rfl, rfl⟩
  | createMember role attrs =>
    obtain ⟨_, -, hinsert⟩ := insert_of_createMember h
    cases hinsert
    exact ⟨rfl, rfl, rfl⟩
  | removeGroup h' | removeSubGroup role h' | removeMember role h' =>
    have h := remove_eq_ok (Call.eq_ok_of_map h)
    rw [h]
    exact ⟨rfl, rfl, rfl⟩
  | setMember role h' attr =>
    obtain ⟨-, ports, rfl⟩ := setPorts_of_setMember (Call.eq_ok_of_map h)
    exact ⟨rfl, rfl, rfl⟩
  | createEntry e attrs =>
    rw [(createEntry_eq_ok (Call.eq_ok_of_map h)).2]
    exact ⟨rfl, rfl, rfl⟩
  | removeEntry e =>
    rw [(removeEntry_eq_ok (Call.eq_ok_of_map h)).2]
    exact ⟨rfl, rfl, rfl⟩
  | setEntry e a =>
    rw [(setEntry_eq_ok (Call.eq_ok_of_map h)).2]
    exact ⟨rfl, rfl, rfl⟩
  | readEntry e ids =>
    rw [eq_of_readEntry h]
    exact ⟨rfl, rfl, rfl⟩

/-- A call that gives out a handle leaves the entries alone. -/
theorem entries_of_handles {reply : c.Reply} (hc : c.handles = 1)
    (h : s.perform d c = .ok (reply, s')) : s'.entries = s.entries := by
  cases c with
  | createGroup owners =>
    cases h
    rfl
  | createSubGroup role groups =>
    obtain ⟨_, -, hinsert⟩ := insert_of_createSubGroup h
    cases hinsert
    rfl
  | createMember role attrs =>
    obtain ⟨_, -, hinsert⟩ := insert_of_createMember h
    cases hinsert
    rfl
  | _ => cases hc

/-- Calls use up faults, whether they succeed or not. -/
theorem faults_call (s : Switch) (d : DeviceId) (c : Call) :
    (s.call d c).2.faults = (passFault c.kind s.faults).2 := by
  unfold call
  rcases passFault c.kind s.faults with ⟨_ | status, faults⟩
  · dsimp only
    split
    · next hs => exact (perform_stable hs).1
    · rfl
  · rfl

end Switch

/-! Runs -/

variable {r : Run Testbed}

/-- `r'` is `r` after one call that an operation needs. -/
structure Run.Called (d : DeviceId) (c : Call) (failure : Option HardwareError)
    (r r' : Run Testbed) : Prop where
  cache : r'.cache = r.cache
  hidden : r'.state.hidden = r.state.hidden
  overrides : r'.state.overrides = r.state.overrides
  faults : r'.state.switch.faults = (Switch.passFault c.kind r.state.switch.faults).2
  calls : callsOf r'.events = callsOf r.events ++ [(d, c, failure)]
  undone : failedUndos r'.events = failedUndos r.events

/-- Without overrides the switch answers. -/
theorem Effect.call_called (hover : r.state.overrides = []) (d : DeviceId) (c : Call) :
    (Effect.call Testbed.hardware d false c).Ends r fun result r' =>
      result = (r.state.switch.call d c).1.result ∧
        r'.state.switch = (r.state.switch.call d c).2 ∧
        r.Called d c (Effect.failure? result) r' := by
  have hfaults := r.state.switch.faults_call d c
  have hcall : Testbed.hardware.call d c r.state = _ := Testbed.call_eq hover d c
  rw [Effect.ends_call, hcall]
  generalize r.state.switch.call d c = called at hfaults
  obtain ⟨⟨result, notes⟩, s'⟩ := called
  refine ⟨rfl, rfl, rfl, rfl, rfl, hfaults, ?_, ?_⟩
  · rw [callsOf_append, callsOf_append, callsOf_logs, List.append_nil]
    rfl
  · rw [failedUndos_append, failedUndos_append, failedUndos_logs]
    cases result <;> rfl

theorem Act.request_called (hover : r.state.overrides = []) (d : DeviceId) (c : Call) :
    (Act.request Testbed.hardware d c).Ends r
      (fun reply r' => r.Called d c none r' ∧
        ∃ s, r.state.switch.Alike s ∧ s.perform d c = .ok (reply, r'.state.switch))
      fun e r' => ∃ x, e = .hardware c.kind x ∧ r.Called d c (some x) r' ∧
        r.state.switch.Alike r'.state.switch := by
  rw [Act.request, Act.ends_call]
  refine (Effect.call_called hover d c).mono ?_
  rintro result r' ⟨hresult, hswitch, hcalled⟩
  rw [hswitch]
  rcases r.state.switch.call_cases d c with ⟨x, hx, halike⟩ | ⟨reply, s, halike, hok, hperform⟩
  · obtain rfl := hresult.trans hx
    exact ⟨x, rfl, hcalled, halike⟩
  · obtain rfl := hresult.trans hok
    exact ⟨hcalled, s, halike, hperform⟩

end Multicast
