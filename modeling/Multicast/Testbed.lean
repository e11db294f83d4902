import Multicast.Switch

/-! A switch behind a gateway that misreports handles and a resolver that loses names, both on
demand. What the orchestrator assumes of sound hardware fails here. -/
namespace Multicast

structure Testbed where
  switch : Switch
  /-- Handles that coming creates report in place of their own, the next first. -/
  overrides : List (CallKind × Handle)
  /-- Names that resolve to nothing. -/
  hidden : KeySet (DeviceId × Lookup)

namespace Testbed

def empty : Testbed := ⟨.empty, [], ∅⟩

/-- The handle that a create of `kind` reports, and the overrides that are left. -/
def report (kind : CallKind) (h : Handle) :
    List (CallKind × Handle) → Handle × List (CallKind × Handle)
  | [] => (h, [])
  | o :: rest =>
    if o.1 = kind then (o.2, rest)
    else
      let (h, rest) := report kind h rest
      (h, o :: rest)

/-- Only a create that succeeded uses an override up. -/
def reply (overrides : List (CallKind × Handle)) :
    (c : Call) → c.Reply → c.Reply × List (CallKind × Handle)
  | .createGroup _, h => report .createGroup h overrides
  | .createSubGroup role _, h => report (.createSubGroup role) h overrides
  | .createMember role _, h => report (.createMember role) h overrides
  | _, r => (r, overrides)

def call (d : DeviceId) (c : Call) (t : Testbed) : Answer c.Reply × Testbed :=
  let (answer, switch) := t.switch.call d c
  match answer.result with
  | .ok r =>
    let (r, overrides) := reply t.overrides c r
    (⟨.ok r, answer.notes⟩, { t with switch := switch, overrides := overrides })
  | .error e => (⟨.error e, answer.notes⟩, { t with switch := switch })

def lookup (d : DeviceId) (l : Lookup) (t : Testbed) : Option Handle × Testbed :=
  if t.hidden.contains (d, l) then (none, t)
  else
    let (found, switch) := t.switch.lookup d l
    (found, { t with switch := switch })

def hardware : Hardware Testbed := ⟨call, lookup⟩

/-- The next create of `kind` that succeeds reports `h`. -/
def override (t : Testbed) (kind : CallKind) (h : Handle) : Testbed :=
  { t with overrides := t.overrides ++ [(kind, h)] }

def hide (t : Testbed) (d : DeviceId) (l : Lookup) : Testbed :=
  { t with hidden := KeySet.insert t.hidden (d, l) }

def unhide (t : Testbed) (d : DeviceId) (l : Lookup) : Testbed :=
  { t with hidden := t.hidden.erase (d, l) }

/-- Without overrides and hidden names the testbed answers as the switch does. -/
theorem call_of_overrides_eq_nil (d : DeviceId) (c : Call) {t : Testbed} (h : t.overrides = []) :
    (t.call d c).1 = (t.switch.call d c).1 := by
  have hreply : ∀ r : c.Reply, (reply t.overrides c r).1 = r := by
    cases c <;> simp [reply, report, h]
  unfold call
  split
  next answer switch hcall =>
    rw [hcall]
    split
    next r hr => simp only [hreply, ← hr]
    next e he => simp only [← he]

end Testbed

end Multicast
