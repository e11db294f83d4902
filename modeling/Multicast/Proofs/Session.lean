import Multicast.Proofs.Sound

/-! Sessions of the orchestrator on a testbed that reports handles as they are: what the hardware
has to do with the caches after any of them. -/
namespace Multicast

/-- A testbed under the orchestrator, and all events so far. -/
structure Session where
  world : World Testbed
  events : List Event

namespace Session

def start : Session := ⟨.start .empty, []⟩

inductive Input where
  /-- Runs an operation, which visits routes in the order given. -/
  | operate (order : RouteOrder) (op : Operation)
  | register (d : DeviceId) (l : Lookup)
  | failNth (kind : CallKind) (nth : Nat) (status : Status)
  | clearFaults
  | hide (d : DeviceId) (l : Lookup)
  | unhide (d : DeviceId) (l : Lookup)

/-- A name is registered once. -/
def Input.Allowed (s : Session) : Input → Prop
  | .register d l => s.world.state.switch.mappings.find? (d, l) = none
  | _ => True

def setUp (s : Session) (f : Testbed → Testbed) : Session :=
  { s with world := { s.world with state := f s.world.state } }

def step (config : Config) (s : Session) : Input → Session
  | .operate order op =>
    let out := op.perform ⟨config, Testbed.hardware, order⟩ s.world
    ⟨out.world, s.events ++ out.events⟩
  | .register d l => s.setUp fun t => { t with switch := (t.switch.register d l).2 }
  | .failNth kind nth status =>
    s.setUp fun t => { t with switch := t.switch.failNth kind nth status }
  | .clearFaults => s.setUp fun t => { t with switch := t.switch.clearFaults }
  | .hide d l => s.setUp (·.hide d l)
  | .unhide d l => s.setUp (·.unhide d l)

inductive Reached (config : Config) : Session → Prop where
  | start : Reached config start
  | step {s : Session} {input : Input} (h : Reached config s) (hinput : input.Allowed s) :
    Reached config (s.step config input)

def Sound (config : Config) (s : Session) : Prop :=
  ∃ items E, s.world.Sound config (failedUndos s.events) items E

variable {config : Config} {s : Session}

theorem Sound.step (h : s.Sound config) {input : Input} (hinput : input.Allowed s) :
    (s.step config input).Sound config := by
  obtain ⟨items, E, h⟩ := h
  have hsame : ∀ (k : DeviceId × Lookup) (x : Handle),
      s.world.state.switch.mappings.find? k = some x →
        s.world.state.switch.mappings.find? k = some x := fun _ _ hx => hx
  cases input with
  | operate order op =>
    obtain ⟨items', E', h'⟩ := h.perform order op
    refine ⟨items', E', ?_⟩
    rw [← failedUndos_append] at h'
    exact h'
  | register d l =>
    refine ⟨items, E, h.of_state rfl ?_ (Nat.le_succ _) rfl rfl⟩
    intro k x hx
    have hk : k ≠ (d, l) := by
      rintro rfl
      rw [Input.Allowed, hx] at hinput
      cases hinput
    exact (Table.find?_insert_of_ne _ _ hk).trans hx
  | failNth kind nth status =>
    exact ⟨items, E, h.of_state rfl hsame (Nat.le_refl _) rfl rfl⟩
  | clearFaults => exact ⟨items, E, h.of_state rfl hsame (Nat.le_refl _) rfl rfl⟩
  | hide d l => exact ⟨items, E, h.of_state rfl hsame (Nat.le_refl _) rfl rfl⟩
  | unhide d l => exact ⟨items, E, h.of_state rfl hsame (Nat.le_refl _) rfl rfl⟩

theorem Reached.sound (h : s.Reached config) : s.Sound config := by
  induction h with
  | start => exact ⟨_, _, World.Sound.start config⟩
  | step _ hinput ih => exact ih.step hinput

/-! Sequences of inputs -/

def run (config : Config) (s : Session) (inputs : List Input) : Session :=
  inputs.foldl (step config) s

instance (s : Session) : (input : Input) → Decidable (input.Allowed s)
  | .register _ _ => inferInstanceAs (Decidable (_ = _))
  | .operate .. => .isTrue trivial
  | .failNth .. => .isTrue trivial
  | .clearFaults => .isTrue trivial
  | .hide .. => .isTrue trivial
  | .unhide .. => .isTrue trivial

/-- Each input is allowed when its turn comes. -/
def AllAllowed (config : Config) (s : Session) : List Input → Prop
  | [] => True
  | input :: rest => input.Allowed s ∧ AllAllowed config (s.step config input) rest

instance decidableAllAllowed (config : Config) :
    (s : Session) → (inputs : List Input) → Decidable (AllAllowed config s inputs)
  | _, [] => .isTrue trivial
  | s, input :: rest =>
    haveI := decidableAllAllowed config (s.step config input) rest
    inferInstanceAs (Decidable (_ ∧ _))

theorem Reached.run (h : s.Reached config) {inputs : List Input}
    (hinputs : AllAllowed config s inputs) : (s.run config inputs).Reached config := by
  induction inputs generalizing s with
  | nil => exact h
  | cons input rest ih => exact ih (h.step hinputs.1) hinputs.2

/-- A device with a group, whose ingress is interface 10, and a route on it. -/
def groundwork : List Input :=
  [.register ⟨1⟩ (.port (.lag 1)), .register ⟨1⟩ (.rif ⟨10⟩), .register ⟨1⟩ (.rif ⟨20⟩),
    .register ⟨1⟩ (.vrf ⟨0⟩), .operate .ascending (.attach ⟨1⟩),
    .operate .ascending (.createGroup ⟨1⟩ .ipmc ⟨⟨10⟩, [.lag 1]⟩ []),
    .operate .ascending
      (.addRoute ⟨1⟩ ⟨.starG ⟨0⟩ (.v4 ⟨239, 1, 1, 1⟩), ⟨10⟩, .make .group 5, false⟩)]

end Session

end Multicast
