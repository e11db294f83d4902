import Multicast.Proofs.Bisimulation
import Multicast.Proofs.Calm
import Multicast.Simulation

/-! What a script of the simulator ends in. A switch that stands alone is one on a testbed that
never lies, so what operations yield there they yield here. -/
namespace Multicast

variable {α β : Type} {config : Config} {d : DeviceId} {x : Option DeviceCache} {k : Nat}

/-- The switch on a testbed that never lies. -/
def Switch.onBench (s : Switch) : Testbed := ⟨s, [], ∅⟩

def World.onBench (w : World Switch) : World Testbed := ⟨w.state.onBench, w.fleet⟩

theorem Switch.hardware_bisimilar :
    Switch.hardware.Bisimilar Testbed.hardware fun s t => t = s.onBench where
  call := by
    rintro d c s _ rfl
    have hcall := Testbed.call_eq (t := s.onBench) rfl d c
    exact ⟨(congrArg Prod.fst hcall).symm, congrArg Prod.snd hcall⟩
  lookup := by
    rintro d l s _ rfl
    have hlookup := Testbed.lookup_eq s.onBench d l
    exact ⟨(congrArg Prod.fst hlookup).symm, congrArg Prod.snd hlookup⟩

theorem Operation.perform_onBench (config : Config) (op : Operation) (w : World Switch) :
    let out := op.perform (Simulation.orchestrator config) w
    let out' := op.perform (Orchestrator.bench config .ascending) w.onBench
    out.result = out'.result ∧ out'.world = out.world.onBench := by
  have hsame : (Simulation.orchestrator config).Bisimilar
      (Orchestrator.bench config .ascending) _ := ⟨Switch.hardware_bisimilar, rfl, rfl, rfl⟩
  have halike : w.Alike (fun s t => t = s.onBench) w.onBench := ⟨rfl, rfl⟩
  have hout := op.perform_alike hsame halike
  refine ⟨hout.result, ?_⟩
  have hstate := hout.world.state
  have hfleet := hout.world.fleet
  generalize op.perform (Orchestrator.bench config .ascending) w.onBench = out' at hstate hfleet
  obtain ⟨_, _, state, fleet⟩ := out'
  cases hstate
  cases hfleet
  rfl

theorem Switch.resolves_onBench {s : Switch} {l : Lookup} :
    s.onBench.Resolves d l ↔ (s.mappings.find? (d, l)).isSome = true := by
  rw [Testbed.Resolves, Testbed.lookup_eq]
  rfl

namespace Simulation

variable {Q P : α → Run → Prop} {F G : Run → Prop} {r r' r'' : Run}

/-- Started in `r`, the script succeeds with `Q` or fails with `F`. -/
def Script.Ends (s : Script α) (r : Run) (Q : α → Run → Prop) (F : Run → Prop) : Prop :=
  match s.run.run r with
  | (.ok a, r') => Q a r'
  | (.error _, r') => F r'

namespace Script

theorem Ends.mono {s : Script α} (h : s.Ends r Q F) (hQ : ∀ a r', Q a r' → P a r')
    (hF : ∀ r', F r' → G r') : s.Ends r P G := by
  unfold Ends at *
  cases hs : s.run.run r with
  | mk result r' =>
    rw [hs] at h
    cases result with
    | ok a => exact hQ a r' h
    | error _ => exact hF r' h

theorem run_bind (s : Script α) (f : α → Script β) (r : Run) :
    (s >>= f).run.run r =
      match s.run.run r with
      | (.ok a, r') => (f a).run.run r'
      | (.error e, r') => (.error e, r') := by
  change ((s.run >>= ExceptT.bindCont f : StateM Run _).run r) = _
  rw [StateT.run_bind]
  rcases s.run.run r with ⟨_ | a, r'⟩ <;> rfl

theorem Ends.bind {s : Script α} {f : α → Script β} {P : β → Run → Prop} (h : s.Ends r Q F)
    (hf : ∀ a r', Q a r' → (f a).Ends r' P G) (hF : ∀ r', F r' → G r') :
    (s >>= f).Ends r P G := by
  unfold Ends at *
  rw [run_bind]
  cases hs : s.run.run r with
  | mk result r' =>
    rw [hs] at h
    cases result with
    | ok a => exact hf a r' h
    | error _ => exact hF r' h

/-- What comes after a step that cannot fail. -/
theorem Ends.andThen {s : Script α} {f : α → Script β} {P : β → Run → Prop}
    (h : s.Ends r Q fun _ => False) (hf : ∀ a r', Q a r' → (f a).Ends r' P G) :
    (s >>= f).Ends r P G :=
  h.bind hf fun _ h => h.elim

/-- An operation that fails ends the script. -/
theorem Ends.refused {operation : World Switch → Outcome Switch α} {e : OpError}
    (h : (operation r.world).result = .error e)
    (hF : F { r with world := (operation r.world).world }) :
    (perform operation).Ends r Q F := by
  have hrun : (perform operation).run.run r =
      (.error e, { r with world := (operation r.world).world }) := Prod.ext h rfl
  unfold Ends
  rw [hrun]
  exact hF

/-- A question changes nothing. -/
theorem ends_ask {question : World Switch → Except OpError α} {a : α}
    (h : question r.world = .ok a) : (ask question).Ends r (fun a' r' => a' = a ∧ r = r') F := by
  have hask : (ask question).run.run r = (.ok a, r) := Prod.ext h rfl
  unfold Ends
  rw [hask]
  exact ⟨rfl, rfl⟩

theorem Ends.ask {question : World Switch → Except OpError α} {a : α}
    (h : question r.world = .ok a) {f : α → Script β} {P : β → Run → Prop}
    (hf : (f a).Ends r P G) : (ask question >>= f).Ends r P G := by
  refine (ends_ask h).andThen ?_
  rintro _ _ ⟨rfl, rfl⟩
  exact hf

/-- Where the script ends if it succeeds. -/
theorem Ends.reached {s : Script α} (h : s.Ends r Q F) :
    s.Ends r (fun a r' => Q a r' ∧ r' = (s.run.run r).2) F := by
  unfold Ends at *
  cases hs : s.run.run r with
  | mk result r' =>
    rw [hs] at h
    cases result with
    | ok a => exact ⟨h, rfl⟩
    | error _ => exact h

end Script

/-- What is left of scripts once their errors are logged. -/
abbrev Program (α : Type) := OptionT (StateM Run) α

def Program.Ends (s : Program α) (r : Run) (Q : α → Run → Prop) (F : Run → Prop) : Prop :=
  match s.run.run r with
  | (some a, r') => Q a r'
  | (none, r') => F r'

namespace Program

theorem run_bind (s : Program α) (f : α → Program β) (r : Run) :
    (s >>= f).run.run r =
      match s.run.run r with
      | (some a, r') => (f a).run.run r'
      | (none, r') => (none, r') := by
  rw [OptionT.run_bind, Option.elimM, StateT.run_bind]
  rcases s.run.run r with ⟨_ | a, r'⟩ <;> rfl

theorem Ends.bind {s : Program α} {f : α → Program β} {P : β → Run → Prop} (h : s.Ends r Q F)
    (hf : ∀ a r', Q a r' → (f a).Ends r' P G) (hF : ∀ r', F r' → G r') :
    (s >>= f).Ends r P G := by
  unfold Ends at *
  rw [run_bind]
  cases hs : s.run.run r with
  | mk result r' =>
    rw [hs] at h
    cases result with
    | some a => exact hf a r' h
    | none => exact hF r' h

theorem Ends.mono {s : Program α} (h : s.Ends r Q F) (hQ : ∀ a r', Q a r' → P a r')
    (hF : ∀ r', F r' → G r') : s.Ends r P G := by
  unfold Ends at *
  cases hs : s.run.run r with
  | mk result r' =>
    rw [hs] at h
    cases result with
    | some a => exact hQ a r' h
    | none => exact hF r' h

/-- Where the program ends if it succeeds. -/
theorem Ends.reached {s : Program α} (h : s.Ends r Q F) :
    s.Ends r (fun a r' => Q a r' ∧ r' = (s.run.run r).2) F := by
  unfold Ends at *
  cases hs : s.run.run r with
  | mk result r' =>
    rw [hs] at h
    cases result with
    | some a => exact ⟨h, rfl⟩
    | none => exact h

theorem Ends.succeeds {s : Program α} (h : s.Ends r Q fun _ => False) :
    (s.run.run r).1.isSome = true ∧ ∃ a, Q a (s.run.run r).2 := by
  unfold Ends at h
  cases hs : s.run.run r with
  | mk result r' =>
    rw [hs] at h
    cases result with
    | some a => exact ⟨rfl, a, h⟩
    | none => exact h.elim

theorem Ends.fails {s : Program α} (h : s.Ends r (fun _ _ => False) F) :
    (s.run.run r).1.isSome = false ∧ F (s.run.run r).2 := by
  unfold Ends at h
  cases hs : s.run.run r with
  | mk result r' =>
    rw [hs] at h
    cases result with
    | some a => exact h.elim
    | none => exact ⟨rfl, h⟩

/-- An error is logged and prints nothing. -/
theorem run_orReport (heading : String) (s : Script α) (r : Run) :
    (orReport heading s).run.run r =
      match s.run.run r with
      | (.ok a, r') => (some a, r')
      | (.error e, r') =>
        (none, { r' with output := r'.output ++ [.log ⟨.error, heading ++ e.message⟩] }) := by
  unfold orReport
  rw [OptionT.run_bind, OptionT.run_lift, Option.elimM, StateT.run_bind, StateT.run_bind]
  rcases s.run.run r with ⟨_ | a, r'⟩ <;> rfl

theorem Ends.orReport {s : Script α} (h : s.Ends r Q F) (heading : String)
    (hF : ∀ r' line, F r' → G { r' with output := r'.output ++ [.log line] }) :
    Ends (Simulation.orReport heading s) r Q G := by
  unfold Script.Ends at h
  unfold Ends
  rw [run_orReport]
  cases hs : s.run.run r with
  | mk result r' =>
    rw [hs] at h
    cases result with
    | ok a => exact h
    | error e => exact hF r' _ h

end Program

/-- Device `d` alone has changed: its cache is `x` now, the world is calm, and `k` handles were
given out. -/
structure Run.Becomes (config : Config) (r : Run) (d : DeviceId) (x : Option DeviceCache) (k : Nat)
    (r' : Run) : Prop where
  cache : r'.world.fleet.find? d = x
  others : ∀ d', d' ≠ d → r'.world.fleet.find? d' = r.world.fleet.find? d'
  names : r'.world.state.mappings = r.world.state.mappings
  calm : r'.world.onBench.Calm config k
  output : r'.output = r.output

namespace Run.Becomes

theorem refl (hc : r.world.fleet.find? d = x) (h : r.world.onBench.Calm config k) :
    r.Becomes config d x k r :=
  ⟨hc, fun _ _ => rfl, rfl, h, rfl⟩

theorem trans {x' : Option DeviceCache} {k' : Nat} (h : r.Becomes config d x k r')
    (h' : r'.Becomes config d x' k' r'') : r.Becomes config d x' k' r'' :=
  ⟨h'.cache, fun d' hd => (h'.others d' hd).trans (h.others d' hd), h'.names.trans h.names,
    h'.calm, h'.output.trans h.output⟩

/-- What was written before does not matter. -/
theorem relabel (h : r.Becomes config d x k r') (output : List Output) :
    Run.Becomes config { r with output := output } d x k { r' with output := output } :=
  ⟨h.cache, h.others, h.names, h.calm, rfl⟩

theorem intact {c : DeviceCache} (h : r.Becomes config d (some c) k r') :
    c.Intact config.maxGroups := by
  obtain ⟨_, _, hsound⟩ := h.calm.sound
  exact hsound.intact d c h.cache

/-- An operation does to the switch what it does on a testbed. -/
theorem perform (h : r.Becomes config d x k r') (op : Operation) {a : op.Reply}
    {x' : Option DeviceCache} {k' : Nat}
    (hop : (op.perform (Orchestrator.bench config .ascending) r'.world.onBench).Yields config
      r'.world.onBench d a x' k') {F : Run → Prop} :
    (Simulation.perform (op.perform (orchestrator config) ·)).Ends r'
      (fun a' r'' => a' = a ∧ r.Becomes config d x' k' r'') F := by
  obtain ⟨hresult, hworld⟩ := Operation.perform_onBench config op r'.world
  obtain ⟨hyield, hcache, hothers, hnames, hcalm⟩ := hop
  rw [hworld] at hcache hothers hnames hcalm
  rw [hyield] at hresult
  have hrun : (Simulation.perform (op.perform (orchestrator config) ·)).run.run r' =
      (.ok a, { r' with world := (op.perform (orchestrator config) r'.world).world }) :=
    Prod.ext hresult rfl
  unfold Script.Ends
  rw [hrun]
  exact ⟨rfl, h.trans ⟨hcache, hothers, hnames, hcalm, rfl⟩⟩

end Run.Becomes

end Simulation

end Multicast
