import Multicast.Orchestrator.Act

/-! What a step of an operation ends in, stated of the result and the run after it. The rules
follow the steps: a step in sequence ends as its second part does from wherever the first ends. -/
namespace Multicast

variable {σ α β : Type}

/-- Started in `r`, the step ends in a result and a run with `Q`. -/
def Effect.Ends (x : Effect σ α) (r : Run σ) (Q : α → Run σ → Prop) : Prop :=
  Q (x.run r).1 (x.run r).2

/-- Started in `r`, the step succeeds with `Q` or fails with `E`. -/
def Act.Ends (x : Act σ α) (r : Run σ) (Q : α → Run σ → Prop) (E : OpError → Run σ → Prop) :
    Prop :=
  Effect.Ends x.run r fun result r' =>
    match result with
    | .ok a => Q a r'
    | .error e => E e r'

namespace Effect

variable {Q P : α → Run σ → Prop} {r : Run σ}

theorem Ends.mono {x : Effect σ α} (h : Ends x r Q) (hQ : ∀ a r', Q a r' → P a r') :
    Ends x r P :=
  hQ _ _ h

theorem Ends.and {x : Effect σ α} (h : Ends x r Q) (h' : Ends x r P) :
    Ends x r fun a r' => Q a r' ∧ P a r' :=
  ⟨h, h'⟩

theorem ends_bind {x : Effect σ α} {f : α → Effect σ β} {Q : β → Run σ → Prop} :
    Ends (x >>= f) r Q ↔ Ends x r fun a r' => Ends (f a) r' Q := Iff.rfl

theorem Ends.bind {x : Effect σ α} {f : α → Effect σ β} {Q : β → Run σ → Prop} (h : Ends x r P)
    (hf : ∀ a r', P a r' → Ends (f a) r' Q) : Ends (x >>= f) r Q :=
  hf _ _ h

theorem ends_get {Q : Run σ → Run σ → Prop} : Ends get r Q ↔ Q r r := Iff.rfl

theorem ends_call {hw : Hardware σ} {d : DeviceId} {undo : Bool} {c : Call}
    {Q : Except HardwareError c.Reply → Run σ → Prop} :
    Ends (call hw d undo c) r Q ↔
      Q (hw.call d c r.state).1.result ⟨(hw.call d c r.state).2, r.cache,
        r.events ++ (hw.call d c r.state).1.notes.map .log ++
          [.call d c undo (failure? (hw.call d c r.state).1.result)]⟩ := Iff.rfl

end Effect

namespace Act

variable {Q P : α → Run σ → Prop} {E F : OpError → Run σ → Prop} {r : Run σ}

theorem Ends.mono {x : Act σ α} (h : Ends x r Q E) (hQ : ∀ a r', Q a r' → P a r')
    (hE : ∀ e r', E e r' → F e r') : Ends x r P F := by
  refine Effect.Ends.mono h fun result r' h => ?_
  cases result with
  | ok a => exact hQ a r' h
  | error e => exact hE e r' h

theorem Ends.and {x : Act σ α} (h : Ends x r Q E) (h' : Ends x r P F) :
    Ends x r (fun a r' => Q a r' ∧ P a r') fun e r' => E e r' ∧ F e r' := by
  unfold Ends Effect.Ends at *
  cases hx : (x.run.run r).1 with
  | ok a => rw [hx] at h h'; exact ⟨h, h'⟩
  | error e => rw [hx] at h h'; exact ⟨h, h'⟩

theorem ends_pure {a : α} : Ends (pure a : Act σ α) r Q E ↔ Q a r := Iff.rfl

theorem ends_throw {e : OpError} : Ends (throw e : Act σ α) r Q E ↔ E e r := Iff.rfl

theorem ends_lift {x : Effect σ α} : Ends (ExceptT.lift x : Act σ α) r Q E ↔ x.Ends r Q := Iff.rfl

theorem ends_bind {x : Act σ α} {f : α → Act σ β} {Q : β → Run σ → Prop} :
    Ends (x >>= f) r Q E ↔ Ends x r (fun a r' => Ends (f a) r' Q E) E := by
  change Effect.Ends (x.run >>= ExceptT.bindCont f) r _ ↔ Effect.Ends x.run r _
  rw [Effect.ends_bind]
  unfold Effect.Ends
  cases (x.run.run r).1 <;> rfl

theorem ends_orCleanUp {x : Act σ α} {cleanUp : OpError → Effect σ Unit} :
    Ends (x.orCleanUp cleanUp) r Q E ↔
      Ends x r Q fun e r' => (cleanUp e).Ends r' fun _ r'' => E e r'' := by
  unfold Act.orCleanUp
  simp only [tryCatch, tryCatchThe, MonadExceptOf.tryCatch, ExceptT.tryCatch]
  change Effect.Ends (x.run >>= fun _ => _) r _ ↔ Effect.Ends x.run r _
  rw [Effect.ends_bind]
  unfold Effect.Ends
  cases (x.run.run r).1 <;> rfl

theorem Ends.bind {x : Act σ α} {f : α → Act σ β} {Q : β → Run σ → Prop} (h : Ends x r P F)
    (hf : ∀ a r', P a r' → Ends (f a) r' Q E) (hE : ∀ e r', F e r' → E e r') :
    Ends (x >>= f) r Q E :=
  ends_bind.mpr (h.mono hf hE)

/-- The first step fails only as the whole may. -/
theorem Ends.andThen {x : Act σ α} {f : α → Act σ β} {Q : β → Run σ → Prop} (h : Ends x r P E)
    (hf : ∀ a r', P a r' → Ends (f a) r' Q E) : Ends (x >>= f) r Q E :=
  h.bind hf fun _ _ h => h

theorem Ends.orCleanUp {x : Act σ α} {cleanUp : OpError → Effect σ Unit} (h : Ends x r Q F)
    (hE : ∀ e r', F e r' → (cleanUp e).Ends r' fun _ r'' => E e r'') :
    Ends (x.orCleanUp cleanUp) r Q E :=
  ends_orCleanUp.mpr (h.mono (fun _ _ h => h) hE)

/-- What is said of the error alone stays true while cleaning up. -/
theorem Ends.orCleanUp_of_error {x : Act σ α} {cleanUp : OpError → Effect σ Unit}
    {F : OpError → Prop} (h : Ends x r Q fun e _ => F e) :
    Ends (x.orCleanUp cleanUp) r Q fun e _ => F e :=
  h.orCleanUp fun _ _ h => h

theorem ends_cache {Q : DeviceCache → Run σ → Prop} : Ends cache r Q E ↔ Q r.cache r := Iff.rfl

theorem ends_ofCache {x : Except CacheError α} :
    Ends (ofCache x : Act σ α) r Q E ↔
      (∀ a, x = .ok a → Q a r) ∧ ∀ e, x = .error e → E (.cache e) r := by
  cases x <;> simp [ofCache, ends_pure, ends_throw]

theorem ends_changeCache {f : DeviceCache → Except CacheError DeviceCache}
    {Q : Unit → Run σ → Prop} :
    Ends (changeCache f) r Q E ↔
      (∀ c, f r.cache = .ok c → Q () { r with cache := c }) ∧
        ∀ e, f r.cache = .error e →
          E (.cache e) { r with events := r.events ++ [.refusal e] } := by
  rw [changeCache, ends_bind, ends_cache]
  cases f r.cache with
  | ok c =>
    simp [ends_lift, Effect.Ends]
    rfl
  | error e =>
    simp [ends_bind, ends_lift, ends_throw, Effect.Ends, Effect.emit]
    rfl

theorem ends_call {hw : Hardware σ} {d : DeviceId} {undo : Bool} {c : Call}
    {Q : c.Reply → Run σ → Prop} :
    Ends (call hw d undo c) r Q E ↔
      (Effect.call hw d undo c).Ends r fun result r' =>
        match result with
        | .ok a => Q a r'
        | .error e => E (.hardware c.kind e) r' := by
  rw [call, ends_bind, ends_lift]
  unfold Effect.Ends
  cases ((Effect.call hw d undo c).run r).1 <;> rfl

theorem ends_lookup {hw : Hardware σ} {d : DeviceId} {l : Lookup} {Q : Handle → Run σ → Prop} :
    Ends (lookup hw d l) r Q E ↔
      match (hw.lookup d l r.state).1 with
      | some h => Q h { r with state := (hw.lookup d l r.state).2 }
      | none => E (.unresolved l) { r with state := (hw.lookup d l r.state).2 } := by
  rw [lookup, ends_bind, ends_lift]
  change Ends (match (hw.lookup d l r.state).1 with
    | some h => _
    | none => _) _ _ _ ↔ _
  cases (hw.lookup d l r.state).1 <;> rfl

theorem ends_lookupPorts {hw : Hardware σ} {d : DeviceId} {ports : List Port}
    {Q : List Handle → Run σ → Prop} :
    Ends (lookupPorts hw d ports) r Q E ↔
      match (hw.lookupPorts d ports r.state).1 with
      | .ok l => Q l { r with state := (hw.lookupPorts d ports r.state).2 }
      | .error l => E (.unresolved l) { r with state := (hw.lookupPorts d ports r.state).2 } := by
  rw [lookupPorts, ends_bind, ends_lift]
  change Ends (match (hw.lookupPorts d ports r.state).1 with
    | .ok l => _
    | .error l => _) _ _ _ ↔ _
  cases (hw.lookupPorts d ports r.state).1 <;> rfl

/-! Steps that cannot fail, before going on -/

theorem Ends.lift {x : Effect σ α} {f : α → Act σ β} {Q : β → Run σ → Prop} (h : x.Ends r P)
    (hf : ∀ a r', P a r' → (f a).Ends r' Q E) : Ends (ExceptT.lift x >>= f) r Q E :=
  ends_bind.mpr (ends_lift.mpr (h.mono hf))

/-! Reading the cache before going on -/

theorem Ends.cache {f : DeviceCache → Act σ β} {Q : β → Run σ → Prop}
    (h : (f r.cache).Ends r Q E) : (cache >>= f).Ends r Q E :=
  ends_bind.mpr h

theorem Ends.ofCache {x : Except CacheError α} {f : α → Act σ β} {Q : β → Run σ → Prop}
    (h : ∀ a, x = .ok a → (f a).Ends r Q E) (hE : ∀ e, E e r) : (ofCache x >>= f).Ends r Q E :=
  ends_bind.mpr (ends_ofCache.mpr ⟨h, fun e _ => hE (.cache e)⟩)

end Act

end Multicast
