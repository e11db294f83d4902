import Multicast.Orchestrator.Act

/-! Two runs side by side. Steps are twins when they take related runs to related runs and end in
related values; what follows two such steps may then differ as those values do. -/
namespace Multicast

variable {σ σ' α β γ δ : Type} {S : Run σ → Run σ' → Prop}

/-- Both succeed with related values, or both fail with the same error. -/
def Except.Alike {ε : Type} (Q : α → β → Prop) : Except ε α → Except ε β → Prop
  | .ok a, .ok b => Q a b
  | .error e, .error e' => e = e'
  | _, _ => False

theorem Except.Alike.refl {ε : Type} (x : Except ε α) : Except.Alike Eq x x := by
  cases x <;> rfl

theorem Except.Alike.eq {ε : Type} {x y : Except ε α} (h : Except.Alike Eq x y) : x = y := by
  cases x <;> cases y
  · exact congrArg Except.error h
  · exact h.elim
  · exact h.elim
  · exact congrArg Except.ok h

theorem Except.Alike.mono {ε : Type} {P Q : α → β → Prop} {x : Except ε α} {y : Except ε β}
    (h : Except.Alike P x y) (hQ : ∀ a b, P a b → Q a b) : Except.Alike Q x y := by
  cases x <;> cases y
  · exact h
  · exact h.elim
  · exact h.elim
  · exact hQ _ _ h

theorem Except.Alike.bind {ε : Type} {P : α → β → Prop} {Q : γ → δ → Prop} {x : Except ε α}
    {y : Except ε β} {f : α → Except ε γ} {g : β → Except ε δ} (h : Except.Alike P x y)
    (hf : ∀ a b, P a b → Except.Alike Q (f a) (g b)) : Except.Alike Q (x >>= f) (y >>= g) := by
  cases x <;> cases y
  · exact h
  · exact h.elim
  · exact h.elim
  · exact hf _ _ h

def Effect.Twins (S : Run σ → Run σ' → Prop) (Q : α → β → Prop) (x : Effect σ α)
    (y : Effect σ' β) : Prop :=
  ∀ r r', S r r' → Q (x.run r).1 (y.run r').1 ∧ S (x.run r).2 (y.run r').2

def Act.Twins (S : Run σ → Run σ' → Prop) (Q : α → β → Prop) (x : Act σ α) (y : Act σ' β) :
    Prop :=
  Effect.Twins S (Except.Alike Q) x.run y.run

/-! Steps that cannot fail -/

namespace Effect.Twins

variable {P : α → β → Prop} {Q : γ → δ → Prop}

theorem pure {a : α} {b : β} (h : P a b) : Effect.Twins S P (Pure.pure a) (Pure.pure b) :=
  fun _ _ hS => ⟨h, hS⟩

theorem bind {x : Effect σ α} {y : Effect σ' β} {f : α → Effect σ γ} {g : β → Effect σ' δ}
    (h : Effect.Twins S P x y) (hf : ∀ a b, P a b → Effect.Twins S Q (f a) (g b)) :
    Effect.Twins S Q (x >>= f) (y >>= g) := by
  intro r r' hS
  obtain ⟨hP, hS⟩ := h r r' hS
  exact hf _ _ hP _ _ hS

/-- What the first steps end in does not matter. -/
theorem andThen {x : Effect σ α} {y : Effect σ' β} {f : α → Effect σ γ} {g : β → Effect σ' δ}
    (h : Effect.Twins S P x y) (hf : ∀ a b, Effect.Twins S Q (f a) (g b)) :
    Effect.Twins S Q (x >>= f) (y >>= g) :=
  h.bind fun a b _ => hf a b

/-- What the first steps end in is the same. -/
theorem andBoth {x : Effect σ α} {y : Effect σ' α} {f : α → Effect σ γ} {g : α → Effect σ' δ}
    (h : Effect.Twins S Eq x y) (hf : ∀ a, Effect.Twins S Q (f a) (g a)) :
    Effect.Twins S Q (x >>= f) (y >>= g) :=
  h.bind fun a _ hab => hab ▸ hf a

theorem forM {f : α → Effect σ PUnit} {g : α → Effect σ' PUnit}
    (hf : ∀ a, Effect.Twins S Eq (f a) (g a)) (l : List α) :
    Effect.Twins S Eq (l.forM f) (l.forM g) := by
  induction l with
  | nil => exact pure rfl
  | cons a rest ih => exact (hf a).andThen fun _ _ => ih

end Effect.Twins

/-! Steps that may fail -/

theorem Act.Twins.mono {P Q : α → β → Prop} {x : Act σ α} {y : Act σ' β} (h : Act.Twins S P x y)
    (hQ : ∀ a b, P a b → Q a b) : Act.Twins S Q x y := by
  intro r r' hS
  obtain ⟨hP, hS⟩ := h r r' hS
  exact ⟨hP.mono hQ, hS⟩

theorem Act.run_changeCache (f : DeviceCache → Except CacheError DeviceCache) (r : Run σ) :
    (Act.changeCache f).run.run r = match f r.cache with
      | .ok c => (.ok (), { r with cache := c })
      | .error e => (.error (.cache e), { r with events := r.events ++ [.refusal e] }) := by
  change (match f r.cache with
    | .ok c => (ExceptT.lift (modify fun r => { r with cache := c }) : Act σ Unit)
    | .error e => do
      ExceptT.lift (Effect.emit (.refusal e))
      throw (.cache e) : Act σ Unit).run.run r = _
  cases f r.cache <;> rfl

namespace Act.Twins

variable {P : α → β → Prop} {Q : γ → δ → Prop}

theorem pure {a : α} {b : β} (h : P a b) : Act.Twins S P (Pure.pure a) (Pure.pure b) :=
  Effect.Twins.pure h

theorem throw (e : OpError) : Act.Twins S P (throw e) (throw e) := Effect.Twins.pure rfl

theorem lift {x : Effect σ α} {y : Effect σ' β} (h : Effect.Twins S P x y) :
    Act.Twins S P (ExceptT.lift x) (ExceptT.lift y) :=
  h.bind fun _ _ hP => Effect.Twins.pure hP

theorem bind {x : Act σ α} {y : Act σ' β} {f : α → Act σ γ} {g : β → Act σ' δ}
    (h : Act.Twins S P x y) (hf : ∀ a b, P a b → Act.Twins S Q (f a) (g b)) :
    Act.Twins S Q (x >>= f) (y >>= g) := by
  change Effect.Twins S _ (x.run >>= ExceptT.bindCont f) (y.run >>= ExceptT.bindCont g)
  refine Effect.Twins.bind h fun result result' halike => ?_
  cases result <;> cases result'
  · exact Effect.Twins.pure halike
  · exact halike.elim
  · exact halike.elim
  · exact hf _ _ halike

theorem andBoth {x : Act σ α} {y : Act σ' α} {f : α → Act σ γ} {g : α → Act σ' δ}
    (h : Act.Twins S Eq x y) (hf : ∀ a, Act.Twins S Q (f a) (g a)) :
    Act.Twins S Q (x >>= f) (y >>= g) :=
  h.bind fun a _ hab => hab ▸ hf a

theorem orCleanUp {x : Act σ α} {y : Act σ' β} {c : OpError → Effect σ Unit}
    {c' : OpError → Effect σ' Unit} (h : Act.Twins S P x y)
    (hc : ∀ e, Effect.Twins S Eq (c e) (c' e)) :
    Act.Twins S P (x.orCleanUp c) (y.orCleanUp c') := by
  unfold Act.orCleanUp
  simp only [tryCatch, tryCatchThe, MonadExceptOf.tryCatch, ExceptT.tryCatch]
  change Effect.Twins S _ (x.run >>= fun _ => _) (y.run >>= fun _ => _)
  refine Effect.Twins.bind h fun result result' halike => ?_
  cases result <;> cases result'
  · cases halike
    exact Act.Twins.bind (Act.Twins.lift (hc _)) fun _ _ _ => Act.Twins.throw _
  · exact halike.elim
  · exact halike.elim
  · exact Effect.Twins.pure halike

theorem ofCache {x : Except CacheError α} {y : Except CacheError β} (h : Except.Alike P x y) :
    Act.Twins S P (Act.ofCache x) (Act.ofCache y) := by
  cases x <;> cases y
  · cases h
    exact .throw _
  · exact h.elim
  · exact h.elim
  · exact .pure h

/-- A call that ends alike in both runs. -/
theorem call {hw : Hardware σ} {hw' : Hardware σ'} {d : DeviceId} {undo : Bool} {c : Call}
    (h : Effect.Twins S Eq (Effect.call hw d undo c) (Effect.call hw' d undo c)) :
    Act.Twins S Eq (Act.call hw d undo c) (Act.call hw' d undo c) := by
  refine Act.Twins.bind (Act.Twins.lift h) fun result result' heq => ?_
  subst heq
  cases result with
  | ok a => exact .pure rfl
  | error e => exact .throw _

/-- A change of the cache that both runs refuse alike, or neither. -/
theorem changeCache {f : DeviceCache → Except CacheError DeviceCache}
    (hf : ∀ r r', S r r' → Except.Alike
      (fun c c' => S { r with cache := c } { r' with cache := c' }) (f r.cache) (f r'.cache))
    (hS : ∀ r r' e e', S r r' →
      S { r with events := r.events ++ [e] } { r' with events := r'.events ++ [e'] }) :
    Act.Twins S Eq (Act.changeCache f) (Act.changeCache f) := by
  intro r r' hr
  have halike := hf r r' hr
  rw [run_changeCache, run_changeCache]
  cases hc : f r.cache <;> cases hc' : f r'.cache <;> rw [hc, hc'] at halike
  · exact ⟨congrArg OpError.cache halike, hS r r' _ _ hr⟩
  · exact halike.elim
  · exact halike.elim
  · exact ⟨rfl, halike⟩

end Act.Twins

end Multicast
