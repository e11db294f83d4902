import Multicast.Proofs.Precondition

/-! Runs with no fault pending and every undo call done. Calls that the switch has no reason to
refuse succeed there, so that a step fails only for want of what its caller should have seen to. -/
namespace Multicast

variable {b : Opening} {t : Testbed} {n : Nat} {d : DeviceId}
  {items : List (Handle × Switch.Object)} {E E' : Programming} {r : Run Testbed}

/-- Nothing keeps the calls of the run from succeeding: no fault is pending, and `n` more handles
can be told apart. Names resolve as on `t`. -/
structure Steady (b : Opening) (t : Testbed) (n : Nat) (items : List (Handle × Switch.Object))
    (E : Programming) (r : Run Testbed) : Prop extends Accounts b items E r where
  names : ∀ d l, (r.state.lookup d l).1 = (t.lookup d l).1
  faults : r.state.switch.faults = []
  room : r.state.switch.counter + n < 2 ^ 48
  undone : b.failures + failedUndos r.events = 0

namespace Steady

theorem of_eq (h : Steady b t n items E r) {r' : Run Testbed} (hs : r'.state = r.state)
    (he : r'.events = r.events) : Steady b t n items E r' := by
  have ha := h.toAccounts.of_eq hs he
  obtain ⟨_, hnames, hfaults, hroom, hundone⟩ := h
  rw [← hs] at hnames hfaults hroom
  rw [← he] at hundone
  exact ⟨ha, hnames, hfaults, hroom, hundone⟩

theorem emit (h : Steady b t n items E r) {e : Event} (he : e.isFailedUndo = false) :
    Steady b t n items E { r with events := r.events ++ [e] } := by
  refine ⟨h.toAccounts.emit he, h.names, h.faults, h.room, ?_⟩
  have hzero : failedUndos [e] = 0 := by
    simp [failedUndos, he]
  rw [failedUndos_append, hzero]
  exact h.undone

theorem count_lt (h : Steady b t n items E r) : r.state.switch.counter < 2 ^ 48 := by
  have := h.room
  omega

theorem stocked (h : Steady b t n items E r) :
    Switch.Stock r.state.switch.objects items [] := by
  have hbooks := h.books
  rw [h.undone] at hbooks
  exact hbooks.stocked h.count_lt

theorem less {k : Nat} (h : Steady b t (n + k) items E r) : Steady b t n items E r := by
  refine { h with room := ?_ }
  have := h.room
  omega

/-- A call that the switch has no reason to refuse succeeds. -/
theorem request_counted {call : Call} (h : Steady b t (n + call.handles) items E r)
    {items' : call.Reply → List (Handle × Switch.Object)}
    (hturns : call.Turns d items E items' E') (hworks : call.Works d items E) :
    (Act.request Testbed.hardware d call).Ends r
      (fun reply r' => Steady b t n (items' reply) E' r' ∧ r'.cache = r.cache ∧
        r'.state.switch.counter = r.state.switch.counter + call.handles)
      fun _ _ => False := by
  refine ((h.request_ends hturns).and (h.request_works h.undone h.count_lt hworks)).mono ?_ ?_
  · rintro reply r' ⟨ha, _, hcalled, s, halike, hperform⟩
    obtain ⟨_, hcounter, _⟩ := Switch.perform_stable hperform
    rw [halike.counter] at hcounter
    refine ⟨⟨ha, fun d l => ?_, ?_, ?_, ?_⟩, hcalled.cache, hcounter⟩
    · rw [← h.names, Testbed.lookup_eq, Testbed.lookup_eq, hcalled.hidden, ha.mappings, h.mappings]
    · rw [hcalled.faults, h.faults]
      rfl
    · have := h.room
      omega
    · rw [hcalled.undone]
      exact h.undone
  · rintro _ _ ⟨_, _, hfired, _⟩
    rw [h.faults] at hfired
    cases hfired

theorem request {call : Call} (h : Steady b t (n + call.handles) items E r)
    {items' : call.Reply → List (Handle × Switch.Object)}
    (hturns : call.Turns d items E items' E') (hworks : call.Works d items E) :
    (Act.request Testbed.hardware d call).Ends r
      (fun reply r' => Steady b t n (items' reply) E' r' ∧ r'.cache = r.cache)
      fun _ _ => False :=
  (h.request_counted hturns hworks).mono (fun _ _ h => ⟨h.1, h.2.1⟩) fun _ _ h => h

end Steady

/-! Steps that fail only for their caller -/

/-- The step succeeds if `P` holds. If not it fails, and neither hardware nor cache are at fault. -/
def Act.Decides {σ α : Type} (act : Act σ α) (r : Run σ) (P : Prop) : Prop :=
  act.Ends r (fun _ _ => P) fun e _ => ¬P ∧ e.kind ≠ .fail

namespace Act.Decides

variable {σ α β : Type} {r : Run σ} {P : Prop}

theorem of_succeeds {act : Act σ α} (h : act.Ends r (fun _ _ => True) fun _ _ => False)
    (hP : P) : act.Decides r P :=
  h.mono (fun _ _ _ => hP) fun _ _ h => h.elim

theorem congr {Q : Prop} {act : Act σ α} (h : act.Decides r P) (hPQ : P ↔ Q) : act.Decides r Q :=
  propext hPQ ▸ h

/-- What comes after cannot fail. -/
theorem bind {x : Act σ α} {f : α → Act σ β} (h : x.Decides r P)
    (hf : ∀ a r', P → (f a).Decides r' P) : (x >>= f).Decides r P :=
  Act.Ends.bind h hf fun _ _ h => h

/-- A check of the cache, before going on. -/
theorem ofCache {x : Except CacheError α} {f : α → Act σ β} (hP : P → ∃ a, x = .ok a)
    (hx : Blameless x) (hf : ∀ a, x = .ok a → (f a).Decides r P) :
    (Act.ofCache x >>= f).Decides r P := by
  refine Act.ends_bind.mpr (Act.ends_ofCache.mpr ⟨hf, fun e he => ⟨fun h => ?_, hx e he⟩⟩)
  obtain ⟨a, ha⟩ := hP h
  rw [he] at ha
  cases ha

theorem getGroup {c : DeviceCache} (hr : r.Holds c) {id : Handle} {f : Group → Act σ β}
    (hP : P → ∃ g, c.groups.find? id = some g)
    (hf : ∀ g, c.groups.find? id = some g → (f g).Decides r P) :
    (Act.ofCache (r.cache.groups.get id) >>= f).Decides r P := by
  rw [hr.1]
  refine ofCache (fun h => ?_) (c.groups.get_blameless id) fun g hg => ?_
  · exact (hP h).imp fun _ => GroupTable.get_eq_ok_iff.mpr
  · exact hf g (GroupTable.get_eq_ok_iff.mp hg)

theorem getRoute {c : DeviceCache} (hr : r.Holds c) {key : RouteKey} {f : Route → Act σ β}
    (hP : P → ∃ route, c.routes.find? key = some route)
    (hf : ∀ route, c.routes.find? key = some route → (f route).Decides r P) :
    (Act.ofCache (r.cache.routes.get key) >>= f).Decides r P := by
  rw [hr.2]
  refine ofCache (fun h => ?_) (c.routes.get_blameless key) fun route hroute => ?_
  · exact (hP h).imp fun _ => RouteTable.get_eq_ok_iff.mpr
  · exact hf route (RouteTable.get_eq_ok_iff.mp hroute)

theorem usableGroup {c : DeviceCache} (hr : r.Holds c) {id : Handle} {f : Group → Act σ β}
    (hP : P → c.HasUsable id)
    (hf : ∀ g, c.groups.find? id = some g → g.isComplete = true → (f g).Decides r P) :
    (Act.usableGroup id >>= f).Decides r P := by
  refine Act.Ends.checkUsable (fun g hg => hf g (hr.1 ▸ hg)) fun e hnone hkind =>
    ⟨fun h => ?_, hkind⟩
  obtain ⟨g, hg, hcomplete⟩ := hP h
  rw [hnone g (hr.1 ▸ hg)] at hcomplete
  cases hcomplete

end Act.Decides

namespace Steady

variable {α : Type} {P : Prop}

theorem resolves_iff (h : Steady b t n items E r) {l : Lookup} :
    r.state.Resolves d l ↔ t.Resolves d l := by
  rw [Testbed.Resolves, h.names]
  rfl

theorem resolve_ends (h : Steady b t n items E r) (l : Lookup) :
    (Act.lookup Testbed.hardware d l).Ends r
      (fun x r' => r = r' ∧ b.mappings.find? (d, l) = some x ∧ t.Resolves d l)
      fun e _ => ¬t.Resolves d l ∧ e.kind ≠ .fail := by
  refine ((h.lookup_ends l).and (Act.lookup_resolves d l r)).mono ?_ ?_
  · rintro x _ ⟨⟨rfl, hx⟩, -, hfound⟩
    exact ⟨rfl, hx, h.resolves_iff.mp (Option.isSome_iff_exists.mpr ⟨x, hfound⟩)⟩
  · rintro _ _ ⟨-, -, rfl, hmissing⟩
    exact ⟨mt h.resolves_iff.mpr hmissing, by simp [OpError.kind]⟩

theorem resolveEntry_ends (h : Steady b t n items E r) (key : RouteKey) :
    (Act.entryOf Testbed.hardware d key).Ends r
      (fun e r' => r = r' ∧ entryAt b.mappings d key = some e ∧ t.Resolves d (.vrf key.vrf))
      fun e _ => ¬t.Resolves d (.vrf key.vrf) ∧ e.kind ≠ .fail := by
  refine (h.resolve_ends (.vrf key.vrf)).bind ?_ fun _ _ h => h
  rintro router _ ⟨rfl, hrouter, hresolves⟩
  refine ⟨rfl, ?_, hresolves⟩
  rw [entryAt, hrouter]
  rfl

theorem lookup (h : Steady b t n items E r) {l : Lookup} {f : Handle → Act Testbed α}
    (hP : P → t.Resolves d l)
    (hf : ∀ x, b.mappings.find? (d, l) = some x → t.Resolves d l → (f x).Decides r P) :
    (Act.lookup Testbed.hardware d l >>= f).Decides r P := by
  refine Act.Ends.bind (h.resolve_ends l) ?_ fun _ _ hf => ⟨fun h => hf.1 (hP h), hf.2⟩
  rintro x _ ⟨rfl, hx, hresolves⟩
  exact hf x hx hresolves

theorem entryOf (h : Steady b t n items E r) {key : RouteKey} {f : Entry → Act Testbed α}
    (hP : P → t.Resolves d (.vrf key.vrf))
    (hf : ∀ e, entryAt b.mappings d key = some e → t.Resolves d (.vrf key.vrf) →
      (f e).Decides r P) : (Act.entryOf Testbed.hardware d key >>= f).Decides r P := by
  refine Act.Ends.bind (h.resolveEntry_ends key) ?_ fun _ _ hf => ⟨fun h => hf.1 (hP h), hf.2⟩
  rintro e _ ⟨rfl, he, hresolves⟩
  exact hf e he hresolves

theorem resolvePorts_ends (h : Steady b t n items E r) (ports : List Port) :
    (Act.lookupPorts Testbed.hardware d ports).Ends r
      (fun l r' => r = r' ∧ l.map some = ports.map (fun p => b.mappings.find? (d, .port p)) ∧
        ∀ p ∈ ports, t.Resolves d (.port p))
      fun e _ => (∃ p ∈ ports, ¬t.Resolves d (.port p)) ∧ ∃ l, e = .unresolved l := by
  refine ((h.lookupPorts_ends ports).and (Act.lookupPorts_resolves d ports r)).mono ?_ ?_
  · rintro l _ ⟨⟨rfl, hl⟩, -, -, hresolves⟩
    exact ⟨rfl, hl, fun p hp => h.resolves_iff.mp (hresolves p hp)⟩
  · rintro _ _ ⟨-, -, p, hp, rfl, hmissing⟩
    exact ⟨⟨p, hp, mt h.resolves_iff.mpr hmissing⟩, _, rfl⟩

theorem lookupPorts (h : Steady b t n items E r) {ports : List Port}
    {f : List Handle → Act Testbed α} (hP : P → ∀ p ∈ ports, t.Resolves d (.port p))
    (hf : ∀ l, l.map some = ports.map (fun p => b.mappings.find? (d, .port p)) →
      (∀ p ∈ ports, t.Resolves d (.port p)) → (f l).Decides r P) :
    (Act.lookupPorts Testbed.hardware d ports >>= f).Decides r P := by
  refine Act.Ends.bind (h.resolvePorts_ends ports) ?_ ?_
  · rintro l _ ⟨rfl, hl, hresolves⟩
    exact hf l hl hresolves
  · rintro _ _ ⟨⟨p, hp, hmissing⟩, _, rfl⟩
    exact ⟨fun h => hmissing (hP h p hp), fun h => nomatch h⟩

end Steady

end Multicast
