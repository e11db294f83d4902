import Multicast.Proofs.Locality
import Multicast.Proofs.RouteHistory

/-! Operations on different routes of a device commute. Each depends on what there is of its own
route and changes nothing else, and the hardware has different entries for the two. -/
namespace Multicast

/-! Changes at different places -/

/-- Sameness of states at some places is sameness at each of them. -/
structure Placewise {σ κ : Type} (R : (κ → Prop) → σ → σ → Prop) : Prop where
  symm : ∀ {K s s'}, R K s s' → R K s' s
  trans : ∀ {K s s' s''}, R K s s' → R K s' s'' → R K s s''
  mono : ∀ {K L s s'}, R K s s' → (∀ x, L x → K x) → R L s s'
  union : ∀ {K L s s'}, R K s s' → R L s s' → R (fun x => K x ∨ L x) s s'

/-- From `s₀`, changes at `K` and then at `L` lead to `s` and `s'`, and the other way round to `t`
and `t'`. If neither change depends on the other, `s'` and `t'` are the same. -/
theorem Placewise.commute {σ κ : Type} {R : (κ → Prop) → σ → σ → Prop} (hR : Placewise R)
    {K L : κ → Prop} (hKL : ∀ x, K x → ¬L x) {s₀ s s' t t' : σ} (hs : R (¬K ·) s₀ s)
    (hs' : R (¬L ·) s s') (ht : R (¬L ·) s₀ t) (ht' : R (¬K ·) t t') (hK : R K s t')
    (hL : R L t s') : R (fun _ => True) s' t' := by
  have hatK : R K s' t' := hR.trans (hR.symm (hR.mono hs' hKL)) hK
  have hatL : R L s' t' :=
    hR.trans (hR.symm hL) (hR.mono ht' fun x hx hK => hKL x hK hx)
  have helsewhere : R (fun x => ¬K x ∧ ¬L x) s' t' := by
    have hback : R (fun x => ¬K x ∧ ¬L x) s' s₀ :=
      hR.symm (hR.trans (hR.mono hs fun _ h => h.1) (hR.mono hs' fun _ h => h.2))
    have hforth : R (fun x => ¬K x ∧ ¬L x) s₀ t' :=
      hR.trans (hR.mono ht fun _ h => h.2) (hR.mono ht' fun _ h => h.1)
    exact hR.trans hback hforth
  refine hR.mono (hR.union (hR.union hatK hatL) helsewhere) fun x _ => ?_
  by_cases hx : K x ∨ L x
  · exact .inl hx
  · exact .inr ⟨fun h => hx (.inl h), fun h => hx (.inr h)⟩

theorem DeviceCache.SameOn.placewise : Placewise DeviceCache.SameOn := ⟨symm, trans, mono, union⟩

theorem Testbed.SameOn.placewise : Placewise Testbed.SameOn := ⟨symm, trans, mono, union⟩

/-! Steps on different routes -/

variable {α β : Type} {d : DeviceId} {k l : RouteKey}

theorem DeviceCache.Paired.commute (hkl : k ≠ l) {c₀ c c' b b' : DeviceCache}
    (hk : Paired k c₀ b c b') (hl : Paired l c₀ c b c') : c' = b' := by
  have hsame : c'.SameOn (fun _ => True) b' :=
    SameOn.placewise.commute (fun _ h h' => hkl (h.symm.trans h')) hk.left hl.right hl.left
      hk.right hk.same hl.same
  obtain ⟨hgroups, hroutes⟩ := hsame.tables_eq
  obtain ⟨m, hm, hm'⟩ := hk.counted
  obtain ⟨n, hn, hn'⟩ := hl.counted
  have hstats : c'.stats = b'.stats := by
    rw [hn', hm, hm', hn, Stats.add_right_comm]
  obtain ⟨_, _, _⟩ := c'
  obtain ⟨_, _, _⟩ := b'
  cases hgroups
  cases hroutes
  cases hstats
  rfl

theorem Testbed.Paired.commute {N M : DeviceId × Entry → Prop} (hNM : ∀ x, N x → ¬M x)
    {t₀ t t' b b' : Testbed} (hN : Paired N t₀ b t b') (hM : Paired M t₀ t b t') :
    t'.SameOn (fun _ => True) b' :=
  SameOn.placewise.commute hNM hN.left hM.right hM.left hN.right hN.same hM.same

namespace Act

variable {A : Act Testbed α} {B : Act Testbed β} {t : Testbed} {c : DeviceCache}

/-- A step on one route leaves the others alone. -/
theorem KeepsTo.spares (hA : A.KeepsTo d k) (ht : t.switch.faults = []) :
    let r := (A.run.run ⟨t, c, []⟩).2
    c.SameOn (· ≠ k) r.cache ∧ t.SameOn (¬t.Shows d k ·) r.state := by
  obtain ⟨-, h⟩ := hA ⟨t, c, []⟩ ⟨t, c, []⟩ _ _ ⟨.start (.refl _ c), .start (.refl _ t), ht⟩
  exact ⟨h.cache.left, h.state.left⟩

/-- After a step on another route, a step on one ends as it does before. -/
theorem KeepsTo.after (hA : A.KeepsTo d k) (hB : B.KeepsTo d l) (hkl : k ≠ l)
    (hShows : ∀ x, t.Shows d k x → ¬t.Shows d l x) (ht : t.switch.faults = []) :
    let r := (A.run.run ⟨t, c, []⟩).2
    let x := B.run.run ⟨t, c, []⟩
    let x' := B.run.run ⟨r.state, r.cache, []⟩
    x'.1 = x.1 ∧ Run.Paired d l ⟨t, c, []⟩ ⟨r.state, r.cache, []⟩ x.2 x'.2 := by
  intro r x x'
  obtain ⟨hcache, hstate⟩ := hA.spares (c := c) ht
  have hstart : Run.Paired d l ⟨t, c, []⟩ ⟨r.state, r.cache, []⟩ ⟨t, c, []⟩
      ⟨r.state, r.cache, []⟩ := by
    refine ⟨.start (hcache.mono fun key hkey hk => hkl (hk.symm.trans hkey)), ?_, ht⟩
    exact .start (hstate.mono fun y hy hk => hShows y hk hy)
  obtain ⟨hresult, hpaired⟩ := hB _ _ _ _ hstart
  exact ⟨hresult.eq.symm, hpaired⟩

end Act

theorem Orchestrator.onDevice_andThen {σ : Type} {w : World σ} {c : DeviceCache}
    (hc : w.fleet.find? d = some c) (A : Act σ α) (B : Act σ β) :
    onDevice (onDevice w d A).world d B =
      let r := (A.run.run ⟨w.state, c, []⟩).2
      let x := B.run.run ⟨r.state, r.cache, []⟩
      ⟨x.1, x.2.events, ⟨x.2.state, w.fleet.modify d fun _ => x.2.cache⟩⟩ := by
  rw [onDevice_of_find? hc A, onDevice_of_find? (Table.find?_modify_self _ hc) B]
  simp only [Table.modify_modify]

/-- Steps on different routes commute. -/
theorem Orchestrator.onDevice_commute {A : Act Testbed α} {B : Act Testbed β}
    {w : World Testbed} (hA : A.KeepsTo d k) (hB : B.KeepsTo d l) (hkl : k ≠ l)
    (hShows : ∀ x, w.state.Shows d k x → ¬w.state.Shows d l x)
    (hfaults : w.state.switch.faults = []) :
    let a := onDevice w d A
    let b := onDevice w d B
    let ab := onDevice a.world d B
    let ba := onDevice b.world d A
    ab.result = b.result ∧ ba.result = a.result ∧ ba.world.fleet = ab.world.fleet ∧
      ab.world.state.switch.Alike ba.world.state.switch := by
  intro a b ab ba
  cases hc : w.fleet.find? d with
  | none =>
    have ha : a.world = w := congrArg Outcome.world (onDevice_of_find?_eq_none hc A)
    have hb : b.world = w := congrArg Outcome.world (onDevice_of_find?_eq_none hc B)
    have hab : ab = b := congrArg (onDevice · d B) ha
    have hba : ba = a := congrArg (onDevice · d A) hb
    rw [hab, hba, ha, hb]
    exact ⟨rfl, rfl, rfl, rfl, rfl, rfl, rfl⟩
  | some c =>
    obtain ⟨hresult, hl⟩ := hA.after hB hkl (c := c) hShows hfaults
    obtain ⟨hresult', hk⟩ := hB.after hA hkl.symm (c := c) (fun x hl hk => hShows x hk hl) hfaults
    have hcache := hk.cache.commute hkl hl.cache
    have hstate := hk.state.commute hShows hl.state
    have ha : a = _ := onDevice_of_find? hc A
    have hb : b = _ := onDevice_of_find? hc B
    have hab : ab = _ := onDevice_andThen hc A B
    have hba : ba = _ := onDevice_andThen hc B A
    rw [hab, hba, ha, hb]
    refine ⟨hresult, hresult', ?_, hstate.counter, hstate.objects, ?_, hstate.mappings⟩
    · exact congrArg (fun c => w.fleet.modify d fun _ => c) hcache.symm
    · exact Table.ext_find? fun x => hstate.entries x trivial

/-! Operations on different routes -/

/-- An operation on a route is a step on its device that keeps to the route. -/
theorem Operation.exists_keepsTo {op : Operation} (hop : op.routeKey? = some (d, k))
    (config : Config) (order : RouteOrder) :
    ∃ act : Act Testbed op.Reply, act.KeepsTo d k ∧ ∀ w,
      (op.perform (Orchestrator.bench config order) w).result =
          (Orchestrator.onDevice w d act).result ∧
        (op.perform (Orchestrator.bench config order) w).world =
          (Orchestrator.onDevice w d act).world := by
  cases op with
  | addRoute d' r =>
    cases hop
    exact ⟨_, Orchestrator.makeRoute_keepsTo r, fun w =>
      ⟨Orchestrator.result_audited _ _ _, Orchestrator.world_audited _ _ _⟩⟩
  | deleteRoute d' key =>
    cases hop
    exact ⟨_, Orchestrator.unmakeRoute_keepsTo k, fun w =>
      ⟨Orchestrator.result_audited _ _ _, Orchestrator.world_audited _ _ _⟩⟩
  | updateRoute d' key u =>
    cases hop
    exact ⟨_, Orchestrator.changeRoute_keepsTo k u, fun w =>
      ⟨Orchestrator.result_audited _ _ _, Orchestrator.world_audited _ _ _⟩⟩
  | _ => cases hop

/-- Two operations on different routes of a device give the same results in either order, and lead
to the same caches and the same hardware, as long as no fault is pending and handles can be told
apart. Sessions reach no worlds but such (`Session.Reached.benched`). -/
theorem route_operations_commute {config : Config} {w : World Testbed} (h : w.Benched config)
    (hfaults : w.state.switch.faults = []) (hcount : w.state.switch.counter < 2 ^ 48)
    (order order' : RouteOrder) {a b : Operation} (ha : a.routeKey? = some (d, k))
    (hb : b.routeKey? = some (d, l)) (hkl : k ≠ l) :
    let first := a.perform (Orchestrator.bench config order) w
    let last := b.perform (Orchestrator.bench config order') first.world
    let first' := b.perform (Orchestrator.bench config order') w
    let last' := a.perform (Orchestrator.bench config order) first'.world
    last.result = first'.result ∧ last'.result = first.result ∧
      last'.world.fleet = last.world.fleet ∧
      last.world.state.switch.Alike last'.world.state.switch := by
  intro first last first' last'
  obtain ⟨A, hA, hperformA⟩ := a.exists_keepsTo ha config order
  obtain ⟨B, hB, hperformB⟩ := b.exists_keepsTo hb config order'
  have hShows : ∀ x, w.state.Shows d k x → ¬w.state.Shows d l x := fun x hk hl =>
    hkl ((h.named.apart hcount).entryAt_injective hk.2 hl.2)
  simp only [first, last, first', last', hperformA, hperformB]
  exact Orchestrator.onDevice_commute hA hB hkl hShows hfaults

/-- Two groups with a route each. -/
def World.exchange : World Testbed :=
  (World.start .empty).run {}
    [.feed (.switch (.register ⟨1⟩ (.rif ⟨10⟩))), .feed (.switch (.register ⟨1⟩ (.vrf ⟨0⟩))),
      .operate .ascending (.attach ⟨1⟩),
      .operate .ascending (.createGroup ⟨1⟩ .ipmc ⟨⟨10⟩, []⟩ []),
      .operate .ascending (.createGroup ⟨1⟩ .ipmc ⟨⟨10⟩, []⟩ []),
      .operate .ascending
        (.addRoute ⟨1⟩ ⟨.starG ⟨0⟩ (.v4 ⟨239, 1, 1, 1⟩), ⟨10⟩, .make .group 3, false⟩),
      .operate .ascending
        (.addRoute ⟨1⟩ ⟨.starG ⟨0⟩ (.v4 ⟨239, 1, 1, 2⟩), ⟨10⟩, .make .group 6, false⟩)]

/-- Each of two routes moves to the group of the other. -/
theorem route_operations_commute_exchange :
    let k := RouteKey.starG ⟨0⟩ (.v4 ⟨239, 1, 1, 1⟩)
    let l := RouteKey.starG ⟨0⟩ (.v4 ⟨239, 1, 1, 2⟩)
    let a := Operation.updateRoute ⟨1⟩ k ⟨some (.make .group 6), none, none⟩
    let b := Operation.updateRoute ⟨1⟩ l ⟨some (.make .group 3), none, none⟩
    let first := a.perform (Orchestrator.bench {} .ascending) World.exchange
    let last := b.perform (Orchestrator.bench {} .ascending) first.world
    let first' := b.perform (Orchestrator.bench {} .ascending) World.exchange
    let last' := a.perform (Orchestrator.bench {} .ascending) first'.world
    World.exchange.Benched {} ∧ World.exchange.state.switch.faults = [] ∧
      World.exchange.state.switch.counter < 2 ^ 48 ∧ k ≠ l ∧ first.result.isOk = true ∧
      last.result.isOk = true ∧ last.result = first'.result ∧ last'.result = first.result ∧
      last'.world.fleet = last.world.fleet ∧
      last.world.state.switch.Alike last'.world.state.switch :=
  have hreached : World.exchange.Benched {} := World.Benched.start.run _
  have hfaults : World.exchange.state.switch.faults = [] := by decide +kernel
  have hcount : World.exchange.state.switch.counter < 2 ^ 48 := by decide +kernel
  ⟨hreached, hfaults, hcount, by decide, by decide +kernel, by decide +kernel,
    route_operations_commute hreached hfaults hcount .ascending .ascending rfl rfl (by decide)⟩

end Multicast
