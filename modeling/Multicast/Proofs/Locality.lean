import Multicast.Proofs.Bench
import Multicast.Proofs.RouteView

/-! Operations on one route, as long as no fault is pending. They depend on what the cache and the
hardware have of that route, and change nothing else. -/
namespace Multicast

/-! What the hardware has of some entries -/

/-- The testbeds differ at most in entries outside of `N`, and in what was called. -/
structure Testbed.SameOn (N : DeviceId × Entry → Prop) (t t' : Testbed) : Prop where
  counter : t'.switch.counter = t.switch.counter
  objects : t'.switch.objects = t.switch.objects
  mappings : t'.switch.mappings = t.switch.mappings
  faults : t'.switch.faults = t.switch.faults
  overrides : t'.overrides = t.overrides
  hidden : t'.hidden = t.hidden
  entries : ∀ x, N x → t'.switch.entries.find? x = t.switch.entries.find? x

namespace Testbed.SameOn

variable {N M : DeviceId × Entry → Prop} {t t' t'' : Testbed}

theorem refl (N : DeviceId × Entry → Prop) (t : Testbed) : t.SameOn N t :=
  ⟨rfl, rfl, rfl, rfl, rfl, rfl, fun _ _ => rfl⟩

theorem symm (h : t.SameOn N t') : t'.SameOn N t :=
  ⟨h.counter.symm, h.objects.symm, h.mappings.symm, h.faults.symm, h.overrides.symm, h.hidden.symm,
    fun x hx => (h.entries x hx).symm⟩

theorem trans (h : t.SameOn N t') (h' : t'.SameOn N t'') : t.SameOn N t'' :=
  ⟨h'.counter.trans h.counter, h'.objects.trans h.objects, h'.mappings.trans h.mappings,
    h'.faults.trans h.faults, h'.overrides.trans h.overrides, h'.hidden.trans h.hidden,
    fun x hx => (h'.entries x hx).trans (h.entries x hx)⟩

theorem mono (h : t.SameOn N t') (hM : ∀ x, M x → N x) : t.SameOn M t' :=
  { h with entries := fun x hx => h.entries x (hM x hx) }

theorem union (h : t.SameOn N t') (h' : t.SameOn M t') : t.SameOn (fun x => N x ∨ M x) t' :=
  { h with entries := fun x hx => hx.elim (h.entries x) (h'.entries x) }

theorem lookup (h : t.SameOn N t') (d : DeviceId) (l : Lookup) :
    (t'.lookup d l).1 = (t.lookup d l).1 :=
  lookup_congr h.hidden h.mappings d l

end Testbed.SameOn

/-! Calls on one entry -/

/-- The entry that a call writes. -/
def Call.entry? : Call → Option Entry
  | .createEntry e _ | .removeEntry e | .setEntry e _ => some e
  | _ => none

namespace Switch

variable {s s' : Switch} {d : DeviceId} {c : Call} {e : Entry}

theorem checkAttr_congr (ho : s'.objects = s.objects) (d : DeviceId) (a : EntryAttr) :
    s'.checkAttr d a = s.checkAttr d a := by
  cases a <;> simp only [checkAttr, expect, ho]

theorem checkAttrs_congr (ho : s'.objects = s.objects) (d : DeviceId) (attrs : List EntryAttr) :
    s'.checkAttrs d attrs = s.checkAttrs d attrs := by
  induction attrs with
  | nil => rfl
  | cons a rest ih => simp only [checkAttrs, checkAttr_congr ho, ih]

/-- On switches that have the same objects and the same of an entry, a call on the entry ends alike
and writes nothing else. -/
theorem perform_entry_congr (s s' : Switch) (hc : c.entry? = some e) (ho : s'.objects = s.objects)
    (he : s'.entries.find? (d, e) = s.entries.find? (d, e)) :
    Except.Alike (fun x x' => x.1 = x'.1 ∧
        x'.2.entries.find? (d, e) = x.2.entries.find? (d, e) ∧
        (∃ entries, x.2 = { s with entries := entries } ∧
          ∀ k, k ≠ (d, e) → entries.find? k = s.entries.find? k) ∧
        ∃ entries, x'.2 = { s' with entries := entries } ∧
          ∀ k, k ≠ (d, e) → entries.find? k = s'.entries.find? k)
      (s.perform d c) (s'.perform d c) := by
  have hcontains : s'.entries.contains (d, e) = s.entries.contains (d, e) := by
    unfold Table.contains
    rw [he]
  cases c with
  | createEntry e' attrs =>
    cases hc
    simp only [perform, createEntry, hcontains, checkAttrs_congr ho]
    split
    · rfl
    · split
      · rfl
      · cases s.checkAttrs d attrs with
        | error err => rfl
        | ok _ =>
          refine ⟨trivial, ?_, ⟨_, rfl, ?_⟩, _, rfl, ?_⟩
          · exact (Table.find?_insert_self _ _ _).trans (Table.find?_insert_self _ _ _).symm
          · exact fun k hk => Table.find?_insert_of_ne _ _ hk
          · exact fun k hk => Table.find?_insert_of_ne _ _ hk
  | removeEntry e' =>
    cases hc
    simp only [perform, removeEntry, hcontains]
    split
    · refine ⟨trivial, ?_, ⟨_, rfl, ?_⟩, _, rfl, ?_⟩
      · exact (Table.find?_erase_self _ _).trans (Table.find?_erase_self _ _).symm
      · exact fun k hk => Table.find?_erase_of_ne _ hk
      · exact fun k hk => Table.find?_erase_of_ne _ hk
    · rfl
  | setEntry e' a =>
    cases hc
    simp only [perform, setEntry, hcontains, checkAttr_congr ho]
    cases s.checkAttr d a with
    | error err => rfl
    | ok _ =>
      simp only [bind, Except.bind]
      split
      · refine ⟨trivial, ?_, ⟨_, rfl, ?_⟩, _, rfl, ?_⟩
        · change (s'.entries.modify (d, e) _).find? _ = (s.entries.modify (d, e) _).find? _
          rw [Table.find?_modify, Table.find?_modify, he]
        · exact fun k hk => Table.find?_modify_of_ne _ _ hk
        · exact fun k hk => Table.find?_modify_of_ne _ _ hk
      · rfl
  | _ => cases hc

theorem passFault_of_forall_ne {kind : CallKind} {faults : List Fault}
    (h : ∀ f ∈ faults, f.kind ≠ kind) : passFault kind faults = (none, faults) := by
  induction faults with
  | nil => rfl
  | cons f rest ih =>
    obtain ⟨hf, hrest⟩ := List.forall_mem_cons.mp h
    simp [passFault, hf, ih hrest]

/-- Without faults of its kind a call does what it is for. -/
theorem call_of_faultless {d : DeviceId} {c : Call} (hs : ∀ f ∈ s.faults, f.kind ≠ c.kind) :
    s.call d c =
      match perform { s with journal := c.kind :: s.journal } d c with
      | .ok (reply, s') => (⟨.ok reply, notes c reply⟩, s')
      | .error e => (⟨.error e, []⟩, { s with journal := c.kind :: s.journal }) := by
  have hpass := passFault_of_forall_ne hs
  rcases hperform : perform { s with journal := c.kind :: s.journal } d c with e | ⟨reply, s'⟩ <;>
    simp only [call, hpass, hperform]

end Switch

namespace Testbed

variable {N : DeviceId × Entry → Prop} {t₀ t₀' t t' : Testbed} {d : DeviceId} {c : Call} {e : Entry}

/-- Overrides do not touch calls on entries. -/
theorem call_of_faultless (hc : c.entry? = some e) (ht : t.switch.faults = []) (d : DeviceId) :
    t.call d c =
      match Switch.perform { t.switch with journal := c.kind :: t.switch.journal } d c with
      | .ok (reply, s) => (⟨.ok reply, Switch.notes c reply⟩, { t with switch := s })
      | .error e => (⟨.error e, []⟩,
        { t with switch := { t.switch with journal := c.kind :: t.switch.journal } }) := by
  have hreply : ∀ r : c.Reply, reply t.overrides c r = (r, t.overrides) := by
    cases c <;> first | exact fun _ => rfl | cases hc
  unfold call
  rw [Switch.call_of_faultless (by simp [ht])]
  cases Switch.perform { t.switch with journal := c.kind :: t.switch.journal } d c with
  | error e => rfl
  | ok x => simp only [hreply]

/-- `t` came from `t₀` as `t'` did from `t₀'`, by changes of entries in `N`. -/
structure Paired (N : DeviceId × Entry → Prop) (t₀ t₀' t t' : Testbed) : Prop where
  same : t.SameOn N t'
  left : t₀.SameOn (¬N ·) t
  right : t₀'.SameOn (¬N ·) t'

theorem Paired.start (h : t₀.SameOn N t₀') : Paired N t₀ t₀' t₀ t₀' :=
  ⟨h, .refl _ t₀, .refl _ t₀'⟩

/-- Calls on an entry in `N` end alike. -/
theorem Paired.call (h : Paired N t₀ t₀' t t') (ht : t₀.switch.faults = [])
    (hc : c.entry? = some e) (he : N (d, e)) :
    (t'.call d c).1 = (t.call d c).1 ∧ Paired N t₀ t₀' (t.call d c).2 (t'.call d c).2 := by
  have hfaults : t.switch.faults = [] := h.left.faults.trans ht
  have hfaults' : t'.switch.faults = [] := h.same.faults.trans hfaults
  have halike := Switch.perform_entry_congr { t.switch with journal := c.kind :: t.switch.journal }
    { t'.switch with journal := c.kind :: t'.switch.journal } hc h.same.objects
    (h.same.entries (d, e) he)
  rw [call_of_faultless hc hfaults, call_of_faultless hc hfaults']
  generalize Switch.perform { t.switch with journal := _ } d c = x at halike
  generalize Switch.perform { t'.switch with journal := _ } d c = x' at halike
  have hne : ∀ x, ¬N x → x ≠ (d, e) := fun x hx heq => hx (heq ▸ he)
  rcases x with err | ⟨reply, s⟩ <;> rcases x' with err' | ⟨reply', s'⟩
  · obtain rfl : err = err' := halike
    exact ⟨rfl, { h.same with }, { h.left with }, { h.right with }⟩
  · exact halike.elim
  · exact halike.elim
  · obtain ⟨rfl, hsame, ⟨entries, rfl, hleft⟩, entries', rfl, hright⟩ := halike
    refine ⟨rfl, { h.same with entries := ?_ }, { h.left with entries := ?_ },
      { h.right with entries := ?_ }⟩
    · intro x hx
      by_cases hxe : x = (d, e)
      · rw [hxe]
        exact hsame
      · exact ((hright x hxe).trans (h.same.entries x hx)).trans (hleft x hxe).symm
    · exact fun x hx => (hleft x (hne x hx)).trans (h.left.entries x hx)
    · exact fun x hx => (hright x (hne x hx)).trans (h.right.entries x hx)

end Testbed

/-! Runs that have the same of a route -/

/-- The entry is that of the route. -/
def Testbed.Shows (t : Testbed) (d : DeviceId) (k : RouteKey) (x : DeviceId × Entry) : Prop :=
  x.1 = d ∧ entryAt t.switch.mappings d k = some x.2

theorem Testbed.find?_of_lookup {t : Testbed} {d : DeviceId} {l : Lookup} {h : Handle}
    (hl : (t.lookup d l).1 = some h) : t.switch.mappings.find? (d, l) = some h := by
  rw [lookup_eq] at hl
  dsimp only at hl
  split at hl
  · cases hl
  · exact hl

/-- `r` came from `r₀` as `r'` did from `r₀'`, by changes of one route and of counters. -/
structure Run.Paired (d : DeviceId) (k : RouteKey) (r₀ r₀' r r' : Run Testbed) : Prop where
  cache : DeviceCache.Paired k r₀.cache r₀'.cache r.cache r'.cache
  state : Testbed.Paired (r₀.state.Shows d k) r₀.state r₀'.state r.state r'.state
  faults : r₀.state.switch.faults = []

namespace Run.Paired

variable {d : DeviceId} {k : RouteKey} {r₀ r₀' r r' : Run Testbed} {entry : Entry} {c : Call}

theorem setCache (h : Run.Paired d k r₀ r₀' r r') {cache cache' : DeviceCache}
    (hc : DeviceCache.Paired k r₀.cache r₀'.cache cache cache') :
    Run.Paired d k r₀ r₀' { r with cache := cache } { r' with cache := cache' } :=
  ⟨hc, h.state, h.faults⟩

theorem emit (e : Event) :
    Effect.Twins (Run.Paired d k r₀ r₀') Eq (Effect.emit e) (Effect.emit e) :=
  fun _ _ h => ⟨rfl, h.cache, h.state, h.faults⟩

theorem act_note (level : Log.Level) (message : String) :
    Act.Twins (Run.Paired d k r₀ r₀') Eq (Act.note level message) (Act.note level message) :=
  .lift (emit _)

theorem count {f : Stats → Stats} (n : Stats) (hf : ∀ s, f s = s + n) :
    Effect.Twins (Run.Paired d k r₀ r₀') Eq (Effect.count f) (Effect.count f) := by
  refine fun r r' h => ⟨rfl, h.setCache ?_⟩
  rw [hf, hf]
  exact h.cache.count n

theorem act_count {f : Stats → Stats} (n : Stats) (hf : ∀ s, f s = s + n) :
    Act.Twins (Run.Paired d k r₀ r₀') Eq (Act.count f) (Act.count f) :=
  .lift (count n hf)

theorem call (hc : c.entry? = some entry) (hentry : r₀.state.Shows d k (d, entry)) (undo : Bool) :
    Effect.Twins (Run.Paired d k r₀ r₀') Eq (Effect.call Testbed.hardware d undo c)
      (Effect.call Testbed.hardware d undo c) := by
  intro r r' h
  obtain ⟨heq, hstate⟩ := h.state.call h.faults hc hentry
  exact ⟨congrArg Answer.result heq.symm, h.cache, hstate, h.faults⟩

theorem request (c : Call) (hc : c.entry? = some entry) (hentry : r₀.state.Shows d k (d, entry)) :
    Act.Twins (Run.Paired d k r₀ r₀') Eq (Act.request Testbed.hardware d c)
      (Act.request Testbed.hardware d c) :=
  .call (call hc hentry false)

theorem undo (hc : c.entry? = some entry) (hentry : r₀.state.Shows d k (d, entry))
    (what context : String) :
    Effect.Twins (Run.Paired d k r₀ r₀') Eq (Effect.undo Testbed.hardware d what context c)
      (Effect.undo Testbed.hardware d what context c) := by
  refine Effect.Twins.bind (call hc hentry true) fun result result' heq => ?_
  subst heq
  cases result with
  | ok a => exact (emit _).andThen fun _ _ => .pure rfl
  | error e => exact (emit _).andThen fun _ _ => .pure rfl

theorem resolve (l : Lookup) :
    Act.Twins (Run.Paired d k r₀ r₀') (fun x x' => x = x' ∧ (r₀.state.lookup d l).1 = some x)
      (Act.lookup Testbed.hardware d l) (Act.lookup Testbed.hardware d l) := by
  have hfound : Effect.Twins (Run.Paired d k r₀ r₀')
      (fun x x' => x = (r₀.state.lookup d l).1 ∧ x' = (r₀.state.lookup d l).1)
      (fun r => ((r.state.lookup d l).1, { r with state := (r.state.lookup d l).2 }))
      (fun r => ((r.state.lookup d l).1, { r with state := (r.state.lookup d l).2 })) := by
    intro r r' h
    have hleft := h.state.left.lookup d l
    refine ⟨⟨hleft, (h.state.same.lookup d l).trans hleft⟩, h.cache, ?_, h.faults⟩
    change Testbed.Paired _ _ _ (r.state.lookup d l).2 (r'.state.lookup d l).2
    rw [Testbed.lookup_snd, Testbed.lookup_snd]
    exact h.state
  refine Act.Twins.bind (.lift hfound) fun x x' ⟨hx, hx'⟩ => ?_
  rw [hx, hx']
  cases (r₀.state.lookup d l).1 with
  | some h => exact .pure ⟨rfl, rfl⟩
  | none => exact .throw _

theorem lookup (l : Lookup) :
    Act.Twins (Run.Paired d k r₀ r₀') Eq (Act.lookup Testbed.hardware d l)
      (Act.lookup Testbed.hardware d l) :=
  (resolve l).mono fun _ _ h => h.1

theorem entryOf :
    Act.Twins (Run.Paired d k r₀ r₀') (fun e e' => e = e' ∧ r₀.state.Shows d k (d, e))
      (Act.entryOf Testbed.hardware d k) (Act.entryOf Testbed.hardware d k) := by
  refine Act.Twins.bind (resolve (.vrf k.vrf)) fun router router' ⟨heq, hrouter⟩ => ?_
  subst heq
  refine .pure ⟨rfl, rfl, ?_⟩
  rw [entryAt, Testbed.find?_of_lookup hrouter]
  rfl

theorem readCache : Act.Twins (Run.Paired d k r₀ r₀') (DeviceCache.SameOn (· = k)) Act.cache
    Act.cache :=
  fun _ _ h => ⟨h.cache.same, h⟩

theorem getGroup {c c' : DeviceCache} (h : c.SameOn (· = k) c') (id : Handle) :
    Act.Twins (Run.Paired d k r₀ r₀') (Group.SameOn (· = k)) (Act.ofCache (c.groups.get id))
      (Act.ofCache (c'.groups.get id)) := by
  refine .ofCache ?_
  unfold GroupTable.get
  rcases h.group_cases id with ⟨hg, hg'⟩ | ⟨g, g', hg, hg', hsame⟩ <;> rw [hg, hg']
  · rfl
  · exact hsame

theorem usableGroup (id : Handle) :
    Act.Twins (Run.Paired d k r₀ r₀') (Group.SameOn (· = k)) (Act.usableGroup id)
      (Act.usableGroup id) := by
  refine Act.Twins.bind readCache fun c c' hc => ?_
  refine Act.Twins.bind (getGroup hc id) fun g g' hg => ?_
  unfold Group.isComplete
  rw [hg.rpfGroup]
  split
  · exact .pure hg
  · exact .throw _

theorem changeCache {f : DeviceCache → Except CacheError DeviceCache}
    (hf : DeviceCache.KeepsTo k f) :
    Act.Twins (Run.Paired d k r₀ r₀') Eq (Act.changeCache f) (Act.changeCache f) := by
  refine .changeCache (fun r r' h => ?_) fun r r' e e' h => ⟨h.cache, h.state, h.faults⟩
  exact (hf _ _ _ _ h.cache).mono fun _ _ hc => h.setCache hc

end Run.Paired

/-- The step depends on what there is of one route, and changes nothing else. -/
def Act.KeepsTo {α : Type} (d : DeviceId) (k : RouteKey) (act : Act Testbed α) : Prop :=
  ∀ r₀ r₀', Act.Twins (Run.Paired d k r₀ r₀') Eq act act

/-! Operations on one route -/

namespace Orchestrator

variable {config : Config} {order : RouteOrder} {d : DeviceId} {k : RouteKey}

/-- Attributes depend on the sub-groups of a group alone. -/
theorem routeAttrs_congr {o : Orchestrator Testbed} {g g' : Group} {K : RouteKey → Prop}
    (h : g.SameOn K g') (iif : Handle) (copyToCpu : Bool) :
    o.routeAttrs g' iif copyToCpu = o.routeAttrs g iif copyToCpu := by
  unfold routeAttrs
  rw [h.rpfGroup, h.ipmcGroup]

theorem makeRoute_keepsTo (r : Route) :
    ((bench config order).makeRoute d r).KeepsTo d r.key := by
  intro r₀ r₀'
  unfold makeRoute
  split
  · refine Act.Twins.bind Run.Paired.readCache fun c c' hc => ?_
    have hcheck : c'.checkAddRoute r = c.checkAddRoute r := by
      rw [DeviceCache.checkAddRoute_eq, DeviceCache.checkAddRoute_eq, hc.contains_route rfl,
        hc.contains_group]
    rw [hcheck]
    refine Act.Twins.bind (.ofCache (.refl _)) fun _ _ _ => ?_
    refine Act.Twins.bind (Run.Paired.usableGroup r.group) fun g g' hg => ?_
    refine Act.Twins.bind Run.Paired.entryOf fun entry _ ⟨heq, hentry⟩ => ?_
    subst heq
    refine Act.Twins.bind (Run.Paired.lookup _) fun iif _ heq => ?_
    subst heq
    rw [routeAttrs_congr hg]
    refine Act.Twins.bind (Run.Paired.request (.createEntry entry _) rfl hentry) fun _ _ _ => ?_
    refine Act.Twins.bind (Run.Paired.changeCache (DeviceCache.addRoute_keepsTo r)) fun _ _ _ => ?_
    refine Act.Twins.bind (Run.Paired.act_count { routesAdded := 1 } fun _ => rfl) fun _ _ _ => ?_
    exact Run.Paired.act_note _ _
  · exact .throw _

theorem unmakeRoute_keepsTo (k : RouteKey) :
    ((bench config order).unmakeRoute d k).KeepsTo d k := by
  intro r₀ r₀'
  unfold unmakeRoute
  refine Act.Twins.bind Run.Paired.readCache fun c c' hc => ?_
  have hgroup : c'.routes.groupOf k = c.routes.groupOf k := by
    unfold RouteTable.groupOf RouteTable.get
    rw [hc.routes k rfl]
  rw [hgroup]
  refine Act.Twins.bind (.ofCache (.refl _)) fun group _ heq => ?_
  subst heq
  refine Act.Twins.bind Run.Paired.entryOf fun entry _ ⟨heq, hentry⟩ => ?_
  subst heq
  refine Act.Twins.bind (Run.Paired.request (.removeEntry entry) rfl hentry) fun _ _ _ => ?_
  refine Act.Twins.bind (Run.Paired.changeCache (DeviceCache.removeRoute_keepsTo k)) fun _ _ _ => ?_
  refine Act.Twins.bind (Run.Paired.act_count { routesRemoved := 1 } fun _ => rfl) fun _ _ _ => ?_
  exact Run.Paired.act_note _ _

theorem writeAttrs_twins {r₀ r₀' : Run Testbed} {entry : Entry}
    (hentry : r₀.state.Shows d k (d, entry)) (replaced : List EntryAttr)
    (changes : List (EntryAttr × EntryAttr)) :
    Act.Twins (Run.Paired d k r₀ r₀') Eq
      ((bench config order).writeAttrs d k entry replaced changes)
      ((bench config order).writeAttrs d k entry replaced changes) := by
  induction changes generalizing replaced with
  | nil => exact .pure rfl
  | cons change rest ih =>
    rw [writeAttrs]
    refine Act.Twins.bind (P := Eq) (.orCleanUp ?_ fun _ => ?_) fun _ _ _ => ih _
    · exact Run.Paired.request (.setEntry entry change.2) rfl hentry
    · refine Effect.Twins.andThen (.forM (fun old => ?_) replaced) fun _ _ => ?_
      · exact (Run.Paired.undo rfl hentry _ _).andThen fun _ _ => .pure rfl
      · split
        · exact Run.Paired.count { rollbacks := 1 } fun _ => rfl
        · exact .pure rfl

theorem changeRoute_keepsTo (k : RouteKey) (u : RouteUpdate) :
    ((bench config order).changeRoute d k u).KeepsTo d k := by
  intro r₀ r₀'
  unfold changeRoute
  refine Act.Twins.bind Run.Paired.readCache fun c c' hc => ?_
  have hroute : c'.routes.get k = c.routes.get k := by
    unfold RouteTable.get
    rw [hc.routes k rfl]
  rw [hroute]
  refine Act.Twins.bind (.ofCache (.refl _)) fun current _ heq => ?_
  subst heq
  refine Act.Twins.bind (Run.Paired.getGroup hc _) fun oldGroup oldGroup' hold => ?_
  refine Act.Twins.bind (Run.Paired.usableGroup _) fun newGroup newGroup' hnew => ?_
  refine Act.Twins.bind (Run.Paired.lookup _) fun oldIif _ heq => ?_
  subst heq
  refine Act.Twins.bind (P := Eq) ?_ fun newIif _ heq => ?_
  · split
    · exact .pure rfl
    · exact Run.Paired.lookup _
  subst heq
  rw [routeAttrs_congr hold, routeAttrs_congr hnew]
  refine Act.Twins.bind (P := Eq) ?_ fun _ _ _ => ?_
  · split
    · exact .pure rfl
    · refine Act.Twins.bind Run.Paired.entryOf fun entry _ ⟨heq, hentry⟩ => ?_
      subst heq
      exact writeAttrs_twins hentry _ _
  refine Act.Twins.bind (Run.Paired.changeCache (DeviceCache.updateCache_keepsTo k u))
    fun _ _ _ => ?_
  refine Act.Twins.bind (Run.Paired.act_count { routesUpdated := 1 } fun _ => rfl) fun _ _ _ => ?_
  exact Run.Paired.act_note _ _

end Orchestrator

end Multicast
