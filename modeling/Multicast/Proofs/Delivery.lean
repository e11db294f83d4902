import Multicast.Proofs.Steady

/-! What operations deliver when nothing keeps calls from succeeding: the cache that they leave, to
the last counter, and how many handles they use up. -/
namespace Multicast

variable {config : Config} {order : RouteOrder} {b : Opening} {t : Testbed} {n k max : Nat}
  {d : DeviceId} {others : List Holding} {c : DeviceCache}
  {items : List (Handle × Switch.Object)} {E E' : Programming} {r : Run Testbed}
  {id : Handle} {g : Group} {role : Role} {spec : MemberSpec}

/-- A steady run with the cache `c`, after `k` handles were given out. -/
structure Tracked (b : Opening) (t : Testbed) (n : Nat) (items : List (Handle × Switch.Object))
    (E : Programming) (c : DeviceCache) (k : Nat) (r : Run Testbed) : Prop
    extends Steady b t n items E r where
  cache : r.cache = c
  used : r.state.switch.counter = k

theorem Steady.tracked (h : Steady b t n items E r) :
    Tracked b t n items E r.cache r.state.switch.counter r :=
  ⟨h, rfl, rfl⟩

namespace Tracked

theorem holds (h : Tracked b t n items E c k r) : r.Holds c := Run.holds_of_eq h.cache

theorem request {call : Call} (h : Tracked b t (n + call.handles) items E c k r)
    {items' : call.Reply → List (Handle × Switch.Object)}
    (hturns : call.Turns d items E items' E') (hworks : call.Works d items E) :
    (Act.request Testbed.hardware d call).Ends r
      (fun reply r' => Tracked b t n (items' reply) E' c (k + call.handles) r')
      fun _ _ => False := by
  refine (h.request_counted hturns hworks).mono ?_ fun _ _ h => h
  rintro reply r' ⟨h', hcache, hcounter⟩
  exact ⟨h', hcache.trans h.cache, hcounter.trans (congrArg (· + call.handles) h.used)⟩

theorem note (h : Tracked b t n items E c k r) (level : Log.Level) (message : String)
    {F : OpError → Run Testbed → Prop} :
    (Act.note level message).Ends r (fun _ r' => Tracked b t n items E c k r') F :=
  ⟨h.emit rfl, h.cache, h.used⟩

theorem count (h : Tracked b t n items E c k r) (f : Stats → Stats) :
    (Effect.count f).Ends r fun _ r' => Tracked b t n items E (c.counted f) k r' :=
  ⟨h.of_eq rfl rfl, congrArg (·.counted f) h.cache, h.used⟩

theorem commit (h : Tracked b t n items E c k r) {c' : DeviceCache} {r' : Run Testbed}
    (hc : r.Commits c' r') (hstats : c'.stats = c.stats) : Tracked b t n items E c' k r' := by
  refine ⟨h.of_eq hc.state hc.events, hc.holds.cache_eq ?_, hc.state ▸ h.used⟩
  rw [hc.stats, h.cache, hstats]

theorem lookup (h : Tracked b t n items E c k r) {l : Lookup} (hl : t.Resolves d l) :
    (Act.lookup Testbed.hardware d l).Ends r
      (fun x r' => r = r' ∧ b.mappings.find? (d, l) = some x) fun _ _ => False :=
  (h.resolve_ends l).mono (fun _ _ hx => ⟨hx.1, hx.2.1⟩) fun _ _ hf => hf.1 hl

theorem lookupPorts (h : Tracked b t n items E c k r) {ports : List Port}
    (hports : ∀ p ∈ ports, t.Resolves d (.port p)) :
    (Act.lookupPorts Testbed.hardware d ports).Ends r (fun _ r' => r = r') fun _ _ => False := by
  refine (h.resolvePorts_ends ports).mono (fun _ _ hl => hl.1) ?_
  rintro _ _ ⟨⟨p, hp, hmissing⟩, -⟩
  exact hmissing (hports p hp)

theorem entryOf (h : Tracked b t n items E c k r) {key : RouteKey}
    (hrouter : t.Resolves d (.vrf key.vrf)) :
    (Act.entryOf Testbed.hardware d key).Ends r
      (fun e r' => r = r' ∧ entryAt b.mappings d key = some e) fun _ _ => False :=
  (h.resolveEntry_ends key).mono (fun _ _ he => ⟨he.1, he.2.1⟩) fun _ _ hf => hf.1 hrouter

theorem getGroup (h : Tracked b t n items E c k r) (hg : c.groups.find? id = some g) :
    r.cache.groups.get id = .ok g := by
  rw [h.cache]
  exact GroupTable.get_eq_ok_iff.mpr hg

end Tracked

/-- A check of the cache that passes. -/
theorem Act.Ends.pass {σ α β : Type} {x : Except CacheError α} {a : α} (hx : x = .ok a)
    {f : α → Act σ β} {r : Run σ} {Q : β → Run σ → Prop} {F : OpError → Run σ → Prop}
    (h : (f a).Ends r Q F) : (Act.ofCache x >>= f).Ends r Q F := by
  rw [hx]
  exact h

/-- A group that may be used. -/
theorem Tracked.usableGroup {α : Type} {f : Group → Act Testbed α}
    {Q : α → Run Testbed → Prop} {F : OpError → Run Testbed → Prop}
    (h : Tracked b t n items E c k r) (hg : c.groups.find? id = some g)
    (hcomplete : g.isComplete = true) (hf : (f g).Ends r Q F) :
    (Act.usableGroup id >>= f).Ends r Q F := by
  refine Act.Ends.checkUsable (fun g' hg' _ => ?_) fun e hnone => ?_
  · rw [h.cache, hg] at hg'
    cases hg'
    exact hf
  · rw [hnone g (h.cache ▸ hg)] at hcomplete
    cases hcomplete

/-- An entry reads as it should show. -/
theorem Tracked.readEntry (h : Tracked b t n items E c k r) {e : Entry} {v : RouteImage}
    (hE : E (d, e) = some v) (ids : List EntryAttr.Id) :
    (Act.request Testbed.hardware d (.readEntry e ids)).Ends r
      (fun found r' => found = ids.map v.read ∧ Tracked b t n items E c k r')
      fun _ _ => False := by
  have hworks : (Call.readEntry e ids).Works d items E :=
    Call.readEntry_works (Option.isSome_iff_exists.mpr ⟨v, hE⟩) ids
  refine ((h.request_works h.undone h.count_lt hworks).and
    (Tracked.request h (Call.readEntry_turns ids) hworks)).mono ?_ fun _ _ hf => hf.2
  rintro found r' ⟨⟨_, _, s, halike, hperform⟩, h'⟩
  have hbooks := h.books.mono (Nat.le_of_eq halike.counter.symm) halike.objects halike.entries
    (Nat.le_refl _)
  rw [h.undone] at hbooks
  simp only [Switch.perform, hbooks.readEntry, hE, Except.map] at hperform
  cases hperform
  exact ⟨rfl, h'⟩

namespace Orchestrator

/-! Routes -/

theorem makeRoute_delivers {route : Route} (hadmits : c.Admits config t (.addRoute d route))
    (hl : Ledger config b.mappings d others c items E) (hm : Mappings.Apart b.mappings)
    (h : Tracked b t n items E c k r) :
    ((bench config order).makeRoute d route).Ends r
      (fun _ r' => ∃ g E', c.groups.find? route.group = some g ∧
        Tracked b t n items E' ((c.insertRoute route g).counted fun s =>
          { s with routesAdded := s.routesAdded + 1 }) k r')
      fun _ _ => False := by
  obtain ⟨hvalid, hkey, ⟨g, hg, hcomplete⟩, hrouter, hiif⟩ := hadmits
  have hcheck : r.cache.checkAddRoute route = .ok () := by
    rw [h.cache]
    exact DeviceCache.checkAddRoute_eq_ok_iff.mpr ⟨hkey, g, hg⟩
  unfold makeRoute
  rw [hvalid]
  refine Act.Ends.cache (Act.Ends.pass hcheck (h.usableGroup hg hcomplete ?_))
  refine (h.entryOf hrouter).andThen ?_
  rintro e _ ⟨rfl, he⟩
  refine (h.lookup hiif).andThen ?_
  rintro iif _ ⟨rfl, -⟩
  have hsource : e.type.hasSource = e.source.isSome := by
    obtain ⟨router, _, rfl⟩ := Option.map_eq_some_iff.mp he
    exact RouteKey.hasSource_of_validate hvalid
  rw [routeAttrs_eq]
  have hworks := Call.createEntry_works hsource (hl.routed.eq_none hm he hkey)
    (hl.image_listed hg iif route.copyToCpu)
  refine (Tracked.request h (Call.createEntry_turns _) hworks).andThen ?_
  intro _ r₁ h₁
  refine (insertRoute_ends h₁.holds hkey hg).andThen fun _ r₂ hr₂ => ?_
  refine Act.Ends.lift ((h₁.commit hr₂ rfl).count _) fun _ r₃ h₃ => ?_
  exact (h₃.note _ _).mono (fun _ _ h' => ⟨g, _, hg, h'⟩) fun _ _ h' => h'

theorem unmakeRoute_delivers {key : RouteKey} (hadmits : c.Admits config t (.deleteRoute d key))
    (hI : c.Intact max) (hl : Ledger config b.mappings d others c items E)
    (h : Tracked b t n items E c k r) :
    ((bench config order).unmakeRoute d key).Ends r
      (fun _ r' => ∃ route g E', c.routes.find? key = some route ∧
        c.groups.find? route.group = some g ∧
        Tracked b t n items E' ((c.eraseRoute route g).counted fun s =>
          { s with routesRemoved := s.routesRemoved + 1 }) k r')
      fun _ _ => False := by
  obtain ⟨⟨route, hroute⟩, hrouter⟩ := hadmits
  obtain ⟨rfl, _⟩ := hI.routes key route hroute
  obtain ⟨g, hg⟩ := hI.grouped _ route hroute
  have hgroup : r.cache.routes.groupOf route.key = .ok route.group := by
    rw [h.cache]
    exact RouteTable.groupOf_eq_ok_iff.mpr ⟨route, hroute, rfl⟩
  refine Act.Ends.cache (Act.Ends.pass hgroup ((h.entryOf hrouter).andThen ?_))
  rintro e _ ⟨rfl, he⟩
  refine (Tracked.request h Call.removeEntry_turns
    (Call.removeEntry_works (hl.routed.isSome hroute he))).andThen ?_
  intro _ r₁ h₁
  refine (eraseRoute_ends h₁.holds hroute hg).andThen fun _ r₂ hr₂ => ?_
  refine Act.Ends.lift ((h₁.commit hr₂ rfl).count _) fun _ r₃ h₃ => ?_
  exact (h₃.note _ _).mono (fun _ _ h' => ⟨route, g, _, hroute, hg, h'⟩) fun _ _ h' => h'

theorem compareAttrs_eq {σ : Type} {key : RouteKey} {found wanted : List EntryAttr}
    (h : ∀ a ∈ wanted, EntryAttr.find? found a.id = some a) :
    (compareAttrs key found wanted : Effect σ Bool) = pure true := by
  induction wanted with
  | nil => rfl
  | cons a rest ih =>
    rw [compareAttrs, h a List.mem_cons_self, ih fun a ha => h a (List.mem_cons_of_mem _ ha)]
    simp

/-- A cached route shows in the hardware as it is cached. -/
theorem checkRoute_delivers {key : RouteKey} (hadmits : c.Admits config t (.verifyRoute d key))
    (hI : c.Intact max) (hl : Ledger config b.mappings d others c items E)
    (h : Tracked b t n items E c k r) :
    ((bench config order).checkRoute d key).Ends r
      (fun same r' => same = true ∧ Tracked b t n items E c k r') fun _ _ => False := by
  obtain ⟨route, hroute, hiif, hrouter⟩ := hadmits
  obtain ⟨rfl, _⟩ := hI.routes key route hroute
  obtain ⟨e, v, he, hv, hE⟩ := hl.routed.shown _ route hroute
  obtain ⟨g, iif, hg, hfound, rfl⟩ := DeviceCache.imageOf_eq_some_iff.mp hv
  have hget : r.cache.routes.get route.key = .ok route := by
    rw [h.cache]
    exact RouteTable.get_eq_ok_iff.mpr hroute
  refine Act.Ends.cache (Act.Ends.pass hget (Act.Ends.pass (h.getGroup hg) ?_))
  refine (h.lookup hiif).andThen ?_
  rintro iif' _ ⟨rfl, hfound'⟩
  obtain rfl : iif = iif' := Option.some.inj (hfound.symm.trans hfound')
  refine (h.entryOf hrouter).andThen ?_
  rintro e' _ ⟨rfl, he'⟩
  obtain rfl : e = e' := Option.some.inj (he.symm.trans he')
  rw [routeAttrs_eq]
  refine (h.readEntry hE _).andThen ?_
  rintro found r₁ ⟨rfl, h₁⟩
  rw [compareAttrs_eq (by simp [RouteImage.attrs, RouteImage.read, EntryAttr.find?,
    EntryAttr.id])]
  exact ⟨by simp, h₁⟩

end Orchestrator

end Multicast
