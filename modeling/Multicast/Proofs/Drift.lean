import Multicast.Proofs.Attributes
import Multicast.Proofs.Consistency
import Multicast.Proofs.Delivery
import Multicast.Proofs.Locality

/-! Reading a route back detects any drift of the hardware from the cache, whoever wrote the entry
and however its attributes are stored. -/
namespace Multicast

/-! What the hardware answers of an entry -/

namespace EntryAttr

/-- An answer has one attribute for each id that was asked for. -/
theorem find?_map_read {attrs : List EntryAttr} {ids : List Id} {id : Id} (h : id ∈ ids) :
    find? (ids.map (read attrs)) id = some (read attrs id) := by
  induction ids with
  | nil => simp at h
  | cons first rest ih =>
    by_cases hid : first = id
    · simp [find?, hid, id_read]
    · have hrest : id ∈ rest := by simpa [Ne.symm hid] using h
      simpa [find?, hid, id_read] using ih hrest

end EntryAttr

variable {d : DeviceId} {e : Entry} {r : Run Testbed}

/-- Only the journal tells of a read. -/
def Testbed.noteRead (t : Testbed) : Testbed :=
  { t with switch := { t.switch with journal := .readEntry :: t.switch.journal } }

/-- Nothing but a fault or a missing entry keeps the attributes from being read. -/
theorem Testbed.call_readEntry {t : Testbed}
    (hfaults : ∀ f ∈ t.switch.faults, f.kind ≠ .readEntry) (ids : List EntryAttr.Id) :
    t.call d (.readEntry e ids) =
      match t.switch.entryAttrs? d e with
      | some attrs => (⟨.ok (ids.map (EntryAttr.read attrs)), []⟩, t.noteRead)
      | none => (⟨.error (.notFound e.text), []⟩, t.noteRead) := by
  unfold call
  rw [Switch.call_of_faultless hfaults]
  have hentry : ({ t.switch with journal := .readEntry :: t.switch.journal } : Switch).entryAttrs?
      d e = t.switch.entryAttrs? d e := rfl
  cases hattrs : t.switch.entryAttrs? d e <;>
    simp [Switch.perform, Switch.readEntry, Call.kind, hentry, hattrs, Except.map, reply,
      Switch.notes, noteRead]

theorem Act.readEntry_ends (hfaults : ∀ f ∈ r.state.switch.faults, f.kind ≠ .readEntry)
    (ids : List EntryAttr.Id) :
    (Act.request Testbed.hardware d (.readEntry e ids)).Ends r
      (fun found r' => (∃ attrs, r.state.switch.entryAttrs? d e = some attrs ∧
          found = ids.map (EntryAttr.read attrs)) ∧
        r'.state = r.state.noteRead ∧ r'.cache = r.cache)
      fun err r' => err = .hardware .readEntry (.notFound e.text) ∧
        r.state.switch.entryAttrs? d e = none ∧
        r'.state = r.state.noteRead ∧ r'.cache = r.cache := by
  have hcall : Testbed.hardware.call d (.readEntry e ids) r.state = _ :=
    Testbed.call_readEntry hfaults ids
  rw [Act.request, Act.ends_call, Effect.ends_call, hcall]
  cases hattrs : r.state.switch.entryAttrs? d e with
  | none => exact ⟨rfl, rfl, rfl, rfl⟩
  | some attrs => exact ⟨⟨attrs, rfl, rfl⟩, rfl, rfl⟩

theorem Act.Ends.lookup {α : Type} {l : Lookup} {h : Handle}
    (hl : (r.state.lookup d l).1 = some h) {f : Handle → Act Testbed α}
    {Q : α → Run Testbed → Prop} {F : OpError → Run Testbed → Prop} (hf : (f h).Ends r Q F) :
    (Act.lookup Testbed.hardware d l >>= f).Ends r Q F := by
  have hlookup : Testbed.hardware.lookup d l r.state = (some h, r.state) :=
    Prod.ext hl (r.state.lookup_snd d l)
  rw [Act.ends_bind, Act.ends_lookup, hlookup]
  exact hf

theorem Act.Ends.entryOf {α : Type} {key : RouteKey} {router : Handle}
    (hrouter : (r.state.lookup d (.vrf key.vrf)).1 = some router) {f : Entry → Act Testbed α}
    {Q : α → Run Testbed → Prop} {F : OpError → Run Testbed → Prop}
    (hf : (f (.ofKey router key)).Ends r Q F) :
    (Act.entryOf Testbed.hardware d key >>= f).Ends r Q F := by
  apply Act.ends_bind.mpr
  apply Act.Ends.lookup hrouter
  exact hf

/-! The comparison -/

namespace Orchestrator

/-- Differences are logged, and that is all that is done about them. -/
theorem compareAttrs_ends (key : RouteKey) (found wanted : List EntryAttr) (r : Run Testbed) :
    (compareAttrs key found wanted).Ends r fun same r' =>
      (same = true ↔ ∀ a ∈ wanted, EntryAttr.find? found a.id = some a) ∧
        r'.state = r.state ∧ r'.cache = r.cache := by
  induction wanted generalizing r with
  | nil =>
    constructor
    · exact iff_of_true rfl (by simp)
    · exact ⟨rfl, rfl⟩
  | cons a rest ih =>
    have hrest : ∀ r' : Run Testbed, r'.state = r.state → r'.cache = r.cache →
        (do
          let restSame ← compareAttrs key found rest
          return EntryAttr.find? found a.id == some a && restSame : Effect Testbed Bool).Ends r'
          fun same r'' => (same = true ↔ ∀ b ∈ a :: rest, EntryAttr.find? found b.id = some b) ∧
            r''.state = r.state ∧ r''.cache = r.cache := by
      intro r' hstate hcache
      apply (ih r').bind
      intro restSame r'' ⟨hsame, hstate', hcache'⟩
      refine ⟨?_, hstate'.trans hstate, hcache'.trans hcache⟩
      rw [List.forall_mem_cons, ← hsame]
      change (EntryAttr.find? found a.id == some a && restSame) = true ↔ _
      simp
    rw [compareAttrs]
    split
    · apply hrest <;> rfl
    · exact hrest r rfl rfl

/-- What is read of the four attributes differs from the image wherever the stored values do. -/
theorem compare_read_iff {attrs : List EntryAttr} {v : RouteImage} :
    (∀ a ∈ v.attrs, EntryAttr.find? ((v.attrs.map EntryAttr.id).map (EntryAttr.read attrs)) a.id =
      some a) ↔ ∀ id, EntryAttr.read attrs id = v.read id := by
  constructor
  · intro h id
    have hid := h (v.read id) (v.read_mem_attrs id)
    rw [RouteImage.id_read, EntryAttr.find?_map_read] at hid
    · exact Option.some.inj hid
    · cases id <;> simp [RouteImage.attrs, EntryAttr.id]
  · intro h a ha
    rw [EntryAttr.find?_map_read (List.mem_map_of_mem ha), h, ← RouteImage.eq_read_of_mem ha]

theorem checkRoute_ends {config : Config} {order : RouteOrder} {key : RouteKey} {route : Route}
    {g : Group} {iif router : Handle} (hroute : r.cache.routes.find? key = some route)
    (hg : r.cache.groups.find? route.group = some g)
    (hiif : (r.state.lookup d (.rif route.iif)).1 = some iif)
    (hrouter : (r.state.lookup d (.vrf key.vrf)).1 = some router)
    (hfaults : ∀ f ∈ r.state.switch.faults, f.kind ≠ .readEntry) :
    ((bench config order).checkRoute d key).Ends r
      (fun same r' => (∃ attrs,
          r.state.switch.entryAttrs? d (.ofKey router key) = some attrs ∧
          (same = true ↔ ∀ id, EntryAttr.read attrs id =
            (config.image g iif route.copyToCpu).read id)) ∧
        r'.state = r.state.noteRead ∧ r'.cache = r.cache)
      fun err r' => err = .hardware .readEntry (.notFound (Entry.ofKey router key).text) ∧
        r.state.switch.entryAttrs? d (.ofKey router key) = none ∧
        r'.state = r.state.noteRead ∧ r'.cache = r.cache := by
  apply Act.Ends.cache
  apply Act.Ends.pass (RouteTable.get_eq_ok_iff.mpr hroute)
  apply Act.Ends.pass (GroupTable.get_eq_ok_iff.mpr hg)
  apply Act.Ends.lookup hiif
  rw [routeAttrs_eq]
  apply Act.Ends.entryOf hrouter
  apply (Act.readEntry_ends hfaults _).andThen
  rintro _ r₁ ⟨⟨attrs, hattrs, rfl⟩, hstate, hcache⟩
  apply Act.Ends.lift (compareAttrs_ends key _ _ r₁)
  intro same r₂ ⟨hsame, hstate₂, hcache₂⟩
  refine ⟨⟨attrs, hattrs, ?_⟩, hstate₂.trans hstate, hcache₂.trans hcache⟩
  rw [← compare_read_iff, ← hsame]
  simp

end Orchestrator

/-! Detection -/

/-- A route verifies if and only if each of its four attributes, as stored first or by default, is
what the cache implies. Verifying fails if and only if the entry is gone, and leaves the caches and
the hardware alone. -/
theorem verifyRoute_detects_drift {config : Config} {w : World Testbed} (h : w.Benched config)
    (order : RouteOrder) {c : DeviceCache} {key : RouteKey} {route : Route} {iif router : Handle}
    (hc : w.fleet.find? d = some c) (hroute : c.routes.find? key = some route)
    (hiif : (w.state.lookup d (.rif route.iif)).1 = some iif)
    (hrouter : (w.state.lookup d (.vrf key.vrf)).1 = some router)
    (hfaults : ∀ f ∈ w.state.switch.faults, f.kind ≠ .readEntry) :
    let out := (Operation.verifyRoute d key).perform ⟨config, Testbed.hardware, order⟩ w
    let stored := w.state.switch.entries.find? (d, .ofKey router key)
    ∃ g, c.groups.find? route.group = some g ∧
      let wanted := (config.image g iif route.copyToCpu).read
      (out.result = .ok true ↔ ∃ attrs, stored = some attrs ∧
        ∀ id, (attrs.find? (·.id = id)).getD (.default id) = wanted id) ∧
      (out.result = .ok false ↔ ∃ attrs, stored = some attrs ∧
        ∃ id, (attrs.find? (·.id = id)).getD (.default id) ≠ wanted id) ∧
      ((∃ item, out.result = .error (.hardware .readEntry (.notFound item))) ↔ stored = none) ∧
      out.world = ⟨w.state.noteRead, w.fleet⟩ := by
  intro out stored
  obtain ⟨g, hg⟩ := (h.reachable.intact d c hc).grouped key route hroute
  refine ⟨g, hg, ?_⟩
  intro wanted
  have hcheck : ((Orchestrator.bench config order).checkRoute d key).Ends ⟨w.state, c, []⟩ _ _ :=
    Orchestrator.checkRoute_ends hroute hg hiif hrouter hfaults
  obtain ⟨r, hworld, -, hr⟩ := Orchestrator.onDevice_ends hc hcheck
  have hleft : r.state = w.state.noteRead → r.cache = c →
      out.world = ⟨w.state.noteRead, w.fleet⟩ := by
    intro hstate hcache
    have hsame : w.fleet.modify d (fun _ => c) = w.fleet := Table.modify_eq_self hc rfl
    rw [← hsame, ← hstate, ← hcache]
    exact hworld
  rcases hr with ⟨same, hresult, ⟨attrs, hattrs, hsame⟩, hstate, hcache⟩ |
    ⟨err, hresult, rfl, hattrs, hstate, hcache⟩
  · have hresult : out.result = .ok same := hresult
    have hstored : stored = some attrs := hattrs
    have hsame : same = true ↔
        ∀ id, (attrs.find? (·.id = id)).getD (.default id) = wanted id := hsame
    have hdiffers : same = false ↔
        ∃ id, (attrs.find? (·.id = id)).getD (.default id) ≠ wanted id := by
      rw [← Bool.not_eq_true, hsame, not_forall]
    rw [hresult, hstored]
    exact ⟨by simp [hsame], by simp [hdiffers], by simp, hleft hstate hcache⟩
  · have hresult : out.result = .error _ := hresult
    have hstored : stored = none := hattrs
    rw [hresult, hstored]
    exact ⟨by simp, by simp, by simp, hleft hstate hcache⟩

/-- A route whose entry was removed and made again, with attributes of the caller's choice. -/
def World.rewritten (attrs : List EntryAttr) : World Testbed :=
  let e : Entry := .ofKey (.make .virtualRouter 2) (.starG ⟨0⟩ (.v4 ⟨239, 1, 1, 1⟩))
  (World.start .empty).run {}
    [.feed (.switch (.register ⟨1⟩ (.rif ⟨10⟩))), .feed (.switch (.register ⟨1⟩ (.vrf ⟨0⟩))),
      .operate .ascending (.attach ⟨1⟩),
      .operate .ascending (.createGroup ⟨1⟩ .ipmc ⟨⟨10⟩, []⟩ []),
      .operate .ascending
        (.addRoute ⟨1⟩ ⟨.starG ⟨0⟩ (.v4 ⟨239, 1, 1, 1⟩), ⟨10⟩, .make .group 3, false⟩),
      .feed (.switch (.call ⟨1⟩ (.removeEntry e))),
      .feed (.switch (.call ⟨1⟩ (.createEntry e attrs)))]

/-- The output group is missing, which is the default; of two packet actions the first counts. -/
theorem verifyRoute_detects_drift_rewritten :
    let key : RouteKey := .starG ⟨0⟩ (.v4 ⟨239, 1, 1, 1⟩)
    let iif : Handle := .make .routerInterface 1
    let router : Handle := .make .virtualRouter 2
    let w := World.rewritten [.ingress iif, .rpfGroup (.make (.subGroup .rpf) 4),
      .packetAction .forward, .packetAction .trapToCpu]
    let out := (Operation.verifyRoute ⟨1⟩ key).perform (Orchestrator.bench {} .ascending) w
    (w.Benched {} ∧ (w.state.lookup ⟨1⟩ (.rif ⟨10⟩)).1 = some iif ∧
      (w.state.lookup ⟨1⟩ (.vrf ⟨0⟩)).1 = some router ∧ w.state.switch.faults = []) ∧
      out.result = .ok true ∧ out.world.fleet = w.fleet := by
  intro key iif router w out
  let c := (w.fleet.find? ⟨1⟩).getD .empty
  let g := (c.groups.find? (.make .group 3)).getD (.new .null .ipmc .null .null)
  have hbenched : w.Benched {} := World.Benched.start.run _
  have hiif : (w.state.lookup ⟨1⟩ (.rif ⟨10⟩)).1 = some iif := by decide +kernel
  have hrouter : (w.state.lookup ⟨1⟩ (.vrf ⟨0⟩)).1 = some router := by decide +kernel
  have hfaults : w.state.switch.faults = [] := by decide +kernel
  have hc : w.fleet.find? ⟨1⟩ = some c := by decide +kernel
  have hroute : c.routes.find? key = some ⟨key, ⟨10⟩, .make .group 3, false⟩ := by decide +kernel
  have hg : c.groups.find? (.make .group 3) = some g := by decide +kernel
  have hgroup : g.ipmcGroup = .null ∧ g.rpfGroup = .make (.subGroup .rpf) 4 := by decide +kernel
  have hentry : w.state.switch.entries.find? (⟨1⟩, .ofKey router key) =
      some [.ingress iif, .rpfGroup (.make (.subGroup .rpf) 4), .packetAction .forward,
        .packetAction .trapToCpu] := by decide +kernel
  clear_value g c w
  obtain ⟨g', hg', htrue, -, -, hworld⟩ :=
    verifyRoute_detects_drift hbenched .ascending hc hroute hiif hrouter (by simp [hfaults])
  obtain rfl : g' = g := Option.some.inj (hg'.symm.trans hg)
  have hfleet := congrArg World.fleet hworld
  refine ⟨⟨hbenched, hiif, hrouter, hfaults⟩, ?_, hfleet⟩
  apply htrue.mpr
  refine ⟨_, hentry, ?_⟩
  intro id
  cases id <;> simp [Config.image, RouteImage.read, EntryAttr.id, EntryAttr.default, hgroup]

end Multicast
