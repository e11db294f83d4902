import Multicast.Proofs.Confirmation
import Multicast.Proofs.Feasibility

/-! What the caller should have seen to is found before the hardware is touched, with one exception:
the first egress member of a group has to show in its routes, whose virtual routers are looked up
between calls. -/
namespace Multicast

variable {config : Config} {d : DeviceId} {l : Lookup} {t t' : Testbed}

namespace Testbed

theorem call_names (ht : t.overrides = []) (d : DeviceId) (c : Call) (d' : DeviceId) (l : Lookup) :
    ((t.call d c).2.lookup d' l).1 = (t.lookup d' l).1 := by
  have hmappings : (t.call d c).2.switch.mappings = t.switch.mappings := by
    obtain ⟨-, ⟨_, -, halike⟩ | ⟨_, _, halike, -, hperform⟩⟩ := call_cases ht d c
    · exact halike.mappings
    · exact (Switch.perform_stable hperform).2.2.trans halike.mappings
  exact lookup_congr (by rw [call_eq ht]) hmappings d' l

/-- Without overrides the names go on resolving as they did. -/
def course : Course hardware where
  Leads t t' := t.overrides = [] → t'.overrides = [] ∧ ∀ d l, (t'.lookup d l).1 = (t.lookup d l).1
  refl _ h := ⟨h, fun _ _ => rfl⟩
  trans h h' ht := by
    obtain ⟨ht', hnames⟩ := h ht
    obtain ⟨ht'', hnames'⟩ := h' ht'
    exact ⟨ht'', fun d l => (hnames' d l).trans (hnames d l)⟩
  call d c t ht := ⟨(call_cases ht d c).1, t.call_names ht d c⟩
  lookup d l t ht := by
    have ht' : (hardware.lookup d l t).2 = t := congrArg Prod.snd (t.lookup_eq d l)
    rw [ht']
    exact ⟨ht, fun _ _ => rfl⟩

theorem not_resolves_of_misses (ht : t.overrides = []) (h : course.Misses d l t) :
    ¬t.Resolves d l := by
  obtain ⟨t', hleads, hnone⟩ := h
  have hnone : (t'.lookup d l).1 = none := hnone
  rw [(hleads ht).2] at hnone
  simp [Resolves, hnone]

theorem resolves_of_finds (ht : t.overrides = []) (h : course.Finds d l t) : t.Resolves d l := by
  obtain ⟨t', x, hleads, hsome⟩ := h
  have hsome : (t'.lookup d l).1 = some x := hsome
  rw [(hleads ht).2] at hsome
  simp [Resolves, hsome]

theorem not_gives_null (ht : t.overrides = []) (role : Role) : ¬course.Gives d role .null t := by
  rintro ⟨t', groups, hleads, hgiven⟩
  change (t'.call d _).1.result = _ at hgiven
  rw [call_of_overrides_eq_nil d _ (hleads ht).1] at hgiven
  exact t'.switch.call_createSubGroup_ne_null d role groups hgiven

end Testbed

/-- A new group has a handle that is not cached. -/
theorem World.Sound.namesAfresh {w : World Testbed} {failed : Nat}
    {items : List (Handle × Switch.Object)} {E : Programming}
    (h : w.Sound config failed items E) (hroom : w.state.switch.counter + 1 < 2 ^ 48)
    (op : Operation) : op.NamesAfresh Testbed.hardware w := by
  cases op with
  | createGroup d owner rpf ipmc =>
    intro c hc group hgroup
    have hlooked : Testbed.hardware.lookedUp d rpf w.state = w.state := by
      rw [Hardware.lookedUp, (Testbed.lookupPorts_eq d _ _).1]
      exact congrArg Prod.snd (w.state.lookup_eq d _)
    rw [hlooked] at hgroup
    change (w.state.call d _).1.result = _ at hgroup
    rw [Testbed.call_of_overrides_eq_nil d _ h.overrides] at hgroup
    obtain rfl := Switch.call_createGroup_eq hgroup
    -- the books with the new group list no handle twice
    obtain ⟨_, -, hstock⟩ := (h.books.insert ⟨d, .group, none, []⟩).stock hroom
    cases hg : c.groups.find? (.make .group (w.state.switch.counter + 1)) with
    | none => rfl
    | some g =>
      have hlisted := (h.tallies hc).ledger.group_mem_handles (h.intact d c hc) hg
      exact ((List.nodup_cons.mp hstock.distinct).1 hlisted).elim
  | _ => trivial

/-- The operation adds the first egress member to a group, and `l` names the virtual router of one
of the routes there but does not resolve. -/
inductive Operation.LacksRouter (w : World Testbed) : Operation → Lookup → Prop where
  | intro {d : DeviceId} {c : DeviceCache} {id : Handle} {g : Group} {key : RouteKey}
    (hc : w.fleet.find? d = some c) (hg : c.groups.find? id = some g)
    (hnull : g.ipmcGroup.isNull = true) (hkey : key ∈ g.routeKeys)
    (hmissing : ¬w.state.Resolves d (.vrf key.vrf)) (spec : MemberSpec) :
    LacksRouter w (.updateMember d id .add .ipmc spec) (.vrf key.vrf)

theorem Operation.lacksRouter_of_late {w : World Testbed} (hw : w.state.overrides = [])
    {op : Operation} (h : op.Late Testbed.course w l) : op.LacksRouter w l := by
  cases op with
  | createGroup d owner rpf ipmc =>
    have hmissing := Testbed.not_resolves_of_misses hw h.2
    exact (hmissing (Testbed.resolves_of_finds hw h.1)).elim
  | updateMember d id op role spec =>
    obtain ⟨rfl, rfl, c, g, hc, hg, hnull, ⟨key, hkey, rfl⟩, hmisses⟩ := h
    exact .intro hc hg hnull hkey (Testbed.not_resolves_of_misses hw hmisses) spec
  | _ => cases h

namespace Session

variable {s : Session}

/-- What the caller should have seen to is found before the first call, except for a virtual router
that the first egress member of a group takes. -/
theorem precondition_errors_come_first (h : s.Reached config)
    (hroom : s.world.state.switch.counter + 1 < 2 ^ 48) (order : RouteOrder) (op : Operation) :
    let out := op.perform ⟨config, Testbed.hardware, order⟩ s.world
    ∀ e, out.result = .error e → e.kind ≠ .fail →
      callsOf out.events = [] ∨ ∃ l, op.LacksRouter s.world l ∧ e = .unresolved l := by
  intro out e he hkind
  obtain ⟨items, E, hsound⟩ := h.sound
  have hconfirms := op.perform_confirms (o := ⟨config, Testbed.hardware, order⟩) Testbed.course
    hsound.intact (Testbed.not_gives_null hsound.overrides .rpf) (hsound.namesAfresh hroom op)
  rcases hconfirms.fails e he with ⟨-, hcalls⟩ | ⟨_, _, rfl⟩ | ⟨l, hlate, rfl⟩
  · exact .inl hcalls
  · exact (hkind rfl).elim
  · exact .inr ⟨l, Operation.lacksRouter_of_late hsound.overrides hlate, rfl⟩

/-- A second route of the same router is refused before any call. -/
theorem precondition_errors_come_first_unrouted :
    let op : Operation :=
      .addRoute ⟨1⟩ ⟨.starG ⟨0⟩ (.v4 ⟨239, 1, 1, 2⟩), ⟨10⟩, .make .group 5, false⟩
    let out := op.perform ⟨{}, Testbed.hardware, .ascending⟩ unrouted.world
    out.result = .error (.unresolved (.vrf ⟨0⟩)) ∧ callsOf out.events = [] := by
  intro op out
  have hreached : unrouted.Reached {} := Reached.start.run (by decide +kernel)
  have hresult : out.result = .error (.unresolved (.vrf ⟨0⟩)) := by decide +kernel
  have hfirst := precondition_errors_come_first hreached (by decide +kernel) .ascending op _ hresult
    fun h => nomatch h
  refine ⟨hresult, hfirst.resolve_right ?_⟩
  rintro ⟨l, hlacks, _⟩
  change Operation.LacksRouter _ (.addRoute _ _) l at hlacks
  cases hlacks

/-- The first egress member does touch the hardware: its sub-group and the member are made, and
taken back when the router of the route turns out to be missing. -/
theorem firstEgress_fails_between_calls :
    let op : Operation := .updateMember ⟨1⟩ (.make .group 5) .add .ipmc ⟨⟨20⟩, [.lag 1]⟩
    let out := op.perform ⟨{}, Testbed.hardware, .ascending⟩ unrouted.world
    unrouted.Reached {} ∧ out.result = .error (.unresolved (.vrf ⟨0⟩)) ∧
      (OpError.unresolved (.vrf ⟨0⟩)).kind = .param ∧
      (callsOf out.events).map (fun x => x.2.1.kind) =
        [.createSubGroup .ipmc, .createMember .ipmc, .removeMember .ipmc, .removeSubGroup .ipmc] :=
  ⟨Reached.start.run (by decide +kernel), by decide +kernel, rfl, by decide +kernel⟩

end Session

end Multicast
