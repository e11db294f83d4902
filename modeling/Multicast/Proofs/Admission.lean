import Multicast.Proofs.Assembly
import Multicast.Proofs.Dismantle

/-! Runs in which nothing keeps calls from succeeding. An operation succeeds there if the cache of
its device admits it, and is denied if not. -/
namespace Multicast

variable {config : Config} {order : RouteOrder} {b : Opening} {t : Testbed} {n : Nat}
  {d : DeviceId} {others : List Holding} {c : DeviceCache}
  {items : List (Handle × Switch.Object)} {E : Programming} {r : Run Testbed} {max : Nat}
  {id : Handle} {g : Group} {role : Role} {spec : MemberSpec}

namespace Orchestrator

/-! Members -/

/-- Pointing routes at a sub-group takes nothing but their virtual routers. -/
theorem repoint_decides {subGroup : Handle} (hsub : Listed items d subGroup (.subGroup .ipmc))
    {keys : List RouteKey} (hkeys : ∀ key ∈ keys, ∀ e, entryAt b.mappings d key = some e →
      (E (d, e)).isSome = true) (h : Steady b t n items E r) (visited : List Entry) :
    ((bench config order).repoint d false subGroup visited keys).Decides r
      (∀ key ∈ keys, t.Resolves d (.vrf key.vrf)) := by
  induction keys generalizing visited E r with
  | nil => exact fun _ hkey => nomatch hkey
  | cons key rest ih =>
    let P := ∀ key' ∈ key :: rest, t.Resolves d (.vrf key'.vrf)
    have hfirst : (do
        let entry ← Act.entryOf (bench config order).hardware d key
        Act.call (bench config order).hardware d false (.setEntry entry (.outputGroup subGroup))
        return entry : Act Testbed Entry).Ends r
        (fun e r' => t.Resolves d (.vrf key.vrf) ∧
          Steady b t n items (E.write (d, e) (.outputGroup subGroup)) r')
        fun e _ => ¬P ∧ e.kind ≠ .fail := by
      refine (h.resolveEntry_ends key).bind ?_ fun _ _ hf =>
        ⟨fun hP => hf.1 (hP key List.mem_cons_self), hf.2⟩
      rintro e _ ⟨rfl, he, hresolves⟩
      have hworks := Call.setEntry_works (a := .outputGroup subGroup)
        (hkeys key List.mem_cons_self e he) fun _ => hsub
      refine (h.request (Call.setEntry_turns _) hworks).bind ?_ fun _ _ h => h.elim
      rintro _ r₁ ⟨h₁, _⟩
      exact ⟨hresolves, h₁⟩
    rw [repoint]
    refine Act.Ends.bind hfirst.orCleanUp_of_error ?_ fun _ _ h => h
    rintro e r₁ ⟨hresolves, h₁⟩
    refine (ih ?_ h₁ _).congr ?_
    · intro key' hkey' e' he'
      rw [Books.isSome_write]
      exact hkeys key' (List.mem_cons_of_mem _ hkey') e' he'
    · rw [List.forall_mem_cons, and_iff_right hresolves]

theorem addFirstEgress_decides (h : Steady b t (n + 2) items E r) (hr : r.Holds c)
    (hgroup : Listed items d id .group) (hg : c.groups.find? id = some g)
    (hcheck : g.members.checkAdd .ipmc spec.rif = .ok ()) {routes : List RouteKey}
    (hroutes : ∀ key ∈ routes, ∀ e, entryAt b.mappings d key = some e → (E (d, e)).isSome = true)
    (rif : Handle) (ports : List Handle) :
    ((bench config order).addFirstEgress d id routes rif ports spec).Decides r
      (∀ key ∈ routes, t.Resolves d (.vrf key.vrf)) := by
  have hS := quiet_frame (bench config order).hardware d
  have h : Steady b t (n + 1 + (Call.createSubGroup .ipmc [id]).handles) items E r := h
  refine Act.Ends.bind (h.request (Call.createSubGroup_turns .ipmc id)
    (Call.createSubGroup_works .ipmc hgroup)) ?_ fun _ _ h => h.elim
  rintro subGroup r₁ ⟨h₁, hcache₁⟩
  refine Act.Ends.bind (P := fun _ r' => Steady b t (n + 1) _ E r' ∧ r'.Holds c)
    (F := fun _ _ => False) ⟨h₁.emit rfl, hr.of_cache hcache₁⟩ ?_ fun _ _ h => h.elim
  rintro _ r₂ ⟨h₂, hr₂⟩
  have hsub : Listed ((subGroup, (⟨d, .subGroup .ipmc, some id, []⟩ : Switch.Object)) :: items) d
      subGroup (.subGroup .ipmc) := ⟨_, List.mem_cons_self, rfl, rfl⟩
  refine Act.Ends.bind (Act.Ends.orCleanUp_of_error
    (h₂.request (Call.createMember_turns .ipmc subGroup rif ports)
      (Call.createMember_works hsub rif ports))) ?_ fun _ _ h => h.elim
  rintro member r₃ ⟨h₃, hcache₃⟩
  have hr₃ := hr₂.of_cache hcache₃
  obtain ⟨o, ho, hsub⟩ := hsub
  have hpointed := (repoint_decides ⟨o, List.mem_cons_of_mem _ ho, hsub⟩ hroutes h₃ []).and
    ((hS.repoint false subGroup [] routes).holds hr₃)
  refine Act.Ends.bind (Act.Ends.orCleanUp_of_error
    (hpointed.mono (fun _ _ h => h) fun _ _ hf => hf.1)) ?_ fun _ _ h => h
  rintro _ r₄ ⟨hresolve, hr₄⟩
  have hcommit := commitMember_ends (m := .ofSpec member spec) hr₄ hg hcheck (some subGroup)
    (E := fun e _ => ¬(∀ key ∈ routes, t.Resolves d (.vrf key.vrf)) ∧ e.kind ≠ .fail)
  exact (hcommit.mono (fun _ _ _ => hresolve) fun _ _ h => h).orCleanUp_of_error

theorem addMember_decides (hI : c.Intact max) (hr : r.Holds c)
    (hl : Ledger config b.mappings d others c items E) (h : Steady b t (n + 2) items E r) :
    ((bench config order).addMember d id role spec).Decides r
      (∃ g, c.groups.find? id = some g ∧ c.AdmitsMember t d role spec g) := by
  refine Act.Decides.usableGroup hr ?_ fun g hg hcomplete => ?_
  · rintro ⟨g, hg, hadmits⟩
    exact ⟨g, hg, hadmits.complete⟩
  have hid := (hI.groups id g hg).1
  -- from here on the group is known
  refine Act.Decides.congr (P := c.AdmitsMember t d role spec g) ?_ (by simp [hg])
  refine Act.Decides.ofCache (fun hadmits => ?_) (g.members.checkAdd_blameless role spec.rif)
    fun _ hcheck => ?_
  · exact ⟨(), MemberSet.checkAdd_eq_ok_iff.mpr ⟨hadmits.free, hadmits.once⟩⟩
  have ⟨hfree, honce⟩ := MemberSet.checkAdd_eq_ok_iff.mp hcheck
  refine h.lookup (fun hadmits => hadmits.resolves.1) fun rif _ hrif => ?_
  refine h.lookupPorts (fun hadmits => hadmits.resolves.2) fun ports _ hports => ?_
  have hadd : (g.subGroup role).isNull = false → (role = .ipmc → g.ipmcGroup.isNull = false) →
      ((bench config order).addToSubGroup d id role (g.subGroup role) rif ports spec).Decides r
        (c.AdmitsMember t d role spec g) := by
    intro hnull hthere
    have hadded : ((bench config order).addToSubGroup d id role (g.subGroup role) rif ports
        spec).Ends r _ _ :=
      addToSubGroup_delivers (h.less (k := 1)).tracked (hr.1 ▸ hg) hcheck
        (hl.subGroup_listed hg role hnull) rif ports
    refine .of_succeeds (hadded.mono (fun _ _ _ => trivial) fun _ _ h => h)
      ⟨hcomplete, hfree, honce, ⟨hrif, hports⟩, ?_⟩
    intro hrole hnull'
    rw [hthere hrole] at hnull'
    cases hnull'
  cases role with
  | rpf => exact hadd (Bool.not_eq_true' _ ▸ hcomplete) fun h => nomatch h
  | ipmc =>
    cases hnull : g.ipmcGroup.isNull with
    | false =>
      simp only
      exact hadd hnull fun _ => hnull
    | true =>
      simp only [if_true]
      have hkeys : ∀ key, key ∈ order.arrange g.routeKeys ↔
          ∃ r, c.routes.find? key = some r ∧ r.group = id := fun key =>
        (order.perm g.routeKeys).mem_iff.trans (hI.mem_routeKeys hg)
      refine (addFirstEgress_decides h hr (hl.group_listed hid hg) hg hcheck ?_ rif ports).congr ?_
      · intro key hkey e he
        obtain ⟨route, hroute, _⟩ := (hkeys key).mp hkey
        exact hl.routed.isSome hroute he
      · constructor
        · intro hresolve
          refine ⟨hcomplete, hfree, honce, ⟨hrif, hports⟩, fun _ _ key route hroute hgroup => ?_⟩
          exact hresolve key ((hkeys key).mpr ⟨route, hroute, hgroup.trans hid⟩)
        · intro hadmits key hkey
          obtain ⟨route, hroute, hgroup⟩ := (hkeys key).mp hkey
          exact hadmits.routers rfl hnull key route hroute (hgroup.trans hid.symm)

theorem removeMember_succeeds (hI : c.Intact max) (hr : r.Holds c)
    (hl : Ledger config b.mappings d others c items E) (habroad : Abroad d others E)
    (h : Steady b t n items E r) (hg : c.groups.find? id = some g) {rif : RifId} {m : Member}
    (hm : (g.members.ofRole role).find? rif = some m) :
    ((bench config order).removeMember d id role rif m.handle).Ends r
      (fun _ _ => True) fun _ _ => False := by
  obtain ⟨o, items', hperm, hdevice, hkind, hparent, hl'⟩ :=
    hl.withoutMember_leaf (hI.groups id g hg).2 hg hm
  have hworks : (Call.removeMember role m.handle).Works d items E := by
    refine Call.remove_works (fun s s' hs => ?_) hperm hdevice
      (hl'.closed (hI.withoutMember hg hm) habroad) hparent
    rw [hkind] at hs
    exact ⟨(), congrArg (Except.map fun s => ((), s)) hs⟩
  refine Act.Ends.bind (h.request (Call.removeMember_turns hperm) hworks) ?_ fun _ _ h => h
  rintro _ r₁ ⟨_, hcache⟩
  refine (Act.changeGroup_ends (g.withoutMember role rif) (hr.of_cache hcache) hg ?_).bind ?_
    fun _ _ h => h
  · rw [MemberSet.remove_eq_ok_iff.mpr ⟨hm, rfl⟩]
    rfl
  · exact fun _ _ _ => trivial

theorem changeMember_decides (op : MemberOp) (hI : c.Intact max) (hr : r.Holds c)
    (hl : Ledger config b.mappings d others c items E) (habroad : Abroad d others E)
    (h : Steady b t (n + 2) items E r) :
    ((bench config order).changeMember d id op role spec).Decides r
      (c.Admits config t (.updateMember d id op role spec)) := by
  refine Act.Ends.cache (Act.Decides.getGroup hr (fun hadmits => ?_) fun g hg => ?_)
  · cases op with
    | add =>
      obtain ⟨g, hg, _⟩ := hadmits
      exact ⟨g, hg⟩
    | delete =>
      obtain ⟨g, _, hg, _⟩ := hadmits
      exact ⟨g, hg⟩
    | update =>
      obtain ⟨⟨g, _, hg, _⟩, _⟩ := hadmits
      exact ⟨g, hg⟩
  have hmember : c.HasMember id role spec.rif → ∃ x, g.members.handle role spec.rif = .ok x := by
    rintro ⟨g', m, hg', hm⟩
    obtain rfl : g' = g := Option.some.inj (hg'.symm.trans hg)
    exact ⟨m.handle, MemberSet.handle_eq_ok_iff.mpr ⟨m, hm, rfl⟩⟩
  cases op with
  | add =>
    exact Act.Decides.bind (addMember_decides hI hr hl h) fun _ _ hP => hP
  | delete =>
    refine Act.Decides.ofCache hmember (g.members.handle_blameless _ _) fun _ hhandle => ?_
    obtain ⟨m, hm, rfl⟩ := MemberSet.handle_eq_ok_iff.mp hhandle
    refine Act.Ends.bind (removeMember_succeeds hI hr hl habroad h hg hm) ?_ fun _ _ h => h.elim
    exact fun _ _ _ => ⟨g, m, hg, hm⟩
  | update =>
    refine Act.Decides.ofCache (fun h => hmember h.1) (g.members.handle_blameless _ _)
      fun _ hhandle => ?_
    obtain ⟨m, hm, rfl⟩ := MemberSet.handle_eq_ok_iff.mp hhandle
    refine h.lookupPorts (fun h => h.2) fun ports _ hports => ?_
    obtain ⟨o, items', hperm, _⟩ := hl.withoutMember hg hm
    have hset := h.less.request (Call.setMember_turns hperm ports)
      (Call.setMember_works (hl.member_listed hg hm) ports)
    refine Act.Ends.bind hset ?_ fun _ _ h => h.elim
    rintro _ r₁ ⟨_, hcache⟩
    refine (Act.changeGroup_ends (g.withPorts role spec.rif (.ofPorts spec.ports))
      (hr.of_cache hcache) hg ?_).bind ?_ fun _ _ h => h
    · rw [MemberSet.setPorts_eq_ok_iff.mpr ⟨⟨m, hm⟩, rfl⟩]
      rfl
    · exact fun _ _ _ => ⟨⟨g, m, hg, hm⟩, hports⟩

/-! Groups -/

theorem makeGroup_decides (owner : Owner) (rpf : MemberSpec) (ipmc : List MemberSpec)
    (hI : c.Intact config.maxGroups) (hr : r.Holds c)
    (hl : Ledger config b.mappings d others c items E) (h : Steady b t (n + 5) items E r) :
    ((bench config order).makeGroup d owner rpf ipmc).Decides r
      (c.Admits config t (.createGroup d owner rpf ipmc)) := by
  refine Act.Ends.cache ?_
  split
  · next hfull =>
    rw [hr.1] at hfull
    exact ⟨fun hadmits => Nat.not_lt.mpr hfull hadmits.1, fun h => nomatch h⟩
  next hsize =>
  rw [hr.1, Nat.not_le] at hsize
  refine h.lookup (fun hadmits => hadmits.2.1) fun _ _ hrif => ?_
  refine h.lookupPorts (fun hadmits => hadmits.2.2) fun _ _ hports => ?_
  have hP : c.Admits config t (.createGroup d owner rpf ipmc) := ⟨hsize, hrif, hports⟩
  have hroom : n + 5 = n + 2 + (!ipmc.isEmpty).toNat + 2 + (!(!ipmc.isEmpty)).toNat := by
    cases ipmc.isEmpty <;> rfl
  rw [hroom] at h
  refine Act.Ends.bind (buildGroup_delivers h.less.tracked owner) ?_ fun _ _ h => h.elim
  rintro draft r₁ ⟨ht₁, hnamed, -⟩
  have h₁ := ht₁.toSteady
  have hr₁ := hr.of_cache ht₁.cache
  have hnone := find?_draft_eq_none hI hl h₁
  refine Act.Ends.bind (F := fun _ _ => False)
    (commitGroup_succeeds owner draft hr₁ hnone).orCleanUp_of_error ?_ fun _ _ h => h.elim
  rintro _ r₂ ⟨hr₂, hstate, hevents, _⟩
  have h₂ := h₁.of_eq hstate hevents
  have hnew := Run.Tallies.insertGroup hI ⟨hr, h.toAccounts, hl⟩ hnone h₂.toAccounts hr₂
  have hI₂ := hI.insertGroup hnone hsize owner draft.rpfGroup draft.ipmcGroup
  refine Act.Ends.bind (P := fun _ r' => Steady b t (n + 2) _ E r' ∧ r'.Holds _)
    (F := fun _ _ => False) ⟨h₂.of_eq rfl rfl, hr₂⟩ ?_ fun _ _ h => h.elim
  rintro _ r₃ ⟨h₃, hr₃⟩
  have hadd : ((bench config order).addMember d draft.group .rpf rpf).Decides r₃ _ :=
    addMember_decides hI₂ hr₃ hnew.ledger h₃
  refine Act.Ends.bind (Act.Ends.orCleanUp_of_error hadd) ?_ fun _ _ hf => (hf.1 ⟨_,
    DeviceCache.find?_insertGroup c _, DeviceCache.admitsMember_new hnamed ⟨hrif, hports⟩ _ _⟩).elim
  -- egress members are added as far as they can be
  intro _ r₄ _
  refine Act.Ends.bind (P := fun _ _ => True) (F := fun _ _ => False) trivial ?_
    fun _ _ h => h.elim
  exact fun _ _ _ => Act.ends_bind.mpr (Act.ends_lift.mpr hP)

theorem unmakeGroup_decides (hI : c.Intact max) (h : r.Tallies config b d others c items E)
    (habroad : Abroad d others E) (hsteady : Steady b t n items E r) :
    ((bench config order).unmakeGroup d id).Decides r
      (c.Admits config t (.deleteGroup d id)) := by
  by_cases hdeletable : ∃ g, c.groups.find? id = some g ∧ g.isInUse = false
  · obtain ⟨g, hg, huse⟩ := hdeletable
    have hadmits : c.Admits config t (.deleteGroup d id) :=
      ⟨⟨g, hg⟩, (hI.isInUse_eq_false_iff hg).mp huse⟩
    refine (unmakeGroup_sheds hI h habroad hsteady.undone hsteady.count_lt hg huse).mono
      (fun _ _ _ => hadmits) ?_
    rintro _ _ ⟨_, _, _, _, _, hfiring, _⟩
    rw [hsteady.faults, Switch.firing_nil] at hfiring
    cases hfiring
  · refine Act.Ends.cache (Act.Decides.getGroup h.holds (fun hadmits => hadmits.1) fun g hg => ?_)
    have huse : g.isInUse = true := by
      rw [← Bool.not_eq_false]
      exact fun huse => hdeletable ⟨g, hg, huse⟩
    rw [huse]
    refine ⟨fun hadmits => ?_, fun h => nomatch h⟩
    rw [(hI.isInUse_eq_false_iff hg).mpr hadmits.2] at huse
    cases huse

/-! Routes -/

theorem makeRoute_decides (route : Route) (hr : r.Holds c)
    (hl : Ledger config b.mappings d others c items E) (hm : Mappings.Apart b.mappings)
    (h : Steady b t n items E r) :
    ((bench config order).makeRoute d route).Decides r
      (c.Admits config t (.addRoute d route)) := by
  unfold makeRoute
  cases hvalid : route.key.validate with
  | error why =>
    refine ⟨fun hadmits => ?_, fun h => nomatch h⟩
    have hadmits := hadmits.1
    rw [hvalid] at hadmits
    cases hadmits
  | ok _ =>
    refine Act.Ends.cache (Act.Decides.ofCache (fun hadmits => ?_)
      (DeviceCache.checkAddRoute_blameless _ route) fun _ hcheck => ?_)
    · obtain ⟨_, hkey, ⟨g, hg, _⟩, _⟩ := hadmits
      exact ⟨(), DeviceCache.checkAddRoute_eq_ok_iff.mpr ⟨hr.2 ▸ hkey, g, hr.1 ▸ hg⟩⟩
    have ⟨hkey, _⟩ := DeviceCache.checkAddRoute_eq_ok_iff.mp hcheck
    rw [hr.2] at hkey
    refine Act.Decides.usableGroup hr (fun hadmits => hadmits.2.2.1) fun g hg hcomplete => ?_
    refine h.entryOf (fun hadmits => hadmits.2.2.2.1) fun e he hrouter => ?_
    refine h.lookup (fun hadmits => hadmits.2.2.2.2) fun iif _ hiif => ?_
    have hsource : e.type.hasSource = e.source.isSome := by
      obtain ⟨router, _, rfl⟩ := Option.map_eq_some_iff.mp he
      exact RouteKey.hasSource_of_validate hvalid
    rw [routeAttrs_eq]
    have hworks := Call.createEntry_works hsource (hl.routed.eq_none hm he hkey)
      (hl.image_listed hg iif route.copyToCpu)
    have hcreate := h.request (Call.createEntry_turns _) hworks
    refine Act.Ends.bind hcreate ?_ fun _ _ h => h.elim
    rintro _ r₁ ⟨_, hcache⟩
    refine (insertRoute_ends (hr.of_cache hcache) hkey hg).bind ?_ fun _ _ h => h
    exact fun _ _ _ => ⟨hvalid, hkey, ⟨g, hg, hcomplete⟩, hrouter, hiif⟩

theorem unmakeRoute_decides (key : RouteKey) (hI : c.Intact max) (hr : r.Holds c)
    (hl : Ledger config b.mappings d others c items E) (h : Steady b t n items E r) :
    ((bench config order).unmakeRoute d key).Decides r
      (c.Admits config t (.deleteRoute d key)) := by
  refine Act.Ends.cache (Act.Decides.ofCache (fun hadmits => ?_)
    (RouteTable.groupOf_blameless _ key) fun group hgroup => ?_)
  · obtain ⟨⟨route, hroute⟩, _⟩ := hadmits
    exact ⟨route.group, RouteTable.groupOf_eq_ok_iff.mpr ⟨route, hr.2 ▸ hroute, rfl⟩⟩
  obtain ⟨route, hroute, rfl⟩ := RouteTable.groupOf_eq_ok_iff.mp hgroup
  rw [hr.2] at hroute
  obtain ⟨rfl, _⟩ := hI.routes key route hroute
  obtain ⟨g, hg⟩ := hI.grouped _ route hroute
  refine h.entryOf (fun hadmits => hadmits.2) fun e he hrouter => ?_
  refine Act.Ends.bind (h.request Call.removeEntry_turns
    (Call.removeEntry_works (hl.routed.isSome hroute he))) ?_ fun _ _ h => h.elim
  rintro _ r₁ ⟨_, hcache⟩
  refine (eraseRoute_ends (hr.of_cache hcache) hroute hg).bind ?_ fun _ _ h => h
  exact fun _ _ _ => ⟨⟨route, hroute⟩, hrouter⟩

theorem writeAttrs_succeeds {key : RouteKey} {e : Entry} {changes : List (EntryAttr × EntryAttr)}
    (hE : (E (d, e)).isSome = true) (hlisted : ∀ p ∈ changes, p.2.Listed items d)
    (h : Steady b t n items E r) (replaced : List EntryAttr) :
    ((bench config order).writeAttrs d key e replaced changes).Ends r
      (fun _ _ => True) fun _ _ => False := by
  induction changes generalizing replaced E r with
  | nil => exact trivial
  | cons change rest ih =>
    have hwrite := h.request (Call.setEntry_turns change.2)
      (Call.setEntry_works hE (hlisted change List.mem_cons_self))
    rw [writeAttrs]
    refine Act.Ends.bind hwrite.orCleanUp_of_error ?_ fun _ _ h => h
    rintro _ r₁ ⟨h₁, _⟩
    refine ih ?_ (fun p hp => hlisted p (List.mem_cons_of_mem _ hp)) h₁ _
    rw [Books.isSome_write]
    exact hE

/-- The virtual router matters only if there is something to write. -/
theorem writeChanges_decides {key : RouteKey} (old : RouteImage) {new : RouteImage}
    {changes : List (EntryAttr × EntryAttr)}
    (hE : ∀ e, entryAt b.mappings d key = some e → (E (d, e)).isSome = true)
    (hlisted : ∀ a ∈ new.attrs, a.Listed items d)
    (hchanges : changes = (old.attrs.zip new.attrs).filter fun p => p.1 ≠ p.2)
    (h : Steady b t n items E r) :
    (if changes.isEmpty then pure ()
      else do
        let entry ← Act.entryOf Testbed.hardware d key
        (bench config order).writeAttrs d key entry [] changes : Act Testbed Unit).Decides r
      (old ≠ new → t.Resolves d (.vrf key.vrf)) := by
  have hempty : changes.isEmpty = true ↔ old = new := by
    rw [hchanges, List.isEmpty_iff, RouteImage.filter_zip_attrs_eq_nil_iff]
  split
  · next hnone => exact fun hne => (hne (hempty.mp hnone)).elim
  · next hsome =>
    rw [hempty] at hsome
    refine h.entryOf (fun hresolves => hresolves hsome) fun e he hrouter => ?_
    refine .of_succeeds (writeAttrs_succeeds (hE e he) (fun p hp => ?_) h []) fun _ => hrouter
    rw [hchanges] at hp
    exact hlisted p.2 (List.of_mem_zip (List.mem_filter.mp hp).1).2

theorem changeRoute_decides (key : RouteKey) (u : RouteUpdate) (hI : c.Intact max)
    (hr : r.Holds c) (hl : Ledger config b.mappings d others c items E)
    (ht : t.switch.mappings = b.mappings) (h : Steady b t n items E r) :
    ((bench config order).changeRoute d key u).Decides r
      (c.Admits config t (.updateRoute d key u)) := by
  have hS := quiet_frame (bench config order).hardware d
  refine Act.Ends.cache (Act.Decides.getRoute hr (fun hadmits => hadmits.imp fun _ h => h.1)
    fun route hroute => ?_)
  obtain ⟨rfl, _⟩ := hI.routes key route hroute
  -- from here on the route is known
  refine Act.Decides.congr (P := c.AdmitsUpdate config t d u route) ?_
    (by simp [DeviceCache.Admits, hroute])
  refine Act.Decides.getGroup hr (fun _ => hI.grouped _ route hroute) fun g hg => ?_
  refine Act.Decides.usableGroup hr (fun hadmits => hadmits.group) fun g' hg' hcomplete => ?_
  refine h.lookup (fun hadmits => hadmits.oldIif) fun oldIif holdIif hold => ?_
  refine Act.Ends.bind (P := fun newIif r' => r = r' ∧
    b.mappings.find? (d, .rif (u.apply route).iif) = some newIif ∧
    t.Resolves d (.rif (u.apply route).iif))
    (F := fun e _ => ¬c.AdmitsUpdate config t d u route ∧ e.kind ≠ .fail) ?_ ?_ fun _ _ h => h
  · split
    · next hsame =>
      have hsame : (u.apply route).iif = route.iif := hsame
      rw [hsame]
      exact ⟨rfl, holdIif, hold⟩
    · refine (h.resolve_ends _).mono (fun _ _ h => h) ?_
      exact fun _ _ hf => ⟨fun hadmits => hf.1 hadmits.newIif, hf.2⟩
  rintro newIif _ ⟨rfl, hnewIif, hnew⟩
  have hshows : c.imageOf config t.switch.mappings d route =
      some (config.image g oldIif route.copyToCpu) := by
    rw [ht]
    exact DeviceCache.imageOf_eq_some_iff.mpr ⟨g, oldIif, hg, holdIif, rfl⟩
  have hshould : c.imageOf config t.switch.mappings d (u.apply route) =
      some (config.image g' newIif (u.apply route).copyToCpu) := by
    rw [ht]
    exact DeviceCache.imageOf_eq_some_iff.mpr ⟨g', newIif, hg', hnewIif, rfl⟩
  have hrouter : (config.image g oldIif route.copyToCpu ≠
      config.image g' newIif (u.apply route).copyToCpu → t.Resolves d (.vrf route.key.vrf)) ↔
      c.AdmitsUpdate config t d u route := by
    constructor
    · intro hresolves
      refine ⟨⟨g', hg', hcomplete⟩, hold, hnew, fun hne => hresolves fun heq => ?_⟩
      rw [hshows, hshould, heq] at hne
      exact hne rfl
    · intro hadmits hne
      apply hadmits.router
      rw [hshows, hshould]
      exact fun heq => hne (Option.some.inj heq)
  refine Act.Decides.congr ?_ hrouter
  refine Act.Ends.bind ((writeChanges_decides (config.image g oldIif route.copyToCpu)
    (fun _ => hl.routed.isSome hroute) (hl.image_listed hg' newIif (u.apply route).copyToCpu)
    rfl h).and ((hS.writeChanges route.key _).holds hr)) ?_ fun _ _ hf => hf.1
  rintro _ r₁ ⟨hresolves, hr₁⟩
  refine (setRoute_ends (u := u) hr₁ hroute hg hg').bind ?_ fun _ _ h => h
  exact fun _ _ _ => hresolves

theorem checkRoute_decides (key : RouteKey) (hI : c.Intact max) (hr : r.Holds c)
    (hl : Ledger config b.mappings d others c items E) (h : Steady b t n items E r) :
    ((bench config order).checkRoute d key).Decides r
      (c.Admits config t (.verifyRoute d key)) := by
  refine Act.Ends.cache (Act.Decides.getRoute hr (fun hadmits => hadmits.imp fun _ h => h.1)
    fun route hroute => ?_)
  refine Act.Decides.getGroup hr (fun _ => hI.grouped _ route hroute) fun _ _ => ?_
  refine h.lookup (fun hadmits => ?_) fun iif _ hiif => ?_
  · obtain ⟨route', hroute', hiif, _⟩ := hadmits
    obtain rfl : route' = route := Option.some.inj (hroute'.symm.trans hroute)
    exact hiif
  refine h.entryOf (fun hadmits => ?_) fun e he hrouter => ?_
  · obtain ⟨_, _, _, hrouter⟩ := hadmits
    exact hrouter
  refine Act.Ends.bind (h.request (Call.readEntry_turns _)
    (Call.readEntry_works (hl.routed.isSome hroute he) _)) ?_ fun _ _ h => h.elim
  exact fun _ _ _ => Act.ends_bind.mpr (Act.ends_lift.mpr ⟨route, hroute, hiif, hrouter⟩)

end Orchestrator

end Multicast
