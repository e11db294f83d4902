import Multicast.Proofs.Delivery

/-! A new group, when nothing keeps calls from succeeding: it has its ingress member and every
egress member asked for. -/
namespace Multicast

variable {config : Config} {order : RouteOrder} {b : Opening} {t : Testbed} {n k max : Nat}
  {d : DeviceId} {others : List Holding} {c : DeviceCache}
  {items : List (Handle × Switch.Object)} {E : Programming} {r : Run Testbed}
  {id : Handle} {g g' : Group} {role : Role} {spec : MemberSpec} {specs : List MemberSpec}

/-- How many handles a group with egress members takes, its own included. -/
def Group.handles (ipmc : List MemberSpec) : Nat := ipmc.length + (!ipmc.isEmpty).toNat + 3

/-- A group with the members that were asked for. -/
structure Group.Formed (g : Group) (rpf : MemberSpec) (ipmc : List MemberSpec) : Prop where
  complete : g.isComplete = true
  ingress : ∃ m, g.members.list .rpf = [.ofSpec m rpf]
  size : g.members.size .ipmc = ipmc.length
  egress : ∀ spec ∈ ipmc, ∃ m, g.members.ipmc.find? spec.rif = some (.ofSpec m spec)

theorem Group.Formed.of_members {rpf : MemberSpec} (h : g.Formed rpf specs)
    (hmembers : g'.members = g.members) (hrpf : g'.rpfGroup = g.rpfGroup) :
    g'.Formed rpf specs := by
  obtain ⟨hcomplete, hingress, hsize, hegress⟩ := h
  rw [← hmembers] at hingress hsize hegress
  refine ⟨?_, hingress, hsize, hegress⟩
  rwa [isComplete, hrpf]

/-- `g'` is `g` with new egress members as asked for. -/
structure Group.Gathers (g : Group) (specs : List MemberSpec) (g' : Group) : Prop where
  same : { g' with members := ⟨g'.members.rpf, g.members.ipmc⟩ } = g
  size : g'.members.size .ipmc = g.members.size .ipmc + specs.length
  added : ∀ spec ∈ specs, ∃ m, g'.members.ipmc.find? spec.rif = some (.ofSpec m spec)
  kept : ∀ rif, rif ∉ specs.map MemberSpec.rif →
    g'.members.ipmc.find? rif = g.members.ipmc.find? rif

namespace Group.Gathers

theorem refl (g : Group) : g.Gathers [] g :=
  ⟨rfl, rfl, fun _ hspec => (List.not_mem_nil hspec).elim, fun _ _ => rfl⟩

theorem cons {member : Handle} (hfree : g.members.ipmc.find? spec.rif = none)
    (hdistinct : spec.rif ∉ specs.map MemberSpec.rif)
    (h : (g.withMember .ipmc (.ofSpec member spec) none).Gathers specs g') :
    g.Gathers (spec :: specs) g' where
  same := by
    have hsame := h.same
    obtain ⟨id, owner, rpfGroup, ipmcGroup, ⟨rpf, ipmc⟩, ipv4, ipv6⟩ := g'
    cases hsame
    rfl
  size := by
    have hsize : (g.members.ipmc.insert spec.rif (.ofSpec member spec)).size =
        g.members.ipmc.size + 1 := Table.size_insert _ hfree
    rw [h.size, List.length_cons]
    change (g.members.ipmc.insert spec.rif (.ofSpec member spec)).size + _ =
      g.members.ipmc.size + _
    omega
  added := by
    intro spec' hspec'
    rcases List.mem_cons.mp hspec' with rfl | hspec'
    · refine ⟨member, (h.kept _ hdistinct).trans ?_⟩
      exact Table.find?_insert_self _ _ _
    · exact h.added spec' hspec'
  kept := by
    intro rif hrif
    rw [List.map_cons, List.mem_cons, not_or] at hrif
    refine (h.kept rif hrif.2).trans ?_
    exact Table.find?_insert_of_ne _ _ hrif.1

theorem id_eq (h : g.Gathers specs g') : g'.id = g.id := by
  rw [← h.same]

theorem formed {rpf : MemberSpec} (h : g.Gathers specs g') (hcomplete : g.isComplete = true)
    (hrpf : ∃ m, g.members.list .rpf = [.ofSpec m rpf]) (hsize : g.members.size .ipmc = 0) :
    g'.Formed rpf specs where
  complete := by
    rw [← hcomplete, ← h.same]
    rfl
  ingress := by
    rw [← h.same] at hrpf
    exact hrpf
  size := by
    rw [h.size, hsize, Nat.zero_add]
  egress := h.added

end Group.Gathers

theorem DeviceCache.insertGroup_setGroup {c : DeviceCache} {g g' : Group} (hid : g'.id = g.id) :
    (c.insertGroup g).setGroup g.id g' = c.insertGroup g' := by
  have hgroups : (c.groups.insert g.id g).modify g.id (fun _ => g') =
      c.groups.insert g'.id g' := by
    refine Table.ext_find? fun id => ?_
    by_cases hk : id = g.id <;> simp [hk, hid]
  unfold setGroup insertGroup
  rw [hgroups]

/-- The cache with so many more members counted. -/
def DeviceCache.addedMembers (c : DeviceCache) (members : Nat) : DeviceCache :=
  c.counted fun s => { s with membersAdded := s.membersAdded + members }

theorem DeviceCache.addedMembers_setGroup (c : DeviceCache) (id : Handle) (g g' : Group)
    (i j : Nat) :
    (((c.setGroup id g).addedMembers i).setGroup id g').addedMembers j =
      (c.setGroup id g').addedMembers (i + j) := by
  simp [addedMembers, counted, setGroup, Nat.add_assoc]

/-- The cache with a new group, counted together with its members. -/
def DeviceCache.withGroup (c : DeviceCache) (g : Group) (members : Nat) : DeviceCache :=
  ((c.insertGroup g).counted fun s =>
    { s with groupsCreated := s.groupsCreated + 1 }).addedMembers members

theorem DeviceCache.find?_withGroup_self (hid : g.id = id) (members : Nat) :
    (c.withGroup g members).groups.find? id = some g := by
  subst hid
  exact Table.find?_insert_self _ _ _

theorem DeviceCache.find?_withGroup_of_ne (hid : g.id = id) {members : Nat} {id' : Handle}
    (h : id' ≠ id) : (c.withGroup g members).groups.find? id' = c.groups.find? id' := by
  subst hid
  exact Table.find?_insert_of_ne _ _ h

/-- A group is counted before its members are added. -/
theorem DeviceCache.setGroup_eq_withGroup (c : DeviceCache) (hid : g'.id = g.id) (g₁ : Group)
    (members : Nat) :
    (((((c.insertGroup g).counted fun s =>
      { s with groupsCreated := s.groupsCreated + 1 }).setGroup g.id g₁).addedMembers 1).setGroup
        g.id g').addedMembers members = c.withGroup g' (1 + members) := by
  rw [addedMembers_setGroup, withGroup, ← insertGroup_setGroup hid]
  rfl

namespace Orchestrator

/-! Members -/

theorem addToSubGroup_delivers (h : Tracked b t (n + 1) items E c k r)
    (hg : c.groups.find? id = some g) (hcheck : g.members.checkAdd role spec.rif = .ok ())
    {subGroup : Handle} (hsub : Listed items d subGroup (.subGroup role)) (rif : Handle)
    (ports : List Handle) :
    ((bench config order).addToSubGroup d id role subGroup rif ports spec).Ends r
      (fun _ r' => ∃ member o, Tracked b t n ((member, o) :: items) E
        (c.setGroup id (g.withMember role (.ofSpec member spec) none)) (k + 1) r')
      fun _ _ => False := by
  have hcreate := Tracked.request (n := n) h (Call.createMember_turns role subGroup rif ports)
    (Call.createMember_works hsub rif ports)
  refine Act.Ends.andThen hcreate fun member r₁ h₁ => ?_
  refine Act.Ends.orCleanUp (F := fun _ _ => False) ?_ fun _ _ h => h.elim
  refine (commitMember_ends (m := .ofSpec member spec) h₁.holds hg hcheck none).mono ?_
    fun _ _ h => h
  exact fun _ _ hr' => ⟨member, _, h₁.commit hr' rfl⟩

theorem addMember_delivers (h : Tracked b t (n + 1) items E c k r)
    (hg : c.groups.find? id = some g) (hadmits : c.AdmitsMember t d role spec g)
    (hnull : (g.subGroup role).isNull = false)
    (hsub : Listed items d (g.subGroup role) (.subGroup role)) :
    ((bench config order).addMember d id role spec).Ends r
      (fun _ r' => ∃ member o, Tracked b t n ((member, o) :: items) E
        (c.setGroup id (g.withMember role (.ofSpec member spec) none)) (k + 1) r')
      fun _ _ => False := by
  have hcheck := MemberSet.checkAdd_eq_ok_iff.mpr ⟨hadmits.free, hadmits.once⟩
  refine h.usableGroup hg hadmits.complete (Act.Ends.pass hcheck ?_)
  refine (h.lookup hadmits.resolves.1).andThen ?_
  rintro rif _ ⟨rfl, -⟩
  refine (h.lookupPorts hadmits.resolves.2).andThen ?_
  rintro ports _ rfl
  cases role with
  | rpf => exact addToSubGroup_delivers h hg hcheck hsub rif ports
  | ipmc =>
    have hnull : g.ipmcGroup.isNull = false := hnull
    simp only [hnull, Bool.false_eq_true, if_false]
    exact addToSubGroup_delivers h hg hcheck hsub rif ports

theorem addEgressMembers_delivers (h : Tracked b t (n + specs.length) items E c k r)
    (hg : c.groups.find? id = some g) (hcomplete : g.isComplete = true)
    (hsub : specs ≠ [] → g.ipmcGroup.isNull = false ∧ Listed items d g.ipmcGroup (.subGroup .ipmc))
    (hdistinct : (specs.map MemberSpec.rif).Nodup)
    (hfree : ∀ spec ∈ specs, g.members.ipmc.find? spec.rif = none)
    (hresolves : ∀ spec ∈ specs, spec.Resolves t d) :
    ((bench config order).addEgressMembers d id specs).Ends r fun _ r' =>
      ∃ g' items', g.Gathers specs g' ∧ Tracked b t n items' E
        ((c.setGroup id g').addedMembers specs.length) (k + specs.length) r' := by
  induction specs generalizing g c items r k with
  | nil =>
    refine ⟨g, items, .refl g, ?_⟩
    rw [DeviceCache.setGroup_eq_self hg]
    exact h
  | cons spec rest ih =>
    obtain ⟨hnull, hlisted⟩ := hsub (List.cons_ne_nil _ _)
    rw [List.map_cons, List.nodup_cons] at hdistinct
    have hadmits : c.AdmitsMember t d .ipmc spec g := by
      refine ⟨hcomplete, hfree spec List.mem_cons_self, nofun,
        hresolves spec List.mem_cons_self, ?_⟩
      intro _ hnull'
      rw [hnull] at hnull'
      cases hnull'
    have h : Tracked b t (n + rest.length + 1) items E c k r := h
    refine Effect.Ends.bind (addMember_delivers h hg hadmits hnull hlisted) ?_
    rintro (_ | _) r₁ h₁
    · exact h₁.elim
    obtain ⟨member, o, h₁⟩ := h₁
    refine Effect.Ends.bind (h₁.count _) fun _ r₂ h₂ => ?_
    let g₁ := g.withMember .ipmc (.ofSpec member spec) none
    have hg₁ := DeviceCache.find?_setGroup hg g₁
    refine (ih h₂ hg₁ hcomplete (fun _ => ⟨hnull, ?_⟩) hdistinct.2 (fun spec' hspec' => ?_)
      fun spec' hspec' => hresolves spec' (List.mem_cons_of_mem _ hspec')).mono ?_
    · obtain ⟨o', ho', hfits⟩ := hlisted
      exact ⟨o', List.mem_cons_of_mem _ ho', hfits⟩
    · have hne : spec'.rif ≠ spec.rif :=
        fun heq => hdistinct.1 (heq ▸ List.mem_map_of_mem hspec')
      exact (Table.find?_insert_of_ne _ _ hne).trans
        (hfree spec' (List.mem_cons_of_mem _ hspec'))
    · rintro _ r₃ ⟨g', items', hgathers, h₃⟩
      refine ⟨g', items', hgathers.cons (hfree spec List.mem_cons_self) hdistinct.1, ?_⟩
      rw [List.length_cons, Nat.add_comm rest.length, ← Nat.add_assoc,
        ← c.addedMembers_setGroup id g₁ g']
      exact h₃

/-! Groups -/

theorem buildSubGroup_delivers {draft : Draft}
    (h : Tracked b t (n + 1) (draft.made d ++ items) E c k r) (role : Role) (what : String) :
    ((bench config order).buildSubGroup d role what draft).Ends r
      (fun x r' => Tracked b t n
        ((x, (⟨d, .subGroup role, some draft.group, []⟩ : Switch.Object)) ::
          (draft.made d ++ items)) E c (k + 1) r')
      fun _ _ => False := by
  have hgroup : Listed (draft.made d ++ items) d draft.group .group := by
    refine ⟨⟨d, .group, none, []⟩, List.mem_append_left _ ?_, rfl, rfl⟩
    simp [Draft.made]
  exact Act.Ends.orCleanUp_of_error (Tracked.request (n := n) h
    (Call.createSubGroup_turns role draft.group) (Call.createSubGroup_works role hgroup))

theorem buildGroup_delivers {needed : Bool} (h : Tracked b t (n + needed.toNat + 2) items E c k r)
    (owner : Owner) :
    ((bench config order).buildGroup d owner needed).Ends r
      (fun draft r' => Tracked b t n (draft.made d ++ items) E c (k + needed.toNat + 2) r' ∧
        draft.rpfGroup.isNull = false ∧ draft.ipmcGroup.isNull = !needed)
      fun _ _ => False := by
  refine Act.Ends.andThen (Tracked.request (n := n + needed.toNat + 1) h
    (Call.createGroup_turns [owner]) (Call.createGroup_works [owner])) ?_
  intro group r₁ h₁
  have h₁ : Tracked b t (n + needed.toNat + 1)
      ((⟨group, .null, .null⟩ : Draft).made d ++ items) E c (k + 1) r₁ := h₁
  refine Act.Ends.andThen (P := fun ipmcGroup r' => Tracked b t (n + 1)
    ((⟨group, ipmcGroup, .null⟩ : Draft).made d ++ items) E c (k + needed.toNat + 1) r' ∧
      ipmcGroup.isNull = !needed) ?_ ?_
  · cases needed with
    | false => exact ⟨h₁, rfl⟩
    | true =>
      refine (buildSubGroup_delivers (n := n + 1) h₁ .ipmc _).mono ?_ fun _ _ h => h
      intro ipmcGroup r₂ h₂
      have hnamed := h₂.books.named _ List.mem_cons_self
      unfold Draft.made at h₂ ⊢
      rw [subGroupItems_of_not_null hnamed]
      exact ⟨h₂, hnamed⟩
  · rintro ipmcGroup r₂ ⟨h₂, hipmc⟩
    refine (buildSubGroup_delivers h₂ .rpf _).bind ?_ fun _ _ h => h
    intro rpfGroup r₃ h₃
    have hnamed := h₃.books.named _ List.mem_cons_self
    refine ⟨?_, hnamed, hipmc⟩
    unfold Draft.made at h₃ ⊢
    rw [subGroupItems_of_not_null hnamed]
    exact h₃

/-- A new group has a new handle. -/
theorem find?_draft_eq_none {draft : Draft} (hI : c.Intact max)
    (hl : Ledger config b.mappings d others c items E)
    (h : Steady b t n (draft.made d ++ items) E r) : c.groups.find? draft.group = none := by
  cases hg : c.groups.find? draft.group with
  | none => rfl
  | some g =>
    have hdistinct := h.stocked.distinct
    rw [List.map_append, List.nodup_append] at hdistinct
    have hmade : draft.group ∈ (draft.made d).map Prod.fst := by
      simp [Draft.made]
    exact (hdistinct.2.2 _ hmade _ (hl.group_mem_handles hI hg) rfl).elim

theorem commitGroup_succeeds (owner : Owner) (draft : Draft) (hr : r.Holds c)
    (hnone : c.groups.find? draft.group = none) {F : OpError → Run Testbed → Prop} :
    (commitGroup owner draft).Ends r (fun _ r' =>
      r.Commits (c.insertGroup (.new draft.group owner draft.rpfGroup draft.ipmcGroup)) r') F := by
  apply Act.changeCache_ends hr
  intro stats
  rw [GroupTable.create_eq_ok_iff.mpr ⟨hnone, rfl⟩]
  rfl

/-- A group for which nothing stands in the way is built with all of its members. -/
theorem makeGroup_delivers {rpf : MemberSpec} (owner : Owner)
    (hI : c.Intact config.maxGroups) (hl : Ledger config b.mappings d others c items E)
    (hsize : c.groups.size < config.maxGroups) (hrpf : rpf.Resolves t d)
    (hresolves : ∀ spec ∈ specs, spec.Resolves t d)
    (hdistinct : (specs.map MemberSpec.rif).Nodup)
    (h : Tracked b t (n + Group.handles specs) items E c k r) :
    ((bench config order).makeGroup d owner rpf specs).Ends r
      (fun id r' => ∃ g items', g.id = id ∧ g.Formed rpf specs ∧ c.groups.find? id = none ∧
        Tracked b t n items' E (c.withGroup g (1 + specs.length)) (k + Group.handles specs) r')
      fun _ _ => False := by
  have hsize' : ¬config.maxGroups ≤ r.cache.groups.size := by
    rw [h.cache]
    exact Nat.not_le.mpr hsize
  refine Act.Ends.cache ?_
  rw [if_neg hsize']
  refine (h.lookup hrpf.1).andThen ?_
  rintro rif _ ⟨rfl, -⟩
  refine (h.lookupPorts hrpf.2).andThen ?_
  rintro ports _ rfl
  have hroom : n + Group.handles specs =
      n + specs.length + 1 + (!specs.isEmpty).toNat + 2 := by
    unfold Group.handles
    omega
  refine (buildGroup_delivers (hroom ▸ h) owner).andThen ?_
  rintro draft r₁ ⟨h₁, hnamed, hipmc⟩
  have hnone := find?_draft_eq_none hI hl h₁.toSteady
  refine Act.Ends.andThen (commitGroup_succeeds owner draft h₁.holds hnone).orCleanUp_of_error ?_
  intro _ r₂ hr₂
  have h₂ := h₁.commit hr₂ rfl
  let g₀ := Group.new draft.group owner draft.rpfGroup draft.ipmcGroup
  have hnew := Run.Tallies.insertGroup hI ⟨h.holds, h.toAccounts, hl⟩ hnone h₂.toAccounts h₂.holds
  have hg₀ := DeviceCache.find?_insertGroup c g₀
  refine Act.Ends.lift (h₂.count _) fun _ r₃ h₃ => ?_
  have hrpfGroup := hnew.ledger.subGroup_listed hg₀ .rpf hnamed
  refine Act.Ends.andThen (Act.Ends.orCleanUp_of_error (addMember_delivers h₃ hg₀
    (DeviceCache.admitsMember_new hnamed hrpf owner draft.ipmcGroup) hnamed hrpfGroup)) ?_
  rintro _ r₄ ⟨member, o, h₄⟩
  let g₁ := g₀.withMember .rpf (.ofSpec member rpf) none
  have hg₁ := DeviceCache.find?_setGroup hg₀ g₁
  refine Act.Ends.lift (h₄.count _) fun _ r₅ h₅ => ?_
  have hipmcGroup : specs ≠ [] → g₁.ipmcGroup.isNull = false ∧
      Listed ((member, o) :: (draft.made d ++ items)) d g₁.ipmcGroup (.subGroup .ipmc) := by
    intro hspecs
    have hnull : g₀.ipmcGroup.isNull = false := by
      rw [← List.isEmpty_eq_false_iff] at hspecs
      exact hipmc.trans (by simp [hspecs])
    obtain ⟨o', ho', hfits⟩ := hnew.ledger.subGroup_listed hg₀ .ipmc hnull
    exact ⟨hnull, o', List.mem_cons_of_mem _ ho', hfits⟩
  have hcomplete : g₀.isComplete = true := by
    simp [g₀, Group.isComplete, Group.new, hnamed]
  refine Act.Ends.lift (addEgressMembers_delivers h₅ hg₁ hcomplete hipmcGroup hdistinct
    (fun _ _ => rfl) hresolves) ?_
  rintro _ r₆ ⟨g', items', hgathers, h₆⟩
  have hid : g'.id = g₀.id := hgathers.id_eq
  have hcache := c.setGroup_eq_withGroup hid g₁ specs.length
  have hformed : g'.Formed rpf specs := hgathers.formed hcomplete ⟨member, rfl⟩ rfl
  have hused : k + (!specs.isEmpty).toNat + 2 + 1 + specs.length = k + Group.handles specs := by
    unfold Group.handles
    omega
  refine Act.Ends.cache ((h₆.note _ _).andThen fun _ r₇ h₇ => ?_)
  exact ⟨g', items', hid, hformed, hnone, h₇.toSteady, h₇.cache.trans hcache, h₇.used.trans hused⟩

end Orchestrator

end Multicast
