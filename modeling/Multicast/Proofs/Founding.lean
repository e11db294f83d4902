import Multicast.Proofs.Enrolment

/-! A create that succeeds builds what it was asked for less what failed: the ingress member, each
egress member that could be made, and nothing else. -/
namespace Multicast

open Orchestrator (Draft)

namespace Orchestrator

def subGroupCalls (d : DeviceId) (role : Role) (group subGroup : Handle) :
    List (DeviceId × Call × Option HardwareError) :=
  if subGroup.isNull then [] else [(d, .createSubGroup role [group], none)]

/-- The calls for a group without its members. -/
def Draft.calls (draft : Draft) (d : DeviceId) (owner : Owner) :
    List (DeviceId × Call × Option HardwareError) :=
  (d, .createGroup [owner], none) ::
    (subGroupCalls d .ipmc draft.group draft.ipmcGroup ++
      subGroupCalls d .rpf draft.group draft.rpfGroup)

theorem subGroupCalls_of_not_null {d : DeviceId} {role : Role} {group subGroup : Handle}
    (h : subGroup.isNull = false) :
    subGroupCalls d role group subGroup = [(d, .createSubGroup role [group], none)] := by
  rw [subGroupCalls, h]
  rfl

end Orchestrator

namespace Group

def draft (g : Group) : Draft := ⟨g.id, g.ipmcGroup, g.rpfGroup⟩

/-- The objects of a new group. -/
def objects (g : Group) (t : Testbed) (d : DeviceId) (rpf : MemberSpec) (ingress : Handle)
    (trials : List Trial) : List (Handle × Switch.Object) :=
  (ingress, rpf.object t d .rpf g.rpfGroup) :: g.draft.made d ++
    trials.filterMap (Trial.item? t d g.ipmcGroup)

theorem mem_objects (g : Group) (t : Testbed) (d : DeviceId) (rpf : MemberSpec)
    (ingress : Handle) (trials : List Trial) :
    (g.id, ⟨d, .group, none, []⟩) ∈ g.objects t d rpf ingress trials := by
  simp [objects, draft, Draft.made]

/-- The calls that made a new group. -/
def calls (g : Group) (t : Testbed) (d : DeviceId) (rpf : MemberSpec) (trials : List Trial) :
    List (DeviceId × Call × Option HardwareError) :=
  g.draft.calls d g.owner ++ (d, rpf.createCall t d .rpf g.rpfGroup, none) ::
    trials.flatMap (Trial.calls t d g.ipmcGroup)

/-- A new group has its ingress member, and the egress members that were made. -/
structure Founded (t : Testbed) (d : DeviceId) (owner : Owner) (rpf : MemberSpec)
    (ipmc : List MemberSpec) (ingress : Handle) (trials : List Trial) (g : Group) : Prop where
  owner : g.owner = owner
  unused : g.isInUse = false
  rpfGroup : g.rpfGroup.isNull = false
  ipmcGroup : g.ipmcGroup.isNull = ipmc.isEmpty
  ingress : g.members.list .rpf = [.ofSpec ingress rpf]
  specs : trials.map Trial.spec = ipmc
  size : g.members.size .ipmc = trials.countP fun x => x.member?.isSome
  egress : ∀ rif m, g.members.ipmc.find? rif = some m ↔
    m ∈ trials.filterMap Trial.member? ∧ m.rif = rif
  tried : ∀ earlier x later, trials = earlier ++ x :: later →
    (x.answer.isSome = true ↔ x.Due t d earlier)

variable {t : Testbed} {d : DeviceId} {owner : Owner} {rpf : MemberSpec} {ipmc : List MemberSpec}
  {ingress : Handle} {trials : List Trial} {draft : Draft} {g : Group}

theorem Enrols.founded
    (h : ((Group.new draft.group owner draft.rpfGroup draft.ipmcGroup).withMember .rpf
      (.ofSpec ingress rpf) none).Enrols t d trials g)
    (hrpf : draft.rpfGroup.isNull = false) (hipmc : draft.ipmcGroup.isNull = ipmc.isEmpty)
    (hspecs : trials.map Trial.spec = ipmc) :
    g.draft = draft ∧ g.Founded t d owner rpf ipmc ingress trials := by
  obtain ⟨hsame, hsize, hmembers, htried⟩ := h
  obtain ⟨id, owner', rpfGroup, ipmcGroup, ⟨rpfMembers, egress⟩, ipv4, ipv6⟩ := g
  obtain ⟨group, ipmcGroup', rpfGroup'⟩ := draft
  cases hsame
  -- the new group had no egress member to begin with
  refine ⟨rfl, rfl, rfl, hrpf, hipmc, rfl, hspecs, hsize.trans (Nat.zero_add _), ?_, ?_⟩
  · intro rif m
    refine (hmembers rif m).trans (or_iff_right ?_)
    rintro ⟨⟩
  · intro earlier x later heq
    exact (htried earlier x later heq).trans (and_iff_right rfl)

end Group

namespace Orchestrator

variable {config : Config} {order : RouteOrder} {b : Opening} {t : Testbed} {d : DeviceId}
  {items : List (Handle × Switch.Object)} {E : Programming} {c : DeviceCache}
  {l : List (DeviceId × Call × Option HardwareError)} {r : Run Testbed}

theorem buildSubGroup_builds {draft : Draft} (h : Building b t (draft.made d ++ items) E c l r)
    (role : Role) (what : String) :
    ((bench config order).buildSubGroup d role what draft).Ends r
      (fun x r' => x.isNull = false ∧ Building b t
        ((x, (⟨d, .subGroup role, some draft.group, []⟩ : Switch.Object)) ::
          (draft.made d ++ items)) E c (l ++ [(d, .createSubGroup role [draft.group], none)]) r')
      fun _ _ => True := by
  refine Act.Ends.orCleanUp (h.request (Call.createSubGroup_turns role draft.group) rfl |>.mono ?_
    fun _ _ h => h) fun _ _ _ => trivial
  exact fun x _ h' => ⟨h'.books.named _ List.mem_cons_self, h'⟩

theorem buildGroup_builds {needed : Bool} (h : Building b t items E c l r) (owner : Owner) :
    ((bench config order).buildGroup d owner needed).Ends r
      (fun draft r' => Building b t (draft.made d ++ items) E c (l ++ draft.calls d owner) r' ∧
        draft.rpfGroup.isNull = false ∧ draft.ipmcGroup.isNull = !needed)
      fun _ _ => True := by
  refine Act.Ends.bind (h.request (Call.createGroup_turns [owner]) rfl) ?_ fun _ _ _ => trivial
  intro group r₁ h₁
  have h₁ : Building b t ((⟨group, .null, .null⟩ : Draft).made d ++ items) E c
    (l ++ [(d, .createGroup [owner], none)]) r₁ := h₁
  refine Act.Ends.andThen (P := fun ipmcGroup r' => Building b t
    ((⟨group, ipmcGroup, .null⟩ : Draft).made d ++ items) E c
    (l ++ [(d, .createGroup [owner], none)] ++ subGroupCalls d .ipmc group ipmcGroup) r' ∧
      ipmcGroup.isNull = !needed) ?_ ?_
  · cases needed with
    | false => exact ⟨(List.append_nil (l ++ _)).symm ▸ h₁, rfl⟩
    | true =>
      refine (buildSubGroup_builds h₁ .ipmc _).mono ?_ fun _ _ h => h
      rintro ipmcGroup r₂ ⟨hnamed, h₂⟩
      rw [subGroupCalls_of_not_null hnamed]
      unfold Draft.made at h₂ ⊢
      rw [subGroupItems_of_not_null hnamed]
      exact ⟨h₂, hnamed⟩
  · rintro ipmcGroup r₂ ⟨h₂, hipmc⟩
    refine (buildSubGroup_builds h₂ .rpf _).andThen ?_
    rintro rpfGroup r₃ ⟨hnamed, h₃⟩
    refine ⟨?_, hnamed, hipmc⟩
    have hcalls : l ++ (⟨group, ipmcGroup, rpfGroup⟩ : Draft).calls d owner =
        l ++ [(d, .createGroup [owner], none)] ++ subGroupCalls d .ipmc group ipmcGroup ++
          [(d, .createSubGroup .rpf [group], none)] := by
      simp [Draft.calls, subGroupCalls_of_not_null hnamed]
    unfold Draft.made at h₃ ⊢
    rw [subGroupItems_of_not_null hnamed, hcalls]
    exact h₃

/-- A group that is made has its ingress member, and whatever egress members could be made. -/
theorem makeGroup_builds (h : Building b t items E c l r) (owner : Owner) (rpf : MemberSpec)
    (ipmc : List MemberSpec) :
    ((bench config order).makeGroup d owner rpf ipmc).Ends r
      (fun id r' => ∃ g ingress trials, g.id = id ∧ c.groups.find? id = none ∧ rpf.Resolves t d ∧
        g.Founded t d owner rpf ipmc ingress trials ∧
        Building b t (g.objects t d rpf ingress trials ++ items) E
          ((c.withGroup g 1).enrolled trials) (l ++ g.calls t d rpf trials) r')
      fun _ _ => True := by
  refine Act.Ends.cache ?_
  split
  · trivial
  refine h.resolve rpf (fun hresolves => ?_) fun _ _ => trivial
  refine (buildGroup_builds h owner).andThen ?_
  rintro draft r₁ ⟨h₁, hrpf, hipmc⟩
  refine Act.Ends.andThen (Act.Ends.orCleanUp (commitGroup_ends owner draft h₁.holds)
    fun _ _ _ => trivial) ?_
  rintro _ r₂ ⟨hnone, hr₂⟩
  refine Act.Ends.lift ((h₁.commit hr₂ rfl).count _) fun _ r₃ h₃ => ?_
  let g₀ := Group.new draft.group owner draft.rpfGroup draft.ipmcGroup
  have hg₀ := DeviceCache.find?_insertGroup c g₀
  have hcomplete : g₀.isComplete = true := by
    simp [g₀, Group.isComplete, Group.new, hrpf]
  refine Act.Ends.andThen (Act.Ends.orCleanUp (addMember_enrols h₃ hg₀ hcomplete .rpf hrpf
    rpf) fun _ _ _ => trivial) ?_
  rintro _ r₄ ⟨-, ingress, h₄⟩
  refine Act.Ends.lift (h₄.count _) fun _ r₅ h₅ => ?_
  let g₁ := g₀.withMember .rpf (.ofSpec ingress rpf) none
  have hg₁ := DeviceCache.find?_setGroup hg₀ g₁
  have hnull : ipmc ≠ [] → g₁.ipmcGroup.isNull = false := by
    intro hne
    rw [← List.isEmpty_eq_false_iff] at hne
    exact hipmc.trans (by simp [hne])
  refine Act.Ends.lift (addEgressMembers_enrols h₅ hg₁ hcomplete hnull) ?_
  rintro _ r₆ ⟨trials, g, hspecs, henrols, h₆⟩
  obtain ⟨rfl, hfounded⟩ := henrols.founded hrpf (hipmc.trans (Bool.not_not _)) hspecs
  refine Act.Ends.cache (Act.Ends.lift (h₆.note _ _) fun _ r₇ h₇ => ?_)
  refine ⟨g, ingress, trials, rfl, hnone, hresolves, hfounded, ?_⟩
  have hcalls : l ++ g.calls t d rpf trials = l ++ g.draft.calls d owner ++
      [(d, rpf.createCall t d .rpf g.rpfGroup, none)] ++
        trials.flatMap (Trial.calls t d g.ipmcGroup) := by
    simp [Group.calls, hfounded.owner]
  have hid : g.id = g₀.id := rfl
  have hcache := c.setGroup_eq_withGroup hid g₁ 0
  have hitems : ((ingress, rpf.object t d .rpf g.rpfGroup) :: (g.draft.made d ++ items) ++
      trials.filterMap (Trial.item? t d g.ipmcGroup)).Perm
        (g.objects t d rpf ingress trials ++ items) := by
    simp only [Group.objects, List.cons_append, List.append_assoc]
    exact ((List.perm_append_comm).append_left _).cons _
  rw [hcalls, ← hcache]
  exact h₇.perm hitems

end Orchestrator

/-! The hardware -/

/-- `s'` has the objects `created` besides those of `s`, and the same entries. -/
structure Switch.Adds (s : Switch) (created : List (Handle × Switch.Object)) (s' : Switch) :
    Prop where
  fresh : ∀ x ∈ created, s.objects.find? x.1 = none
  distinct : (created.map Prod.fst).Nodup
  objects : ∀ h o, s'.objects.find? h = some o ↔
    s.objects.find? h = some o ∨ (h, o) ∈ created
  entries : s'.entries = s.entries
  mappings : s'.mappings = s.mappings

theorem Books.adds {items created : List (Handle × Switch.Object)} {E E' : Programming}
    {s s' : Switch} (hb : Books items E s 0) (hb' : Books (created ++ items) E' s' 0)
    (hle : s.counter ≤ s'.counter) (hcount : s'.counter < 2 ^ 48)
    (hentries : s'.entries = s.entries) (hmappings : s'.mappings = s.mappings) :
    s.Adds created s' := by
  have hdistinct := (hb'.stocked hcount).distinct
  rw [List.map_append, List.nodup_append] at hdistinct
  have hbefore : ∀ {h o}, s.objects.find? h = some o ↔ (h, o) ∈ items :=
    hb.find?_iff (Nat.lt_of_le_of_lt hle hcount)
  refine ⟨fun x hx => ?_, hdistinct.1, fun h o => ?_, hentries, hmappings⟩
  · cases hlive : s.objects.find? x.1 with
    | none => rfl
    | some o =>
      have hitem : x.1 ∈ items.map Prod.fst := List.mem_map.mpr ⟨_, hbefore.mp hlive, rfl⟩
      exact (hdistinct.2.2 x.1 (List.mem_map_of_mem hx) x.1 hitem rfl).elim
  · rw [hb'.find?_iff hcount, hbefore, List.mem_append, or_comm]

namespace Session

/-- A create that succeeds builds the group as it was asked for less the egress members that
failed. A member fails if an earlier one has its interface, if a name does not resolve, or if the
call for it fails. -/
theorem createGroup_builds_request_less_failures {config : Config} {s : Session}
    (h : s.Reached config) (hundo : failedUndos s.events = 0) (order : RouteOrder) {d : DeviceId}
    {owner : Owner} {rpf : MemberSpec} {ipmc : List MemberSpec} {id : Handle}
    (hok : ((Orchestrator.bench config order).createGroup s.world d owner rpf ipmc).result =
      .ok id) :
    let out := (Orchestrator.bench config order).createGroup s.world d owner rpf ipmc
    let before := s.world.state
    let after := out.world.state
    ∃ c g ingress trials,
      s.world.fleet.find? d = some c ∧ c.groups.find? id = none ∧ g.id = id ∧
      rpf.Resolves before d ∧ g.Founded before d owner rpf ipmc ingress trials ∧
      (∀ earlier x later, trials = earlier ++ x :: later →
        (x.member?.isSome = true ↔
          (∀ y ∈ earlier, y.spec.rif = x.spec.rif → y.member? = none) ∧
            x.spec.Resolves before d ∧ ∀ e, x.answer ≠ some (.error e))) ∧
      callsOf out.events = g.calls before d rpf trials ∧
      (after.switch.counter < 2 ^ 48 →
        before.switch.Adds (g.objects before d rpf ingress trials) after.switch ∧
          ∀ d' c', s.world.fleet.find? d' = some c' → c'.groups.find? id = none) ∧
      out.world.fleet = s.world.fleet.modify d fun _ =>
        { groups := c.groups.insert id g
          routes := c.routes
          stats :=
            { c.stats with
              groupsCreated := c.stats.groupsCreated + 1
              membersAdded :=
                c.stats.membersAdded + 1 + trials.countP fun x => x.member?.isSome
              membersFailed :=
                c.stats.membersFailed + trials.countP fun x => x.member?.isNone } } := by
  intro out before after
  obtain ⟨items, E, hsound⟩ := h.sound
  rw [hundo] at hsound
  have hstart : ∀ c, s.world.fleet.find? d = some c →
      Building (World.Sound.opening s.world 0) before items E c [] ⟨before, c, []⟩ := fun c hc =>
    ⟨(hsound.tallies hc).accounts, fun _ _ => rfl, rfl, rfl, rfl, rfl⟩
  obtain ⟨c, r, hc, hworld, hcalls, g, ingress, trials, rfl, hnone, hresolves, hfounded, hr⟩ :=
    Orchestrator.audited_onDevice_of_ok hok fun c hc =>
      Orchestrator.makeGroup_builds (hstart c hc) owner rpf ipmc
  have hworld : out.world = ⟨r.state, s.world.fleet.modify d fun _ => r.cache⟩ := hworld
  have hcalls : callsOf out.events = callsOf r.events := hcalls
  refine ⟨c, g, ingress, trials, hc, hnone, rfl, hresolves, hfounded, ?_, ?_, ?_, ?_⟩
  · intro earlier x later heq
    rw [Trial.isSome_member?, hfounded.tried earlier x later heq, Trial.Due, and_assoc]
  · rw [hcalls, hr.calls]
    rfl
  · have hafter : after = r.state := congrArg World.state hworld
    rw [hafter]
    intro hcount
    have hbooks := hr.books
    rw [hr.undone] at hbooks
    have hadds := hsound.books.adds hbooks hr.counter hcount hr.entries hr.mappings
    have hcount' := Nat.lt_of_le_of_lt hr.counter hcount
    have hfresh := hadds.fresh _ (g.mem_objects before d rpf ingress trials)
    exact ⟨hadds, fun d' c' => hsound.find?_group_eq_none hcount' hfresh⟩
  · rw [hworld, hr.cache]
    rfl

/-- The first call for interface 20 fails, so the next member on it is made, with both ports in the
hardware and one in the cache. After that the interface is taken. Interface 30 has no name. -/
theorem createGroup_builds_request_less_failures_repeated :
    let s := start.run {} (groundwork ++ [.failNth (.createMember .ipmc) 1 .failure])
    let rpf : MemberSpec := ⟨⟨10⟩, [.lag 1]⟩
    let ipmc : List MemberSpec :=
      [⟨⟨20⟩, [.lag 1]⟩, ⟨⟨20⟩, [.lag 1, .lag 1]⟩, ⟨⟨20⟩, []⟩, ⟨⟨30⟩, [.lag 1]⟩]
    let out := (Orchestrator.bench {} .ascending).createGroup s.world ⟨1⟩ .ipmc rpf ipmc
    let member := Handle.make (.member .ipmc) 12
    (s.Reached {} ∧ failedUndos s.events = 0 ∧ out.result = .ok (.make .group 8) ∧
      out.world.state.switch.counter < 2 ^ 48) ∧
      (out.world.group ⟨1⟩ (.make .group 8)).toOption.map (·.members.list .ipmc) =
        some [⟨member, ⟨20⟩, .ofPorts [.lag 1]⟩] ∧
      (out.world.state.switch.objects.find? member).map (·.bridgePorts) =
        some [.make .bridgePort 1, .make .bridgePort 1] ∧
      ∃ (g : Group) (ingress : Handle) (trials : List Trial),
        g.Founded s.world.state ⟨1⟩ .ipmc rpf ipmc ingress trials ∧
        s.world.state.switch.Adds (g.objects s.world.state ⟨1⟩ rpf ingress trials)
          out.world.state.switch := by
  intro s rpf ipmc out member
  have hreached : s.Reached {} := Reached.start.run (by decide +kernel)
  have hundo : failedUndos s.events = 0 := by decide +kernel
  have hok : out.result = .ok (.make .group 8) := by decide +kernel
  have hcount : out.world.state.switch.counter < 2 ^ 48 := by decide +kernel
  have hmembers : (out.world.group ⟨1⟩ (.make .group 8)).toOption.map (·.members.list .ipmc) =
      some [⟨member, ⟨20⟩, .ofPorts [.lag 1]⟩] := by decide +kernel
  have hports : (out.world.state.switch.objects.find? member).map (·.bridgePorts) =
      some [.make .bridgePort 1, .make .bridgePort 1] := by decide +kernel
  clear_value s
  obtain ⟨_, g, ingress, trials, -, -, -, -, hfounded, -, -, hadds, -⟩ :=
    createGroup_builds_request_less_failures hreached hundo .ascending hok
  exact ⟨⟨hreached, hundo, hok, hcount⟩, hmembers, hports, g, ingress, trials, hfounded,
    (hadds hcount).1⟩

end Session

end Multicast
