import Multicast.Proofs.Assembly

/-! Egress members of a new group, whatever the hardware does: which of them are made, what each
leaves in the cache and in the hardware, and the calls made for it. -/
namespace Multicast

/-- The handle that a name resolves to. -/
def Testbed.handle (t : Testbed) (d : DeviceId) (l : Lookup) : Handle := (t.lookup d l).1.getD .null

namespace MemberSpec

/-- In the order of the ports, one handle for each. -/
def portHandles (spec : MemberSpec) (t : Testbed) (d : DeviceId) : List Handle :=
  spec.ports.map fun p => t.handle d (.port p)

def createCall (spec : MemberSpec) (t : Testbed) (d : DeviceId) (role : Role)
    (subGroup : Handle) : Call :=
  .createMember role [.subGroup subGroup, .routerInterface (t.handle d (.rif spec.rif)),
    .bridgePorts (spec.portHandles t d)]

def object (spec : MemberSpec) (t : Testbed) (d : DeviceId) (role : Role)
    (subGroup : Handle) : Switch.Object :=
  ⟨d, .member role, some subGroup, spec.portHandles t d⟩

end MemberSpec

/-! What comes of a member that is asked for -/

structure Trial where
  spec : MemberSpec
  /-- How the hardware answered, if it was called. -/
  answer : Option (Except HardwareError Handle)

namespace Trial

/-- The member that was made. -/
def member? (x : Trial) : Option Member :=
  match x.answer with
  | some (.ok h) => some (.ofSpec h x.spec)
  | _ => none

/-- The object of the member that was made. -/
def item? (t : Testbed) (d : DeviceId) (subGroup : Handle) (x : Trial) :
    Option (Handle × Switch.Object) :=
  x.member?.map fun m => (m.handle, x.spec.object t d .ipmc subGroup)

def calls (t : Testbed) (d : DeviceId) (subGroup : Handle) (x : Trial) :
    List (DeviceId × Call × Option HardwareError) :=
  x.answer.toList.map fun answer =>
    (d, x.spec.createCall t d .ipmc subGroup, Effect.failure? answer)

/-- The interface is free still, and the names resolve. -/
def Due (t : Testbed) (d : DeviceId) (earlier : List Trial) (x : Trial) : Prop :=
  (∀ y ∈ earlier, y.spec.rif = x.spec.rif → y.member? = none) ∧ x.spec.Resolves t d

variable {t : Testbed} {d : DeviceId} {earlier : List Trial} {x y : Trial} {m : Member}

theorem due_cons : x.Due t d (y :: earlier) ↔
    (y.spec.rif = x.spec.rif → y.member? = none) ∧ x.Due t d earlier := by
  unfold Due
  rw [List.forall_mem_cons, and_assoc]

theorem rif_of_member? (h : x.member? = some m) : m.rif = x.spec.rif := by
  unfold member? at h
  split at h
  · cases h
    rfl
  · cases h

/-- A member is made if the call for it does not fail. -/
theorem isSome_member? : x.member?.isSome = true ↔
    x.answer.isSome = true ∧ ∀ e, x.answer ≠ some (.error e) := by
  unfold member?
  rcases x.answer with _ | _ | _ <;> simp

end Trial

theorem Group.ipmc_withMember (g : Group) (m : Member) :
    (g.withMember .ipmc m none).members.ipmc = g.members.ipmc.insert m.rif m := rfl

/-- The hardware is called if the group has no member with the interface and the names resolve. -/
def Group.Tries (t : Testbed) (d : DeviceId) (g : Group) (x : Trial) : Prop :=
  x.answer.isSome = true ↔ g.members.ipmc.find? x.spec.rif = none ∧ x.spec.Resolves t d

/-- `g'` is `g` with the members that were made. -/
structure Group.Enrols (t : Testbed) (d : DeviceId) (g : Group) (trials : List Trial)
    (g' : Group) : Prop where
  same : { g' with members := ⟨g'.members.rpf, g.members.ipmc⟩ } = g
  size : g'.members.size .ipmc =
    g.members.size .ipmc + trials.countP fun x => x.member?.isSome
  members : ∀ rif m, g'.members.ipmc.find? rif = some m ↔
    g.members.ipmc.find? rif = some m ∨ m ∈ trials.filterMap Trial.member? ∧ m.rif = rif
  tried : ∀ earlier x later, trials = earlier ++ x :: later →
    (x.answer.isSome = true ↔
      g.members.ipmc.find? x.spec.rif = none ∧ x.Due t d earlier)

namespace Group.Enrols

variable {t : Testbed} {d : DeviceId} {g g' : Group} {trials : List Trial} {x : Trial}
  {m : Member}

theorem refl (g : Group) : g.Enrols t d [] g where
  same := rfl
  size := rfl
  members := by simp
  tried := by simp

theorem cons_skipped (hx : x.member? = none) (htried : g.Tries t d x)
    (h : g.Enrols t d trials g') : g.Enrols t d (x :: trials) g' where
  same := h.same
  size := by simp [h.size, hx]
  members := by simp [h.members, hx]
  tried := by
    intro earlier y later heq
    rcases List.cons_eq_append_iff.mp heq with ⟨rfl, hhead⟩ | ⟨earlier, rfl, htail⟩
    · cases hhead
      simpa [Trial.Due, Tries] using htried
    · rw [h.tried earlier y later htail, Trial.due_cons]
      simp [hx]

theorem cons_made (hx : x.member? = some m) (hfree : g.members.ipmc.find? x.spec.rif = none)
    (hresolves : x.spec.Resolves t d)
    (h : (g.withMember .ipmc m none).Enrols t d trials g') : g.Enrols t d (x :: trials) g' where
  same := by
    have hsame := h.same
    obtain ⟨id, owner, rpfGroup, ipmcGroup, ⟨rpf, ipmc⟩, ipv4, ipv6⟩ := g'
    cases hsame
    rfl
  size := by
    have hsize : (g.withMember .ipmc m none).members.size .ipmc = g.members.size .ipmc + 1 :=
      Table.size_insert _ (Trial.rif_of_member? hx ▸ hfree)
    rw [h.size, hsize, List.countP_cons_of_pos (by simp [hx])]
    omega
  members := by
    intro rif m'
    have hrif := Trial.rif_of_member? hx
    rw [h.members, Group.ipmc_withMember, List.filterMap_cons_some hx, List.mem_cons]
    by_cases hk : rif = m.rif
    · subst hk
      rw [Table.find?_insert_self, hrif, hfree]
      constructor
      · rintro (⟨⟨⟩⟩ | ⟨hm, hr⟩)
        · exact .inr ⟨.inl rfl, hrif⟩
        · exact .inr ⟨.inr hm, hr⟩
      · rintro (⟨⟨⟩⟩ | ⟨rfl | hm, hr⟩)
        · exact .inl rfl
        · exact .inr ⟨hm, hr⟩
    · rw [Table.find?_insert_of_ne _ _ hk]
      refine or_congr_right (and_congr_left fun hr => ?_)
      have hne : m' ≠ m := by
        rintro rfl
        exact hk hr.symm
      simp [hne]
  tried := by
    intro earlier y later heq
    rcases List.cons_eq_append_iff.mp heq with ⟨rfl, hhead⟩ | ⟨earlier, rfl, htail⟩
    · cases hhead
      have hanswer : x.answer.isSome = true := (Trial.isSome_member?.mp (by simp [hx])).1
      simp [Trial.Due, hanswer, hfree, hresolves]
    · -- the interface of the new member is taken from here on
      rw [h.tried earlier y later htail, Trial.due_cons, Group.ipmc_withMember, hx,
        ← Trial.rif_of_member? hx]
      by_cases hk : y.spec.rif = m.rif
      · simp [hk]
      · rw [Table.find?_insert_of_ne _ _ hk]
        simp [Ne.symm hk]

end Group.Enrols

/-- The cache with the members counted that were made, and those that were not. -/
def DeviceCache.enrolled (c : DeviceCache) (trials : List Trial) : DeviceCache :=
  c.counted fun s =>
    { s with
      membersAdded := s.membersAdded + trials.countP fun x => x.member?.isSome
      membersFailed := s.membersFailed + trials.countP fun x => x.member?.isNone }

namespace DeviceCache

variable {c : DeviceCache} {id : Handle} {g g' : Group} {trials : List Trial} {x : Trial}
  {m : Member}

theorem enrolled_made (hx : x.member? = some m) :
    (((c.setGroup id g).counted fun s => { s with membersAdded := s.membersAdded + 1 }).setGroup
      id g').enrolled trials = (c.setGroup id g').enrolled (x :: trials) := by
  simp [enrolled, counted, setGroup, hx, Nat.add_assoc, Nat.add_comm 1]

theorem enrolled_skipped (hx : x.member? = none) :
    ((c.counted fun s => { s with membersFailed := s.membersFailed + 1 }).setGroup
      id g').enrolled trials = (c.setGroup id g').enrolled (x :: trials) := by
  simp [enrolled, counted, setGroup, hx, Nat.add_assoc, Nat.add_comm 1]

end DeviceCache

/-! Runs -/

/-- A run that has the cache `c` and has made the calls `l`, none of which touches an entry. Names
resolve as on `t`. -/
structure Building (b : Opening) (t : Testbed) (items : List (Handle × Switch.Object))
    (E : Programming) (c : DeviceCache) (l : List (DeviceId × Call × Option HardwareError))
    (r : Run Testbed) : Prop extends Accounts b items E r where
  names : ∀ d l, (r.state.lookup d l).1 = (t.lookup d l).1
  entries : r.state.switch.entries = t.switch.entries
  cache : r.cache = c
  calls : callsOf r.events = l
  undone : failedUndos r.events = 0

theorem Testbed.Resolves.find? {t : Testbed} {d : DeviceId} {l : Lookup} (h : t.Resolves d l) :
    t.switch.mappings.find? (d, l) = some (t.handle d l) := by
  unfold Resolves handle at *
  rw [lookup_eq] at *
  dsimp only at *
  split at h
  · cases h
  · next hhidden =>
    obtain ⟨x, hx⟩ := Option.isSome_iff_exists.mp h
    simp [hhidden, hx]

namespace Building

variable {config : Config} {order : RouteOrder} {b : Opening} {t : Testbed} {d : DeviceId}
  {items items' : List (Handle × Switch.Object)} {E : Programming} {c : DeviceCache}
  {l : List (DeviceId × Call × Option HardwareError)} {r : Run Testbed}

theorem holds (h : Building b t items E c l r) : r.Holds c := Run.holds_of_eq h.cache

theorem perm (h : Building b t items E c l r) (hp : items.Perm items') :
    Building b t items' E c l r :=
  { h with books := h.books.perm hp }

theorem note (h : Building b t items E c l r) (level : Log.Level) (message : String) :
    (Effect.note level message).Ends r fun _ r' => Building b t items E c l r' := by
  refine ⟨h.emit rfl, h.names, h.entries, h.cache, ?_, ?_⟩
  · exact (callsOf_append _ _).trans ((List.append_nil _).trans h.calls)
  · exact (failedUndos_append _ _).trans h.undone

theorem count (h : Building b t items E c l r) (f : Stats → Stats) :
    (Effect.count f).Ends r fun _ r' => Building b t items E (c.counted f) l r' :=
  ⟨h.of_eq rfl rfl, h.names, h.entries, congrArg (·.counted f) h.cache, h.calls, h.undone⟩

theorem commit (h : Building b t items E c l r) {c' : DeviceCache} {r' : Run Testbed}
    (hc : r.Commits c' r') (hstats : c'.stats = c.stats) : Building b t items E c' l r' := by
  have hcache : r'.cache = c' := hc.holds.cache_eq (by rw [hc.stats, h.cache, hstats])
  obtain ⟨ha, hnames, hentries, -, hcalls, hundone⟩ := h
  refine ⟨ha.of_eq hc.state hc.events, ?_, ?_, hcache, ?_, ?_⟩
  · rw [hc.state]
    exact hnames
  · rw [hc.state]
    exact hentries
  · rw [hc.events]
    exact hcalls
  · rw [hc.events]
    exact hundone

theorem called (h : Building b t items E c l r) {call : Call} {failure : Option HardwareError}
    {r' : Run Testbed} (hr : r.Called d call failure r') (ha : Accounts b items' E r')
    (hentries : r'.state.switch.entries = r.state.switch.entries) :
    Building b t items' E c (l ++ [(d, call, failure)]) r' where
  toAccounts := ha
  names := by
    intro d' n
    have hmappings := ha.mappings.trans h.mappings.symm
    exact (Testbed.lookup_congr hr.hidden hmappings d' n).trans (h.names d' n)
  entries := hentries.trans h.entries
  cache := hr.cache.trans h.cache
  calls := by rw [hr.calls, h.calls]
  undone := hr.undone.trans h.undone

/-- A call that gives out a handle. -/
theorem request {call : Call} (h : Building b t items E c l r)
    {items' : call.Reply → List (Handle × Switch.Object)} (hturns : call.Turns d items E items' E)
    (hhandles : call.handles = 1) :
    (Act.request Testbed.hardware d call).Ends r
      (fun reply r' => Building b t (items' reply) E c (l ++ [(d, call, none)]) r')
      fun _ r' => ∃ e, Building b t items E c (l ++ [(d, call, some e)]) r' := by
  refine ((h.request_ends hturns).and (Act.request_called h.overrides d call)).mono ?_ ?_
  · rintro reply r' ⟨ha, hr, s, halike, hperform⟩
    have hentries := Switch.entries_of_handles hhandles hperform
    exact h.called hr ha (hentries.trans halike.entries)
  · rintro _ r' ⟨ha, e, -, hr, halike⟩
    exact ⟨e, h.called hr ha halike.entries⟩

theorem resolves_iff (h : Building b t items E c l r) {n : Lookup} :
    r.state.Resolves d n ↔ t.Resolves d n := by
  rw [Testbed.Resolves, h.names]
  rfl

theorem handle_eq (h : Building b t items E c l r) (n : Lookup) :
    r.state.handle d n = t.handle d n := by
  rw [Testbed.handle, h.names]
  rfl

theorem lookup (h : Building b t items E c l r) (n : Lookup) :
    (Act.lookup Testbed.hardware d n).Ends r
      (fun x r' => r = r' ∧ t.Resolves d n ∧ x = t.handle d n)
      fun _ r' => r = r' ∧ ¬t.Resolves d n := by
  refine (Act.lookup_resolves d n r).mono ?_ ?_
  · rintro x _ ⟨rfl, hx⟩
    rw [h.names] at hx
    simp [Testbed.Resolves, Testbed.handle, hx]
  · rintro _ _ ⟨rfl, -, hmissing⟩
    exact ⟨rfl, mt h.resolves_iff.mpr hmissing⟩

theorem lookupPorts (h : Building b t items E c l r) (spec : MemberSpec) :
    (Act.lookupPorts Testbed.hardware d spec.ports).Ends r
      (fun handles r' => r = r' ∧ (∀ p ∈ spec.ports, t.Resolves d (.port p)) ∧
        handles = spec.portHandles t d)
      fun _ r' => r = r' ∧ ¬∀ p ∈ spec.ports, t.Resolves d (.port p) := by
  refine (Act.lookupPorts_resolves d spec.ports r).mono ?_ ?_
  · rintro handles _ ⟨rfl, hhandles, hresolves⟩
    refine ⟨rfl, fun p hp => h.resolves_iff.mp (hresolves p hp), ?_⟩
    have hmap : handles.map some = (spec.portHandles t d).map some := by
      rw [hhandles, MemberSpec.portHandles, List.map_map]
      refine List.map_congr_left fun p hp => ?_
      rw [(hresolves p hp).find?, h.handle_eq]
      rfl
    exact (List.map_inj_right fun _ _ => Option.some.inj).mp hmap
  · rintro _ _ ⟨rfl, p, hp, -, hmissing⟩
    exact ⟨rfl, fun hall => hmissing (h.resolves_iff.mpr (hall p hp))⟩

/-- The look-ups for a member change nothing. -/
theorem resolve {α : Type} (h : Building b t items E c l r) (spec : MemberSpec)
    {f : Handle → List Handle → Act Testbed α} {Q : α → Run Testbed → Prop}
    {F : OpError → Run Testbed → Prop}
    (hok : spec.Resolves t d →
      (f (t.handle d (.rif spec.rif)) (spec.portHandles t d)).Ends r Q F)
    (hmissing : ∀ e, ¬spec.Resolves t d → F e r) :
    (do
      let rif ← Act.lookup Testbed.hardware d (.rif spec.rif)
      let ports ← Act.lookupPorts Testbed.hardware d spec.ports
      f rif ports : Act Testbed α).Ends r Q F := by
  refine (h.lookup (.rif spec.rif)).bind ?_ ?_
  · rintro _ _ ⟨rfl, hrif, rfl⟩
    refine (h.lookupPorts spec).bind ?_ ?_
    · rintro _ _ ⟨rfl, hports, rfl⟩
      exact hok ⟨hrif, hports⟩
    · rintro e _ ⟨rfl, hports⟩
      exact hmissing e fun hresolves => hports hresolves.2
  · rintro e _ ⟨rfl, hrif⟩
    exact hmissing e fun hresolves => hrif hresolves.1

end Building

/-! Members -/

namespace Orchestrator

variable {config : Config} {order : RouteOrder} {b : Opening} {t : Testbed} {d : DeviceId}
  {items : List (Handle × Switch.Object)} {E : Programming} {c : DeviceCache}
  {l : List (DeviceId × Call × Option HardwareError)} {r : Run Testbed} {id : Handle} {g : Group}
  {role : Role} {spec : MemberSpec}

theorem addToSubGroup_enrols (h : Building b t items E c l r) (hg : c.groups.find? id = some g)
    (hcheck : g.members.checkAdd role spec.rif = .ok ()) (subGroup : Handle) :
    ((bench config order).addToSubGroup d id role subGroup (t.handle d (.rif spec.rif))
        (spec.portHandles t d) spec).Ends r
      (fun _ r' => ∃ m, Building b t ((m, spec.object t d role subGroup) :: items) E
        (c.setGroup id (g.withMember role (.ofSpec m spec) none))
        (l ++ [(d, spec.createCall t d role subGroup, none)]) r')
      fun _ r' => ∃ e, Building b t items E c
        (l ++ [(d, spec.createCall t d role subGroup, some e)]) r' := by
  refine Act.Ends.andThen (h.request (Call.createMember_turns role subGroup _ _) rfl) ?_
  intro m r₁ h₁
  refine Act.Ends.orCleanUp (F := fun _ _ => False) ?_ fun _ _ h => h.elim
  refine (commitMember_ends (m := .ofSpec m spec) h₁.holds hg hcheck none).mono ?_ fun _ _ h => h
  exact fun _ _ hr' => ⟨m, h₁.commit hr' rfl⟩

/-- A member is made unless the cache does not admit it, a name does not resolve, or the call for
it fails. -/
theorem addMember_enrols (h : Building b t items E c l r) (hg : c.groups.find? id = some g)
    (hcomplete : g.isComplete = true) (role : Role) (hnull : (g.subGroup role).isNull = false)
    (spec : MemberSpec) :
    ((bench config order).addMember d id role spec).Ends r
      (fun _ r' => (g.members.checkAdd role spec.rif = .ok () ∧ spec.Resolves t d) ∧
        ∃ m, Building b t ((m, spec.object t d role (g.subGroup role)) :: items) E
          (c.setGroup id (g.withMember role (.ofSpec m spec) none))
          (l ++ [(d, spec.createCall t d role (g.subGroup role), none)]) r')
      fun _ r' =>
        ¬(g.members.checkAdd role spec.rif = .ok () ∧ spec.Resolves t d) ∧
          Building b t items E c l r' ∨
        (g.members.checkAdd role spec.rif = .ok () ∧ spec.Resolves t d) ∧
          ∃ e, Building b t items E c
            (l ++ [(d, spec.createCall t d role (g.subGroup role), some e)]) r' := by
  refine Act.Ends.checkUsable (fun g' hg' _ => ?_) fun e hnone => ?_
  · obtain rfl : g' = g := Option.some.inj ((h.cache ▸ hg').symm.trans hg)
    refine Act.ends_bind.mpr (Act.ends_ofCache.mpr ⟨fun _ hcheck => ?_, fun e hcheck => ?_⟩)
    · refine h.resolve spec (fun hresolves => ?_) fun e hmissing => .inl ⟨mt And.right hmissing, h⟩
      refine Act.Ends.mono ?_ (fun _ _ hm => ⟨⟨hcheck, hresolves⟩, hm⟩)
        fun _ _ he => .inr ⟨⟨hcheck, hresolves⟩, he⟩
      have hends : ((bench config order).addToSubGroup d id role (g'.subGroup role)
          (t.handle d (.rif spec.rif)) (spec.portHandles t d) spec).Ends r _ _ :=
        addToSubGroup_enrols h hg hcheck _
      cases role with
      | rpf => exact hends
      | ipmc =>
        have hnull : g'.ipmcGroup.isNull = false := hnull
        simp only [hnull, Bool.false_eq_true, if_false]
        exact hends
    · refine .inl ⟨fun hdue => ?_, h⟩
      rw [hcheck] at hdue
      cases hdue.1
  · rw [hnone g (h.cache ▸ hg)] at hcomplete
    cases hcomplete

/-- Adding an egress member is a trial of it. -/
theorem addMember_tries (h : Building b t items E c l r) (hg : c.groups.find? id = some g)
    (hcomplete : g.isComplete = true) (hnull : g.ipmcGroup.isNull = false) (spec : MemberSpec) :
    ((bench config order).addMember d id .ipmc spec).Ends r
      (fun _ r' => ∃ x m, x.spec = spec ∧ g.Tries t d x ∧ x.member? = some m ∧
        Building b t ((m.handle, spec.object t d .ipmc g.ipmcGroup) :: items) E
          (c.setGroup id (g.withMember .ipmc m none)) (l ++ x.calls t d g.ipmcGroup) r')
      fun _ r' => ∃ x : Trial, x.spec = spec ∧ g.Tries t d x ∧ x.member? = none ∧
        Building b t items E c (l ++ x.calls t d g.ipmcGroup) r' := by
  have hfree : g.members.checkAdd .ipmc spec.rif = .ok () ↔
      g.members.ipmc.find? spec.rif = none := by
    rw [MemberSet.checkAdd_eq_ok_iff]
    simp [MemberSet.ofRole]
  refine (addMember_enrols h hg hcomplete .ipmc hnull spec).mono ?_ ?_ <;> rw [hfree]
  · rintro _ r' ⟨hdue, m, h'⟩
    exact ⟨⟨spec, some (.ok m)⟩, .ofSpec m spec, rfl, iff_of_true rfl hdue, rfl, h'⟩
  · rintro _ r' (⟨hdue, h'⟩ | ⟨hdue, e, h'⟩)
    · refine ⟨⟨spec, none⟩, rfl, iff_of_false Bool.false_ne_true hdue, rfl, ?_⟩
      exact (List.append_nil l).symm ▸ h'
    · exact ⟨⟨spec, some (.error e)⟩, rfl, iff_of_true rfl hdue, rfl, h'⟩

theorem addEgressMembers_enrols {specs : List MemberSpec} (h : Building b t items E c l r)
    (hg : c.groups.find? id = some g) (hcomplete : g.isComplete = true)
    (hnull : specs ≠ [] → g.ipmcGroup.isNull = false) :
    ((bench config order).addEgressMembers d id specs).Ends r fun _ r' =>
      ∃ trials g', trials.map Trial.spec = specs ∧ g.Enrols t d trials g' ∧
        Building b t (items ++ trials.filterMap (Trial.item? t d g.ipmcGroup)) E
          ((c.setGroup id g').enrolled trials) (l ++ trials.flatMap (Trial.calls t d g.ipmcGroup))
          r' := by
  induction specs generalizing g c items l r with
  | nil =>
    refine ⟨[], g, rfl, .refl g, ?_⟩
    rw [DeviceCache.setGroup_eq_self hg, List.filterMap_nil, List.flatMap_nil, List.append_nil,
      List.append_nil]
    exact h
  | cons spec rest ih =>
    replace hnull := hnull (List.cons_ne_nil _ _)
    refine Effect.Ends.bind (addMember_tries h hg hcomplete hnull spec) ?_
    rintro (_ | _) r₁ h₁
    · -- the member is skipped
      obtain ⟨x, rfl, htried, hx, h₁⟩ := h₁
      refine Effect.Ends.bind (h₁.note _ _) fun _ r₂ h₂ => ?_
      refine Effect.Ends.bind (h₂.count _) fun _ r₃ h₃ => ?_
      refine (ih h₃ hg hcomplete fun _ => hnull).mono ?_
      rintro _ r₄ ⟨trials, g', rfl, hg', h₄⟩
      refine ⟨x :: trials, g', rfl, hg'.cons_skipped hx htried, ?_⟩
      rw [← DeviceCache.enrolled_skipped hx, List.flatMap_cons, ← List.append_assoc]
      simpa [Trial.item?, hx] using h₄
    · -- the member is made
      obtain ⟨x, m, rfl, htried, hx, h₁⟩ := h₁
      refine Effect.Ends.bind (h₁.count _) fun _ r₂ h₂ => ?_
      have hg₁ := DeviceCache.find?_setGroup hg (g.withMember .ipmc m none)
      refine (ih h₂ hg₁ hcomplete fun _ => hnull).mono ?_
      rintro _ r₃ ⟨trials, g', rfl, hg', h₃⟩
      have hdue := htried.mp (Trial.isSome_member?.mp (by simp [hx])).1
      refine ⟨x :: trials, g', rfl, hg'.cons_made hx hdue.1 hdue.2, ?_⟩
      rw [← DeviceCache.enrolled_made hx, List.flatMap_cons, ← List.append_assoc]
      have hitem : x.item? t d g.ipmcGroup =
          some (m.handle, x.spec.object t d .ipmc g.ipmcGroup) := by
        simp [Trial.item?, hx]
      rw [List.filterMap_cons_some hitem]
      exact h₃.perm List.perm_middle.symm

end Orchestrator

end Multicast
