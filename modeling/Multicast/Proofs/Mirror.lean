import Multicast.Proofs.Ledger
import Multicast.Proofs.Rewrite
import Multicast.Proofs.Upkeep

/-! Operations on a testbed keep the books and the cache in agreement. One that fails leaves the
books as they were, but for a delete that got half way. -/
namespace Multicast

/-- The same routes show on all devices but `d`. -/
def Programming.SameBut (E E' : Programming) (d : DeviceId) : Prop :=
  ∀ d' e, d' ≠ d → E' (d', e) = E (d', e)

namespace Programming.SameBut

variable {E E' E'' : Programming} {d : DeviceId}

theorem refl (E : Programming) (d : DeviceId) : E.SameBut E d := fun _ _ _ => rfl

theorem trans (h : E.SameBut E' d) (h' : E'.SameBut E'' d) : E.SameBut E'' d :=
  fun d' e hd => (h' d' e hd).trans (h d' e hd)

theorem set (E : Programming) (d : DeviceId) (e : Entry) (v : Option RouteImage) :
    E.SameBut (E.set (d, e) v) d :=
  fun _ _ hd => if_neg fun h => hd (congrArg Prod.fst h)

theorem writeAll (E : Programming) (d : DeviceId) (a : EntryAttr) (entries : List Entry) :
    E.SameBut (E.writeAll d a entries) d :=
  fun _ _ hd => if_neg fun h => hd h.1

end Programming.SameBut

/-- The run holds `c`, and the books agree with it. -/
structure Run.Tallies (config : Config) (b : Opening) (d : DeviceId) (others : List Holding)
    (c : DeviceCache) (items : List (Handle × Switch.Object)) (E : Programming) (r : Run Testbed) :
    Prop where
  holds : r.Holds c
  accounts : Accounts b items E r
  ledger : Ledger config b.mappings d others c items E

/-- The books agree with the cache, and nothing has changed for other devices. -/
def Run.Mirrors (config : Config) (b : Opening) (d : DeviceId) (others : List Holding)
    (E : Programming) (r : Run Testbed) : Prop :=
  ∃ c items E', r.Tallies config b d others c items E' ∧ E.SameBut E' d

variable {config : Config} {order : RouteOrder} {b : Opening} {d : DeviceId}
  {others : List Holding} {c : DeviceCache} {items : List (Handle × Switch.Object)}
  {E : Programming} {r : Run Testbed} {max : Nat} {id : Handle} {g : Group} {role : Role}
  {rif : RifId} {spec : MemberSpec}

namespace Run.Tallies

theorem mirrors (h : r.Tallies config b d others c items E) : r.Mirrors config b d others E :=
  ⟨c, items, E, h, .refl E d⟩

theorem of_accounts (h : r.Tallies config b d others c items E) {r' : Run Testbed}
    (hr : r'.Holds c) (ha : Accounts b items E r') : r'.Tallies config b d others c items E :=
  ⟨hr, ha, h.ledger⟩

theorem of_eq (h : r.Tallies config b d others c items E) {r' : Run Testbed} (hr : r'.Holds c)
    (hs : r'.state = r.state) (he : r'.events = r.events) :
    r'.Tallies config b d others c items E :=
  ⟨hr, h.accounts.of_eq hs he, h.ledger⟩

/-- A call turns the books and leaves the cache to be committed; one that fails changes neither. -/
theorem request_ends (h : r.Tallies config b d others c items E) {call : Call}
    {items' : call.Reply → List (Handle × Switch.Object)} {E' : Programming}
    (hok : call.Turns d items E items' E') :
    (Act.request Testbed.hardware d call).Ends r
      (fun reply r' => Accounts b (items' reply) E' r' ∧ r'.Holds c)
      fun _ r' => r'.Tallies config b d others c items E := by
  have hcache := ((quiet_frame Testbed.hardware d).request call).holds h.holds
  refine ((h.accounts.request_ends hok).and hcache).mono (fun _ _ h => h) ?_
  exact fun _ _ hf => h.of_accounts hf.2 hf.1

/-- Counters are not on the books. -/
theorem count (h : r.Tallies config b d others c items E) (f : Stats → Stats)
    {F : OpError → Run Testbed → Prop} :
    (Act.count f).Ends r (fun _ r' => r'.Tallies config b d others c items E) F :=
  h.of_eq h.holds rfl rfl

/-- A new group enters the cache with the objects made for it. -/
theorem insertGroup (hI : c.Intact max) (h : r.Tallies config b d others c items E)
    {draft : Orchestrator.Draft} {owner : Owner} (hnone : c.groups.find? draft.group = none)
    {r' : Run Testbed} (ha : Accounts b (draft.made d ++ items) E r')
    (hr : r'.Holds (c.insertGroup (.new draft.group owner draft.rpfGroup draft.ipmcGroup))) :
    r'.Tallies config b d others
      (c.insertGroup (.new draft.group owner draft.rpfGroup draft.ipmcGroup))
      (draft.made d ++ items) E := by
  have hunused : ∀ key r, c.routes.find? key = some r → r.group ≠ draft.group := by
    intro key route hroute hgroup
    obtain ⟨g, hg⟩ := hI.grouped key route hroute
    rw [hgroup, hnone] at hg
    cases hg
  obtain ⟨front, hheld, hfits⟩ := draft.made_fits b.mappings d owner
  exact ⟨hr, ha, h.ledger.insertGroup hnone hunused hheld hfits fun _ => rfl⟩

end Run.Tallies

namespace Run.Mirrors

theorem of_mirrors {E₀ : Programming} (h : r.Mirrors config b d others E) (hE : E₀.SameBut E d) :
    r.Mirrors config b d others E₀ := by
  obtain ⟨c, items, E', h, hE'⟩ := h
  exact ⟨c, items, E', h, hE.trans hE'⟩

theorem count (h : r.Mirrors config b d others E) (f : Stats → Stats) :
    (Effect.count f).Ends r fun _ r' => r'.Mirrors config b d others E := by
  obtain ⟨c, items, E', h, hE⟩ := h
  exact ⟨c, items, E', h.of_eq h.holds rfl rfl, hE⟩

theorem note (h : r.Mirrors config b d others E) (level : Log.Level) (message : String) :
    (Effect.note level message).Ends r fun _ r' => r'.Mirrors config b d others E := by
  obtain ⟨c, items, E', h, hE⟩ := h
  exact ⟨c, items, E', h.of_accounts h.holds (h.accounts.emit rfl), hE⟩

/-- Operations end by counting and logging. -/
theorem finish (h : r.Mirrors config b d others E) (f : Stats → Stats) (level : Log.Level)
    (message : String) {F : OpError → Run Testbed → Prop} :
    (do Act.count f; Act.note level message : Act Testbed Unit).Ends r
      (fun _ r' => r'.Mirrors config b d others E) F := by
  refine Act.ends_bind.mpr (Act.ends_lift.mpr ((h.count f).mono ?_))
  exact fun _ _ h => Act.ends_lift.mpr (h.note level message)

end Run.Mirrors

namespace Orchestrator

/-! Members -/

theorem addMember_mirrors (hI : c.Intact max) (h : r.Tallies config b d others c items E) :
    ((bench config order).addMember d id role spec).Ends r
      (fun _ r' => r'.Mirrors config b d others E) fun _ r' => Accounts b items E r' := by
  obtain ⟨hr, ha, hl⟩ := h
  refine Act.Ends.usableGroup (fun g hg hcomplete => ?_) fun _ => ha
  rw [hr.1] at hg
  refine Act.Ends.ofCache (fun _ hcheck => ?_) fun _ => ha
  have hfree := (MemberSet.checkAdd_eq_ok_iff.mp hcheck).1
  refine (ha.lookup_ends _).bind ?_ fun _ _ h => h
  rintro rif _ ⟨rfl, _⟩
  refine (ha.lookupPorts_ends _).bind ?_ fun _ _ h => h
  rintro handles _ ⟨rfl, hhandles⟩
  have hports := PortsMatch.ofPorts hhandles
  have hsub : (g.subGroup role).isNull = false →
      ((bench config order).addToSubGroup d id role (g.subGroup role) rif handles spec).Ends r
        (fun _ r' => r'.Mirrors config b d others E) fun _ r' => Accounts b items E r' := by
    intro hnull
    refine (addToSubGroup_accounts ha hr hg hcheck _ rif handles).mono ?_ fun _ _ h => h
    rintro _ r' ⟨h, ha', hr'⟩
    exact (Run.Tallies.mk hr' ha'
      (hl.withMember (.ofSpec h spec) hg hfree hnull hports)).mirrors
  cases role with
  | rpf => exact hsub (Bool.not_eq_true' _ ▸ hcomplete)
  | ipmc =>
    cases hnull : g.ipmcGroup.isNull with
    | false =>
      simp only
      exact hsub hnull
    | true =>
      simp only [if_true]
      have hkeys : ∀ key, key ∈ order.arrange g.routeKeys ↔
          ∃ r, c.routes.find? key = some r ∧ r.group = id := fun key =>
        (order.perm g.routeKeys).mem_iff.trans (hI.mem_routeKeys hg)
      -- the group had no egress sub-group, so its routes had no outputs
      have hsilent : ∀ key ∈ order.arrange g.routeKeys, ∀ e,
          entryAt b.mappings d key = some e → ∀ v, E (d, e) = some v → v.output = .null := by
        intro key hkey e he v hv
        obtain ⟨route, hroute, hgroup⟩ := (hkeys key).mp hkey
        obtain ⟨e', v', he', hv', hE⟩ := hl.routed.shown key route hroute
        obtain rfl : e' = e := Option.some.inj (he'.symm.trans he)
        obtain rfl : v' = v := Option.some.inj (hE.symm.trans hv)
        obtain ⟨g', iif, hg', _, rfl⟩ := DeviceCache.imageOf_eq_some_iff.mp hv'
        obtain rfl : g' = g := Option.some.inj ((hgroup ▸ hg').symm.trans hg)
        exact Handle.eq_null hnull
      refine (addFirstEgress_accounts ha hr hg hcheck hsilent rif handles).mono ?_
        fun _ _ h => h
      rintro _ r' ⟨subGroup, h, entries, hentries, ha', hr'⟩
      have hsub' : subGroup.isNull = false :=
        ha'.books.named _ (List.mem_cons_of_mem _ List.mem_cons_self)
      have hl' := hl.withFirst (.ofSpec h spec) (hI.groups id g hg).1 hg hsub' hnull
        hports hkeys hentries
      exact ⟨_, _, _, ⟨hr', ha', hl'⟩, .writeAll E d _ entries⟩

theorem removeMember_mirrors {m : Member} (h : r.Tallies config b d others c items E)
    (hg : c.groups.find? id = some g) (hm : (g.members.ofRole role).find? rif = some m) :
    ((bench config order).removeMember d id role rif m.handle).Ends r
      (fun _ r' => ∃ items',
        r'.Tallies config b d others (c.setGroup id (g.withoutMember role rif)) items' E)
      fun _ r' => r'.Tallies config b d others c items E := by
  obtain ⟨o, items', hperm, _, hl⟩ := h.ledger.withoutMember hg hm
  refine (h.request_ends (Call.removeMember_turns hperm)).bind ?_ fun _ _ h => h
  rintro _ r₁ ⟨ha₁, hr₁⟩
  refine (Act.changeGroup_ends (g.withoutMember role rif) hr₁ hg ?_).bind ?_ fun _ _ h => h
  · rw [MemberSet.remove_eq_ok_iff.mpr ⟨hm, rfl⟩]
    rfl
  · rintro _ r₂ ⟨hr₂, hstate, hevents⟩
    exact ⟨items', hr₂, ha₁.of_eq hstate hevents, hl⟩

theorem removeMembers_mirrors {l : List Member} (hI : c.Intact max)
    (h : r.Tallies config b d others c items E) (hg : c.groups.find? id = some g)
    (hl : g.members.list role = l) :
    ((bench config order).removeMembers d id role l).Ends r
      (fun _ r' => ∃ items',
        r'.Tallies config b d others (c.setGroup id (g.withoutMembers role)) items' E)
      fun _ r' => r'.Mirrors config b d others E := by
  induction l generalizing r c g items with
  | nil =>
    rw [Group.withoutMembers_eq_self hl, DeviceCache.setGroup_eq_self hg]
    exact ⟨items, h⟩
  | cons m rest ih =>
    obtain ⟨rif, hm, hrest⟩ := Table.values_erase_head hl
    obtain rfl := (hI.groups id g hg).2.members role rif m hm
    have hI' := hI.withoutMember hg hm
    refine (removeMember_mirrors h hg hm).bind ?_ fun _ _ h => h.mirrors
    rintro _ r₁ ⟨items₁, h₁⟩
    have hnext := ih hI' h₁ (DeviceCache.find?_setGroup hg _) (by
      rw [Group.withoutMember, Group.list_setRole_self]
      exact hrest)
    rw [DeviceCache.setGroup_setGroup, Group.withoutMembers_withoutMember] at hnext
    exact hnext

theorem changeMember_mirrors (op : MemberOp) (hI : c.Intact max)
    (h : r.Tallies config b d others c items E) :
    ((bench config order).changeMember d id op role spec).Ends r
      (fun _ r' => r'.Mirrors config b d others E) fun _ r' => Accounts b items E r' := by
  have hr := h.holds
  have ha := h.accounts
  refine Act.Ends.cache ?_
  refine Act.Ends.ofCache (fun g hg => ?_) fun _ => ha
  rw [GroupTable.get_eq_ok_iff, hr.1] at hg
  cases op with
  | add =>
    refine (addMember_mirrors hI h).bind ?_ fun _ _ h => h
    exact fun _ _ h => h.finish _ _ _
  | delete =>
    refine Act.Ends.ofCache (fun member hmember => ?_) fun _ => ha
    obtain ⟨m, hm, rfl⟩ := MemberSet.handle_eq_ok_iff.mp hmember
    refine (removeMember_mirrors h hg hm).bind ?_ fun _ _ h => h.accounts
    rintro _ r₁ ⟨items₁, h₁⟩
    exact Act.ends_lift.mpr (h₁.mirrors.note _ _)
  | update =>
    refine Act.Ends.ofCache (fun member hmember => ?_) fun _ => ha
    obtain ⟨m, hm, rfl⟩ := MemberSet.handle_eq_ok_iff.mp hmember
    refine (ha.lookupPorts_ends _).bind ?_ fun _ _ h => h
    rintro handles _ ⟨rfl, hhandles⟩
    obtain ⟨o, items', hperm, hl⟩ := h.ledger.withPorts hg hm (.ofPorts hhandles)
    refine (h.request_ends (Call.setMember_turns hperm handles)).bind ?_ fun _ _ h => h.accounts
    rintro _ r₁ ⟨ha₁, hr₁⟩
    refine (Act.changeGroup_ends (g.withPorts role spec.rif (.ofPorts spec.ports)) hr₁ hg
      ?_).bind ?_ fun _ _ h => h
    · rw [MemberSet.setPorts_eq_ok_iff.mpr ⟨⟨m, hm⟩, rfl⟩]
      rfl
    · rintro _ r₂ ⟨hr₂, hstate, hevents⟩
      have h₂ : r₂.Tallies config b d others _ _ E := ⟨hr₂, ha₁.of_eq hstate hevents, hl⟩
      exact h₂.mirrors.finish _ _ _

/-! Groups -/

theorem removeSubGroup_mirrors (h : r.Tallies config b d others c items E)
    (hg : c.groups.find? id = some g)
    (hunused : ∀ key r, c.routes.find? key = some r → r.group ≠ id)
    (hempty : g.members.list role = []) :
    ((bench config order).removeSubGroup d id role (g.subGroup role)).Ends r
      (fun _ r' => ∃ items',
        r'.Tallies config b d others (c.setGroup id (g.withoutSubGroup role)) items' E)
      fun _ r' => r'.Mirrors config b d others E := by
  unfold removeSubGroup
  cases hnull : (g.subGroup role).isNull with
  | true =>
    rw [Group.withoutSubGroup_eq_self hnull, DeviceCache.setGroup_eq_self hg]
    exact ⟨items, h⟩
  | false =>
    obtain ⟨o, items', hperm, _, hl⟩ := h.ledger.withoutSubGroup hg hunused hnull hempty
    refine (h.request_ends (Call.removeSubGroup_turns hperm)).bind ?_ fun _ _ h => h.mirrors
    rintro _ r₁ ⟨ha₁, hr₁⟩
    refine (Act.changeGroup_ends (g.withoutSubGroup role) hr₁ hg ?_).mono ?_ fun _ _ h => h
    · cases role <;> rfl
    · rintro _ r₂ ⟨hr₂, hstate, hevents⟩
      exact ⟨items', hr₂, ha₁.of_eq hstate hevents, hl⟩

theorem removeRole_mirrors (hI : c.Intact max) (h : r.Tallies config b d others c items E)
    (hg : c.groups.find? id = some g)
    (hunused : ∀ key r, c.routes.find? key = some r → r.group ≠ id) (role : Role) :
    (do
      (bench config order).removeMembers d id role (g.members.list role)
      (bench config order).removeSubGroup d id role (g.subGroup role) : Act Testbed Unit).Ends r
      (fun _ r' => ∃ items',
        r'.Tallies config b d others (c.setGroup id (g.withoutRole role)) items' E)
      fun _ r' => r'.Mirrors config b d others E := by
  refine (removeMembers_mirrors hI h hg rfl).bind ?_ fun _ _ h => h
  rintro _ r₁ ⟨items₁, h₁⟩
  have hempty : (g.withoutMembers role).members.list role = [] := Group.list_setRole_self _ _ role
  have hsub : ((bench config order).removeSubGroup d id role
      ((g.withoutMembers role).subGroup role)).Ends r₁ _ _ :=
    removeSubGroup_mirrors h₁ (DeviceCache.find?_setGroup hg (g.withoutMembers role)) hunused hempty
  rw [DeviceCache.setGroup_setGroup] at hsub
  cases role <;> exact hsub

/-- Deletes go on from what an earlier attempt has left. -/
theorem unmakeGroup_mirrors (hI : c.Intact max) (h : r.Tallies config b d others c items E) :
    ((bench config order).unmakeGroup d id).Ends r
      (fun _ r' => r'.Mirrors config b d others E) fun _ r' => r'.Mirrors config b d others E := by
  refine Act.Ends.cache ?_
  refine Act.Ends.ofCache (fun g hg => ?_) fun _ => h.mirrors
  rw [GroupTable.get_eq_ok_iff, h.holds.1] at hg
  cases huse : g.isInUse with
  | true => exact h.mirrors
  | false =>
    have hid := (hI.groups id g hg).1
    have hunused := (hI.isInUse_eq_false_iff hg).mp huse
    refine (Act.ends_bind.mp (removeRole_mirrors hI h hg hunused .rpf)).bind ?_ fun _ _ h => h
    refine fun _ _ h => h.bind ?_ fun _ _ h => h
    rintro _ r₁ ⟨items₁, h₁⟩
    have hI₁ := hI.withoutRole hg huse .rpf
    have hg₁ := DeviceCache.find?_setGroup hg (g.withoutRole .rpf)
    refine (Act.ends_bind.mp (removeRole_mirrors hI₁ h₁ hg₁ hunused .ipmc)).bind ?_
      fun _ _ h => h
    refine fun _ _ h => h.bind ?_ fun _ _ h => h
    rintro _ r₂ ⟨items₂, h₂⟩
    have hg₂ := DeviceCache.find?_setGroup hg₁ ((g.withoutRole .rpf).withoutRole .ipmc)
    obtain ⟨o, items₃, hperm, _, hl⟩ :=
      h₂.ledger.eraseGroup (g := (g.withoutRole .rpf).withoutRole .ipmc) hid hg₂ hunused rfl rfl
    refine (h₂.request_ends (Call.removeGroup_turns hperm)).bind ?_ fun _ _ h => h.mirrors
    rintro _ r₃ ⟨ha₃, hr₃⟩
    refine (deleteGroup_ends hr₃ hg₂ huse).bind ?_ fun _ _ h => h
    rintro _ r₄ ⟨hr₄, hstate, hevents⟩
    have h₄ : r₄.Tallies config b d others _ _ E := ⟨hr₄, ha₃.of_eq hstate hevents, hl⟩
    exact h₄.mirrors.finish _ _ _

theorem addEgressMembers_mirrors (specs : List MemberSpec) (hI : r.cache.Intact max)
    (h : r.Mirrors config b d others E) :
    ((bench config order).addEgressMembers d id specs).Ends r fun _ r' =>
      r'.Mirrors config b d others E := by
  induction specs generalizing r with
  | nil => exact h
  | cons spec rest ih =>
    obtain ⟨c, items, E', h, hE⟩ := h
    have hIc : c.Intact max := hI.of_tables h.holds.1.symm h.holds.2.symm
    refine Effect.ends_bind.mpr (Effect.Ends.mono
      ((addMember_mirrors hIc h).and (addMember_upholds d id .ipmc spec _ r hI rfl)) ?_)
    intro result r₁ h₁
    cases result with
    | ok _ =>
      have hmirrors := h₁.1.of_mirrors hE
      refine Effect.Ends.bind (P := fun _ r' => r'.cache.Intact max ∧
        r'.Mirrors config b d others E) ⟨h₁.2.1.of_tables rfl rfl, hmirrors.count _⟩ ?_
      exact fun _ _ h => ih h.1 h.2
    | error e =>
      have hr₁ : r₁.Holds c := h.holds.recovers h₁.2
      have hmirrors := (h.of_accounts hr₁ h₁.1).mirrors.of_mirrors hE
      refine Effect.Ends.bind (P := fun _ r' => r'.Holds c ∧
        r'.Mirrors config b d others E) ⟨hr₁, hmirrors.note _ _⟩ ?_
      rintro _ r₂ ⟨hr₂, h₂⟩
      refine Effect.Ends.bind (P := fun _ r' => r'.Holds c ∧
        r'.Mirrors config b d others E) ⟨hr₂, h₂.count _⟩ ?_
      exact fun _ _ h => ih (hIc.of_holds h.1) h.2

theorem makeGroup_mirrors (owner : Owner) (rpf : MemberSpec) (ipmc : List MemberSpec)
    (hI : c.Intact config.maxGroups) (h : r.Tallies config b d others c items E) :
    ((bench config order).makeGroup d owner rpf ipmc).Ends r
      (fun _ r' => r'.Mirrors config b d others E) fun _ r' => Accounts b items E r' := by
  have hS := quiet_frame (bench config order).hardware d
  have hr := h.holds
  have ha := h.accounts
  refine Act.Ends.cache ?_
  split
  · exact ha
  · next hsize =>
    rw [hr.1, Nat.not_le] at hsize
    refine (ha.lookup_ends _).bind ?_ fun _ _ h => h
    rintro _ _ ⟨rfl, _⟩
    refine (ha.lookupPorts_ends _).bind ?_ fun _ _ h => h
    rintro _ _ ⟨rfl, _⟩
    refine Act.Ends.bind ((buildGroup_accounts ha owner _).and
      ((hS.buildGroup (quiet_rollBack _ d) owner _).holds hr)) ?_ fun _ _ h => h.1
    rintro draft r₁ ⟨⟨ha₁, _⟩, hr₁⟩
    refine Act.Ends.bind ((commitGroup_ends owner draft hr₁).orCleanUp ?_) ?_ fun _ _ h => h
    · rintro _ _ ⟨_, -, rfl⟩
      exact Effect.Ends.bind (P := fun _ r' => Accounts b (draft.made d ++ items) E r')
        ((ha₁.emit rfl).emit rfl) fun _ _ ha₂ => rollBack_accounts ha₂
    · rintro _ r₂ ⟨hnone, hr₂, hstate, hevents⟩
      have hI₂ := hI.insertGroup hnone hsize owner draft.rpfGroup draft.ipmcGroup
      have h₂ := h.insertGroup hI hnone (ha₁.of_eq hstate hevents) hr₂
      refine (h₂.count _).bind ?_ fun _ _ h => h
      intro _ r₃ h₃
      refine Act.Ends.bind (((addMember_mirrors hI₂ h₃).and
        (addMember_upholds d draft.group .rpf rpf _ r₃ (hI₂.of_holds h₃.holds) rfl)).orCleanUp
        ?_) ?_ fun _ _ h => h
      · -- the group leaves the cache before its objects are removed
        rintro _ r₄ ⟨ha₄, hrec₄⟩
        have hr₄ := h₃.holds.recovers hrec₄
        refine Effect.Ends.bind (P := fun _ r' => Accounts b (draft.made d ++ items) E r' ∧
          r'.Holds _) ⟨ha₄.emit rfl, hr₄⟩ ?_
        rintro _ r₅ ⟨ha₅, hr₅⟩
        refine (dropGroup_ends hr₅ (DeviceCache.find?_insertGroup c _) rfl).bind ?_
        rintro _ r₆ ⟨_, hstate₆, hevents₆, _⟩
        exact rollBack_accounts (ha₅.of_eq hstate₆ hevents₆)
      · rintro _ r₄ ⟨h₄, hI₄, _⟩
        refine Act.ends_bind.mpr (Act.ends_lift.mpr (Effect.Ends.mono (Q := fun _ r' =>
          r'.cache.Intact config.maxGroups ∧ r'.Mirrors config b d others E)
          ⟨hI₄.of_tables rfl rfl, h₄.count _⟩ ?_))
        rintro _ r₅ ⟨hI₅, h₅⟩
        refine Act.ends_bind.mpr (Act.ends_lift.mpr ?_)
        exact (addEgressMembers_mirrors ipmc hI₅ h₅).mono fun _ _ h₆ => h₆.note _ _

/-! Routes -/

theorem makeRoute_mirrors (route : Route) (h : r.Tallies config b d others c items E) :
    ((bench config order).makeRoute d route).Ends r
      (fun _ r' => r'.Mirrors config b d others E) fun _ r' => Accounts b items E r' := by
  have hr := h.holds
  have ha := h.accounts
  unfold makeRoute
  cases hvalid : route.key.validate with
  | error why => exact ha
  | ok _ =>
    refine Act.Ends.cache ?_
    refine Act.Ends.ofCache (fun _ hcheck => ?_) fun _ => ha
    have ⟨hkey, _⟩ := DeviceCache.checkAddRoute_eq_ok_iff.mp hcheck
    rw [hr.2] at hkey
    refine Act.Ends.usableGroup (fun g hg _ => ?_) fun _ => ha
    rw [hr.1] at hg
    refine (ha.entryOf_ends _).bind ?_ fun _ _ h => h
    rintro e _ ⟨rfl, he⟩
    refine (ha.lookup_ends _).bind ?_ fun _ _ h => h
    rintro iif _ ⟨rfl, hiif⟩
    have himage : c.imageOf config b.mappings d route =
        some (config.image g iif route.copyToCpu) :=
      DeviceCache.imageOf_eq_some_iff.mpr ⟨g, iif, hg, hiif, rfl⟩
    rw [routeAttrs_eq]
    refine Act.Ends.bind ((h.request_ends (Call.createEntry_turns _)).and
      (ha.request_tells fun _ _ _ _ => Call.createEntry_tells)) ?_ fun _ _ hf => hf.1.accounts
    rintro _ r₁ ⟨⟨ha₁, hr₁⟩, hfree⟩
    refine (insertRoute_ends hr₁ hkey hg).bind ?_ fun _ _ h => h
    rintro _ r₂ ⟨hr₂, hstate, hevents⟩
    have h₂ : r₂.Mirrors config b d others E :=
      ⟨_, _, _, ⟨hr₂, ha₁.of_eq hstate hevents, h.ledger.insertRoute hg hfree he himage⟩,
        .set E d e _⟩
    exact h₂.finish _ _ _

theorem unmakeRoute_mirrors (key : RouteKey) (hI : c.Intact max)
    (h : r.Tallies config b d others c items E) :
    ((bench config order).unmakeRoute d key).Ends r
      (fun _ r' => r'.Mirrors config b d others E) fun _ r' => Accounts b items E r' := by
  have hr := h.holds
  have ha := h.accounts
  refine Act.Ends.cache ?_
  refine Act.Ends.ofCache (fun group hgroup => ?_) fun _ => ha
  rw [hr.2] at hgroup
  obtain ⟨route, hroute, rfl⟩ := RouteTable.groupOf_eq_ok_iff.mp hgroup
  obtain ⟨rfl, _⟩ := hI.routes key route hroute
  obtain ⟨g, hg⟩ := hI.grouped _ route hroute
  refine (ha.entryOf_ends _).bind ?_ fun _ _ h => h
  rintro e _ ⟨rfl, he⟩
  refine (h.request_ends Call.removeEntry_turns).bind ?_ fun _ _ h => h.accounts
  rintro _ r₁ ⟨ha₁, hr₁⟩
  refine (eraseRoute_ends hr₁ hroute hg).bind ?_ fun _ _ h => h
  rintro _ r₂ ⟨hr₂, hstate, hevents⟩
  have h₂ : r₂.Mirrors config b d others E :=
    ⟨_, _, _, ⟨hr₂, ha₁.of_eq hstate hevents, h.ledger.eraseRoute hroute hg he⟩, .set E d e _⟩
  exact h₂.finish _ _ _

/-- Only what differs is written, and that is all there is to write. -/
theorem writeChanges_accounts {key : RouteKey} {e : Entry} {old : RouteImage} (new : RouteImage)
    {changes : List (EntryAttr × EntryAttr)} (he : entryAt b.mappings d key = some e)
    (hE : E (d, e) = some old)
    (hchanges : changes = (old.attrs.zip new.attrs).filter fun p => p.1 ≠ p.2)
    (ha : Accounts b items E r) :
    (if changes.isEmpty then pure ()
      else do
        let entry ← Act.entryOf Testbed.hardware d key
        (bench config order).writeAttrs d key entry [] changes : Act Testbed Unit).Ends r
      (fun _ r' => Accounts b items (E.set (d, e) (some new)) r')
      fun _ r' => Accounts b items E r' := by
  split
  · next hempty =>
    rw [hchanges, List.isEmpty_iff, RouteImage.filter_zip_attrs_eq_nil_iff] at hempty
    rw [← hempty, Programming.set_eq_self hE]
    exact ha
  · have hleft : ∀ id, old.read id = new.read id ∨ (old.read id, new.read id) ∈ changes := by
      intro id
      by_cases hsame : old.read id = new.read id
      · exact .inl hsame
      · rw [hchanges]
        have hmem : (old.read id, new.read id) ∈ old.attrs.zip new.attrs :=
          RouteImage.mem_zip_attrs.mpr ⟨id, rfl⟩
        exact .inr (List.mem_filter.mpr ⟨hmem, by simpa using hsame⟩)
    refine (ha.entryOf_ends _).bind ?_ fun _ _ h => h
    rintro e' _ ⟨rfl, he'⟩
    obtain rfl : e' = e := Option.some.inj (he'.symm.trans he)
    refine writeAttrs_accounts (v := old) hE (fun _ ha => by cases ha) (fun _ => .inl rfl) ?_ hleft
      ((Programming.set_eq_self hE).symm ▸ ha)
    intro p hp
    rw [hchanges] at hp
    exact RouteImage.mem_zip_attrs.mp (List.mem_filter.mp hp).1

/-- The route changes in the cache as in the hardware, where the attributes that differ are
written, and no more. -/
theorem changeRoute_rewrites (key : RouteKey) (u : RouteUpdate) (hI : c.Intact max)
    (h : r.Tallies config b d others c items E) :
    ((bench config order).changeRoute d key u).Ends r
      (fun _ r' => ∃ route g g' e old new,
        (c.routes.find? key = some route ∧ c.groups.find? route.group = some g ∧
          c.groups.find? (u.apply route).group = some g' ∧
          entryAt b.mappings d key = some e ∧
          c.imageOf config b.mappings d route = some old ∧
          c.imageOf config b.mappings d (u.apply route) = some new) ∧
        r'.Tallies config b d others (c.setRoute route g (u.apply route) g') items
          (E.set (d, e) (some new)) ∧
        r.Writes d e (old.changed new) r')
      fun _ r' => Accounts b items E r' := by
  have hS := quiet_frame (bench config order).hardware d
  obtain ⟨hr, ha, hl⟩ := h
  refine Act.Ends.cache ?_
  refine Act.Ends.ofCache (fun route hroute => ?_) fun _ => ha
  rw [hr.2, RouteTable.get_eq_ok_iff] at hroute
  obtain ⟨rfl, _⟩ := hI.routes key route hroute
  refine Act.Ends.ofCache (fun g hg => ?_) fun _ => ha
  rw [hr.1, GroupTable.get_eq_ok_iff] at hg
  refine Act.Ends.usableGroup (fun g' hg' _ => ?_) fun _ => ha
  rw [hr.1] at hg'
  refine (ha.lookup_ends _).bind ?_ fun _ _ h => h
  rintro oldIif _ ⟨rfl, holdIif⟩
  refine Act.Ends.bind (P := fun newIif r' => r = r' ∧
    b.mappings.find? (d, .rif (u.apply route).iif) = some newIif)
    (F := fun _ r' => Accounts b items E r') ?_ ?_ fun _ _ h => h
  · split
    · next hsame => exact ⟨rfl, by rw [RouteUpdate.apply, hsame]; exact holdIif⟩
    · exact ha.lookup_ends _
  rintro newIif _ ⟨rfl, hnewIif⟩
  obtain ⟨e, v, he, hv, hE⟩ := hl.routed.shown _ route hroute
  have hold : c.imageOf config b.mappings d route =
      some (config.image g oldIif route.copyToCpu) :=
    DeviceCache.imageOf_eq_some_iff.mpr ⟨g, oldIif, hg, holdIif, rfl⟩
  obtain rfl := Option.some.inj (hold.symm.trans hv)
  let new := config.image g' newIif (u.apply route).copyToCpu
  have hnew : c.imageOf config b.mappings d (u.apply route) = some new :=
    DeviceCache.imageOf_eq_some_iff.mpr ⟨g', newIif, hg', hnewIif, rfl⟩
  refine Act.Ends.bind (((writeChanges_accounts new he hE rfl ha).and
    (writeChanges_writes ha he _)).and ((hS.writeChanges route.key _).holds hr)) ?_
    fun _ _ hf => hf.1.1
  rintro _ r₁ ⟨⟨ha₁, hw₁⟩, hr₁⟩
  rw [RouteImage.map_snd_changes] at hw₁
  refine (setRoute_ends (u := u) hr₁ hroute hg hg').bind ?_ fun _ _ h => h
  rintro _ r₂ ⟨hr₂, hstate, hevents, -⟩
  have h₂ : r₂.Tallies config b d others _ items _ :=
    ⟨hr₂, ha₁.of_eq hstate hevents, hl.setRoute hroute hg hg' he hnew⟩
  refine Act.ends_finish.mpr ⟨route, g, g', e, _, new, ⟨hroute, hg, hg', he, hold, hnew⟩, ?_, ?_⟩
  · exact h₂.of_accounts hr₂ ((h₂.accounts.emit (e := .log _) rfl).of_eq rfl rfl)
  · exact (hw₁.of_eq hstate hevents).log rfl rfl

theorem changeRoute_mirrors (key : RouteKey) (u : RouteUpdate) (hI : c.Intact max)
    (h : r.Tallies config b d others c items E) :
    ((bench config order).changeRoute d key u).Ends r
      (fun _ r' => r'.Mirrors config b d others E) fun _ r' => Accounts b items E r' := by
  refine (changeRoute_rewrites key u hI h).mono ?_ fun _ _ h => h
  rintro _ r' ⟨route, g, g', e, old, new, -, h', -⟩
  exact ⟨_, _, _, h', .set E d e _⟩

theorem compareAttrs_accounts {key : RouteKey} {found wanted : List EntryAttr}
    (ha : Accounts b items E r) :
    (compareAttrs key found wanted).Ends r fun _ r' => Accounts b items E r' := by
  induction wanted generalizing r with
  | nil => exact ha
  | cons a rest ih =>
    rw [compareAttrs]
    split
    · refine Effect.Ends.bind (P := fun _ r' => Accounts b items E r') (ha.emit rfl) ?_
      exact fun _ _ ha₁ => (ih ha₁).bind fun _ _ h => h
    · exact (ih ha).bind fun _ _ h => h

/-- Reading a route back changes nothing. -/
theorem checkRoute_accounts (key : RouteKey) (ha : Accounts b items E r) :
    ((bench config order).checkRoute d key).Ends r
      (fun _ r' => Accounts b items E r') fun _ r' => Accounts b items E r' := by
  refine Act.Ends.cache ?_
  refine Act.Ends.ofCache (fun route _ => ?_) fun _ => ha
  refine Act.Ends.ofCache (fun g _ => ?_) fun _ => ha
  refine (ha.lookup_ends _).bind ?_ fun _ _ h => h
  rintro iif _ ⟨rfl, _⟩
  refine (ha.entryOf_ends _).bind ?_ fun _ _ h => h
  rintro e _ ⟨rfl, _⟩
  refine (ha.request_ends (Call.readEntry_turns _)).bind ?_ fun _ _ h => h
  intro found r₁ ha₁
  refine Act.ends_bind.mpr (Act.ends_lift.mpr ((compareAttrs_accounts ha₁).mono ?_))
  exact fun _ _ h => h

end Orchestrator

end Multicast
