import Multicast.Proofs.Correspondence

/-! The switch removes an object only when nothing depends on it: no object that has it as a parent,
and no route that names it. What the caches hold is closed under both, so whatever a cache is about
to give up nothing else depends on. -/
namespace Multicast

variable {items : List (Handle × Switch.Object)} {E E' : Programming} {s : Switch} {h : Handle}
  {o : Switch.Object}

/-- The sub-groups that a route names are among `handles`. -/
def RouteImage.Within (v : RouteImage) (handles : List Handle) : Prop :=
  ∀ a ∈ v.attrs, ∀ t, a.target? = some t → t.isNull = false → t ∈ handles

/-- Parents and the sub-groups of routes are on the books. -/
structure Closed (items : List (Handle × Switch.Object)) (E : Programming) : Prop where
  parents : ∀ x ∈ items, ∀ p, x.2.parent = some p → p ∈ items.map Prod.fst
  targets : ∀ k v, E k = some v → v.Within (items.map Prod.fst)

/-- `h` is on the books as an object of `d`. -/
def Listed (items : List (Handle × Switch.Object)) (d : DeviceId) (h : Handle)
    (kind : ObjectKind) : Prop :=
  ∃ o, (h, o) ∈ items ∧ o.device = d ∧ o.kind = kind

namespace Books

/-- With every undo call done, the objects are those on the books. -/
theorem stocked (hb : Books items E s 0) (hcount : s.counter < 2 ^ 48) :
    Switch.Stock s.objects items [] := by
  obtain ⟨lost, hlost, hstock⟩ := hb.stock hcount
  obtain rfl := List.eq_nil_of_length_eq_zero (Nat.le_zero.mp hlost)
  exact hstock

theorem expect_eq (hb : Books items E s 0) (hcount : s.counter < 2 ^ 48) {d : DeviceId}
    {kind : ObjectKind} (h' : Listed items d h kind) : s.expect d h kind = .ok () := by
  obtain ⟨o, ho, rfl, rfl⟩ := h'
  have hlive := (hb.stocked hcount).live _ ho
  simp only [Switch.expect, hlive, and_self, if_true]

theorem mem_of_find? (hb : Books items E s 0) (hcount : s.counter < 2 ^ 48)
    (ho : s.objects.find? h = some o) : (h, o) ∈ items := by
  have hstock := hb.stocked hcount
  have hmem : h ∈ items.map Prod.fst := by
    simpa using hstock.covered h o ho
  obtain ⟨x, hx, rfl⟩ := List.mem_map.mp hmem
  obtain rfl : x.2 = o := Option.some.inj ((hstock.live x hx).symm.trans ho)
  exact hx

theorem find?_iff (hb : Books items E s 0) (hcount : s.counter < 2 ^ 48) :
    s.objects.find? h = some o ↔ (h, o) ∈ items :=
  ⟨hb.mem_of_find? hcount, (hb.stocked hcount).live (h, o)⟩

theorem isReferenced_eq_false (hb : Books items E s 0) {handles : List Handle}
    (htargets : ∀ k v, E k = some v → v.Within handles) (hnull : h.isNull = false)
    (hfree : h ∉ handles) : s.isReferenced h = false := by
  rw [Switch.isReferenced, List.any_eq_false]
  intro attrs hattrs
  rw [List.any_eq_true]
  rintro ⟨a, ha, htarget⟩
  obtain ⟨k, hk⟩ := Table.mem_values_iff.mp hattrs
  have hshown := hb.routed k
  rw [Table.contains_of_find? hk] at hshown
  obtain ⟨v, hv⟩ := Option.isSome_iff_exists.mp hshown.symm
  obtain ⟨attrs', hattrs', hperm⟩ := hb.shown rfl k v hv
  obtain rfl : attrs' = attrs := Option.some.inj (hattrs'.symm.trans hk)
  exact hfree (htargets k v hv a (hperm.mem_iff.mp ha) h (beq_iff_eq.mp htarget) hnull)

/-- What is left on the books depends on nothing but itself, so the one object may go. -/
theorem remove_eq (hb : Books ((h, o) :: items) E s 0) (hcount : s.counter < 2 ^ 48)
    (hclosed : Closed items E) (hparent : ∀ p, o.parent = some p → p ∈ items.map Prod.fst) :
    s.remove o.device h o.kind = .ok { s with objects := s.objects.erase h } := by
  have hstock := hb.stocked hcount
  have hfree : h ∉ items.map Prod.fst := (List.nodup_cons.mp hstock.distinct).1
  have hexpect : s.expect o.device h o.kind = .ok () :=
    hb.expect_eq hcount ⟨o, List.mem_cons_self, rfl, rfl⟩
  have hchild : s.hasChild h = false := by
    rw [Switch.hasChild, List.any_eq_false]
    intro o' ho'
    rw [beq_iff_eq]
    intro hh
    obtain ⟨h', hlive⟩ := Table.mem_values_iff.mp ho'
    rcases List.mem_cons.mp (hb.mem_of_find? hcount hlive) with heq | hmem
    · cases heq
      exact hfree (hparent h hh)
    · exact hfree (hclosed.parents _ hmem h hh)
  have hunnamed : s.isReferenced h = false :=
    hb.isReferenced_eq_false hclosed.targets (hb.named (h, o) List.mem_cons_self) hfree
  simp only [Switch.remove, hexpect, hchild, hunnamed, bind, Except.bind, Bool.false_eq_true,
    if_false]

end Books

/-! What caches hold -/

/-- The parents of holdings are held, too. -/
def ParentsHeld (held : List Holding) : Prop :=
  ∀ x ∈ held, ∀ p, x.parent = some p → p ∈ held.map Holding.handle

theorem ParentsHeld.flatMap {α : Type} {l : List α} {f : α → List Holding}
    (h : ∀ a ∈ l, ParentsHeld (f a)) : ParentsHeld (l.flatMap f) := by
  intro x hx p hp
  obtain ⟨a, ha, hx⟩ := List.mem_flatMap.mp hx
  obtain ⟨y, hy, rfl⟩ := List.mem_map.mp (h a ha x hx p hp)
  exact List.mem_map.mpr ⟨y, List.mem_flatMap.mpr ⟨a, ha, hy⟩, rfl⟩

/-- Members have their sub-group. -/
def Group.Rooted (g : Group) : Prop :=
  ∀ role, (g.subGroup role).isNull = true → g.members.list role = []

namespace Group

variable {g : Group} {d : DeviceId} {role : Role}

theorem Intact.rooted (h : g.Intact)
    (hipmc : g.ipmcGroup.isNull = true → g.members.list .ipmc = []) : g.Rooted := by
  intro role hnull
  cases role with
  | rpf =>
    have hempty : g.members.ofRole .rpf = ∅ := Table.eq_empty_of_size_eq_zero (h.rpfRooted hnull)
    rw [MemberSet.list, hempty]
    rfl
  | ipmc => exact hipmc hnull

theorem mem_holdings_of_role {x : Holding} (hx : x ∈ g.roleHoldings d role) :
    x ∈ g.holdings d := by
  apply List.mem_cons_of_mem
  cases role with
  | rpf => exact List.mem_append_left _ hx
  | ipmc => exact List.mem_append_right _ hx

theorem subGroup_mem_holdings (role : Role) (hnull : (g.subGroup role).isNull = false) :
    ⟨g.subGroup role, d, .subGroup role, some g.id, ∅⟩ ∈ g.holdings d := by
  have hmem : ⟨g.subGroup role, d, .subGroup role, some g.id, ∅⟩ ∈ g.roleHoldings d role := by
    rw [roleHoldings, hnull]
    exact List.mem_cons_self
  exact mem_holdings_of_role hmem

theorem subGroup_held (role : Role) (hnull : (g.subGroup role).isNull = false) :
    g.subGroup role ∈ (g.holdings d).map Holding.handle :=
  List.mem_map.mpr ⟨_, subGroup_mem_holdings role hnull, rfl⟩

theorem Rooted.parentsHeld (h : g.Rooted) (d : DeviceId) : ParentsHeld (g.holdings d) := by
  have hrole : ∀ role, ∀ x ∈ g.roleHoldings d role, ∀ p, x.parent = some p →
      p ∈ (g.holdings d).map Holding.handle := by
    intro role x hx p hp
    rcases List.mem_append.mp hx with hx | hx
    · split at hx
      · cases hx
      · rw [List.mem_singleton.mp hx] at hp
        cases hp
        exact List.mem_cons_self
    · obtain ⟨m, hm, rfl⟩ := List.mem_map.mp hx
      cases hp
      apply subGroup_held role
      rw [Bool.eq_false_iff]
      intro hnull
      rw [h role hnull] at hm
      cases hm
  intro x hx p hp
  rcases List.mem_cons.mp hx with rfl | hx
  · cases hp
  · rcases List.mem_append.mp hx with hx | hx
    · exact hrole .rpf x hx p hp
    · exact hrole .ipmc x hx p hp

end Group

variable {config : Config} {m : Mappings} {d : DeviceId} {c : DeviceCache} {max : Nat}
  {others : List Holding}

theorem DeviceCache.mem_holdings {id : Handle} {g : Group} (hg : c.groups.find? id = some g)
    {x : Holding} (hx : x ∈ g.holdings d) : x ∈ c.holdings d :=
  List.mem_flatMap.mpr ⟨g, Table.mem_values_iff.mpr ⟨id, hg⟩, hx⟩

theorem DeviceCache.mem_handles {id : Handle} {g : Group} (hg : c.groups.find? id = some g)
    {h : Handle} (hh : h ∈ (g.holdings d).map Holding.handle) :
    h ∈ (c.holdings d).map Holding.handle := by
  obtain ⟨x, hx, rfl⟩ := List.mem_map.mp hh
  exact List.mem_map.mpr ⟨x, mem_holdings hg hx, rfl⟩

theorem DeviceCache.Intact.parentsHeld (hI : c.Intact max)
    (hrooted : ∀ id g, c.groups.find? id = some g → g.ipmcGroup.isNull = true →
      g.members.list .ipmc = []) (d : DeviceId) : ParentsHeld (c.holdings d) := by
  apply ParentsHeld.flatMap
  intro g hg
  obtain ⟨id, hg⟩ := Table.mem_values_iff.mp hg
  exact ((hI.groups id g hg).2.rooted (hrooted id g hg)).parentsHeld d

/-- Routes name the sub-groups of their group. -/
theorem Routed.within (h : Routed config m d c E) {e : Entry} {v : RouteImage}
    (hv : E (d, e) = some v) : v.Within ((c.holdings d).map Holding.handle) := by
  obtain ⟨key, r, hr, he⟩ := h.only e v hv
  obtain ⟨e', v', he', hv', hE⟩ := h.shown key r hr
  obtain rfl : e' = e := Option.some.inj (he'.symm.trans he)
  obtain rfl : v' = v := Option.some.inj (hE.symm.trans hv)
  obtain ⟨g, iif, hg, _, rfl⟩ := DeviceCache.imageOf_eq_some_iff.mp hv'
  intro a ha t ht hnull
  apply DeviceCache.mem_handles hg
  simp only [Config.image, RouteImage.attrs, List.mem_cons, List.not_mem_nil, or_false] at ha
  rcases ha with rfl | rfl | rfl | rfl
  · cases ht
  · cases ht
    exact Group.subGroup_held .ipmc hnull
  · cases ht
    exact Group.subGroup_held .rpf hnull
  · cases ht

/-- What is held and shown elsewhere depends on nothing of `d`. -/
structure Abroad (d : DeviceId) (others : List Holding) (E : Programming) : Prop where
  parents : ParentsHeld others
  targets : ∀ d' e v, d' ≠ d → E (d', e) = some v → v.Within (others.map Holding.handle)

theorem Matched.mem_holdings {held : List Holding} (h : Matched m held items)
    {y : Handle × Switch.Object} (hy : y ∈ items) : ∃ x ∈ held, x.Fits m y := by
  obtain ⟨items', hfits, hperm⟩ := h
  replace hy := hperm.mem_iff.mpr hy
  clear hperm
  induction hfits with
  | nil => cases hy
  | cons hx _ ih =>
    rcases List.mem_cons.mp hy with rfl | hy
    · exact ⟨_, List.mem_cons_self, hx⟩
    · obtain ⟨x, hx, hfits⟩ := ih hy
      exact ⟨x, List.mem_cons_of_mem _ hx, hfits⟩

/-- Objects depend on each other as the holdings do. -/
theorem Matched.closed {held : List Holding} (h : Matched m held items)
    (hparents : ParentsHeld held)
    (htargets : ∀ k v, E k = some v → v.Within (held.map Holding.handle)) : Closed items E where
  parents := by
    intro y hy p hp
    obtain ⟨x, hx, hfits⟩ := h.mem_holdings hy
    rw [hfits.parent] at hp
    exact h.handles_perm.mem_iff.mp (hparents x hx p hp)
  targets := fun k v hv a ha t ht hnull =>
    h.handles_perm.mem_iff.mp (htargets k v hv a ha t ht hnull)

theorem ParentsHeld.append {held held' : List Holding} (h : ParentsHeld held)
    (h' : ParentsHeld held') : ParentsHeld (held ++ held') := by
  intro x hx p hp
  rw [List.map_append]
  rcases List.mem_append.mp hx with hx | hx
  · exact List.mem_append_left _ (h x hx p hp)
  · exact List.mem_append_right _ (h' x hx p hp)

theorem Ledger.closed (h : Ledger config m d others c items E) (hI : c.Intact max)
    (habroad : Abroad d others E) : Closed items E := by
  refine h.objects.closed ((hI.parentsHeld h.rooted d).append habroad.parents) ?_
  rintro ⟨d', e⟩ v hv a ha t ht hnull
  rw [List.map_append]
  by_cases hd : d' = d
  · subst hd
    exact List.mem_append_left _ (h.routed.within hv a ha t ht hnull)
  · exact List.mem_append_right _ (habroad.targets d' e v hd hv a ha t ht hnull)

theorem Ledger.mem_handles (h : Ledger config m d others c items E) {id : Handle} {g : Group}
    (hg : c.groups.find? id = some g) {t : Handle}
    (ht : t ∈ (g.holdings d).map Holding.handle) : t ∈ items.map Prod.fst := by
  rw [← h.objects.handles_perm.mem_iff, List.map_append]
  exact List.mem_append_left _ (DeviceCache.mem_handles hg ht)

theorem Ledger.group_mem_handles (h : Ledger config m d others c items E) (hI : c.Intact max)
    {id : Handle} {g : Group} (hg : c.groups.find? id = some g) : id ∈ items.map Prod.fst :=
  h.mem_handles hg (List.mem_map.mpr ⟨_, List.mem_cons_self, (hI.groups id g hg).1⟩)

/-- Nothing depends on a member, and its sub-group is there. -/
theorem Ledger.withoutMember_leaf (h : Ledger config m d others c items E) {id : Handle} {g : Group}
    (hgI : g.Intact) (hg : c.groups.find? id = some g) {role : Role} {rif : RifId}
    {member : Member} (hm : (g.members.ofRole role).find? rif = some member) :
    ∃ o items', items.Perm ((member.handle, o) :: items') ∧ o.device = d ∧
      o.kind = .member role ∧ (∀ p, o.parent = some p → p ∈ items'.map Prod.fst) ∧
      Ledger config m d others (c.setGroup id (g.withoutMember role rif)) items' E := by
  obtain ⟨o, items', hperm, hfits, hl⟩ := h.withoutMember hg hm
  refine ⟨o, items', hperm, hfits.device, hfits.kind, fun p hp => ?_, hl⟩
  rw [hfits.parent] at hp
  cases hp
  have hmem : member ∈ g.members.list role := Table.mem_values_iff.mpr ⟨rif, hm⟩
  have hnull : (g.subGroup role).isNull = false := by
    rw [Bool.eq_false_iff]
    intro hnull
    rw [hgI.rooted (h.rooted id g hg) role hnull] at hmem
    cases hmem
  have hsub : (g.withoutMember role rif).subGroup role = g.subGroup role := by
    cases role <;> rfl
  have hnext := DeviceCache.find?_setGroup hg (g.withoutMember role rif)
  exact hl.mem_handles hnext (hsub ▸ Group.subGroup_held role (hsub.symm ▸ hnull))

namespace World.Sound

variable {failed : Nat} {w : World Testbed}

theorem parentsHeld (h : w.Sound config failed items E) (hc : w.fleet.find? d = some c) :
    ParentsHeld (c.holdings d) := by
  have hcache : w.cacheOf d = c := by
    rw [World.cacheOf, hc]
    rfl
  exact (h.intact d c hc).parentsHeld (hcache ▸ h.rooted d) d

theorem closed (h : w.Sound config failed items E) : Closed items E := by
  apply h.objects.closed
  · apply ParentsHeld.flatMap
    rintro ⟨d, c⟩ hc
    exact h.parentsHeld (Table.find?_eq_some_iff.mpr hc)
  · rintro ⟨d, e⟩ v hv a ha t ht hnull
    obtain ⟨x, hx, rfl⟩ := List.mem_map.mp ((h.routed d).within hv a ha t ht hnull)
    exact List.mem_map.mpr ⟨x, World.mem_holdings_fleet hx, rfl⟩

/-- The caches of the other devices are closed by themselves. -/
theorem abroad (h : w.Sound config failed items E) (d : DeviceId) :
    Abroad d (Fleet.holdings (w.fleet.erase d)) E where
  parents := by
    apply ParentsHeld.flatMap
    rintro ⟨d', c⟩ hc
    have hc := Table.find?_eq_some_iff.mpr hc
    have hne : d' ≠ d := by
      rintro rfl
      rw [Table.find?_erase_self] at hc
      cases hc
    rw [Table.find?_erase_of_ne _ hne] at hc
    exact h.parentsHeld hc
  targets := by
    intro d' e v hne hv a ha t ht hnull
    obtain ⟨x, hx, rfl⟩ := List.mem_map.mp ((h.routed d').within hv a ha t ht hnull)
    obtain ⟨c, hc, hx⟩ := World.mem_holdings_cacheOf.mp hx
    refine List.mem_map.mpr ⟨x, Fleet.mem_holdings_iff.mpr ⟨d', c, ?_, hx⟩, rfl⟩
    exact (Table.find?_erase_of_ne _ hne).trans hc

/-- A cached group has its object, so a handle without one names no group. -/
theorem find?_group_eq_none (h : w.Sound config 0 items E)
    (hcount : w.state.switch.counter < 2 ^ 48) {id : Handle}
    (hfresh : w.state.switch.objects.find? id = none) (hc : w.fleet.find? d = some c) :
    c.groups.find? id = none := by
  cases hg : c.groups.find? id with
  | none => rfl
  | some g =>
    have hlisted := (h.tallies hc).ledger.group_mem_handles (h.intact d c hc) hg
    obtain ⟨⟨_, o⟩, hitem, rfl⟩ := List.mem_map.mp hlisted
    rw [(h.books.find?_iff hcount).mpr hitem] at hfresh
    cases hfresh

end World.Sound

end Multicast
