import Multicast.Proofs.Consistency

/-! Conservation of what a device counts: everything that was added to its cache has been removed
again or is still there. -/
namespace Multicast

variable {σ α : Type} {max : Nat}

def Group.memberCount (g : Group) : Nat := g.members.size .rpf + g.members.size .ipmc

namespace DeviceCache

/-- Members of both roles, over all groups. -/
def memberCount (c : DeviceCache) : Nat := c.groups.total Group.memberCount

/-- What was added is what was removed and what is there. -/
structure Balanced (c : DeviceCache) : Prop where
  groups : c.stats.groupsCreated = c.stats.groupsRemoved + c.groups.size
  members : c.stats.membersAdded = c.stats.membersRemoved + c.memberCount
  routes : c.stats.routesAdded = c.stats.routesRemoved + c.routes.size

end DeviceCache

/-! Members of a group -/

namespace Group

variable {g : Group} {role : Role} {rif : RifId} {m : Member}

theorem memberCount_eq_zero (h : ∀ role, g.members.size role = 0) : g.memberCount = 0 := by
  rw [memberCount, h .rpf, h .ipmc]

theorem memberCount_withMember (h : g.members.checkAdd role m.rif = .ok ())
    (madeFor : Option Handle) : (g.withMember role m madeFor).memberCount = g.memberCount + 1 := by
  have hsize := Table.size_insert m (MemberSet.checkAdd_eq_ok_iff.mp h).1
  cases role <;>
  · simp only [memberCount, withMember, MemberSet.size_setRole, reduceCtorEq, if_true, if_false]
    simp only [MemberSet.size]
    omega

theorem memberCount_withoutMember (h : (g.members.ofRole role).find? rif = some m) :
    (g.withoutMember role rif).memberCount + 1 = g.memberCount := by
  have hsize := Table.size_erase h
  cases role <;>
  · simp only [memberCount, withoutMember, MemberSet.size_setRole, reduceCtorEq, if_true, if_false]
    simp only [MemberSet.size]
    omega

theorem memberCount_withPorts (g : Group) (role : Role) (rif : RifId) (ports : PortSet) :
    (g.withPorts role rif ports).memberCount = g.memberCount := by
  cases role <;> simp [memberCount, withPorts, MemberSet.size]

theorem memberCount_withoutSubGroup (g : Group) (role : Role) :
    (g.withoutSubGroup role).memberCount = g.memberCount := by
  simp [memberCount]

theorem memberCount_addKey (g : Group) (key : RouteKey) :
    (g.addKey key).memberCount = g.memberCount := by
  simp [memberCount, addKey]

theorem memberCount_dropKey (g : Group) (key : RouteKey) :
    (g.dropKey key).memberCount = g.memberCount := by
  simp [memberCount, dropKey]

end Group

/-! Changes of the cache -/

namespace DeviceCache

variable {c c' : DeviceCache} {id : Handle} {g : Group}

theorem memberCount_insertGroup (hnone : c.groups.find? g.id = none) (hempty : g.memberCount = 0) :
    (c.insertGroup g).memberCount = c.memberCount := by
  have := Table.total_insert Group.memberCount g hnone
  rw [hempty] at this
  exact this

theorem memberCount_eraseGroup (hg : c.groups.find? id = some g) (hempty : g.memberCount = 0) :
    (c.eraseGroup id).memberCount = c.memberCount := by
  have := Table.total_erase Group.memberCount hg
  rw [hempty] at this
  exact this

theorem size_setGroup (c : DeviceCache) (id : Handle) (g : Group) :
    (c.setGroup id g).groups.size = c.groups.size :=
  Table.size_modify _ _ _

theorem size_setRoute (c : DeviceCache) (route : Route) (g : Group) (route' : Route) (g' : Group) :
    (c.setRoute route g route' g').groups.size = c.groups.size := by
  unfold setRoute
  split
  · rfl
  · simp only [Table.size_modify]

theorem memberCount_setGroup (hg : c.groups.find? id = some g) (g' : Group) :
    (c.setGroup id g').memberCount + g.memberCount = c.memberCount + g'.memberCount :=
  Table.total_modify Group.memberCount (fun _ => g') hg

/-- A route that changes its group takes no member along. -/
theorem memberCount_setRoute {route route' : Route} {g' : Group}
    (hg : c.groups.find? route.group = some g) (hg' : c.groups.find? route'.group = some g') :
    (c.setRoute route g route' g').memberCount = c.memberCount := by
  by_cases hsame : route.group = route'.group
  · simp [memberCount, setRoute, hsame]
  · have hdrop := c.memberCount_setGroup hg (g.dropKey route.key)
    have hkept : (c.setGroup route.group (g.dropKey route.key)).groups.find? route'.group =
        some g' := (Table.find?_modify_of_ne _ _ (Ne.symm hsame)).trans hg'
    have hadd := memberCount_setGroup hkept (g'.addKey route.key)
    rw [Group.memberCount_dropKey] at hdrop
    rw [Group.memberCount_addKey] at hadd
    have hmoved : (c.setRoute route g route' g').memberCount = ((c.setGroup route.group
        (g.dropKey route.key)).setGroup route'.group (g'.addKey route.key)).memberCount := by
      simp only [memberCount, setRoute, setGroup, if_neg hsame]
    omega

theorem Balanced.empty : Balanced .empty := ⟨rfl, rfl, rfl⟩

theorem Change.balanced (h : c.Change max c') (hb : c.Balanced) : c'.Balanced := by
  obtain ⟨hgroups, hmembers, hroutes⟩ := hb
  cases h with
  | @makeGroup id hnone _ owner rpfGroup ipmcGroup =>
    have hsize := Table.size_insert (.new id owner rpfGroup ipmcGroup) hnone
    have hsum := c.memberCount_insertGroup (g := .new id owner rpfGroup ipmcGroup) hnone rfl
    refine ⟨?_, ?_, hroutes⟩
    · change c.stats.groupsCreated + 1 = c.stats.groupsRemoved + (c.groups.insert id _).size
      omega
    · change c.stats.membersAdded = c.stats.membersRemoved + (c.insertGroup _).memberCount
      omega
  | @addMember id g role m hg _ hcheck madeFor =>
    have hsize := c.size_setGroup id (g.withMember role m madeFor)
    have hsum := c.memberCount_setGroup hg (g.withMember role m madeFor)
    rw [Group.memberCount_withMember hcheck] at hsum
    refine ⟨hgroups.trans (hsize ▸ rfl), ?_, hroutes⟩
    change c.stats.membersAdded + 1 = c.stats.membersRemoved + (c.setGroup id _).memberCount
    omega
  | missMember => exact ⟨hgroups, hmembers, hroutes⟩
  | @removeMember id g role rif m hg hm =>
    have hsize := c.size_setGroup id (g.withoutMember role rif)
    have hsum := c.memberCount_setGroup hg (g.withoutMember role rif)
    have hless := Group.memberCount_withoutMember hm
    refine ⟨hgroups.trans (hsize ▸ rfl), ?_, hroutes⟩
    change c.stats.membersAdded = c.stats.membersRemoved + 1 + (c.setGroup id _).memberCount
    omega
  | @setPorts id g hg role rif ports =>
    have hsize := c.size_setGroup id (g.withPorts role rif ports)
    have hsum := c.memberCount_setGroup hg (g.withPorts role rif ports)
    rw [Group.memberCount_withPorts] at hsum
    refine ⟨hgroups.trans (hsize ▸ rfl), ?_, hroutes⟩
    change c.stats.membersAdded = c.stats.membersRemoved + (c.setGroup id _).memberCount
    omega
  | @removeSubGroup id g role hg _ _ =>
    have hsize := c.size_setGroup id (g.withoutSubGroup role)
    have hsum := c.memberCount_setGroup hg (g.withoutSubGroup role)
    rw [Group.memberCount_withoutSubGroup] at hsum
    refine ⟨hgroups.trans (hsize ▸ rfl), ?_, hroutes⟩
    change c.stats.membersAdded = c.stats.membersRemoved + (c.setGroup id _).memberCount
    omega
  | @removeGroup id g hg _ hempty =>
    have hsize := Table.size_erase hg
    have hsum := c.memberCount_eraseGroup hg (Group.memberCount_eq_zero hempty)
    refine ⟨?_, ?_, hroutes⟩
    · change c.stats.groupsCreated = c.stats.groupsRemoved + 1 + (c.groups.erase id).size
      omega
    · change c.stats.membersAdded = c.stats.membersRemoved + (c.eraseGroup id).memberCount
      omega
  | @addRoute route g hkey _ hg _ =>
    have hsize := c.size_setGroup route.group (g.addKey route.key)
    have hsum := c.memberCount_setGroup hg (g.addKey route.key)
    have hmore := Table.size_insert route hkey
    rw [Group.memberCount_addKey] at hsum
    refine ⟨hgroups.trans (hsize ▸ rfl), ?_, ?_⟩
    · change c.stats.membersAdded = c.stats.membersRemoved + (c.setGroup route.group _).memberCount
      omega
    · change c.stats.routesAdded + 1 = c.stats.routesRemoved +
        (c.routes.insert route.key route).size
      omega
  | @removeRoute route g hroute hg =>
    have hsize := c.size_setGroup route.group (g.dropKey route.key)
    have hsum := c.memberCount_setGroup hg (g.dropKey route.key)
    have hless := Table.size_erase hroute
    rw [Group.memberCount_dropKey] at hsum
    refine ⟨hgroups.trans (hsize ▸ rfl), ?_, ?_⟩
    · change c.stats.membersAdded = c.stats.membersRemoved + (c.setGroup route.group _).memberCount
      omega
    · change c.stats.routesAdded = c.stats.routesRemoved + 1 + (c.routes.erase route.key).size
      omega
  | @updateRoute route u g g' hroute hg hg' _ =>
    have hsize := c.size_setRoute route g (u.apply route) g'
    have hsum := memberCount_setRoute hg hg'
    refine ⟨?_, ?_, ?_⟩
    · change c.stats.groupsCreated = c.stats.groupsRemoved +
        (c.setRoute route g (u.apply route) g').groups.size
      omega
    · change c.stats.membersAdded = c.stats.membersRemoved +
        (c.setRoute route g (u.apply route) g').memberCount
      omega
    · exact hroutes.trans (congrArg _ (Table.size_modify _ _ _).symm)
  | rollBack => exact ⟨hgroups, hmembers, hroutes⟩

end DeviceCache

/-! Operations -/

theorem Run.Arrives.changes {hw : Hardware σ} {T : Course hw} {r r' : Run σ} {routes : RouteTable}
    (h : r.Arrives T max routes r') : r.cache.Changes max r'.cache := by
  obtain ⟨c, hc, -, hr⟩ := h
  exact hr.cache ▸ hc

/-- However they end, the steps change an intact cache as operations do. -/
def Act.Evolves (max : Nat) (act : Act σ α) : Prop :=
  ∀ r, r.cache.Intact max →
    act.Ends r (fun _ r' => r.cache.Changes max r'.cache) fun _ r' => r.cache.Changes max r'.cache

theorem Act.Carries.evolves {hw : Hardware σ} {T : Course hw} {f : RouteTable → RouteTable}
    {late : Run σ → Lookup → Prop} {act : Act σ α} (h : act.Carries T max f late) :
    act.Evolves max :=
  fun r hI => (h r hI).mono (fun _ _ h => h.changes) fun _ _ h => h.1.cache.changes max

namespace Orchestrator

theorem makeGroup_evolves (o : Orchestrator σ) (d : DeviceId) (owner : Owner) (rpf : MemberSpec)
    (ipmc : List MemberSpec) :
    (o.makeGroup d owner rpf ipmc).Evolves o.config.maxGroups :=
  fun r _ => (makeGroup_ends (.any o.hardware) d owner rpf ipmc r).mono (fun _ _ h => h.changes)
    fun _ _ h => h.cache.changes _

theorem unmakeGroup_evolves (o : Orchestrator σ) (d : DeviceId) (id : Handle) :
    (o.unmakeGroup d id).Evolves max :=
  fun _ hI => (unmakeGroup_ends (.any o.hardware) d id hI).mono (fun _ _ h => h.changes)
    fun _ _ h => h.1.changes

end Orchestrator

/-- Every cache is new, or comes by changes from the one there was. -/
def World.Evolves (max : Nat) (w w' : World σ) : Prop :=
  ∀ d c', w'.fleet.find? d = some c' →
    c' = .empty ∨ ∃ c, w.fleet.find? d = some c ∧ c.Changes max c'

namespace World.Evolves

variable {w : World σ}

theorem onDevice (hw : w.Intact max) {act : Act σ α} (h : act.Evolves max) (d : DeviceId) :
    w.Evolves max (Orchestrator.onDevice w d act).world := by
  cases hc : w.fleet.find? d with
  | none =>
    rw [Orchestrator.onDevice_of_find?_eq_none hc]
    exact fun d' c' hc' => .inr ⟨c', hc', .refl max c'⟩
  | some c =>
    obtain ⟨r, hworld, _, hr⟩ := Orchestrator.onDevice_ends hc (h ⟨w.state, c, []⟩ (hw d c hc))
    have hchanges : c.Changes max r.cache := by
      rcases hr with ⟨_, _, hr⟩ | ⟨_, _, hr⟩ <;> exact hr
    rw [hworld]
    intro d' c' hc'
    by_cases hd : d' = d
    · subst hd
      rw [Table.find?_modify_self _ hc] at hc'
      cases hc'
      exact .inr ⟨c, hc, hchanges⟩
    · rw [Table.find?_modify_of_ne _ _ hd] at hc'
      exact .inr ⟨c', hc', .refl max c'⟩

theorem changeFleet {f : Fleet → Except CacheError Fleet}
    (hf : ∀ fleet, f w.fleet = .ok fleet → ∀ d c', fleet.find? d = some c' →
      c' = .empty ∨ w.fleet.find? d = some c') :
    w.Evolves max (Orchestrator.changeFleet w f).world := by
  intro d c' hc'
  rcases Orchestrator.changeFleet_cases w f with ⟨fleet, hfleet, h⟩ | ⟨e, h⟩ <;> rw [h] at hc'
  · exact (hf fleet hfleet d c' hc').imp_right fun hc => ⟨c', hc, .refl max c'⟩
  · exact .inr ⟨c', hc', .refl max c'⟩

theorem attach (w : World σ) (d : DeviceId) :
    w.Evolves max (Orchestrator.changeFleet w (·.attach d)).world := by
  apply changeFleet
  intro fleet hfleet d' c' hc'
  obtain ⟨_, rfl⟩ := Fleet.attach_eq_ok_iff.mp hfleet
  by_cases hd : d' = d
  · rw [hd, Table.find?_insert_self] at hc'
    cases hc'
    exact .inl rfl
  · rw [Table.find?_insert_of_ne _ _ hd] at hc'
    exact .inr hc'

theorem detach (w : World σ) (d : DeviceId) :
    w.Evolves max (Orchestrator.changeFleet w (·.detach d)).world := by
  apply changeFleet
  intro fleet hfleet d' c' hc'
  obtain ⟨_, _, _, rfl⟩ := Fleet.detach_eq_ok_iff.mp hfleet
  by_cases hd : d' = d
  · rw [hd, Table.find?_erase_self] at hc'
    cases hc'
  · rw [Table.find?_erase_of_ne _ hd] at hc'
    exact .inr hc'

end World.Evolves

theorem Operation.perform_evolves {w : World σ} (o : Orchestrator σ)
    (hw : w.Intact o.config.maxGroups) (op : Operation) :
    w.Evolves o.config.maxGroups (op.perform o w).world := by
  cases op with
  | attach d => simpa [perform, Orchestrator.attach] using World.Evolves.attach w d
  | detach d => simpa [perform, Orchestrator.detach] using World.Evolves.detach w d
  | createGroup d owner rpf ipmc =>
    have hevolves := o.makeGroup_evolves d owner rpf ipmc
    simpa [perform, Orchestrator.createGroup] using World.Evolves.onDevice hw hevolves d
  | deleteGroup d id =>
    have hevolves : (o.unmakeGroup d id).Evolves o.config.maxGroups := o.unmakeGroup_evolves d id
    simpa [perform, Orchestrator.deleteGroup] using World.Evolves.onDevice hw hevolves d
  | updateMember d id op role spec =>
    simpa [perform, Orchestrator.updateMember] using World.Evolves.onDevice hw
      (Orchestrator.changeMember_carries (.any o.hardware) d _ id op role spec).evolves d
  | addRoute d r =>
    simpa [perform, Orchestrator.addRoute] using World.Evolves.onDevice hw
      (Orchestrator.makeRoute_carries (.any o.hardware) d _ r).evolves d
  | deleteRoute d key =>
    simpa [perform, Orchestrator.deleteRoute] using World.Evolves.onDevice hw
      (Orchestrator.unmakeRoute_carries (.any o.hardware) d _ key).evolves d
  | updateRoute d key u =>
    simpa [perform, Orchestrator.updateRoute] using World.Evolves.onDevice hw
      (Orchestrator.changeRoute_carries (.any o.hardware) d _ key u).evolves d
  | verifyRoute d key =>
    exact .onDevice hw (Orchestrator.checkRoute_carries (.any o.hardware) d _ key).evolves d

/-- What an empty cache has and every change keeps, every cache has. -/
theorem World.Reachable.cache_induction {config : Config} {hw : Hardware σ} {w : World σ}
    {P : DeviceCache → Prop} (hempty : P .empty)
    (hchange : ∀ c c', P c → c.Change config.maxGroups c' → P c')
    (h : w.Reachable config hw) {d : DeviceId} {c : DeviceCache}
    (hc : w.fleet.find? d = some c) : P c := by
  induction h generalizing d c with
  | start state => cases hc
  | perform order op h ih =>
    rcases op.perform_evolves ⟨config, hw, order⟩ h.intact d c hc with rfl | ⟨c₀, hc₀, hchanges⟩
    · exact hempty
    · exact hchanges.keeps hchange (ih hc₀)
  | drift state _ ih => exact ih hc

/-- Conservation of the counters of every attached device in every reachable world. -/
theorem reachable_counters_balanced {config : Config} {hw : Hardware σ} {w : World σ}
    (h : w.Reachable config hw) {d : DeviceId} {c : DeviceCache}
    (hc : w.fleet.find? d = some c) : c.Balanced :=
  h.cache_induction .empty (fun _ _ hb hchange => hchange.balanced hb) hc

/-- A group that got its second egress member only once, and that is half deleted. -/
def World.halfDeleted : World Switch :=
  let o : Orchestrator Switch := ⟨{}, Switch.hardware, .ascending⟩
  let s := ((Switch.empty.register ⟨1⟩ (.rif ⟨10⟩)).2.register ⟨1⟩ (.rif ⟨20⟩)).2
  let w := ((Operation.attach ⟨1⟩).perform o (.start s)).world
  let w := ((Operation.createGroup ⟨1⟩ .ipmc ⟨⟨10⟩, []⟩ [⟨⟨20⟩, []⟩, ⟨⟨20⟩, []⟩]).perform o w).world
  let w := { w with state := w.state.failNext (.removeMember .ipmc) .failure }
  ((Operation.deleteGroup ⟨1⟩ (.make .group 3)).perform o w).world

theorem reachable_counters_balanced_halfDeleted :
    let c := (World.halfDeleted.fleet.find? ⟨1⟩).getD .empty
    (World.halfDeleted.fleet.find? ⟨1⟩ = some c ∧ c.groups.size = 1 ∧ c.memberCount = 1 ∧
      c.stats =
        { groupsCreated := 1, membersAdded := 2, membersRemoved := 1, membersFailed := 1 }) ∧
      c.Balanced :=
  have hreached : World.halfDeleted.Reachable {} Switch.hardware :=
    .perform .ascending _ (.drift _ (.perform .ascending _ (.perform .ascending _ (.start _))))
  have hfind : World.halfDeleted.fleet.find? ⟨1⟩ =
      some ((World.halfDeleted.fleet.find? ⟨1⟩).getD .empty) := by decide +kernel
  ⟨⟨hfind, by decide +kernel⟩, reachable_counters_balanced hreached hfind⟩

end Multicast
