import Multicast.Proofs.Dismantle

/-! Attempts to delete a group. Whatever faults fire, all attempts together remove each object of
the group once and in order; each goes on where the one before it failed. -/
namespace Multicast

variable {config : Config} {order : RouteOrder} {items : List (Handle × Switch.Object)}
  {E : Programming} {w w' w'' : World Testbed} {d : DeviceId} {id : Handle} {g : Group}

/-- The objects of group `id` that are `parts` have gone, from the switch and from the cache of `d`
alike. Entries, routes and other devices are as they were. -/
structure World.Sheds (d : DeviceId) (id : Handle) (parts : List Group.Part)
    (w w' : World Testbed) : Prop where
  objects : w'.state.switch.objects =
    parts.foldl (fun t p => t.erase p.handle) w.state.switch.objects
  entries : w'.state.switch.entries = w.state.switch.entries
  counter : w'.state.switch.counter = w.state.switch.counter
  attached : w'.fleet.contains d = w.fleet.contains d
  groups : (w'.cacheOf d).groups = parts.foldl (GroupTable.without id) (w.cacheOf d).groups
  routes : (w'.cacheOf d).routes = (w.cacheOf d).routes
  others : ∀ d', d' ≠ d → w'.fleet.find? d' = w.fleet.find? d'

namespace World.Sheds

variable {parts parts' : List Group.Part}

theorem refl (d : DeviceId) (id : Handle) (w : World Testbed) : w.Sheds d id [] w :=
  ⟨rfl, rfl, rfl, rfl, rfl, rfl, fun _ _ => rfl⟩

theorem trans (h : w.Sheds d id parts w') (h' : w'.Sheds d id parts' w'') :
    w.Sheds d id (parts ++ parts') w'' where
  objects := by rw [h'.objects, h.objects, List.foldl_append]
  entries := h'.entries.trans h.entries
  counter := h'.counter.trans h.counter
  attached := h'.attached.trans h.attached
  groups := by rw [h'.groups, h.groups, List.foldl_append]
  routes := h'.routes.trans h.routes
  others := fun d' hd => (h'.others d' hd).trans (h.others d' hd)

end World.Sheds

/-- What a run on a device has shed its world has. -/
theorem Run.Sheds.world {c : DeviceCache} {parts : List Group.Part}
    {missed : List (DeviceId × Call × Option HardwareError)} {r : Run Testbed}
    (hc : w.fleet.find? d = some c) (h : Run.Sheds d id parts missed ⟨w.state, c, []⟩ r) :
    w.Sheds d id parts ⟨r.state, w.fleet.modify d fun _ => r.cache⟩ := by
  have hbefore : w.cacheOf d = c := by
    rw [World.cacheOf, hc]
    rfl
  have hafter : (World.mk r.state (w.fleet.modify d fun _ => r.cache)).cacheOf d = r.cache := by
    rw [World.cacheOf, Table.find?_modify_self _ hc]
    rfl
  refine ⟨h.objects, h.entries, h.counter, Table.contains_modify _ _ _ _, ?_, ?_, ?_⟩
  · rw [hafter, hbefore]
    exact h.groups
  · rw [hafter, hbefore]
    exact h.routes
  · exact fun d' hd => Table.find?_modify_of_ne _ _ hd

/-! What is gone -/

theorem GroupTable.find?_foldl_without_of_ne {id' : Handle} (h : id' ≠ id)
    (parts : List Group.Part) (t : GroupTable) :
    (parts.foldl (without id) t).find? id' = t.find? id' := by
  induction parts generalizing t with
  | nil => rfl
  | cons p rest ih => exact (ih _).trans (find?_without_of_ne h t p)

theorem Group.parts_ne_nil (g : Group) : g.parts ≠ [] := by
  simp [parts]

theorem GroupTable.find?_of_partsOf_eq_nil {t : GroupTable} (h : partsOf t id = []) :
    t.find? id = none := by
  cases hg : t.find? id with
  | none => rfl
  | some g =>
    rw [partsOf_of_find? hg] at h
    exact (g.parts_ne_nil h).elim

theorem Table.find?_foldl_erase {α : Type} (handles : List Handle) (t : Table Handle α)
    {h : Handle} (hh : h ∈ handles ∨ t.find? h = none) :
    (handles.foldl Table.erase t).find? h = none := by
  induction handles generalizing t with
  | nil => exact hh.resolve_left (List.not_mem_nil)
  | cons a rest ih =>
    apply ih
    by_cases ha : h = a
    · exact .inr (ha ▸ Table.find?_erase_self t h)
    · rcases hh with hh | hh
      · exact .inl ((List.mem_cons.mp hh).resolve_left ha)
      · exact .inr ((Table.find?_erase_of_ne t ha).trans hh)

/-- The parts of a group are what it holds. -/
theorem Group.handles_parts_perm (d : DeviceId) (g : Group) :
    (g.parts.map Part.handle).Perm ((g.holdings d).map Holding.handle) := by
  have hrole : ∀ role, ((g.roleParts role).map Part.handle).Perm
      ((g.roleHoldings d role).map Holding.handle) := by
    intro role
    unfold roleParts roleHoldings
    rw [List.map_append, List.map_append]
    refine List.perm_append_comm.trans (.of_eq ?_)
    congr 1
    · split <;> rfl
    · rw [List.map_map, List.map_map]
      rfl
  unfold parts holdings
  rw [List.map_cons, List.map_append, List.map_append, List.map_append]
  refine ((hrole .rpf).append ((hrole .ipmc).append_right _)).trans ?_
  rw [← List.append_assoc]
  exact List.perm_append_singleton _ _

/-- Neither the cache of `d` nor the switch has anything of a group. -/
structure World.FreeOf (d : DeviceId) (g : Group) (w : World Testbed) : Prop where
  uncached : (w.cacheOf d).groups.find? g.id = none
  removed : ∀ p ∈ g.parts, w.state.switch.objects.find? p.handle = none
  childless : ∀ h o, w.state.switch.objects.find? h = some o →
    ∀ p ∈ g.parts, o.parent ≠ some p.handle

theorem World.Sound.group_intact {failed : Nat} (h : w.Sound config failed items E) (g : Group)
    (hg : (w.cacheOf d).groups.find? id = some g) : g.id = id ∧ g.Intact := by
  cases hc : w.fleet.find? d with
  | none =>
    rw [World.cacheOf, hc] at hg
    cases hg
  | some c =>
    rw [World.cacheOf, hc] at hg
    exact (h.intact d c hc).groups id g hg

theorem World.Sheds.partsOf {done rest : List Group.Part} (h : w.Sheds d id done w')
    (hintact : ∀ g, (w.cacheOf d).groups.find? id = some g → g.id = id ∧ g.Intact)
    (hleft : GroupTable.partsOf (w.cacheOf d).groups id = done ++ rest) :
    GroupTable.partsOf (w'.cacheOf d).groups id = rest := by
  rw [h.groups]
  exact GroupTable.partsOf_foldl_without (fun g hg => (hintact g hg).2) hleft

theorem World.Sheds.freeOf (h : w.Sheds d g.id g.parts w') (hw' : w'.Sound config 0 items E)
    (hcount : w'.state.switch.counter < 2 ^ 48)
    (hleft : GroupTable.partsOf (w'.cacheOf d).groups g.id = []) : w'.FreeOf d g := by
  have hremoved : ∀ p ∈ g.parts, w'.state.switch.objects.find? p.handle = none := by
    intro p hp
    have hfold : w'.state.switch.objects =
        (g.parts.map Group.Part.handle).foldl Table.erase w.state.switch.objects := by
      rw [List.foldl_map, h.objects]
    rw [hfold]
    exact Table.find?_foldl_erase _ _ (.inl (List.mem_map.mpr ⟨p, hp, rfl⟩))
  refine ⟨GroupTable.find?_of_partsOf_eq_nil hleft, hremoved, fun x o ho p hp hparent => ?_⟩
  have hmem := hw'.closed.parents _ (hw'.books.mem_of_find? hcount ho) _ hparent
  obtain ⟨y, hy, hhandle⟩ := List.mem_map.mp hmem
  have hlive := (hw'.books.stocked hcount).live y hy
  rw [hhandle, hremoved p hp] at hlive
  cases hlive

/-- Members come in the order of their interfaces. -/
theorem Group.Intact.list_ascending (h : g.Intact) (role : Role) :
    ((g.members.list role).map Member.rif).Pairwise SortKey.Before := by
  have hkeys : (g.members.list role).map Member.rif = (g.members.ofRole role).keys := by
    rw [MemberSet.list, Table.values, List.map_map]
    apply List.map_congr_left
    rintro ⟨rif, m⟩ hm
    exact h.members role rif m (Table.find?_eq_some_iff.mpr hm)
  rw [hkeys]
  exact Table.keys_ascending _

theorem World.Sound.parts_distinct (h : w.Sound config 0 items E)
    (hcount : w.state.switch.counter < 2 ^ 48) (hg : (w.cacheOf d).groups.find? id = some g) :
    (g.parts.map Group.Part.handle).Nodup := by
  have hheld := (DeviceCache.holdings_eraseGroup (d := d) hg).map Holding.handle
  have hdistinct := hheld.nodup_iff.mp (h.mirrors hcount d).distinct
  rw [List.map_append] at hdistinct
  exact (g.handles_parts_perm d).nodup_iff.mpr (List.nodup_append.mp hdistinct).1

/-! One attempt -/

/-- An attempt to delete a group of which `left` is left goes on from there, and stops at the first
removal that a fault hits. -/
def Outcome.Resumes (d : DeviceId) (id : Handle) (left : List Group.Part) (w : World Testbed)
    (out : Outcome Testbed Unit) : Prop :=
  match Switch.firing (left.map fun p => p.removal.kind) w.state.switch.faults with
  | none =>
    out.result = (if left.isEmpty then .error (.cache (.groupNotFound id)) else .ok ()) ∧
      callsOf out.events = left.map (Group.Part.removed d) ∧ w.Sheds d id left out.world
  | some (passed, status) =>
    ∃ done p rest, left = done ++ p :: rest ∧ done.length = passed ∧
      out.result = .error (.hardware p.removal.kind (.ofStatus status)) ∧
      callsOf out.events = done.map (Group.Part.removed d) ++ [p.missed d status] ∧
      w.Sheds d id done out.world

theorem Orchestrator.unmakeGroup_of_find?_eq_none {r : Run Testbed}
    (hg : r.cache.groups.find? id = none) :
    ((bench config order).unmakeGroup d id).Ends r (fun _ _ => False)
      fun e r' => r' = r ∧ e = .cache (.groupNotFound id) := by
  have hget : GroupTable.get r.cache.groups id = .error (.groupNotFound id) := by
    rw [GroupTable.get, hg]
  refine Act.Ends.cache ?_
  rw [hget]
  exact ⟨rfl, rfl⟩

theorem World.Sound.deleteGroup_resumes (h : w.Sound config 0 items E)
    (hcount : w.state.switch.counter < 2 ^ 48) (hd : w.fleet.contains d = true)
    (hunused : ∀ key r, (w.cacheOf d).routes.find? key = some r → r.group ≠ id)
    (order : RouteOrder) :
    Outcome.Resumes d id (GroupTable.partsOf (w.cacheOf d).groups id) w
        ((Orchestrator.bench config order).deleteGroup w d id) ∧
      failedUndos ((Orchestrator.bench config order).deleteGroup w d id).events = 0 := by
  obtain ⟨c, hc⟩ := Table.contains_iff.mp hd
  have hcache : w.cacheOf d = c := by
    rw [World.cacheOf, hc]
    rfl
  rw [hcache] at hunused ⊢
  have hI := h.intact d c hc
  unfold Outcome.Resumes Orchestrator.deleteGroup
  simp only [Orchestrator.result_audited, callsOf_audited, Orchestrator.world_audited,
    failedUndos_audited]
  cases hg : c.groups.find? id with
  | none =>
    have hends : ((Orchestrator.bench config order).unmakeGroup d id).Ends ⟨w.state, c, []⟩ _ _ :=
      Orchestrator.unmakeGroup_of_find?_eq_none hg
    obtain ⟨r, hworld, hevents, ⟨_, _, hr⟩ | ⟨e, hresult, rfl, rfl⟩⟩ :=
      Orchestrator.onDevice_ends hc hends
    · exact hr.elim
    · have hleft : GroupTable.partsOf c.groups id = [] := by
        rw [GroupTable.partsOf, hg]
        rfl
      rw [hworld, hevents, hresult, hleft]
      exact ⟨⟨rfl, rfl, (Run.Sheds.refl d id ⟨w.state, c, []⟩).world hc⟩, rfl⟩
  | some g =>
    have huse : g.isInUse = false := (hI.isInUse_eq_false_iff hg).mpr hunused
    have hends : ((Orchestrator.bench config order).unmakeGroup d id).Ends ⟨w.state, c, []⟩ _ _ :=
      Orchestrator.unmakeGroup_sheds hI (h.tallies hc) (h.abroad d) rfl hcount hg huse
    obtain ⟨r, hworld, hevents, ⟨_, hresult, hfiring, hshed⟩ |
      ⟨e, hresult, done, p, rest, status, hleft, hfiring, rfl, hshed⟩⟩ :=
      Orchestrator.onDevice_ends hc hends
    · have hleft : g.parts.isEmpty = false := List.isEmpty_eq_false_iff.mpr g.parts_ne_nil
      rw [hworld, hevents, hresult, GroupTable.partsOf_of_find? hg, hfiring, hleft]
      exact ⟨⟨rfl, hshed.calls.trans (List.append_nil _), hshed.world hc⟩, hshed.undone⟩
    · rw [hworld, hevents, hresult, GroupTable.partsOf_of_find? hg, hfiring]
      exact ⟨⟨done, p, rest, hleft, rfl, rfl, hshed.calls, hshed.world hc⟩, hshed.undone⟩

/-! All attempts -/

namespace Session

variable {s s' : Session}

/-- An attempt to delete a group, or something that is done to the faults and names between two. -/
def Input.Retries (d : DeviceId) (id : Handle) : Input → Prop
  | .operate _ op => op = .deleteGroup d id
  | .register _ _ => False
  | _ => True

theorem Input.Retries.allowed {input : Input} (h : input.Retries d id) (s : Session) :
    input.Allowed s := by
  cases input with
  | register _ _ => exact h.elim
  | _ => trivial

/-- A session in which attempts to delete the group have removed `done` since `s`. -/
structure Resumed (config : Config) (d : DeviceId) (id : Handle) (s : Session)
    (done : List Group.Part) (s' : Session) : Prop where
  reached : s'.Reached config
  undone : failedUndos s'.events = 0
  calls : successes s'.events = successes s.events ++ done.map fun p => (d, p.removal)
  sheds : s.world.Sheds d id done s'.world
  split : GroupTable.partsOf (s.world.cacheOf d).groups id =
    done ++ GroupTable.partsOf (s'.world.cacheOf d).groups id

theorem successes_of_callsOf {events : List Event} {done : List Group.Part}
    {missed : List (DeviceId × Call × Option HardwareError)}
    (h : callsOf events = done.map (Group.Part.removed d) ++ missed)
    (hmissed : ∀ x ∈ missed, x.2.2 ≠ none) :
    successes events = done.map fun p => (d, p.removal) := by
  have hnone : missed.filterMap (fun x => if x.2.2 = none then some (x.1, x.2.1) else none) =
      ([] : List (DeviceId × Call)) := by
    rw [List.filterMap_eq_nil_iff]
    intro x hx
    rw [if_neg (hmissed x hx)]
  rw [successes, h, List.filterMap_append, hnone, List.append_nil, List.filterMap_map]
  clear h
  induction done with
  | nil => rfl
  | cons p rest ih => exact congrArg ((d, p.removal) :: ·) ih

namespace Resumed

variable {done : List Group.Part}

theorem refl (h : s.Reached config) (hundo : failedUndos s.events = 0) :
    s.Resumed config d id [] s :=
  ⟨h, hundo, (List.append_nil _).symm, .refl d id s.world, rfl⟩

/-- What an attempt meets. -/
theorem attempt (h : s.Resumed config d id done s')
    (hcount : s.world.state.switch.counter < 2 ^ 48) (hd : s.world.fleet.contains d = true)
    (hunused : ∀ key r, (s.world.cacheOf d).routes.find? key = some r → r.group ≠ id)
    (order : RouteOrder) :
    Outcome.Resumes d id (GroupTable.partsOf (s'.world.cacheOf d).groups id) s'.world
        ((Operation.deleteGroup d id).perform ⟨config, Testbed.hardware, order⟩ s'.world) ∧
      failedUndos ((Operation.deleteGroup d id).perform ⟨config, Testbed.hardware, order⟩
        s'.world).events = 0 := by
  obtain ⟨items, E, hsound⟩ := h.reached.sound
  rw [h.undone] at hsound
  apply hsound.deleteGroup_resumes
  · rw [h.sheds.counter]
    exact hcount
  · rw [h.sheds.attached]
    exact hd
  · rw [h.sheds.routes]
    exact hunused

/-- What is done to the faults and names between attempts is nothing to the group. -/
theorem setUp (h : s.Resumed config d id done s') {f : Testbed → Testbed}
    (hreached : (s'.setUp f).Reached config)
    (hobjects : (f s'.world.state).switch.objects = s'.world.state.switch.objects)
    (hentries : (f s'.world.state).switch.entries = s'.world.state.switch.entries)
    (hcounter : (f s'.world.state).switch.counter = s'.world.state.switch.counter) :
    s.Resumed config d id (done ++ []) (s'.setUp f) := by
  have hsame : s'.world.Sheds d id [] (s'.setUp f).world :=
    ⟨hobjects, hentries, hcounter, rfl, rfl, rfl, fun _ _ => rfl⟩
  refine ⟨hreached, h.undone, ?_, h.sheds.trans hsame, ?_⟩
  · rw [List.append_nil]
    exact h.calls
  · rw [List.append_nil]
    exact h.split

/-- An attempt that takes `more` off the group and leaves `rest`. -/
theorem operate (h : s.Resumed config d id done s') {order : RouteOrder}
    (hreached : (s'.step config (.operate order (.deleteGroup d id))).Reached config)
    {more rest : List Group.Part} {missed : List (DeviceId × Call × Option HardwareError)}
    (hleft : GroupTable.partsOf (s'.world.cacheOf d).groups id = more ++ rest)
    (hcalls : callsOf ((Operation.deleteGroup d id).perform ⟨config, Testbed.hardware, order⟩
      s'.world).events = more.map (Group.Part.removed d) ++ missed)
    (hmissed : ∀ x ∈ missed, x.2.2 ≠ none)
    (hundone : failedUndos ((Operation.deleteGroup d id).perform
      ⟨config, Testbed.hardware, order⟩ s'.world).events = 0)
    (hsheds : s'.world.Sheds d id more ((Operation.deleteGroup d id).perform
      ⟨config, Testbed.hardware, order⟩ s'.world).world) :
    s.Resumed config d id (done ++ more)
      (s'.step config (.operate order (.deleteGroup d id))) := by
  refine ⟨hreached, ?_, ?_, h.sheds.trans hsheds, ?_⟩
  · exact (failedUndos_append _ _).trans (by rw [h.undone, hundone])
  · refine (successes_append _ _).trans ?_
    rw [h.calls, successes_of_callsOf hcalls hmissed, List.map_append, List.append_assoc]
  · obtain ⟨_, _, hsound⟩ := h.reached.sound
    rw [h.split, hleft, List.append_assoc, ← hsheds.partsOf hsound.group_intact hleft]
    rfl

theorem step (h : s.Resumed config d id done s')
    (hcount : s.world.state.switch.counter < 2 ^ 48) (hd : s.world.fleet.contains d = true)
    (hunused : ∀ key r, (s.world.cacheOf d).routes.find? key = some r → r.group ≠ id)
    {input : Input} (hinput : input.Retries d id) :
    ∃ more, s.Resumed config d id (done ++ more) (s'.step config input) := by
  have hreached := h.reached.step (hinput.allowed s')
  cases input with
  | register _ _ => exact hinput.elim
  | failNth kind nth status =>
    exact ⟨[], h.setUp (f := fun t => { t with switch := t.switch.failNth kind nth status })
      hreached rfl rfl rfl⟩
  | clearFaults =>
    exact ⟨[], h.setUp (f := fun t => { t with switch := t.switch.clearFaults })
      hreached rfl rfl rfl⟩
  | hide d' l => exact ⟨[], h.setUp (f := (·.hide d' l)) hreached rfl rfl rfl⟩
  | unhide d' l => exact ⟨[], h.setUp (f := (·.unhide d' l)) hreached rfl rfl rfl⟩
  | operate order op =>
    obtain rfl : op = .deleteGroup d id := hinput
    obtain ⟨hattempt, hundone⟩ := h.attempt hcount hd hunused order
    unfold Outcome.Resumes at hattempt
    split at hattempt
    · obtain ⟨_, hcalls, hsheds⟩ := hattempt
      exact ⟨_, h.operate hreached (List.append_nil _).symm
        (hcalls.trans (List.append_nil _).symm) (fun _ hx => nomatch hx) hundone hsheds⟩
    · obtain ⟨more, p, rest, hleft, _, _, hcalls, hsheds⟩ := hattempt
      refine ⟨more, h.operate hreached hleft hcalls (fun x hx => ?_) hundone hsheds⟩
      rw [List.mem_singleton.mp hx]
      exact fun h => nomatch h

theorem run (h : s.Resumed config d id done s')
    (hcount : s.world.state.switch.counter < 2 ^ 48) (hd : s.world.fleet.contains d = true)
    (hunused : ∀ key r, (s.world.cacheOf d).routes.find? key = some r → r.group ≠ id)
    {inputs : List Input} (hinputs : ∀ input ∈ inputs, input.Retries d id) :
    ∃ done', s.Resumed config d id done' (s'.run config inputs) := by
  induction inputs generalizing s' done with
  | nil => exact ⟨done, h⟩
  | cons input rest ih =>
    obtain ⟨more, hnext⟩ := h.step hcount hd hunused (hinputs input List.mem_cons_self)
    exact ih hnext fun input hinput => hinputs input (List.mem_cons_of_mem _ hinput)

end Resumed

/-- Whatever faults fire in between, attempts to delete a group without routes remove its objects in
order and each of them once. The next attempt starts with the first that is left; one that no fault
hits removes all that are, and nothing of the group remains. Handles are told apart by 48 bits, cf.
`Handle.number_eq_of_make_eq`. -/
theorem group_deletion_resumes (h : s.Reached config) (hundo : failedUndos s.events = 0)
    (hcount : s.world.state.switch.counter < 2 ^ 48)
    (hg : (s.world.cacheOf d).groups.find? id = some g)
    (hunused : ∀ key r, (s.world.cacheOf d).routes.find? key = some r → r.group ≠ id)
    {inputs : List Input} (hinputs : ∀ input ∈ inputs, input.Retries d id) :
    let s' := s.run config inputs
    let left := GroupTable.partsOf (s'.world.cacheOf d).groups id
    ((g.members.list .ipmc).map Member.rif).Pairwise SortKey.Before ∧
    (g.parts.map Group.Part.handle).Nodup ∧
    ∃ done, g.parts = done ++ left ∧
      successes s'.events = successes s.events ++ done.map (fun p => (d, p.removal)) ∧
      s.world.Sheds d id done s'.world ∧
      (∀ id', id' ≠ id →
        (s'.world.cacheOf d).groups.find? id' = (s.world.cacheOf d).groups.find? id') ∧
      ∀ order,
        let out : Outcome Testbed Unit :=
          (Operation.deleteGroup d id).perform ⟨config, Testbed.hardware, order⟩ s'.world
        Outcome.Resumes d id left s'.world out ∧
        (Switch.firing (left.map fun p => p.removal.kind) s'.world.state.switch.faults = none →
          out.world.FreeOf d g) := by
  intro s' left
  obtain ⟨items, E, hsound⟩ := h.sound
  rw [hundo] at hsound
  obtain ⟨rfl, hgI⟩ := hsound.group_intact g hg
  have hd : s.world.fleet.contains d = true := by
    cases hc : s.world.fleet.find? d with
    | none =>
      rw [World.cacheOf, hc] at hg
      cases hg
    | some c => exact Table.contains_of_find? hc
  obtain ⟨done, hdone⟩ := (Resumed.refl h hundo).run hcount hd hunused hinputs
  have hparts : g.parts = done ++ left :=
    (GroupTable.partsOf_of_find? hg).symm.trans hdone.split
  refine ⟨?_, ?_, done, hparts, hdone.calls, hdone.sheds, ?_, ?_⟩
  · exact hgI.list_ascending .ipmc
  · exact hsound.parts_distinct hcount hg
  · intro id' hid'
    rw [hdone.sheds.groups]
    exact GroupTable.find?_foldl_without_of_ne hid' _ _
  · intro order out
    obtain ⟨hattempt, hundone⟩ := hdone.attempt hcount hd hunused order
    refine ⟨hattempt, fun hfiring => ?_⟩
    unfold Outcome.Resumes at hattempt
    rw [hfiring] at hattempt
    obtain ⟨_, _, hsheds⟩ := hattempt
    obtain ⟨_, _, hsound'⟩ := hdone.reached.sound
    obtain ⟨items', E', hafter⟩ := hsound'.perform order (.deleteGroup d g.id)
    rw [hdone.undone, hundone] at hafter
    have hall := hdone.sheds.trans hsheds
    rw [← hparts] at hall
    refine hall.freeOf hafter ?_ ?_
    · rw [hall.counter]
      exact hcount
    · exact hsheds.partsOf hsound'.group_intact (List.append_nil _).symm

/-- A device with a group that has a member in each role. -/
def furnished : Session := start.run {} (groundwork.take 5 ++
  [.operate .ascending (.createGroup ⟨1⟩ .ipmc ⟨⟨10⟩, [.lag 1]⟩ [⟨⟨20⟩, [.lag 1]⟩])])

/-- Two attempts at the group, each of which a fault hits. -/
def interruptions : List Input :=
  [.failNth (.removeSubGroup .rpf) 1 .failure,
    .operate .ascending (.deleteGroup ⟨1⟩ (.make .group 5)),
    .failNth (.removeSubGroup .ipmc) 1 .noMemory,
    .operate .ascending (.deleteGroup ⟨1⟩ (.make .group 5))]

theorem group_deletion_resumes_interrupted :
    let g : Group :=
      { id := .make .group 5
        owner := .ipmc
        rpfGroup := .make (.subGroup .rpf) 7
        ipmcGroup := .make (.subGroup .ipmc) 6
        members :=
          ⟨Table.ofList [(⟨10⟩, ⟨.make (.member .rpf) 8, ⟨10⟩, .ofPorts [.lag 1]⟩)],
            Table.ofList [(⟨20⟩, ⟨.make (.member .ipmc) 9, ⟨20⟩, .ofPorts [.lag 1]⟩)]⟩
        ipv4Entries := ∅
        ipv6Entries := ∅ }
    let s' := furnished.run {} interruptions
    let left := GroupTable.partsOf (s'.world.cacheOf ⟨1⟩).groups (.make .group 5)
    left = [.subGroup .ipmc (.make (.subGroup .ipmc) 6), .whole (.make .group 5)] ∧
    (∃ done, g.parts = done ++ left ∧
      successes s'.events = successes furnished.events ++ done.map fun p => (⟨1⟩, p.removal)) ∧
    ((Operation.deleteGroup ⟨1⟩ (.make .group 5)).perform ⟨{}, Testbed.hardware, .ascending⟩
      s'.world).world.FreeOf ⟨1⟩ g := by
  intro g s' left
  have hreached : furnished.Reached {} := Reached.start.run (by decide +kernel)
  have hroutes : (furnished.world.cacheOf ⟨1⟩).routes = ∅ := by decide +kernel
  have hinputs : ∀ input ∈ interruptions, input.Retries ⟨1⟩ (.make .group 5) := by
    simp [interruptions, Input.Retries]
  obtain ⟨_, _, done, hparts, hcalls, _, _, hnext⟩ := group_deletion_resumes hreached
    (by decide +kernel) (by decide +kernel) (g := g) (by decide +kernel)
    (fun key r hr => by rw [hroutes] at hr; cases hr) hinputs
  exact ⟨by decide +kernel, ⟨done, hparts, hcalls⟩, (hnext .ascending).2 (by decide +kernel)⟩

end Session

end Multicast
