import Multicast.Cache.Fleet
import Multicast.Orchestrator.Route
import Multicast.Proofs.Table

/-! What the steps of the cache make of its tables, and when they refuse. -/
namespace Multicast

theorem Except.bind_eq_ok_iff {ε α β : Type} {x : Except ε α} {f : α → Except ε β} {b : β} :
    (x >>= f) = .ok b ↔ ∃ a, x = .ok a ∧ f a = .ok b := by
  cases x <;> simp [bind, Except.bind]

/-! Members -/

namespace MemberSet

variable {s s' : MemberSet} {role : Role} {rif : RifId} {m : Member}

theorem checkAdd_eq_ok_iff :
    s.checkAdd role rif = .ok () ↔
      (s.ofRole role).find? rif = none ∧ (role = .rpf → s.rpf = ∅) := by
  unfold checkAdd
  cases hrif : (s.ofRole role).contains rif
  · have hnone := Table.contains_eq_false_iff.mp hrif
    cases role with
    | ipmc => simp [hnone]
    | rpf =>
      cases hkeys : s.rpf.keys with
      | nil =>
        have : s.rpf = ∅ := Table.ext_entries (List.map_eq_nil_iff.mp hkeys)
        simp [hnone, this]
      | cons k rest =>
        have : s.rpf ≠ ∅ := by
          intro h
          rw [h] at hkeys
          cases hkeys
        simp [this]
  · obtain ⟨m, hm⟩ := Table.contains_iff.mp hrif
    simp [hm]

theorem add_eq_ok_iff :
    s.add role m = .ok s' ↔
      s.checkAdd role m.rif = .ok () ∧
        s' = s.setRole ((s.ofRole role).insert m.rif m) role := by
  unfold add
  rw [Except.bind_eq_ok_iff]
  constructor
  · rintro ⟨_, hcheck, hadd⟩
    refine ⟨hcheck, ?_⟩
    rw [Table.add_eq_ok_iff.mpr ⟨(checkAdd_eq_ok_iff.mp hcheck).1, rfl⟩] at hadd
    cases hadd
    rfl
  · rintro ⟨hcheck, rfl⟩
    refine ⟨(), hcheck, ?_⟩
    rw [Table.add_eq_ok_iff.mpr ⟨(checkAdd_eq_ok_iff.mp hcheck).1, rfl⟩]

theorem remove_eq_ok_iff :
    s.remove role rif = .ok (m, s') ↔
      (s.ofRole role).find? rif = some m ∧ s' = s.setRole ((s.ofRole role).erase rif) role := by
  unfold remove Table.remove
  cases (s.ofRole role).find? rif with
  | none => simp
  | some m' => simp [eq_comm]

theorem handle_eq_ok_iff {h : Handle} :
    s.handle role rif = .ok h ↔ ∃ m, (s.ofRole role).find? rif = some m ∧ m.handle = h := by
  unfold handle get
  cases (s.ofRole role).find? rif with
  | none => simp [bind, Except.bind]
  | some m => simp [bind, Except.bind]

theorem setPorts_eq_ok_iff {ports : PortSet} :
    s.setPorts role rif ports = .ok s' ↔
      (∃ m, (s.ofRole role).find? rif = some m) ∧
        s' = s.setRole ((s.ofRole role).modify rif fun m => { m with ports := ports }) role := by
  unfold setPorts get
  cases (s.ofRole role).find? rif with
  | none => simp [bind, Except.bind]
  | some m => simp [bind, Except.bind, eq_comm]

end MemberSet

/-! Groups -/

namespace GroupTable

variable {t t' : GroupTable} {id : Handle}

theorem get_eq_ok_iff {g : Group} : GroupTable.get t id = .ok g ↔ t.find? id = some g := by
  unfold GroupTable.get
  cases t.find? id <;> simp

theorem create_eq_ok_iff {owner : Owner} {rpf ipmc : Handle} :
    GroupTable.create t id owner rpf ipmc = .ok t' ↔
      t.find? id = none ∧ t' = t.insert id (.new id owner rpf ipmc) := by
  unfold GroupTable.create
  rw [← Table.add_eq_ok_iff]
  cases t.add id (.new id owner rpf ipmc) <;> simp

theorem update_eq_ok_iff {f : Group → Except CacheError Group} :
    GroupTable.update t id f = .ok t' ↔
      ∃ g g', t.find? id = some g ∧ f g = .ok g' ∧ t' = t.modify id fun _ => g' := by
  unfold GroupTable.update
  simp only [Except.bind_eq_ok_iff, get_eq_ok_iff, Except.ok.injEq]
  constructor
  · rintro ⟨g, hg, g', hg', rfl⟩
    exact ⟨g, g', hg, hg', rfl⟩
  · rintro ⟨g, g', hg, hg', rfl⟩
    exact ⟨g, hg, g', hg', rfl⟩

/-- A change that the group cannot refuse. -/
theorem update_eq (t : GroupTable) (id : Handle) (F : Group → Group) :
    GroupTable.update t id (fun g => .ok (F g)) =
      if t.contains id then .ok (t.modify id F) else .error (.groupNotFound id) := by
  unfold GroupTable.update GroupTable.get
  cases h : t.find? id with
  | none => simp [Table.contains, h, bind, Except.bind]
  | some g =>
    simp only [Table.contains_of_find? h, if_true, bind, Except.bind]
    exact congrArg Except.ok (Table.modify_congr h rfl)

theorem delete_eq_ok_iff {g : Group} :
    GroupTable.delete t id = .ok (g, t') ↔
      t.find? id = some g ∧ g.isInUse = false ∧ t' = t.erase id := by
  unfold GroupTable.delete Table.remove
  rw [Except.bind_eq_ok_iff]
  simp only [get_eq_ok_iff]
  constructor
  · rintro ⟨g', hg', h⟩
    rw [hg'] at h ⊢
    split at h
    · cases h
    · next huse =>
      obtain ⟨rfl, rfl⟩ : g' = g ∧ t.erase id = t' := by simpa using h
      exact ⟨rfl, Bool.eq_false_iff.mpr huse, rfl⟩
  · rintro ⟨hg, huse, rfl⟩
    exact ⟨g, hg, by simp [huse, hg]⟩

end GroupTable

/-! Routes -/

namespace RouteTable

variable {t t' : RouteTable} {key : RouteKey} {r : Route}

theorem get_eq_ok_iff : RouteTable.get t key = .ok r ↔ t.find? key = some r := by
  unfold RouteTable.get
  cases t.find? key <;> simp

theorem groupOf_eq_ok_iff {group : Handle} :
    RouteTable.groupOf t key = .ok group ↔ ∃ r, t.find? key = some r ∧ r.group = group := by
  unfold RouteTable.groupOf
  simp only [Except.bind_eq_ok_iff, get_eq_ok_iff, Except.ok.injEq]

end RouteTable

/-! The whole cache -/

def RouteUpdate.apply (u : RouteUpdate) (r : Route) : Route :=
  { r with
    iif := u.iif.getD r.iif
    group := u.group.getD r.group
    copyToCpu := u.copyToCpu.getD r.copyToCpu }

namespace DeviceCache

def insertGroup (c : DeviceCache) (g : Group) : DeviceCache :=
  { c with groups := c.groups.insert g.id g }

def eraseGroup (c : DeviceCache) (id : Handle) : DeviceCache :=
  { c with groups := c.groups.erase id }

def setGroup (c : DeviceCache) (id : Handle) (g : Group) : DeviceCache :=
  { c with groups := c.groups.modify id fun _ => g }

/-- The cache with a route on `g`. -/
def insertRoute (c : DeviceCache) (r : Route) (g : Group) : DeviceCache :=
  { c with
    groups := c.groups.modify r.group fun _ => g.addKey r.key
    routes := c.routes.insert r.key r }

/-- The cache without a route of `g`. -/
def eraseRoute (c : DeviceCache) (r : Route) (g : Group) : DeviceCache :=
  { c with
    groups := c.groups.modify r.group fun _ => g.dropKey r.key
    routes := c.routes.erase r.key }

/-- The cache with `r'` in place of `r`, which is on `g`; `r'` is on `g'`. -/
def setRoute (c : DeviceCache) (r : Route) (g : Group) (r' : Route) (g' : Group) : DeviceCache :=
  { c with
    groups :=
      if r.group = r'.group then c.groups
      else (c.groups.modify r.group fun _ => g.dropKey r.key).modify r'.group fun _ =>
        g'.addKey r.key
    routes := c.routes.modify r.key fun _ => r' }

variable {c c' : DeviceCache} {key : RouteKey} {r : Route}

theorem checkAddRoute_eq (c : DeviceCache) (r : Route) :
    c.checkAddRoute r =
      if c.routes.contains r.key then .error (.routeExists r.key)
      else if c.groups.contains r.group then .ok () else .error (.groupNotFound r.group) := by
  unfold checkAddRoute RouteTable.checkAdd GroupTable.get Table.contains
  cases c.routes.find? r.key <;> cases c.groups.find? r.group <;> rfl

theorem addRoute_eq (c : DeviceCache) (r : Route) :
    c.addRoute r =
      if c.routes.contains r.key then .error (.routeExists r.key)
      else if c.groups.contains r.group then
        .ok { c with
          groups := c.groups.modify r.group (·.addKey r.key)
          routes := c.routes.insert r.key r }
      else .error (.groupNotFound r.group) := by
  unfold addRoute
  rw [checkAddRoute_eq, GroupTable.update_eq]
  by_cases hroute : c.routes.contains r.key = true
  · simp [hroute, bind, Except.bind]
  · by_cases hgroup : c.groups.contains r.group = true <;>
      simp [RouteTable.addRoute, Table.add, hroute, hgroup, bind, Except.bind]

theorem removeRoute_eq (c : DeviceCache) (key : RouteKey) :
    c.removeRoute key = match c.routes.find? key with
      | none => .error (.routeNotFound key)
      | some r =>
        if c.groups.contains r.group then
          .ok (r, { c with
            groups := c.groups.modify r.group (·.dropKey key)
            routes := c.routes.erase key })
        else .error (.inconsistent (.missingGroup key r.group)) := by
  unfold removeRoute RouteTable.groupOf RouteTable.get
  simp only [GroupTable.update_eq]
  cases hr : c.routes.find? key with
  | none => rfl
  | some r =>
    by_cases hgroup : c.groups.contains r.group = true <;>
      simp [RouteTable.removeRoute, Table.remove, hr, hgroup, bind, Except.bind]

theorem moveRoute_eq (c : DeviceCache) (key : RouteKey) (target : Handle) :
    c.moveRoute key target = match c.routes.find? key with
      | none => .error (.routeNotFound key)
      | some r =>
        if r.group = target then .ok (r.group, c)
        else if c.groups.contains target then
          if c.groups.contains r.group then
            .ok (r.group, { c with
              groups := (c.groups.modify r.group (·.dropKey key)).modify target (·.addKey key)
              routes := c.routes.modify key fun r => { r with group := target } })
          else .error (.groupNotFound r.group)
        else .error (.groupNotFound target) := by
  unfold moveRoute RouteTable.groupOf RouteTable.get
  simp only [GroupTable.update_eq]
  cases hr : c.routes.find? key with
  | none => rfl
  | some r =>
    have hroute : c.routes.contains key = true := Table.contains_of_find? hr
    by_cases hsame : r.group = target
    · simp [hsame, bind, Except.bind]
    · cases htarget : c.groups.find? target with
      | none => simp [Table.contains, GroupTable.get, htarget, hsame, bind, Except.bind]
      | some g =>
        have htarget' : c.groups.contains target = true := Table.contains_of_find? htarget
        by_cases hgroup : c.groups.contains r.group = true <;>
          simp [RouteTable.setGroup, RouteTable.update, GroupTable.get, htarget, htarget', hroute,
            hsame, hgroup, bind, Except.bind]

theorem checkAddRoute_eq_ok_iff {u : Unit} :
    c.checkAddRoute r = .ok u ↔
      c.routes.find? r.key = none ∧ ∃ g, c.groups.find? r.group = some g := by
  rw [checkAddRoute_eq, ← Table.contains_eq_false_iff, ← Table.contains_iff]
  cases c.routes.contains r.key <;> cases c.groups.contains r.group <;> simp

theorem addRoute_eq_ok_iff :
    c.addRoute r = .ok c' ↔
      c.routes.find? r.key = none ∧ ∃ g, c.groups.find? r.group = some g ∧
        c' = c.insertRoute r g := by
  rw [addRoute_eq]
  cases hr : c.routes.find? r.key with
  | some _ => simp [Table.contains_of_find? hr]
  | none =>
    cases hg : c.groups.find? r.group with
    | none => simp [Table.contains_eq_false_iff.mpr hr, Table.contains_eq_false_iff.mpr hg]
    | some g =>
      have hfiled : c.groups.modify r.group (·.addKey r.key) =
          c.groups.modify r.group fun _ => g.addKey r.key := Table.modify_congr hg rfl
      simp [Table.contains_eq_false_iff.mpr hr, Table.contains_of_find? hg, insertRoute, hfiled,
        eq_comm]

theorem removeRoute_eq_ok {g : Group} (hr : c.routes.find? r.key = some r)
    (hg : c.groups.find? r.group = some g) :
    c.removeRoute r.key = .ok (r, c.eraseRoute r g) := by
  have hdropped : c.groups.modify r.group (·.dropKey r.key) =
      c.groups.modify r.group fun _ => g.dropKey r.key := Table.modify_congr hg rfl
  simp [removeRoute_eq, hr, Table.contains_of_find? hg, eraseRoute, hdropped]

/-- A move within a group changes nothing. -/
theorem moveRoute_self (h : c.routes.find? key = some r) :
    c.moveRoute key r.group = .ok (r.group, c) := by
  simp [moveRoute_eq, h]

theorem moveRoute_eq_ok {target : Handle} {g g' : Group} (h : c.routes.find? key = some r)
    (hg : c.groups.find? r.group = some g) (hg' : c.groups.find? target = some g')
    (hne : r.group ≠ target) :
    c.moveRoute key target = .ok (r.group, { c with
      groups := (c.groups.modify r.group fun _ => g.dropKey key).modify target fun _ =>
        g'.addKey key
      routes := c.routes.modify key fun r => { r with group := target } }) := by
  have hleft : c.groups.modify r.group (·.dropKey key) =
      c.groups.modify r.group fun _ => g.dropKey key := Table.modify_congr hg rfl
  have hthere : (c.groups.modify r.group fun _ => g.dropKey key).find? target = some g' := by
    rw [Table.find?_modify_of_ne _ _ hne.symm, hg']
  have hentered : (c.groups.modify r.group fun _ => g.dropKey key).modify target (·.addKey key) =
      (c.groups.modify r.group fun _ => g.dropKey key).modify target fun _ => g'.addKey key :=
    Table.modify_congr hthere rfl
  simp [moveRoute_eq, h, hne, Table.contains_of_find? hg, Table.contains_of_find? hg', hleft,
    hentered]

/-- What was checked before an update makes the update of the cache succeed. -/
theorem updateCache_eq_ok {u : RouteUpdate} {g g' : Group} (hr : c.routes.find? r.key = some r)
    (hg : c.groups.find? r.group = some g)
    (hg' : c.groups.find? (u.apply r).group = some g') :
    Orchestrator.updateCache r.key u c = .ok (c.setRoute r g (u.apply r) g') := by
  have hcontains : c.routes.contains r.key = true := Table.contains_of_find? hr
  -- the move comes first, and the two other fields follow in turn
  refine Except.bind_eq_ok_iff.mpr ⟨{ c.setRoute r g (u.apply r) g' with
    routes := c.routes.modify r.key fun r => { r with group := u.group.getD r.group } }, ?_, ?_⟩
  · cases hu : u.group with
    | none =>
      have hsame : c.routes.modify r.key (fun r => { r with group := r.group }) = c.routes :=
        Table.modify_eq_self hr rfl
      simp [setRoute, RouteUpdate.apply, hu, hsame]
    | some target =>
      simp only [RouteUpdate.apply, hu, Option.getD_some] at hg'
      by_cases hne : r.group = target
      · subst hne
        have hsame : c.routes.modify r.key (fun r' => { r' with group := r.group }) = c.routes :=
          Table.modify_eq_self hr rfl
        simp [moveRoute_self hr, setRoute, RouteUpdate.apply, hu, hsame, bind, Except.bind]
      · simp [moveRoute_eq_ok hr hg hg' hne, setRoute, RouteUpdate.apply, hu, hne, bind,
          Except.bind]
  · have hfinal : ∀ f : Route → Route, f r = u.apply r →
        c.routes.modify r.key f = c.routes.modify r.key fun _ => u.apply r :=
      fun f hf => Table.modify_congr hr hf
    cases hcopy : u.copyToCpu <;> cases hiif : u.iif <;>
      simp only [RouteTable.setCopyToCpu, RouteTable.setIif, RouteTable.update, bind, Except.bind,
        Table.contains_modify, Table.modify_modify, hcontains, if_true, Except.ok.injEq] <;>
      refine congrArg (fun routes => { c.setRoute r g (u.apply r) g' with routes := routes })
        (hfinal _ ?_) <;>
      simp [RouteUpdate.apply, hcopy, hiif]

end DeviceCache

/-! Fleets -/

namespace Fleet

variable {f f' : Fleet} {d : DeviceId}

theorem cache_eq_ok_iff {c : DeviceCache} : Fleet.cache f d = .ok c ↔ f.find? d = some c := by
  unfold Fleet.cache
  cases f.find? d <;> simp

theorem attach_eq_ok_iff :
    Fleet.attach f d = .ok f' ↔ f.find? d = none ∧ f' = f.insert d .empty := by
  unfold Fleet.attach
  rw [← Table.add_eq_ok_iff]
  cases f.add d .empty <;> simp

theorem detach_eq_ok_iff :
    Fleet.detach f d = .ok f' ↔
      ∃ c, f.find? d = some c ∧ c.groups.size = 0 ∧ f' = f.erase d := by
  unfold Fleet.detach Fleet.cache
  cases f.find? d with
  | none => simp [bind, Except.bind]
  | some c =>
    by_cases h : 0 < c.groups.size
    · simp [bind, Except.bind, h]
      omega
    · have hzero : c.groups.size = 0 := by omega
      simp [bind, Except.bind, hzero, eq_comm]

end Fleet

end Multicast
