import Multicast.Cache.Edit
import Multicast.Proofs.CacheStep

/-! An edit made in place ends as the step of the cache that it carries out: the result of that step
stays behind, or nothing of a step that is refused. -/
namespace Multicast

namespace RouteTable

variable (t : RouteTable) (key : RouteKey)

theorem groupOf_eq :
    t.groupOf key = match t.find? key with
      | some r => .ok r.group
      | none => .error (.routeNotFound key) := by
  unfold groupOf get
  cases t.find? key <;> rfl

theorem replaceGroup_eq (group : Handle) :
    t.replaceGroup key group = match t.find? key with
      | some r => .ok (r.group, t.modify key fun r => { r with group := group })
      | none => .error (.routeNotFound key) := by
  unfold replaceGroup setGroup update
  rw [groupOf_eq]
  cases hr : t.find? key with
  | none => rfl
  | some r => simp [Table.contains_of_find? hr, bind, Except.bind]

end RouteTable

namespace Edit

section

variable {σ α β : Type}

@[ext] theorem ext {x y : Edit σ α} (h : ∀ s, x.on s = y.on s) : x = y := funext h

@[simp] theorem on_pure (a : α) (s : σ) : (pure a : Edit σ α).on s = (.ok a, s) := rfl

@[simp] theorem on_throw (e : CacheError) (s : σ) :
    (throw e : Edit σ α).on s = (.error e, s) := rfl

@[simp] theorem on_look (f : σ → Except CacheError α) (s : σ) : (look f).on s = (f s, s) := rfl

theorem on_change (f : σ → Except CacheError (α × σ)) (s : σ) :
    (change f).on s = match f s with
      | .ok (a, s') => (.ok a, s')
      | .error e => (.error e, s) := rfl

/-- What the first edit changed is there for the second, and stays if that one is refused. -/
theorem on_bind (x : Edit σ α) (f : α → Edit σ β) (s : σ) :
    (x >>= f).on s = match x.on s with
      | (.ok a, s') => (f a).on s'
      | (.error e, s') => (.error e, s') := by
  simp only [on, ExceptT.run_bind, StateT.run_bind]
  rcases x.run.run s with ⟨a | e, s'⟩ <;> rfl

theorem on_tryCatch (x : Edit σ α) (f : CacheError → Edit σ α) (s : σ) :
    (tryCatch x f).on s = match x.on s with
      | (.ok a, s') => (.ok a, s')
      | (.error e, s') => (f e).on s' := by
  change (ExceptT.tryCatch x f).run.run s = _
  simp only [on, ExceptT.tryCatch, ExceptT.run, ExceptT.mk, StateT.run_bind]
  rcases StateT.run x s with ⟨a | e, s'⟩ <;> rfl

theorem change_on_eq_ok_iff {f : σ → Except CacheError (α × σ)} {s s' : σ} {a : α} :
    (change f).on s = (.ok a, s') ↔ f s = .ok (a, s') := by
  rw [on_change]
  rcases f s with _ | ⟨_, _⟩ <;> simp

/-- Refused, the edit leaves everything as it was. -/
def Atomic (x : Edit σ α) : Prop := ∀ s e s', x.on s = (.error e, s') → s' = s

/-- What is done whole or not at all. -/
theorem atomic_change (f : σ → Except CacheError (α × σ)) : (change f).Atomic := by
  intro s e s' h
  rw [on_change] at h
  cases hf : f s with
  | ok p =>
    rw [hf] at h
    cases h
  | error =>
    rw [hf] at h
    cases h
    rfl

end

/-! Routes of a device -/

theorem changeRoutes_on {α : Type} (f : RouteTable → Except CacheError (α × RouteTable))
    (c : DeviceCache) :
    (changeRoutes f).on c = match f c.routes with
      | .ok (a, t) => (.ok a, { c with routes := t })
      | .error e => (.error e, c) := by
  rw [changeRoutes, on_change]
  cases f c.routes <;> rfl

theorem changeGroup_on (id : Handle) (f : Group → Group) (c : DeviceCache) :
    (changeGroup id f).on c =
      if c.groups.contains id then (.ok (), { c with groups := c.groups.modify id f })
      else (.error (.groupNotFound id), c) := by
  rw [changeGroup, on_change, GroupTable.update_eq]
  cases c.groups.contains id <;> rfl

/-- The check finds the group, so the edit does not stop once the index has changed. -/
theorem addRoute_eq_change (r : Route) :
    addRoute r = change fun c => (c.addRoute r).map ((), ·) := by
  ext1 c
  rw [addRoute, on_bind, on_look, on_change, DeviceCache.checkAddRoute_eq,
    DeviceCache.addRoute_eq]
  by_cases hroute : c.routes.contains r.key = true
  · simp [hroute, Except.map]
  · by_cases hgroup : c.groups.contains r.group = true <;>
      simp [hroute, hgroup, on_bind, changeRoutes_on, changeGroup_on, RouteTable.addRoute,
        Table.add, Except.map]

theorem removeRoute_eq_change (key : RouteKey) : removeRoute key = change (·.removeRoute key) := by
  ext1 c
  rw [removeRoute, on_bind, on_look, on_change, DeviceCache.removeRoute_eq, RouteTable.groupOf_eq]
  cases hr : c.routes.find? key with
  | none => rfl
  | some r =>
    by_cases hgroup : c.groups.contains r.group = true <;>
      simp [hgroup, hr, on_bind, on_tryCatch, changeRoutes_on, changeGroup_on,
        RouteTable.removeRoute, Table.remove]

/-- The target is looked up before the source changes, and the source before the target does. -/
theorem moveRoute_eq_change (key : RouteKey) (target : Handle) :
    moveRoute key target = change (·.moveRoute key target) := by
  ext1 c
  rw [moveRoute, on_bind, on_look, on_change, DeviceCache.moveRoute_eq, RouteTable.groupOf_eq]
  cases hr : c.routes.find? key with
  | none => rfl
  | some r =>
    by_cases hsame : r.group = target
    · simp [hsame]
    · cases htarget : c.groups.find? target with
      | none => simp [hsame, htarget, on_bind, GroupTable.get, Table.contains]
      | some g =>
        have htarget' : c.groups.contains target = true := Table.contains_of_find? htarget
        by_cases hgroup : c.groups.contains r.group = true <;>
          simp [hr, hsame, htarget, htarget', hgroup, on_bind, GroupTable.get, changeRoutes_on,
            changeGroup_on, RouteTable.replaceGroup_eq]

/-! Members of a group -/

theorem addMember_eq_change (role : Role) (m : Member) :
    addMember role m = change fun s => (s.add role m).map ((), ·) := by
  ext1 s
  rw [addMember, on_bind, on_look, on_change, MemberSet.add]
  cases s.checkAdd role m.rif with
  | error => rfl
  | ok =>
    simp only [bind, Except.bind, on_change]
    cases (s.ofRole role).add m.rif m <;> rfl

theorem removeMember_eq_change (role : Role) (rif : RifId) :
    removeMember role rif = change (·.remove role rif) := rfl

theorem setPorts_eq_change (role : Role) (rif : RifId) (ports : PortSet) :
    setPorts role rif ports = change fun s => (s.setPorts role rif ports).map ((), ·) := by
  ext1 s
  rw [setPorts, on_bind, on_look, on_change, MemberSet.setPorts]
  cases s.get role rif <;> rfl

end Edit

end Multicast
