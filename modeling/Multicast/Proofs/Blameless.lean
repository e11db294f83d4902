import Multicast.Cache.Fleet
import Multicast.Proofs.CacheStep
import Multicast.Proofs.Triple

/-! Checks of the cache. They fail for want of what the caller should have seen to, and never put
the blame on the cache. -/
namespace Multicast

/-- If the check fails, the cache is not at fault. -/
def Blameless {α : Type} (x : Except CacheError α) : Prop :=
  ∀ e, x = .error e → (OpError.cache e).kind ≠ .fail

namespace Blameless

variable {α β : Type}

theorem ok (a : α) : Blameless (.ok a) := fun _ h => nomatch h

theorem error {e : CacheError} (he : (OpError.cache e).kind ≠ .fail) :
    Blameless (.error e : Except CacheError α) := by
  rintro _ ⟨⟩
  exact he

theorem bind {x : Except CacheError α} {f : α → Except CacheError β} (h : Blameless x)
    (hf : ∀ a, Blameless (f a)) : Blameless (x >>= f) := by
  cases x with
  | ok a => exact hf a
  | error e => exact error (h e rfl)

end Blameless

theorem GroupTable.get_blameless (t : GroupTable) (id : Handle) : Blameless (t.get id) := by
  unfold get
  split
  · exact .ok _
  · exact .error fun h => nomatch h

theorem MemberSet.checkAdd_blameless (s : MemberSet) (role : Role) (rif : RifId) :
    Blameless (s.checkAdd role rif) := by
  unfold checkAdd
  split
  · exact .error fun h => nomatch h
  · split
    · exact .error fun h => nomatch h
    · exact .ok _

theorem MemberSet.handle_blameless (s : MemberSet) (role : Role) (rif : RifId) :
    Blameless (s.handle role rif) := by
  refine .bind ?_ fun _ => .ok _
  unfold get
  split
  · exact .ok _
  · exact .error fun h => nomatch h

theorem RouteTable.get_blameless (t : RouteTable) (key : RouteKey) : Blameless (t.get key) := by
  unfold get
  split
  · exact .ok _
  · exact .error fun h => nomatch h

theorem RouteTable.groupOf_blameless (t : RouteTable) (key : RouteKey) :
    Blameless (t.groupOf key) :=
  .bind (t.get_blameless key) fun _ => .ok _

theorem DeviceCache.checkAddRoute_blameless (c : DeviceCache) (r : Route) :
    Blameless (c.checkAddRoute r) := by
  refine .bind ?_ fun _ => .bind (c.groups.get_blameless r.group) fun _ => .ok _
  unfold RouteTable.checkAdd
  split
  · exact .error fun h => nomatch h
  · exact .ok _

namespace Fleet

theorem cache_blameless (f : Fleet) (d : DeviceId) : Blameless (f.cache d) := by
  unfold cache
  split
  · exact .ok _
  · exact .error fun h => nomatch h

theorem attach_blameless (f : Fleet) (d : DeviceId) : Blameless (f.attach d) := by
  unfold attach
  split
  · exact .ok _
  · exact .error fun h => nomatch h

theorem detach_blameless (f : Fleet) (d : DeviceId) : Blameless (f.detach d) := by
  refine .bind (f.cache_blameless d) fun c => ?_
  split
  · exact .error fun h => nomatch h
  · exact .ok _

end Fleet

/-! Checks before going on -/

namespace Act.Ends

variable {σ α β : Type} {Q : β → Run σ → Prop} {E : OpError → Run σ → Prop} {r : Run σ}

theorem check {x : Except CacheError α} {f : α → Act σ β} (hx : Blameless x)
    (h : ∀ a, x = .ok a → (f a).Ends r Q E)
    (hE : ∀ e, x = .error e → (OpError.cache e).kind ≠ .fail → E (.cache e) r) :
    (Act.ofCache x >>= f).Ends r Q E :=
  Act.ends_bind.mpr (Act.ends_ofCache.mpr ⟨h, fun e he => hE e he (hx e he)⟩)

theorem checkUsable {id : Handle} {f : Group → Act σ β}
    (h : ∀ g, r.cache.groups.find? id = some g → g.isComplete = true → (f g).Ends r Q E)
    (hE : ∀ e : OpError, (∀ g, r.cache.groups.find? id = some g → g.isComplete = false) →
      e.kind ≠ .fail → E e r) :
    (Act.usableGroup id >>= f).Ends r Q E := by
  unfold Act.usableGroup
  rw [bind_assoc]
  refine Act.Ends.cache ?_
  rw [bind_assoc]
  refine check (r.cache.groups.get_blameless id) (fun g hg => ?_) fun e he hkind => ?_
  · have hg := GroupTable.get_eq_ok_iff.mp hg
    cases hcomplete : g.isComplete with
    | true => exact h g hg hcomplete
    | false =>
      refine hE _ (fun g' hg' => ?_) fun h => nomatch h
      rw [hg] at hg'
      cases hg'
      exact hcomplete
  · refine hE _ (fun g hg => ?_) hkind
    rw [GroupTable.get_eq_ok_iff.mpr hg] at he
    cases he

theorem usableGroup {id : Handle} {f : Group → Act σ β}
    (h : ∀ g, r.cache.groups.find? id = some g → g.isComplete = true → (f g).Ends r Q E)
    (hE : ∀ e, E e r) : (Act.usableGroup id >>= f).Ends r Q E :=
  checkUsable h fun e _ _ => hE e

end Act.Ends

end Multicast
