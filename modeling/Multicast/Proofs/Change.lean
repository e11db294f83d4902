import Mathlib.Logic.Relation
import Multicast.Proofs.Commit

/-! The changes that operations make to the cache of a device, each with what it counts. What every
change keeps, the cache keeps along every run. -/
namespace Multicast.DeviceCache

def counted (c : DeviceCache) (f : Stats → Stats) : DeviceCache :=
  { c with stats := f c.stats }

/-- One change, made where its conditions hold. `max` bounds the number of groups. -/
inductive Change (max : Nat) (c : DeviceCache) : DeviceCache → Prop where
  | makeGroup {id : Handle} (hnone : c.groups.find? id = none) (hsize : c.groups.size < max)
    (owner : Owner) (rpfGroup ipmcGroup : Handle) :
    Change max c ((c.insertGroup (.new id owner rpfGroup ipmcGroup)).counted fun s =>
      { s with groupsCreated := s.groupsCreated + 1 })
  | addMember {id : Handle} {g : Group} {role : Role} {m : Member}
    (hg : c.groups.find? id = some g) (hcomplete : g.isComplete = true)
    (hcheck : g.members.checkAdd role m.rif = .ok ()) (madeFor : Option Handle) :
    Change max c ((c.setGroup id (g.withMember role m madeFor)).counted fun s =>
      { s with membersAdded := s.membersAdded + 1 })
  /-- An egress member is left out of a new group. -/
  | missMember : Change max c (c.counted fun s => { s with membersFailed := s.membersFailed + 1 })
  | removeMember {id : Handle} {g : Group} {role : Role} {rif : RifId} {m : Member}
    (hg : c.groups.find? id = some g) (hm : (g.members.ofRole role).find? rif = some m) :
    Change max c ((c.setGroup id (g.withoutMember role rif)).counted fun s =>
      { s with membersRemoved := s.membersRemoved + 1 })
  | setPorts {id : Handle} {g : Group} (hg : c.groups.find? id = some g) (role : Role)
    (rif : RifId) (ports : PortSet) :
    Change max c ((c.setGroup id (g.withPorts role rif ports)).counted fun s =>
      { s with membersUpdated := s.membersUpdated + 1 })
  | removeSubGroup {id : Handle} {g : Group} {role : Role} (hg : c.groups.find? id = some g)
    (huse : g.isInUse = false) (hempty : g.members.size role = 0) :
    Change max c (c.setGroup id (g.withoutSubGroup role))
  | removeGroup {id : Handle} {g : Group} (hg : c.groups.find? id = some g)
    (huse : g.isInUse = false) (hempty : ∀ role, g.members.size role = 0) :
    Change max c ((c.eraseGroup id).counted fun s =>
      { s with groupsRemoved := s.groupsRemoved + 1 })
  | addRoute {route : Route} {g : Group} (hkey : c.routes.find? route.key = none)
    (hvalid : route.key.validate = .ok ()) (hg : c.groups.find? route.group = some g)
    (hcomplete : g.isComplete = true) :
    Change max c ((c.insertRoute route g).counted fun s =>
      { s with routesAdded := s.routesAdded + 1 })
  | removeRoute {route : Route} {g : Group} (hroute : c.routes.find? route.key = some route)
    (hg : c.groups.find? route.group = some g) :
    Change max c ((c.eraseRoute route g).counted fun s =>
      { s with routesRemoved := s.routesRemoved + 1 })
  | updateRoute {route : Route} {u : RouteUpdate} {g g' : Group}
    (hroute : c.routes.find? route.key = some route) (hg : c.groups.find? route.group = some g)
    (hg' : c.groups.find? (u.apply route).group = some g') (hcomplete : g'.isComplete = true) :
    Change max c ((c.setRoute route g (u.apply route) g').counted fun s =>
      { s with routesUpdated := s.routesUpdated + 1 })
  | rollBack : Change max c c.rolledBack

/-- Any number of changes. -/
def Changes (max : Nat) : DeviceCache → DeviceCache → Prop := Relation.ReflTransGen (Change max)

variable {max : Nat} {c c' c'' : DeviceCache}

theorem Intact.counted (h : c.Intact max) (f : Stats → Stats) : (c.counted f).Intact max :=
  h.of_tables rfl rfl

theorem Change.intact (h : c.Change max c') (hI : c.Intact max) : c'.Intact max := by
  cases h with
  | makeGroup hnone hsize owner rpfGroup ipmcGroup =>
    exact (hI.insertGroup hnone hsize owner rpfGroup ipmcGroup).counted _
  | @addMember id g role m hg hcomplete hcheck madeFor =>
    have hg' := (hI.groups id g hg).2.withMember hcheck hcomplete madeFor
    have hI' : (c.setGroup id (g.withMember role m madeFor)).Intact max :=
      hI.setGroup hg rfl (fun f => by cases f <;> rfl) hg' fun _ h => h
    exact hI'.counted _
  | missMember => exact hI.counted _
  | removeMember hg hm => exact (hI.withoutMember hg hm).counted _
  | @setPorts id g hg role rif ports =>
    have hg' := (hI.groups id g hg).2.withPorts role rif ports
    have hI' : (c.setGroup id (g.withPorts role rif ports)).Intact max :=
      hI.setGroup hg rfl (fun f => by cases f <;> rfl) hg' fun _ h => h
    exact hI'.counted _
  | @removeSubGroup id g role hg huse hempty =>
    have hg' := (hI.groups id g hg).2.withoutSubGroup hempty
    refine hI.setUnused hg huse ?_ (fun f => ?_) hg'
    · cases role <;> rfl
    · cases role <;> cases f <;> rfl
  | removeGroup hg huse _ => exact (hI.eraseGroup hg huse).counted _
  | addRoute hkey hvalid hg hcomplete =>
    exact (hI.insertRoute hkey hvalid hg hcomplete).counted _
  | removeRoute hroute hg => exact (hI.eraseRoute hroute hg).counted _
  | @updateRoute route u g g' hroute hg hg' hcomplete =>
    have hI' : (c.setRoute route g (u.apply route) g').Intact max :=
      hI.setRoute hroute hg rfl hg' hcomplete
    exact hI'.counted _
  | rollBack => exact hI.of_tables rfl rfl

namespace Changes

theorem refl (max : Nat) (c : DeviceCache) : c.Changes max c := Relation.ReflTransGen.refl

theorem trans (h : c.Changes max c') (h' : c'.Changes max c'') : c.Changes max c'' :=
  Relation.ReflTransGen.trans h h'

theorem change (h : c.Changes max c') (h' : c'.Change max c'') : c.Changes max c'' :=
  Relation.ReflTransGen.tail h h'

/-- What every change keeps stays. -/
theorem keeps {P : DeviceCache → Prop} (hP : ∀ c c', P c → c.Change max c' → P c')
    (h : c.Changes max c') (hc : P c) : P c' := by
  induction h with
  | refl => exact hc
  | tail _ h ih => exact hP _ _ ih h

theorem intact (h : c.Changes max c') (hI : c.Intact max) : c'.Intact max :=
  h.keeps (fun _ _ hI hchange => hchange.intact hI) hI

end Changes

theorem Change.changes (h : c.Change max c') : c.Changes max c' := (Changes.refl max c).change h

/-- A cache that recovers was changed by a rollback at most. -/
theorem Recovers.changes (h : c.Recovers c') (max : Nat) : c.Changes max c' := by
  rcases h with rfl | rfl
  · exact .refl max _
  · exact Change.rollBack.changes

end Multicast.DeviceCache
