import Multicast.Proofs.Dump
import Multicast.Proofs.Populate

/-! What the simulator prints of a device: the text of a JSON value off which the groups, members
and routes that were asked for can be read. -/
namespace Multicast

namespace Json

variable {α β : Type} {write : α → Json} {read? : Json → Option β} {f : α → β}

/-- What the field of that name is read as. -/
def field? (name : String) (read? : Json → Option β) (v : Json) : Option β :=
  (v.get? name).bind read?

/-- What the items of an array are read as. -/
def list? (read? : Json → Option β) (v : Json) : Option (List β) :=
  v.items?.bind (·.mapM read?)

theorem field?_of_get? {name : String} {v w : Json} (h : v.get? name = some w) :
    v.field? name read? = read? w := by
  rw [field?, h, Option.bind_some]

theorem list?_arr (h : ∀ a, read? (write a) = some (f a)) (l : List α) :
    list? read? (.arr (l.map write)) = some (l.map f) := by
  have hread : read? ∘ write = fun a => pure (f a) := funext h
  rw [list?, items?, Option.bind_some, List.mapM_map, hread, List.mapM_pure]
  rfl

end Json

/-- The value has the interface and the ports of a member that was asked for. -/
structure MemberSpec.ShownBy (spec : MemberSpec) (v : Json) : Prop where
  rif : v.field? "rif" RifId.ofJson? = some spec.rif
  ports : v.field? "ports" (Json.list? Port.ofJson?) = some (PortSet.ofPorts spec.ports).toList

theorem Member.shown_ofSpec (h : Handle) (spec : MemberSpec) :
    spec.ShownBy (ofSpec h spec).toJson where
  rif := (Json.field?_of_get? rfl).trans spec.rif.ofJson?_toJson
  ports := by
    refine (Json.field?_of_get? rfl).trans ((Json.list?_arr Port.ofJson?_toJson _).trans ?_)
    rw [List.map_id']
    rfl

namespace Simulation

variable {p : Simulation} {c : DeviceCache} {g : Group} {d : DeviceId} {v : Json}

/-- The value has the members of a group as they were asked for, and as many routes. -/
structure ShowsGroup (p : Simulation) (v : Json) : Prop where
  ingress : ∃ item, v.get? "rpf_members" = some (.arr [item]) ∧ ingress.ShownBy item
  egress : ∃ items, v.get? "ipmc_members" = some (.arr items) ∧
    items.length = p.members.toNat ∧ ∀ spec ∈ p.egressMembers, ∃ item ∈ items, spec.ShownBy item
  routes : ∀ family, ∃ keys, v.field? family.field (Json.list? RouteKey.ofJson?) = some keys ∧
    keys.Nodup ∧ keys.length = if family = p.family then p.routes.toNat else 0

/-- The value has the groups of a device and their routes, all valid and different, and counts
them. -/
structure Shows (p : Simulation) (d : DeviceId) (v : Json) : Prop where
  device : v.field? "device" DeviceId.ofJson? = some d
  groups : ∃ items, v.get? "groups" = some (.arr items) ∧ items.length = p.groups.toNat ∧
    ∀ item ∈ items, p.ShowsGroup item
  routes : ∃ keys, v.field? "routes" (Json.list? (Json.field? "key" RouteKey.ofJson?)) = some keys ∧
    keys.Nodup ∧ keys.length = p.groups.toNat * p.routes.toNat ∧
    ∀ key ∈ keys, key.validate = .ok ()
  stats : ∃ stats, v.get? "stats" = some stats ∧
    stats.get? "groups_created" = some (.nat p.groups.toNat) ∧
    stats.get? "members_added" = some (.nat (p.groups.toNat * (1 + p.members.toNat))) ∧
    stats.get? "routes_added" = some (.nat (p.groups.toNat * p.routes.toNat))

/-- The text is that of a value which shows the device. -/
def Prints (p : Simulation) (d : DeviceId) (text : String) : Prop :=
  ∃ v, Json.ofText? text = some v ∧ p.Shows d v

namespace Built

theorem showsGroup (h : p.Built c) {id : Handle} (hg : c.groups.find? id = some g)
    (hv : g.ShownBy v) : p.ShowsGroup v where
  ingress := by
    obtain ⟨members, hmembers, hlists⟩ := hv.members .rpf
    obtain ⟨handle, hlist⟩ := (h.members id g hg).ingress
    obtain rfl : members = [.ofSpec handle Simulation.ingress] := hlists.eq_values.trans hlist
    exact ⟨_, hmembers, Member.shown_ofSpec _ _⟩
  egress := by
    obtain ⟨members, hmembers, hlists⟩ := hv.members .ipmc
    obtain ⟨-, -, hsize, hegress⟩ := h.members id g hg
    refine ⟨_, hmembers, ?_, fun spec hspec => ?_⟩
    · rw [List.length_map, hlists.length_eq]
      exact hsize.trans p.length_egressMembers
    · obtain ⟨handle, hfound⟩ := hegress spec hspec
      have hmem := ((hlists.complete _ _).mp hfound).1
      exact ⟨_, List.mem_map_of_mem hmem, Member.shown_ofSpec _ _⟩
  routes family := by
    obtain ⟨keys, hkeys, hlists⟩ := hv.routes family
    refine ⟨keys, ?_, hlists.ascending.imp fun hbefore => hbefore.ne, ?_⟩
    · rw [Json.field?_of_get? hkeys, Json.list?_arr RouteKey.ofJson?_toJson, List.map_id']
    · rw [hlists.length_eq, h.shares id g hg]

theorem shows (h : p.Built c) (hv : c.ShownBy d v) : p.Shows d v where
  device := by
    rw [Json.field?_of_get? hv.device, d.ofJson?_toJson]
  groups := by
    obtain ⟨groups, items, hitems, hlists, hshown⟩ := hv.groups
    refine ⟨items, hitems, ?_, fun item hitem => ?_⟩
    · rw [← hshown.length_eq, hlists.length_eq, h.groups]
    · obtain ⟨i, hi, rfl⟩ := List.mem_iff_getElem.mp hitem
      have hi' : i < groups.length := hshown.length_eq ▸ hi
      have hg := (hlists.complete _ _).mpr ⟨List.getElem_mem hi', rfl⟩
      exact h.showsGroup hg (hshown.get hi' hi)
  routes := by
    obtain ⟨routes, hroutes, hlists⟩ := hv.routes
    have hread : ∀ r : Route, Json.field? "key" RouteKey.ofJson? r.toJson = some r.key :=
      fun r => (Json.field?_of_get? rfl).trans r.key.ofJson?_toJson
    refine ⟨routes.map Route.key, ?_, hlists.ascending.imp fun hbefore => hbefore.ne, ?_, ?_⟩
    · rw [Json.field?_of_get? hroutes, Json.list?_arr hread]
    · rw [List.length_map, hlists.length_eq, h.routes]
    · rw [List.forall_mem_map]
      intro r hr
      exact (h.valid r.key r ((hlists.complete _ _).mpr ⟨hr, rfl⟩)).2
  stats := by
    refine ⟨_, hv.stats, ?_⟩
    rw [h.stats]
    exact ⟨rfl, rfl, rfl⟩

theorem counters_lt (h : p.Built c) : ∀ n ∈ c.stats.counters, n < 2 ^ 64 := by
  have hgroups := p.groups.toNat_lt
  have hmembers := p.members.toNat_lt
  have hroutes := p.routes.toNat_lt
  have hadded : p.groups.toNat * (1 + p.members.toNat) ≤ 2 ^ 8 * 2 ^ 32 :=
    Nat.mul_le_mul (by omega) (by omega)
  have hrouted : p.groups.toNat * p.routes.toNat ≤ 2 ^ 8 * 2 ^ 8 :=
    Nat.mul_le_mul (by omega) (by omega)
  rw [h.stats]
  simp only [Stats.counters, List.forall_mem_cons]
  refine ⟨?_, ?_, ?_, ?_, ?_, ?_, ?_, ?_, ?_, ?_, List.forall_mem_nil _⟩ <;> omega

theorem prints {max : Nat} (h : p.Built c) (hI : c.Intact max) :
    p.Prints d (c.toJson d).pretty :=
  ⟨_, DeviceCache.ofText?_pretty_toJson h.counters_lt, h.shows (hI.shown d)⟩

end Built

end Simulation

end Multicast
