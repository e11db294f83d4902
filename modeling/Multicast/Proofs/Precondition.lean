import Multicast.Proofs.Acceptance
import Multicast.Proofs.Blameless

/-! What each operation asks of the cache of its device and of the names that resolve. -/
namespace Multicast

variable {config : Config} {t : Testbed} {m : Mappings} {d : DeviceId} {c : DeviceCache}
  {E : Programming} {key : RouteKey} {e : Entry}

/-! Names and entries -/

/-- The name resolves. -/
def Testbed.Resolves (t : Testbed) (d : DeviceId) (l : Lookup) : Prop :=
  (t.lookup d l).1.isSome = true

theorem Testbed.lookupPorts_resolves (t : Testbed) (d : DeviceId) (ports : List Port) :
    match (hardware.lookupPorts d ports t).1 with
    | .ok _ => ∀ p ∈ ports, t.Resolves d (.port p)
    | .error l => ∃ p ∈ ports, l = .port p ∧ ¬t.Resolves d (.port p) := by
  induction ports with
  | nil => exact fun _ hp => nomatch hp
  | cons p rest ih =>
    have hp : hardware.lookup d (.port p) t = ((t.lookup d (.port p)).1, t) := by
      change t.lookup d (.port p) = _
      rw [t.lookup_eq]
    rw [Hardware.lookupPorts, hp]
    cases hfound : (t.lookup d (.port p)).1 with
    | none => exact ⟨p, List.mem_cons_self, rfl, by simp [Resolves, hfound]⟩
    | some _ =>
      have hfirst : t.Resolves d (.port p) := by simp [Resolves, hfound]
      dsimp only
      rcases hrest : hardware.lookupPorts d rest t with ⟨_ | _, _⟩ <;> rw [hrest] at ih
      · obtain ⟨p', hp', hl, hmissing⟩ := ih
        exact ⟨p', List.mem_cons_of_mem _ hp', hl, hmissing⟩
      · exact List.forall_mem_cons.mpr ⟨hfirst, ih⟩

/-- A look-up changes nothing, and fails only for a name that does not resolve. -/
theorem Act.lookup_resolves (d : DeviceId) (l : Lookup) (r : Run Testbed) :
    (Act.lookup Testbed.hardware d l).Ends r
      (fun h r' => r = r' ∧ (r.state.lookup d l).1 = some h)
      fun e r' => r = r' ∧ e = .unresolved l ∧ ¬r.state.Resolves d l := by
  have hlookup : Testbed.hardware.lookup d l r.state = ((r.state.lookup d l).1, r.state) := by
    change r.state.lookup d l = _
    rw [r.state.lookup_eq]
  rw [ends_lookup, hlookup]
  cases hfound : (r.state.lookup d l).1 with
  | some h => exact ⟨rfl, rfl⟩
  | none => exact ⟨rfl, rfl, by simp [Testbed.Resolves, hfound]⟩

/-- The handles of ports come in the order in which the ports are given, each as often. -/
theorem Act.lookupPorts_resolves (d : DeviceId) (ports : List Port) (r : Run Testbed) :
    (Act.lookupPorts Testbed.hardware d ports).Ends r
      (fun handles r' => r = r' ∧
        handles.map some = ports.map (fun p => r.state.switch.mappings.find? (d, .port p)) ∧
        ∀ p ∈ ports, r.state.Resolves d (.port p))
      fun e r' => r = r' ∧ ∃ p ∈ ports, e = .unresolved (.port p) ∧
        ¬r.state.Resolves d (.port p) := by
  have ⟨hstate, hhandles⟩ := Testbed.lookupPorts_eq d ports r.state
  have hresolves := r.state.lookupPorts_resolves d ports
  rw [ends_lookupPorts, hstate]
  cases hfound : (Testbed.hardware.lookupPorts d ports r.state).1 with
  | ok handles =>
    rw [hfound] at hresolves
    exact ⟨rfl, hhandles handles hfound, hresolves⟩
  | error l =>
    rw [hfound] at hresolves
    obtain ⟨p, hp, rfl, hmissing⟩ := hresolves
    exact ⟨rfl, p, hp, rfl, hmissing⟩

/-- No handle is registered under two names. -/
def Mappings.Apart (m : Mappings) : Prop :=
  ∀ k k' h, m.find? k = some h → m.find? k' = some h → k = k'

/-- Routes that share an entry are one. -/
theorem Mappings.Apart.entryAt_injective (hm : m.Apart) {key key' : RouteKey}
    (he : entryAt m d key = some e) (he' : entryAt m d key' = some e) :
    key = key' := by
  obtain ⟨router, hrouter, rfl⟩ := Option.map_eq_some_iff.mp he
  obtain ⟨router', hrouter', heq⟩ := Option.map_eq_some_iff.mp he'
  obtain ⟨vrf, type, group, source⟩ := key
  obtain ⟨vrf', type', group', source'⟩ := key'
  simp only [Entry.ofKey, Entry.mk.injEq] at heq
  obtain ⟨rfl, rfl, rfl, rfl⟩ := heq
  have hvrf := hm _ _ _ hrouter hrouter'
  simp only [Prod.mk.injEq, Lookup.vrf.injEq, true_and] at hvrf
  rw [hvrf]

/-- Nothing shows where no route is cached. -/
theorem Routed.eq_none (h : Routed config m d c E) (hm : m.Apart)
    (he : entryAt m d key = some e) (hkey : c.routes.find? key = none) :
    E (d, e) = none := by
  cases hE : E (d, e) with
  | none => rfl
  | some v =>
    obtain ⟨key', r, hr, he'⟩ := h.only e v hE
    rw [hm.entryAt_injective he he', hr] at hkey
    cases hkey

theorem Routed.isSome (h : Routed config m d c E) {r : Route}
    (hr : c.routes.find? key = some r) (he : entryAt m d key = some e) :
    (E (d, e)).isSome = true := by
  obtain ⟨e', v, he', _, hE⟩ := h.shown key r hr
  obtain rfl : e' = e := Option.some.inj (he'.symm.trans he)
  rw [hE]
  rfl

theorem RouteKey.hasSource_of_validate (h : key.validate = .ok ()) :
    key.type.hasSource = key.source.isSome := by
  unfold validate at h
  split at h
  · cases h
  · cases htype : key.type <;> cases hsource : key.source <;> simp_all [RouteType.hasSource]

/-! Conditions -/

def MemberSpec.Resolves (spec : MemberSpec) (t : Testbed) (d : DeviceId) : Prop :=
  t.Resolves d (.rif spec.rif) ∧ ∀ p ∈ spec.ports, t.Resolves d (.port p)

namespace DeviceCache

def HasMember (c : DeviceCache) (id : Handle) (role : Role) (rif : RifId) : Prop :=
  ∃ g m, c.groups.find? id = some g ∧ (g.members.ofRole role).find? rif = some m

/-- Members may be added, and routes put on the group. -/
def HasUsable (c : DeviceCache) (id : Handle) : Prop :=
  ∃ g, c.groups.find? id = some g ∧ g.isComplete = true

/-- The first egress member shows in all routes of the group. -/
structure AdmitsMember (c : DeviceCache) (t : Testbed) (d : DeviceId) (role : Role)
    (spec : MemberSpec) (g : Group) : Prop where
  complete : g.isComplete = true
  free : (g.members.ofRole role).find? spec.rif = none
  once : role = .rpf → g.members.rpf = ∅
  resolves : spec.Resolves t d
  routers : role = .ipmc → g.ipmcGroup.isNull = true →
    ∀ key r, c.routes.find? key = some r → r.group = g.id → t.Resolves d (.vrf key.vrf)

theorem admitsMember_new {spec : MemberSpec} {id rpfGroup : Handle}
    (hnamed : rpfGroup.isNull = false) (hresolves : spec.Resolves t d) (owner : Owner)
    (ipmcGroup : Handle) :
    c.AdmitsMember t d .rpf spec (.new id owner rpfGroup ipmcGroup) where
  complete := by simp [Group.isComplete, Group.new, hnamed]
  free := rfl
  once := fun _ => rfl
  resolves := hresolves
  routers := fun h => nomatch h

/-- The virtual router is looked up only if the hardware's route changes. -/
structure AdmitsUpdate (config : Config) (c : DeviceCache) (t : Testbed) (d : DeviceId)
    (u : RouteUpdate) (r : Route) : Prop where
  group : c.HasUsable (u.apply r).group
  oldIif : t.Resolves d (.rif r.iif)
  newIif : t.Resolves d (.rif (u.apply r).iif)
  router : c.imageOf config t.switch.mappings d r ≠
    c.imageOf config t.switch.mappings d (u.apply r) → t.Resolves d (.vrf r.key.vrf)

/-- Whether the cache of an attached device admits an operation on it. -/
def Admits (config : Config) (c : DeviceCache) (t : Testbed) : Operation → Prop
  | .attach _ => False
  | .detach _ => c.groups.size = 0
  | .createGroup d _ rpf _ => c.groups.size < config.maxGroups ∧ rpf.Resolves t d
  | .deleteGroup _ id =>
    (∃ g, c.groups.find? id = some g) ∧ ∀ key r, c.routes.find? key = some r → r.group ≠ id
  | .updateMember d id op role spec =>
    match op with
    | .add => ∃ g, c.groups.find? id = some g ∧ c.AdmitsMember t d role spec g
    | .delete => c.HasMember id role spec.rif
    | .update => c.HasMember id role spec.rif ∧ ∀ p ∈ spec.ports, t.Resolves d (.port p)
  | .addRoute d r =>
    r.key.validate = .ok () ∧ c.routes.find? r.key = none ∧ c.HasUsable r.group ∧
      t.Resolves d (.vrf r.key.vrf) ∧ t.Resolves d (.rif r.iif)
  | .deleteRoute d key => (∃ r, c.routes.find? key = some r) ∧ t.Resolves d (.vrf key.vrf)
  | .updateRoute d key u => ∃ r, c.routes.find? key = some r ∧ c.AdmitsUpdate config t d u r
  | .verifyRoute d key =>
    ∃ r, c.routes.find? key = some r ∧ t.Resolves d (.rif r.iif) ∧ t.Resolves d (.vrf key.vrf)

end DeviceCache

end Multicast
