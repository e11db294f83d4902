import Mathlib.Data.List.Nodup
import Multicast.Proofs.Script

/-! What the simulator sets out to build on a device: its names, the members of a group, and keys of
routes that are valid and all different. -/
namespace Multicast

/-! Names -/

/-- `n` new handles for names of device `d`, and nothing else. -/
structure Switch.Learns (d : DeviceId) (n : Nat) (s s' : Switch) : Prop where
  counter : s'.counter = s.counter + n
  objects : s'.objects = s.objects
  entries : s'.entries = s.entries
  faults : s'.faults = s.faults
  others : ∀ k, k.1 ≠ d → s'.mappings.find? k = s.mappings.find? k
  kept : ∀ k, (s.mappings.find? k).isSome = true → (s'.mappings.find? k).isSome = true
  named : s.Named → s'.Named

namespace Switch.Learns

variable {d : DeviceId} {m n : Nat} {s s' s'' : Switch}

theorem refl (d : DeviceId) (s : Switch) : s.Learns d 0 s :=
  ⟨rfl, rfl, rfl, rfl, fun _ _ => rfl, fun _ h => h, fun h => h⟩

theorem trans (h : s.Learns d m s') (h' : s'.Learns d n s'') : s.Learns d (m + n) s'' where
  counter := by rw [h'.counter, h.counter, Nat.add_assoc]
  objects := h'.objects.trans h.objects
  entries := h'.entries.trans h.entries
  faults := h'.faults.trans h.faults
  others := fun k hk => (h'.others k hk).trans (h.others k hk)
  kept := fun k hk => h'.kept k (h.kept k hk)
  named := fun hs => h'.named (h.named hs)

theorem register (s : Switch) (d : DeviceId) (l : Lookup) : s.Learns d 1 (s.register d l).2 where
  counter := rfl
  objects := rfl
  entries := rfl
  faults := rfl
  others := fun k hk => Table.find?_insert_of_ne _ _ fun h => hk (congrArg Prod.fst h)
  kept := by
    intro k hk
    change ((s.mappings.insert (d, l) _).find? k).isSome = true
    rw [Table.find?_insert]
    split
    · rfl
    · exact hk
  named := fun h => h.register d l

theorem resolves (h : s.Learns d n s') {d' : DeviceId} {l : Lookup}
    (hl : s.onBench.Resolves d' l) : s'.onBench.Resolves d' l :=
  resolves_onBench.mpr (h.kept _ (resolves_onBench.mp hl))

theorem resolves_spec (h : s.Learns d n s') {d' : DeviceId} {spec : MemberSpec}
    (hspec : spec.Resolves s.onBench d') : spec.Resolves s'.onBench d' :=
  ⟨h.resolves hspec.1, fun port hport => h.resolves (hspec.2 port hport)⟩

end Switch.Learns

theorem Switch.resolves_register (s : Switch) (d : DeviceId) (l : Lookup) :
    (s.register d l).2.onBench.Resolves d l := by
  have hfound := Table.find?_insert_self s.mappings (d, l) (Handle.make l.kind (s.counter + 1))
  exact resolves_onBench.mpr (congrArg Option.isSome hfound)

namespace Simulation

variable {p : Simulation} {d : DeviceId} {s s' : Switch} {i j n : Nat} {key : RouteKey}

theorem foldl_register_learns (s : Switch) (d : DeviceId) (ports : List Port) :
    let s' := ports.foldl (fun s port => (s.register d (.port port)).2) s
    s.Learns d ports.length s' ∧ ∀ port ∈ ports, s'.onBench.Resolves d (.port port) := by
  induction ports generalizing s with
  | nil => exact ⟨.refl d s, fun _ hport => (List.not_mem_nil hport).elim⟩
  | cons port rest ih =>
    obtain ⟨hlearns, hrest⟩ := ih (s.register d (.port port)).2
    refine ⟨?_, fun port' hport' => ?_⟩
    · rw [List.length_cons, Nat.add_comm]
      exact (Switch.Learns.register s d _).trans hlearns
    · rcases List.mem_cons.mp hport' with rfl | hport'
      · exact hlearns.resolves (s.resolves_register d _)
      · exact hrest port' hport'

theorem connect_learns (s : Switch) (d : DeviceId) (m : MemberSpec) :
    s.Learns d (1 + m.ports.length) (connect d s m) ∧ m.Resolves (connect d s m).onBench d := by
  obtain ⟨hlearns, hresolves⟩ := foldl_register_learns (s.register d (.rif m.rif)).2 d m.ports
  exact ⟨(Switch.Learns.register s d _).trans hlearns,
    hlearns.resolves (s.resolves_register d _), hresolves⟩

theorem foldl_connect_learns {specs : List MemberSpec} (s : Switch) (d : DeviceId)
    (hports : ∀ m ∈ specs, m.ports.length = 1) :
    s.Learns d (2 * specs.length) (specs.foldl (connect d) s) ∧
      ∀ m ∈ specs, m.Resolves (specs.foldl (connect d) s).onBench d := by
  induction specs generalizing s with
  | nil => exact ⟨.refl d s, fun _ hm => (List.not_mem_nil hm).elim⟩
  | cons m rest ih =>
    obtain ⟨hfirst, hresolves⟩ := connect_learns s d m
    obtain ⟨hlearns, hrest⟩ := ih (connect d s m) fun m hm => hports m (List.mem_cons_of_mem _ hm)
    rw [hports m List.mem_cons_self] at hfirst
    refine ⟨?_, fun m' hm' => ?_⟩
    · have hcount : 2 * (m :: rest).length = 1 + 1 + 2 * rest.length := by
        rw [List.length_cons]
        omega
      rw [hcount]
      exact hfirst.trans hlearns
    · rcases List.mem_cons.mp hm' with rfl | hm'
      · exact hlearns.resolves_spec hresolves
      · exact hrest m' hm'

/-- The names that groups and routes need are registered. -/
structure Equipped (p : Simulation) (s : Switch) (d : DeviceId) : Prop where
  router : s.onBench.Resolves d (.vrf vrf)
  ingress : ingress.Resolves s.onBench d
  egress : ∀ spec ∈ p.egressMembers, spec.Resolves s.onBench d

theorem Equipped.learns (h : p.Equipped s d) {d' : DeviceId} (hs : s.Learns d' n s') :
    p.Equipped s' d :=
  ⟨hs.resolves h.router, hs.resolves_spec h.ingress,
    fun spec hspec => hs.resolves_spec (h.egress spec hspec)⟩

theorem Equipped.of_mappings (h : p.Equipped s d) (hs : s'.mappings = s.mappings) :
    p.Equipped s' d := by
  have hresolves : ∀ l, s.onBench.Resolves d l → s'.onBench.Resolves d l := by
    intro l hl
    rw [Switch.resolves_onBench] at hl ⊢
    rw [hs]
    exact hl
  exact ⟨hresolves _ h.router, ⟨hresolves _ h.ingress.1, fun port hport =>
    hresolves _ (h.ingress.2 port hport)⟩, fun spec hspec => ⟨hresolves _ (h.egress spec hspec).1,
    fun port hport => hresolves _ ((h.egress spec hspec).2 port hport)⟩⟩

/-- Handles of the names of a device. -/
def nameHandles (p : Simulation) : Nat := 3 + 2 * p.members.toNat

theorem equip_learns (p : Simulation) (d : DeviceId) (s : Switch) :
    s.Learns d p.nameHandles (p.equip d s) ∧ p.Equipped (p.equip d s) d := by
  have hports : ∀ m ∈ Simulation.ingress :: p.egressMembers, m.ports.length = 1 := by
    intro m hm
    rcases List.mem_cons.mp hm with rfl | hm
    · rfl
    · obtain ⟨_, _, rfl⟩ := List.mem_map.mp hm
      rfl
  obtain ⟨hlearns, hresolves⟩ := foldl_connect_learns (s.register d (.vrf vrf)).2 d hports
  refine ⟨?_, hlearns.resolves (s.resolves_register d _), hresolves _ List.mem_cons_self,
    fun m hm => hresolves m (List.mem_cons_of_mem _ hm)⟩
  have hcount : p.nameHandles = 1 + 2 * (Simulation.ingress :: p.egressMembers).length := by
    simp only [nameHandles, egressMembers, List.length_cons, List.length_map, List.length_range]
    omega
  rw [hcount]
  exact (Switch.Learns.register s d _).trans hlearns

/-! Members -/

theorem length_egressMembers (p : Simulation) : p.egressMembers.length = p.members.toNat := by
  simp [egressMembers]

/-- No two egress members share an interface. -/
theorem egressMembers_distinct (hrifs : 200 + p.members.toNat ≤ 2 ^ 32) :
    (p.egressMembers.map MemberSpec.rif).Nodup := by
  rw [egressMembers, List.map_map]
  refine List.Nodup.map_on ?_ List.nodup_range
  intro i hi j hj h
  rw [List.mem_range] at hi hj
  have h := congrArg (fun r : RifId => r.number.toNat) h
  simp only [Function.comp, egress, UInt32.toNat_ofNat'] at h
  rw [Nat.mod_eq_of_lt (by omega), Nat.mod_eq_of_lt (by omega)] at h
  omega

/-! Routes -/

theorem groupAddress_inj {ipv6 : Bool} {i i' r r' : Nat} (hi : i < 256) (hi' : i' < 256)
    (hr : r < 256) (hr' : r' < 256) (h : groupAddress ipv6 i r = groupAddress ipv6 i' r') :
    i = i' ∧ r = r' := by
  unfold groupAddress at h
  cases ipv6 with
  | false =>
    injection h with h
    injection h with _ _ hgroup hroute
    have hgroup := congrArg UInt8.toNat hgroup
    have hroute := congrArg UInt8.toNat hroute
    rw [UInt8.toNat_ofNat', UInt8.toNat_ofNat'] at hgroup hroute
    omega
  | true =>
    injection h with h
    have h := congrArg Ipv6.segments h
    simp only [List.cons.injEq, true_and, and_true] at h
    have hgroup := congrArg UInt16.toNat h.1
    have hroute := congrArg UInt16.toNat h.2
    rw [UInt16.toNat_ofNat', UInt16.toNat_ofNat'] at hgroup hroute
    omega

theorem mem_routeKeys : key ∈ p.routeKeys i ↔
    ∃ r < p.routes.toNat, key = .starG vrf (groupAddress p.ipv6 i (r + 1)) := by
  simp only [routeKeys, List.mem_map, List.mem_range, eq_comm]

theorem length_routeKeys (p : Simulation) (i : Nat) :
    (p.routeKeys i).length = p.routes.toNat := by
  simp [routeKeys]

/-- The family of all addresses. -/
def family (p : Simulation) : Family := if p.ipv6 then .ipv6 else .ipv4

theorem family_of_mem_routeKeys (h : key ∈ p.routeKeys i) : key.family = p.family := by
  obtain ⟨_, _, rfl⟩ := mem_routeKeys.mp h
  unfold family groupAddress
  cases p.ipv6 <;> rfl

theorem vrf_of_mem_routeKeys (h : key ∈ p.routeKeys i) : key.vrf = vrf := by
  obtain ⟨_, _, rfl⟩ := mem_routeKeys.mp h
  rfl

/-- All groups are multicast addresses. -/
theorem validate_of_mem_routeKeys (h : key ∈ p.routeKeys i) : key.validate = .ok () := by
  obtain ⟨_, _, rfl⟩ := mem_routeKeys.mp h
  unfold groupAddress
  cases p.ipv6 <;> rfl

theorem routeKeys_nodup (hi : i < 256) : (p.routeKeys i).Nodup := by
  have hroutes := p.routes.toNat_lt
  refine List.Nodup.map_on ?_ List.nodup_range
  intro r hr r' hr' h
  rw [List.mem_range] at hr hr'
  have h := (groupAddress_inj hi hi (by omega) (by omega) (congrArg RouteKey.group h)).2
  omega

/-- A key tells its group. -/
theorem eq_of_mem_routeKeys (hi : i < 256) (hj : j < 256) (h : key ∈ p.routeKeys i)
    (h' : key ∈ p.routeKeys j) : i = j := by
  have hroutes := p.routes.toNat_lt
  obtain ⟨r, hr, rfl⟩ := mem_routeKeys.mp h
  obtain ⟨r', hr', heq⟩ := mem_routeKeys.mp h'
  exact (groupAddress_inj hi hj (by omega) (by omega) (congrArg RouteKey.group heq)).1

/-- Keys of the routes of `n` groups from `i` on. -/
def keysFrom (p : Simulation) (i n : Nat) : List RouteKey := (List.range' i n).flatMap p.routeKeys

theorem mem_keysFrom : key ∈ p.keysFrom i n ↔ ∃ j, i ≤ j ∧ j < i + n ∧ key ∈ p.routeKeys j := by
  simp only [keysFrom, List.mem_flatMap, List.mem_range'_1, and_assoc]

theorem length_keysFrom (p : Simulation) (i n : Nat) :
    (p.keysFrom i n).length = n * p.routes.toNat := by
  simp [keysFrom, List.length_flatMap, length_routeKeys]

theorem keysFrom_nodup (hn : i + n ≤ 256) : (p.keysFrom i n).Nodup := by
  refine List.nodup_flatMap.mpr ⟨fun j hj => ?_, ?_⟩
  · rw [List.mem_range'_1] at hj
    exact routeKeys_nodup (by omega)
  · refine List.Pairwise.imp_of_mem ?_ List.nodup_range'
    intro j j' hj hj' hne key hkey hkey'
    rw [List.mem_range'_1] at hj hj'
    exact hne (eq_of_mem_routeKeys (by omega) (by omega) hkey hkey')

end Simulation

end Multicast
