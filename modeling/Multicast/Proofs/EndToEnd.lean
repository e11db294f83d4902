import Multicast.Proofs.Configuration
import Multicast.Proofs.Printout

/-! Whole runs of the simulator. -/
namespace Multicast

/-- New names keep a world calm. -/
theorem World.Calm.learns {config : Config} {w : World Switch} {s : Switch} {d : DeviceId}
    {k n : Nat} (h : w.onBench.Calm config k) (hs : w.state.Learns d n s)
    (hnew : ∀ l, w.state.mappings.find? (d, l) = none) :
    (World.onBench ⟨s, w.fleet⟩).Calm config (k + n) := by
  obtain ⟨items, E, hsound⟩ := h.sound
  have hextends : Extends w.state.mappings s.mappings := by
    rintro ⟨d', l⟩ x hx
    by_cases hd : d' = d
    · subst hd
      rw [hnew] at hx
      cases hx
    · exact (hs.others (d', l) hd).trans hx
  refine ⟨⟨items, E, ?_⟩, hs.named h.named, hs.faults.trans h.faults, ?_⟩
  · exact hsound.of_state rfl hextends (hs.counter ▸ Nat.le_add_right _ _) hs.objects hs.entries
  · exact hs.counter.trans (congrArg (· + n) h.used)

/-- With no device attached nothing is left in the hardware. -/
theorem World.Calm.bare {config : Config} {w : World Testbed} {k : Nat} (h : w.Calm config k)
    (hroom : k < 2 ^ 48) (hfleet : w.fleet = ∅) :
    w.state.switch.objects = ∅ ∧ w.state.switch.entries = ∅ := by
  obtain ⟨items, E, hsound⟩ := h.sound
  have hcount : w.state.switch.counter < 2 ^ 48 := h.used ▸ hroom
  have hitems : items = [] := by
    obtain ⟨items', hfits, hperm⟩ := hsound.objects
    rw [hfleet] at hfits
    cases hfits
    exact List.nil_perm.mp hperm
  have hprogramming : ∀ k, E k = none := by
    rintro ⟨d, e⟩
    rw [Option.eq_none_iff_forall_ne_some]
    intro v hv
    obtain ⟨key, route, hroute, -⟩ := (hsound.routed d).only e v hv
    rw [World.cacheOf, hfleet] at hroute
    cases hroute
  constructor
  · refine Table.ext_find? fun x => Option.eq_none_iff_forall_ne_some.mpr fun o ho => ?_
    have hmem := hsound.books.mem_of_find? hcount ho
    rw [hitems] at hmem
    exact List.not_mem_nil hmem
  · refine Table.ext_find? fun key => Table.contains_eq_false_iff.mp ?_
    rw [hsound.books.routed, hprogramming]
    rfl

namespace Simulation

variable {p : Simulation} {config : Config} {d : DeviceId} {c : DeviceCache} {k n i : Nat}
  {ids : List Handle} {r r' : Run}

/-- Texts that were printed. -/
def printed (output : List Output) : List String :=
  output.filterMap fun
    | .print text => some text
    | .log _ => none

theorem printed_append (l l' : List Output) : printed (l ++ l') = printed l ++ printed l' :=
  List.filterMap_append

theorem printed_filter {shown : Output → Bool} (hshown : ∀ text, shown (.print text) = true)
    (l : List Output) : printed (l.filter shown) = printed l := by
  induction l with
  | nil => rfl
  | cons o rest ih =>
    cases o with
    | print text =>
      rw [List.filter_cons_of_pos (hshown text)]
      exact congrArg (text :: ·) ih
    | log line =>
      rw [List.filter_cons]
      split <;> exact ih

/-! One device -/

/-- Handles of the names, groups and members of a device. -/
def deviceHandles (p : Simulation) : Nat := p.nameHandles + p.groups.toNat * p.groupHandles

/-- The run once device `d` is equipped. -/
def equipped (p : Simulation) (d : DeviceId) (r : Run) : Run :=
  { r with world := { r.world with state := p.equip d r.world.state } }

/-- The run once device `d` is populated. -/
def populated (p : Simulation) (config : Config) (d : DeviceId) (r : Run) : Run :=
  ((p.populate (orchestrator config) d).run.run (p.equipped d r)).2

/-- What a device prints. -/
def dumpText (d : DeviceId) (c : DeviceCache) : String := (c.toJson d).pretty ++ "\n"

theorem runDevice_ends (hrifs : 200 + p.members.toNat ≤ 2 ^ 32)
    (hunnamed : ∀ l, r.world.state.mappings.find? (d, l) = none)
    (hunattached : r.world.fleet.find? d = none)
    (hroom : k + (p.nameHandles + min p.groups.toNat config.maxGroups * p.groupHandles) < 2 ^ 48)
    (h : r.world.onBench.Calm config k) :
    Program.Ends (p.runDevice (orchestrator config) d) r
      (fun _ r' => p.groups.toNat ≤ config.maxGroups ∧ ∃ ids c, ids.length = p.groups.toNat ∧
        p.Progress ids c ∧
        (p.equipped d r).Becomes config d (some c) (k + p.deviceHandles) (p.populated config d r) ∧
        Run.Becomes config { p.equipped d r with output := r'.output } d
          (if p.teardown then none else some c) (k + p.deviceHandles) r' ∧
        printed r'.output = printed r.output ++ [dumpText d c])
      fun r' => config.maxGroups < p.groups.toNat ∧ printed r'.output = printed r.output ∧
        r'.world.state.counter =
          k + (p.nameHandles + config.maxGroups * p.groupHandles) := by
  obtain ⟨hlearns, hequipped⟩ := p.equip_learns d r.world.state
  have hcalm := h.learns hlearns hunnamed
  have hroom' : k + p.nameHandles + min p.groups.toNat config.maxGroups * p.groupHandles <
      2 ^ 48 := by
    rw [Nat.add_assoc]
    exact hroom
  have hpopulate := populate_ends (r := p.equipped d r) hrifs hequipped hunattached hroom' hcalm
  unfold runDevice
  refine Program.Ends.bind (Q := fun _ r' => r' = p.equipped d r) (F := fun _ => False) rfl ?_
    fun _ h => h.elim
  rintro _ _ rfl
  refine Program.Ends.bind (Program.Ends.orReport hpopulate.reached _ ?_) ?_ fun _ h => h
  · rintro r' line ⟨hover, houtput, hcounter⟩
    refine ⟨hover, ?_, ?_⟩
    · rw [printed_append, houtput]
      exact List.append_nil _
    · rw [hcounter, Nat.add_assoc]
  rintro keys r₁ ⟨⟨hle, rfl, ids, c, hlen, hprogress, h₁⟩, hreached⟩
  rw [Nat.min_eq_left hle] at hroom'
  have hpopulated : r₁ = p.populated config d r := hreached
  have hcount : k + p.nameHandles + p.groups.toNat * p.groupHandles = k + p.deviceHandles :=
    Nat.add_assoc _ _ _
  have hdump : r₁.world.dump d = .ok (c.toJson d).pretty := World.dump_eq h₁.cache
  refine Program.Ends.bind (Program.Ends.orReport (G := fun _ => False)
    (Script.ends_ask (F := fun _ => False) hdump) _ fun _ _ h => h) ?_ fun _ h => h.elim
  rintro _ _ ⟨rfl, rfl⟩
  rw [hcount] at h₁ hroom'
  -- what follows is logged and printed, and changes no more than it takes down
  refine Program.Ends.bind (Q := fun _ r' =>
    Run.Becomes config { p.equipped d r with output := r'.output } d (some c)
      (k + p.deviceHandles) r' ∧ printed r'.output = printed r.output ++ [dumpText d c])
    (F := fun _ => False) ?_ ?_ fun _ h => h.elim
  · refine ⟨h₁.relabel _, (printed_append _ _).trans ?_⟩
    rw [h₁.output]
    rfl
  rintro _ r₂ ⟨h₂, hprinted⟩
  split
  · have hfew : ids.length ≤ 256 := hlen ▸ Nat.le_of_lt p.groups.toNat_lt
    have hteardown := tearDown_ends h₂ hroom' hequipped hprogress hfew
    rw [hlen] at hteardown
    refine Program.Ends.bind (Program.Ends.orReport (G := fun _ => False) hteardown _
      fun _ _ h => h) ?_ fun _ h => h.elim
    rintro _ r₃ h₃
    refine ⟨hle, ids, c, hlen, hprogress, hpopulated ▸ h₁, h₃.relabel _, ?_⟩
    refine (printed_append _ _).trans ?_
    rw [h₃.output]
    exact (List.append_nil _).trans hprinted
  · exact ⟨hle, ids, c, hlen, hprogress, hpopulated ▸ h₁, h₂, hprinted⟩

/-! Device after device -/

def deviceAt (i : Nat) : DeviceId := ⟨UInt32.ofNat i⟩

theorem deviceAt_number (hi : i < 2 ^ 32) : (deviceAt i).number.toNat = i := by
  rw [deviceAt, UInt32.toNat_ofNat', Nat.mod_eq_of_lt hi]

def initial (p : Simulation) : Run := ⟨.start .empty, [.log p.startLine]⟩

/-- The run once `i` devices are through. -/
def reached (p : Simulation) (config : Config) (i : Nat) : Run :=
  ((p.runDevices (orchestrator config) 0 i).run.run p.initial).2

/-- The world right after device `i` is populated. -/
def worldAt (p : Simulation) (config : Config) (i : Nat) : World Switch :=
  (p.populated config (deviceAt i) (p.reached config i)).world

/-- The cache of device `i` right after it is populated. -/
def cacheAt (p : Simulation) (config : Config) (i : Nat) : DeviceCache :=
  ((p.worldAt config i).fleet.find? (deviceAt i)).getD .empty

/-- Device `d` is as it was to be, in the hardware, in the cache `c` and in the text that is dumped
of it. -/
structure Stands (p : Simulation) (config : Config) (w : World Switch) (d : DeviceId)
    (c : DeviceCache) : Prop where
  cached : w.fleet.find? d = some c
  built : p.Built c
  verified : ∀ key route, c.routes.find? key = some route →
    ((orchestrator config).verifyRoute w d key).result = .ok true
  consistent : w.checkConsistency d = .ok ()
  dumped : w.dump d = .ok (c.toJson d).pretty
  shown : p.Prints d (c.toJson d).pretty

theorem Stands.of_progress {w : World Switch} (h : w.onBench.Calm config k) (hroom : k < 2 ^ 48)
    (hequipped : p.Equipped w.state d) (hc : w.fleet.find? d = some c)
    (hprogress : p.Progress ids c) (hlen : ids.length = p.groups.toNat) :
    p.Stands config w d c := by
  have hI : c.Intact config.maxGroups := by
    obtain ⟨_, _, hsound⟩ := h.sound
    exact hsound.intact d c hc
  have hbuilt := hprogress.built hI hlen
  refine ⟨hc, hbuilt, fun key route hroute => ?_, checkConsistency_eq hc hI, World.dump_eq hc,
    hbuilt.prints hI⟩
  have hkey := hprogress.mem_keys_iff.mp (Table.mem_keys_iff_find?.mpr ⟨route, hroute⟩)
  have hyields := h.verifyRoute .ascending hc hroom (hprogress.admits_verify hequipped hkey)
  exact (Operation.perform_onBench config (.verifyRoute d key) w).1.trans hyields.result

/-- Between two devices: `i` are through, and the others are untouched. -/
structure Stage (p : Simulation) (config : Config) (i : Nat) (r : Run) : Prop where
  calm : r.world.onBench.Calm config (i * p.deviceHandles)
  unnamed : ∀ d l, i ≤ d.number.toNat → r.world.state.mappings.find? (d, l) = none
  unattached : ∀ d, i ≤ d.number.toNat → r.world.fleet.find? d = none
  equipped : ∀ j < i, p.Equipped r.world.state (deviceAt j)
  attached : ∀ j < i, r.world.fleet.find? (deviceAt j) =
    if p.teardown then none else some (p.cacheAt config j)
  built : ∀ j < i, ∃ ids, ids.length = p.groups.toNat ∧ p.Progress ids (p.cacheAt config j)
  stood : ∀ j < i, p.Stands config (p.worldAt config j) (deviceAt j) (p.cacheAt config j)
  printed : printed r.output =
    (List.range i).map fun j => dumpText (deviceAt j) (p.cacheAt config j)

theorem runDevices_succ (p : Simulation) (o : Orchestrator Switch) (first n : Nat) :
    p.runDevices o first (n + 1) =
      p.runDevices o first n >>= fun _ => p.runDevice o (deviceAt (first + n)) := by
  induction n generalizing first with
  | zero => simp [runDevices, deviceAt]
  | succ n ih =>
    rw [runDevices, ih, runDevices, bind_assoc, Nat.add_assoc, Nat.add_comm 1]

theorem Stage.start (p : Simulation) (config : Config) : p.Stage config 0 (p.reached config 0) where
  calm := by
    rw [Nat.zero_mul]
    exact ⟨⟨[], _, .start config⟩, .empty, rfl, rfl⟩
  unnamed := fun _ _ _ => rfl
  unattached := fun _ _ => rfl
  equipped := fun _ hj => (Nat.not_lt_zero _ hj).elim
  attached := fun _ hj => (Nat.not_lt_zero _ hj).elim
  built := fun _ hj => (Nat.not_lt_zero _ hj).elim
  stood := fun _ hj => (Nat.not_lt_zero _ hj).elim
  printed := rfl

/-- One device more. -/
theorem Stage.step (hrifs : 200 + p.members.toNat ≤ 2 ^ 32)
    (hle : p.groups.toNat ≤ config.maxGroups) (hi : i < 2 ^ 32)
    (hroom : (i + 1) * p.deviceHandles < 2 ^ 48) (h : p.Stage config i (p.reached config i)) :
    Program.Ends (p.runDevice (orchestrator config) (deviceAt i)) (p.reached config i)
      (fun _ r' => p.Stage config (i + 1) r') fun _ => False := by
  have hnumber := deviceAt_number hi
  have hdistinct : ∀ j < i, deviceAt j ≠ deviceAt i := by
    intro j hj heq
    rw [← deviceAt_number (Nat.lt_trans hj hi), heq, hnumber] at hj
    exact Nat.lt_irrefl i hj
  rw [Nat.succ_mul] at hroom
  have hself := Nat.le_of_eq hnumber.symm
  refine (runDevice_ends hrifs (fun l => h.unnamed _ l hself) (h.unattached _ hself)
    (by rwa [Nat.min_eq_left hle]) h.calm).mono ?_ fun _ hf => by omega
  rintro _ r' ⟨-, ids, c, hlen, hprogress, hpopulated, hbecomes, hprinted⟩
  obtain ⟨hlearns, hequipped⟩ := p.equip_learns (deviceAt i) (p.reached config i).world.state
  have hcache : p.cacheAt config i = c := by
    rw [cacheAt, worldAt, hpopulated.cache]
    rfl
  subst hcache
  have hother : ∀ d : DeviceId, i + 1 ≤ d.number.toNat → d ≠ deviceAt i := by
    rintro _ hd rfl
    omega
  refine ⟨?_, fun d l hd => ?_, fun d hd => ?_, fun j hj => ?_, fun j hj => ?_, fun j hj => ?_,
    fun j hj => ?_, ?_⟩
  · rw [Nat.succ_mul]
    exact hbecomes.calm
  · rw [hbecomes.names]
    exact (hlearns.others (d, l) (hother d hd)).trans (h.unnamed d l (by omega))
  · exact (hbecomes.others d (hother d hd)).trans (h.unattached d (by omega))
  · have hbefore : p.Equipped (p.equip (deviceAt i) (p.reached config i).world.state)
        (deviceAt j) := by
      rcases Nat.lt_succ_iff_lt_or_eq.mp hj with hj | rfl
      · exact (h.equipped j hj).learns hlearns
      · exact hequipped
    exact hbefore.of_mappings hbecomes.names
  · rcases Nat.lt_succ_iff_lt_or_eq.mp hj with hj | rfl
    · exact (hbecomes.others _ (hdistinct j hj)).trans (h.attached j hj)
    · exact hbecomes.cache
  · rcases Nat.lt_succ_iff_lt_or_eq.mp hj with hj | rfl
    · exact h.built j hj
    · exact ⟨ids, hlen, hprogress⟩
  · rcases Nat.lt_succ_iff_lt_or_eq.mp hj with hj | rfl
    · exact h.stood j hj
    · exact .of_progress hpopulated.calm hroom (hequipped.of_mappings hpopulated.names)
        hpopulated.cache hprogress hlen
  · rw [hprinted, h.printed, List.range_succ, List.map_append]
    rfl

/-- If the limit allows the groups, one device after another is built. -/
theorem runDevices_ends (hrifs : 200 + p.members.toNat ≤ 2 ^ 32)
    (hle : p.groups.toNat ≤ config.maxGroups) (hi : i ≤ 2 ^ 32)
    (hroom : i * p.deviceHandles < 2 ^ 48) :
    Program.Ends (p.runDevices (orchestrator config) 0 i) p.initial
      (fun _ r' => p.Stage config i r' ∧ r' = p.reached config i) fun _ => False := by
  induction i with
  | zero => exact ⟨.start p config, rfl⟩
  | succ i ih =>
    have hroom' : i * p.deviceHandles < 2 ^ 48 := by
      rw [Nat.succ_mul] at hroom
      omega
    have hends : Program.Ends (p.runDevices (orchestrator config) 0 (i + 1)) p.initial
        (fun _ r' => p.Stage config (i + 1) r') fun _ => False := by
      rw [runDevices_succ, Nat.zero_add]
      refine (ih (by omega) hroom').bind ?_ fun _ h => h
      rintro _ _ ⟨hstage, rfl⟩
      exact hstage.step hrifs hle (by omega) hroom
    exact hends.reached

/-- Handles that a run gives out. If the limit does not allow the groups, the first device is the
last. -/
def handles (p : Simulation) (config : Config) : Nat :=
  (if p.groups.toNat ≤ config.maxGroups then p.devices.toNat else min p.devices.toNat 1) *
    (p.nameHandles + min p.groups.toNat config.maxGroups * p.groupHandles)

theorem handles_eq (hfits : p.devices = 0 ∨ p.groups.toNat ≤ config.maxGroups) :
    p.handles config = p.devices.toNat * p.deviceHandles := by
  unfold handles
  rcases hfits with hnone | hle
  · simp [hnone]
  · rw [if_pos hle, Nat.min_eq_left hle]
    rfl

theorem finish_succeeds (hrifs : 200 + p.members.toNat ≤ 2 ^ 32)
    (hroom : p.handles config < 2 ^ 48)
    (hfits : p.devices = 0 ∨ p.groups.toNat ≤ config.maxGroups) :
    (p.finish config).1.isSome = true ∧
      p.Stage config p.devices.toNat (p.finish config).2 := by
  have hends : Program.Ends (p.runDevices (orchestrator config) 0 p.devices.toNat) p.initial
      (fun _ r' => p.Stage config p.devices.toNat r' ∧ r' = p.reached config p.devices.toNat)
      fun _ => False := by
    rcases hfits with hnone | hle
    · rw [hnone]
      exact ⟨.start p config, rfl⟩
    · rw [handles_eq (.inr hle)] at hroom
      exact runDevices_ends hrifs hle (Nat.le_of_lt p.devices.toNat_lt) hroom
  obtain ⟨hsome, _, hstage, -⟩ := hends.succeeds
  exact ⟨hsome, hstage⟩

theorem finish_fails (hrifs : 200 + p.members.toNat ≤ 2 ^ 32)
    (hroom : p.handles config < 2 ^ 48) (hdevices : p.devices ≠ 0)
    (hover : config.maxGroups < p.groups.toNat) :
    (p.finish config).1.isSome = false ∧ printed (p.finish config).2.output = [] ∧
      (p.finish config).2.world.state.counter = p.handles config := by
  obtain ⟨n, hn⟩ : ∃ n, p.devices.toNat = n + 1 := by
    refine Nat.exists_eq_succ_of_ne_zero fun h => hdevices ?_
    exact UInt32.toNat_inj.mp h
  have hhandles : p.handles config =
      0 + (p.nameHandles + min p.groups.toNat config.maxGroups * p.groupHandles) := by
    rw [handles, if_neg (Nat.not_le.mpr hover), hn, Nat.zero_add]
    simp
  have hcalm := (Stage.start p config).calm
  rw [Nat.zero_mul] at hcalm
  have hends := runDevice_ends (p := p) (d := deviceAt 0) (r := p.reached config 0) hrifs
    (fun _ => rfl) rfl (hhandles ▸ hroom) hcalm
  have hall : Program.Ends (p.runDevices (orchestrator config) 0 p.devices.toNat) p.initial
      (fun _ _ => False)
      fun r' => printed r'.output = [] ∧ r'.world.state.counter = p.handles config := by
    rw [hn]
    refine Program.Ends.bind hends ?_ ?_
    · rintro _ _ ⟨hle, -⟩
      omega
    · rintro r' ⟨-, hprinted, hcounter⟩
      refine ⟨hprinted, ?_⟩
      rw [hhandles, hcounter, Nat.min_eq_right (Nat.le_of_lt hover)]
  exact hall.fails

theorem Stage.stands (h : p.Stage config n r) (hn : n * p.deviceHandles < 2 ^ 48)
    (hteardown : p.teardown = false) (hi : i < n) :
    p.Stands config r.world (deviceAt i) (p.cacheAt config i) := by
  obtain ⟨ids, hlen, hprogress⟩ := h.built i hi
  have hattached := h.attached i hi
  rw [hteardown] at hattached
  exact .of_progress h.calm hn (h.equipped i hi) hattached hprogress hlen

theorem Stage.fleet_eq_empty (h : p.Stage config n r) (hteardown : p.teardown = true) :
    r.world.fleet = ∅ := by
  refine Table.ext_find? fun d => ?_
  by_cases hd : d.number.toNat < n
  · have hattached := h.attached _ hd
    rw [hteardown, deviceAt, UInt32.ofNat_toNat] at hattached
    exact hattached
  · exact h.unattached d (Nat.not_lt.mp hd)

theorem Stage.bare (h : p.Stage config n r) (hn : n * p.deviceHandles < 2 ^ 48)
    (hteardown : p.teardown = true) :
    r.world.devices = [] ∧ (∀ d, r.world.state.deviceObjectCount d = 0) ∧
      r.world.state.entryCount = 0 := by
  have hfleet := h.fleet_eq_empty hteardown
  obtain ⟨hobjects, hentries⟩ := h.calm.bare hn hfleet
  refine ⟨congrArg Table.keys hfleet, fun d => ?_, congrArg Table.size hentries⟩
  exact congrArg (fun t : Table Handle Switch.Object =>
    (t.values.filter (·.device = d)).length) hobjects

end Simulation

namespace CommandLine

variable {c : CommandLine} {contents : Option String} {config : Config}

theorem exitCode_execute (hconfig : c.configuration contents = .ok config) :
    (c.execute contents).exitCode = 0 ↔ (c.simulation.finish config).1.isSome = true := by
  simp only [execute, hconfig, Simulation.run]
  cases (c.simulation.finish config).1.isSome <;> simp

theorem stdout_execute (hconfig : c.configuration contents = .ok config) :
    (c.execute contents).stdout =
      String.join (Simulation.printed (c.simulation.finish config).2.output) := by
  simp only [execute, hconfig, Simulation.run]
  exact congrArg String.join (Simulation.printed_filter (fun _ => rfl) _)

/-- A run succeeds if there is no device or the limit allows the groups, which is that of the
configuration file, if one is named. Each device is then built as it was asked for, shows so in the
hardware and in what is printed of it, and stands so in the end, too, unless everything is taken
down: then nothing is left. A run that fails prints nothing. `Simulation.handles` is how many
handles are given out; they are told apart by 48 bits. -/
theorem execute_builds_and_takes_down (hconfig : c.configuration contents = .ok config)
    (hrifs : 200 + c.simulation.members.toNat ≤ 2 ^ 32)
    (hhandles : c.simulation.handles config < 2 ^ 48) :
    let p := c.simulation
    let out := c.execute contents
    let w := (p.finish config).2.world
    (c.config = none → config = {}) ∧
    (∀ path, c.config = some path → ∃ text, contents = some text ∧ config.ReadFrom text) ∧
    w.state.counter = p.handles config ∧
    (out.exitCode = 0 ↔ p.devices = 0 ∨ p.groups.toNat ≤ config.maxGroups) ∧
    (out.exitCode ≠ 0 → out.stdout = "") ∧
    (out.exitCode = 0 →
      (∀ i < p.devices.toNat, p.Stands config (p.worldAt config i) (Simulation.deviceAt i)
        (p.cacheAt config i)) ∧
      (∃ texts : Nat → String,
        out.stdout = String.join ((List.range p.devices.toNat).map fun i => texts i ++ "\n") ∧
        ∀ i < p.devices.toNat,
          (p.worldAt config i).dump (Simulation.deviceAt i) = .ok (texts i) ∧
            p.Prints (Simulation.deviceAt i) (texts i)) ∧
      (p.teardown = false → ∀ i < p.devices.toNat,
        p.Stands config w (Simulation.deviceAt i) (p.cacheAt config i)) ∧
      (p.teardown = true → w.devices = [] ∧ (∀ d, w.state.deviceObjectCount d = 0) ∧
        w.state.entryCount = 0)) := by
  intro p out w
  have hexit : out.exitCode = 0 ↔ (p.finish config).1.isSome = true := exitCode_execute hconfig
  have hstdout : out.stdout = String.join (Simulation.printed (p.finish config).2.output) :=
    stdout_execute hconfig
  obtain ⟨hdefaults, hfile⟩ := configuration_eq_ok_iff.mp hconfig
  refine ⟨hdefaults, hfile, ?_⟩
  by_cases hfits : p.devices = 0 ∨ p.groups.toNat ≤ config.maxGroups
  · obtain ⟨hsome, hstage⟩ := Simulation.finish_succeeds hrifs hhandles hfits
    have hcount : p.handles config = p.devices.toNat * p.deviceHandles :=
      Simulation.handles_eq hfits
    have hroom : p.devices.toNat * p.deviceHandles < 2 ^ 48 := hcount ▸ hhandles
    refine ⟨hstage.calm.used.trans hcount.symm, iff_of_true (hexit.mpr hsome) hfits,
      fun hcode => (hcode (hexit.mpr hsome)).elim, fun _ => ⟨hstage.stood, ?_,
        fun hteardown i hi => hstage.stands hroom hteardown hi, hstage.bare hroom⟩⟩
    refine ⟨fun i => ((p.cacheAt config i).toJson (Simulation.deviceAt i)).pretty, ?_, ?_⟩
    · rw [hstdout, hstage.printed]
      rfl
    · exact fun i hi => ⟨(hstage.stood i hi).dumped, (hstage.stood i hi).shown⟩
  · rw [not_or, Nat.not_le] at hfits
    obtain ⟨hnone, hprinted, hcounter⟩ :=
      Simulation.finish_fails hrifs hhandles hfits.1 hfits.2
    have hcode : ¬out.exitCode = 0 := by
      rw [hexit, hnone]
      exact Bool.false_ne_true
    refine ⟨hcounter, iff_of_false hcode ?_, fun _ => ?_, fun h => (hcode h).elim⟩
    · rw [not_or, Nat.not_le]
      exact hfits
    · rw [hstdout, hprinted]
      rfl

/-- A configuration that allows one group, and the file that it is read from. -/
def oneGroup : Config := { maxGroups := 1 }

def oneGroupText : String := "\x7b\"max_groups_per_device\": 1\x7d"

/-- Two devices with a group each. -/
def pair : CommandLine where
  config := some "one-group.json"
  simulation := { devices := 2, groups := 1, members := 1, routes := 2, teardown := true }

/-- Two devices, each with five names and a group of five objects, are built and taken down. -/
theorem execute_builds_and_takes_down_pair :
    oneGroup.ReadFrom oneGroupText ∧
    (pair.execute (some oneGroupText)).exitCode = 0 ∧
    (pair.simulation.finish oneGroup).2.world.state.counter = 20 ∧
    (pair.simulation.finish oneGroup).2.world.devices = [] ∧
    ∃ text text', (pair.execute (some oneGroupText)).stdout = text ++ "\n" ++ (text' ++ "\n") ∧
      pair.simulation.Prints ⟨0⟩ text ∧ pair.simulation.Prints ⟨1⟩ text' := by
  have hconfig : pair.configuration (some oneGroupText) = .ok oneGroup := by decide +kernel
  obtain ⟨-, hread, hcounter, hexit, -, hrun⟩ :=
    execute_builds_and_takes_down hconfig (by decide) (by decide)
  obtain ⟨_, ⟨⟩, hread⟩ := hread _ rfl
  have hcode := hexit.mpr (.inr (by decide))
  obtain ⟨-, ⟨texts, hstdout, htexts⟩, -, hbare⟩ := hrun hcode
  refine ⟨hread, hcode, hcounter.trans (by decide), (hbare rfl).1, texts 0, texts 1, ?_,
    (htexts 0 (by decide)).2, (htexts 1 (by decide)).2⟩
  rw [hstdout]
  change String.join [texts 0 ++ "\n", texts 1 ++ "\n"] = _
  simp [String.join]

end CommandLine

end Multicast
