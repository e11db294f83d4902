import Multicast.Proofs.Calls
import Multicast.Proofs.References

/-! Which calls of a switch fail by injection. Faults of one kind wait in line: each counts calls
from when it was registered, or from when the one before it has fired if that is later. -/
namespace Multicast.Switch

/-- A fault that was registered after `before` calls of its kind. -/
structure Planned where
  before : Nat
  nth : Nat
  status : Status
  deriving DecidableEq, Repr

/-- The number of the call that the fault is meant for. -/
def Planned.aim (f : Planned) : Nat := f.before + max f.nth 1

/-- What there was of one kind: the calls, and the faults registered since faults were last
cleared. -/
structure Plan where
  calls : Nat
  faults : List Planned

def Plan.feed (kind : CallKind) (p : Plan) : Input → Plan
  | .call _ c => if c.kind = kind then { p with calls := p.calls + 1 } else p
  | .failNth kind' nth status =>
    if kind' = kind then { p with faults := p.faults ++ [⟨p.calls, nth, status⟩] } else p
  | .clearFaults => { p with faults := [] }
  | .register .. => p

def plan (kind : CallKind) (inputs : List Input) : Plan := inputs.foldl (Plan.feed kind) ⟨0, []⟩

/-- The calls that fail, each with its status. No fault counts calls up to the call `last`, at which
the one before it fires. -/
def firings : Nat → List Planned → List (Nat × Status)
  | _, [] => []
  | last, f :: rest =>
    let n := max f.before last + max f.nth 1
    (n, f.status) :: firings n rest

/-- The call fails because a fault fires. -/
def Injects (s : Switch) (d : DeviceId) (c : Call) (status : Status) : Prop :=
  (s.call d c).1 = ⟨.error (.ofStatus status),
    [⟨.debug, "SimSai: injected " ++ status.text ++ " on " ++ c.kind.name⟩]⟩

variable {s : Switch} {kind : CallKind} {calls last : Nat} {faults : List Planned}

theorem injects_iff {d : DeviceId} {c : Call} {status : Status} :
    s.Injects d c status ↔ (passFault c.kind s.faults).1 = some status := by
  unfold Injects call
  rcases passFault c.kind s.faults with ⟨_ | status', rest⟩
  · dsimp only
    split
    · simp
    · simp
  · simp only [Option.some.injEq]
    constructor
    · intro h
      have hstatus := congrArg Answer.result h
      simp only [Except.error.injEq] at hstatus
      rw [← HardwareError.toStatus_ofStatus status', hstatus, HardwareError.toStatus_ofStatus]
    · rintro rfl
      rfl

/-! The line of one kind -/

theorem passFault_filter (kind : CallKind) (l : List Fault) :
    passFault kind (l.filter (·.kind = kind)) =
      ((passFault kind l).1, (passFault kind l).2.filter (·.kind = kind)) := by
  induction l with
  | nil => rfl
  | cons f rest ih =>
    by_cases hf : f.kind = kind
    · by_cases hskip : f.skip = 0
      · simp [passFault, hf, hskip]
      · simp [passFault, hf, hskip]
    · simp [passFault, hf, ih]

/-- Calls of another kind pass a line by. -/
theorem filter_passFault_of_ne {kind' : CallKind} (h : kind' ≠ kind) (l : List Fault) :
    (passFault kind' l).2.filter (·.kind = kind) = l.filter (·.kind = kind) := by
  induction l with
  | nil => rfl
  | cons f rest ih =>
    by_cases hf : f.kind = kind'
    · by_cases hskip : f.skip = 0
      · simp [passFault, hf, hskip, h]
      · simp [passFault, hf, hskip, h]
    · simp [passFault, hf, List.filter_cons, ih]

/-- A fault as it stands before it has counted any calls. -/
def Planned.fault (kind : CallKind) (f : Planned) : Fault := ⟨kind, f.nth - 1, f.status⟩

/-- The faults that have yet to fire after so many calls. Only the first of them has counted. -/
def waiting (kind : CallKind) (calls : Nat) : Nat → List Planned → List Fault
  | _, [] => []
  | last, f :: rest =>
    let n := max f.before last + max f.nth 1
    if n ≤ calls then waiting kind calls n rest
    else ⟨kind, n - calls - 1, f.status⟩ :: rest.map (Planned.fault kind)

theorem waiting_append (hlast : last ≤ calls) (nth : Nat) (status : Status) :
    waiting kind calls last (faults ++ [⟨calls, nth, status⟩]) =
      waiting kind calls last faults ++ [⟨kind, nth - 1, status⟩] := by
  induction faults generalizing last with
  | nil =>
    have hn : ¬max calls last + max nth 1 ≤ calls := by omega
    have hskip : max calls last + max nth 1 - calls - 1 = nth - 1 := by omega
    simp [waiting, hn, hskip]
  | cons f rest ih =>
    simp only [List.cons_append, waiting]
    split
    · next hn => exact ih hn
    · simp [Planned.fault]

/-- Those registered before the last one fired have not counted anything until then. -/
theorem waiting_self (h : ∀ f ∈ faults, f.before ≤ last) :
    waiting kind last last faults = faults.map (Planned.fault kind) := by
  cases faults with
  | nil => rfl
  | cons f rest =>
    have hbefore := h f List.mem_cons_self
    have hn : ¬max f.before last + max f.nth 1 ≤ last := by omega
    have hskip : max f.before last + max f.nth 1 - last - 1 = f.nth - 1 := by omega
    simp [waiting, hn, hskip, Planned.fault]

theorem lt_of_mem_firings {x : Nat × Status} (h : x ∈ firings last faults) : last < x.1 := by
  induction faults generalizing last with
  | nil => cases h
  | cons f rest ih =>
    rcases List.mem_cons.mp h with rfl | h
    · simp only
      omega
    · have := ih h
      omega

/-- The next call moves the line on, and takes the first fault from it, if that has counted
enough. -/
theorem passFault_waiting (hlast : last ≤ calls) (hbefore : ∀ f ∈ faults, f.before ≤ calls) :
    (passFault kind (waiting kind calls last faults)).2 = waiting kind (calls + 1) last faults ∧
      ∀ status, (passFault kind (waiting kind calls last faults)).1 = some status ↔
        (calls + 1, status) ∈ firings last faults := by
  induction faults generalizing last with
  | nil => simp [waiting, passFault, firings]
  | cons f rest ih =>
    obtain ⟨hf, hrest⟩ := List.forall_mem_cons.mp hbefore
    simp only [waiting, firings]
    generalize hn : max f.before last + max f.nth 1 = n
    rcases Nat.lt_trichotomy n (calls + 1) with hlt | heq | hgt
    · rw [if_pos (by omega), if_pos (by omega)]
      have hn' : n ≤ calls := by omega
      obtain ⟨htail, hfires⟩ := ih hn' hrest
      refine ⟨htail, fun status => (hfires status).trans ?_⟩
      simp only [List.mem_cons, Prod.mk.injEq]
      exact ⟨.inr, fun h => h.resolve_left fun h => by omega⟩
    · subst heq
      rw [if_neg (by omega), if_pos (Nat.le_refl _)]
      rw [waiting_self fun f hf => Nat.le_succ_of_le (hrest f hf)]
      refine ⟨by simp [passFault], fun status => ?_⟩
      simp only [passFault, Nat.add_sub_cancel_left, List.mem_cons]
      constructor
      · intro h
        cases h
        exact .inl rfl
      · rintro (h | h)
        · cases h
          rfl
        · exact absurd (lt_of_mem_firings h) (Nat.lt_irrefl _)
    · rw [if_neg (by omega), if_neg (by omega)]
      have hskip : n - calls - 1 ≠ 0 := by omega
      have hnext : n - calls - 1 - 1 = n - (calls + 1) - 1 := by omega
      refine ⟨by simp [passFault, hskip, hnext], fun status => ?_⟩
      simp only [passFault, if_neg hskip, if_true, List.mem_cons, Prod.mk.injEq]
      constructor
      · intro h
        cases h
      · rintro (h | h)
        · omega
        · have := lt_of_mem_firings h
          simp only at this
          omega

/-! Histories -/

/-- The line of one kind stands as planned. -/
structure Follows (s : Switch) (kind : CallKind) (p : Plan) : Prop where
  line : s.faults.filter (·.kind = kind) = waiting kind p.calls 0 p.faults
  before : ∀ f ∈ p.faults, f.before ≤ p.calls

theorem Follows.feed {p : Plan} (h : s.Follows kind p) (input : Input) :
    (s.feed input).Follows kind (p.feed kind input) := by
  cases input with
  | register d l => exact ⟨h.line, h.before⟩
  | clearFaults => exact ⟨rfl, fun _ hf => nomatch hf⟩
  | failNth kind' nth status =>
    by_cases hkind : kind' = kind
    · subst hkind
      simp only [Plan.feed, if_true]
      refine ⟨?_, fun f hf => ?_⟩
      · rw [waiting_append (Nat.zero_le _), ← h.line]
        simp [Switch.feed, failNth]
      · rcases List.mem_append.mp hf with hf | hf
        · exact h.before f hf
        · obtain rfl := List.mem_singleton.mp hf
          exact Nat.le_refl _
    · simp only [Plan.feed, if_neg hkind]
      exact ⟨by simpa [Switch.feed, failNth, hkind] using h.line, h.before⟩
  | call d c =>
    have hfaults : (s.feed (.call d c)).faults = (passFault c.kind s.faults).2 := s.faults_call d c
    by_cases hkind : c.kind = kind
    · subst hkind
      have hpass := passFault_filter c.kind s.faults
      rw [h.line] at hpass
      simp only [Plan.feed, if_true]
      refine ⟨?_, fun f hf => Nat.le_succ_of_le (h.before f hf)⟩
      rw [hfaults, ← (passFault_waiting (Nat.zero_le _) h.before).1, hpass]
    · simp only [Plan.feed, if_neg hkind]
      exact ⟨by rw [hfaults, filter_passFault_of_ne hkind, h.line], h.before⟩

theorem follows_run (kind : CallKind) (inputs : List Input) :
    (empty.run inputs).Follows kind (plan kind inputs) := by
  have hrun : ∀ (s : Switch) (p : Plan), s.Follows kind p →
      (s.run inputs).Follows kind (inputs.foldl (Plan.feed kind) p) := by
    induction inputs with
    | nil => exact fun _ _ h => h
    | cons input rest ih => exact fun _ _ h => ih _ _ (h.feed input)
  exact hrun empty ⟨0, []⟩ ⟨rfl, fun _ hf => nomatch hf⟩

/-- No fault is registered before the one ahead of it was to fire. -/
def Plan.Apart (p : Plan) : Prop := p.faults.Pairwise fun f f' => f.aim ≤ f'.before

theorem firings_of_apart (hlast : ∀ f ∈ faults, last ≤ f.before)
    (h : faults.Pairwise fun f f' => f.aim ≤ f'.before) :
    firings last faults = faults.map fun f => (f.aim, f.status) := by
  induction faults generalizing last with
  | nil => rfl
  | cons f rest ih =>
    obtain ⟨hf, -⟩ := List.forall_mem_cons.mp hlast
    obtain ⟨hhead, htail⟩ := List.pairwise_cons.mp h
    have hn : max f.before last + max f.nth 1 = f.aim := by
      rw [Planned.aim, Nat.max_eq_left hf]
    simp only [firings, hn, List.map_cons, ih hhead htail]

/-- Whatever was registered, cleared and called before: a call fails by injection if its turn has
come in the line of its kind, and not otherwise. Where faults are kept apart, that is the call each
was meant for. -/
theorem faults_fire_in_turn (inputs : List Input) (d : DeviceId) (c : Call) (status : Status) :
    let p := plan c.kind inputs
    ((empty.run inputs).Injects d c status ↔ (p.calls + 1, status) ∈ firings 0 p.faults) ∧
    (p.Apart → ((empty.run inputs).Injects d c status ↔
      ∃ f ∈ p.faults, f.aim = p.calls + 1 ∧ f.status = status)) := by
  intro p
  have hfollows : (empty.run inputs).Follows c.kind p := follows_run c.kind inputs
  have hturn : (empty.run inputs).Injects d c status ↔
      (p.calls + 1, status) ∈ firings 0 p.faults := by
    have hpass := congrArg Prod.fst (passFault_filter c.kind (empty.run inputs).faults)
    rw [hfollows.line] at hpass
    rw [injects_iff, ← (passFault_waiting (Nat.zero_le _) hfollows.before).2, hpass]
  refine ⟨hturn, fun hapart => hturn.trans ?_⟩
  rw [firings_of_apart (fun _ _ => Nat.zero_le _) hapart, List.mem_map]
  simp only [Prod.mk.injEq]

/-- The second fault is registered when the first has fired, and another kind is in between. -/
def spaced : List Input :=
  [.failNth .createGroup 2 .tableFull, .call ⟨1⟩ (.createGroup []),
    .failNth .removeGroup 1 .failure, .call ⟨1⟩ (.createGroup []),
    .failNth .createGroup 0 .noMemory]

theorem faults_fire_in_turn_spaced :
    (plan .createGroup spaced).Apart ∧
      (empty.run spaced).Injects ⟨1⟩ (.createGroup []) .noMemory :=
  have hapart : (plan .createGroup spaced).Apart := by
    unfold Plan.Apart
    decide
  ⟨hapart, ((faults_fire_in_turn spaced ⟨1⟩ (.createGroup []) .noMemory).2 hapart).mpr
    ⟨⟨2, 0, .noMemory⟩, by decide, rfl, rfl⟩⟩

/-- Two faults for one kind of call, the later one for the call before. -/
def crowded : List Input :=
  [.failNth .createGroup 2 .failure, .failNth .createGroup 1 .tableFull]

/-- The second fault is meant for the next call, but the first has to fire before it counts. -/
theorem due_fault_is_held_back :
    (∃ f ∈ (plan .createGroup crowded).faults,
      f.aim = (plan .createGroup crowded).calls + 1 ∧ f.status = .tableFull) ∧
    ∀ status, ¬(empty.run crowded).Injects ⟨1⟩ (.createGroup []) status := by
  refine ⟨⟨⟨0, 1, .tableFull⟩, by decide, rfl, rfl⟩, fun status h => ?_⟩
  have hnone : (passFault .createGroup (empty.run crowded).faults).1 = none := rfl
  rw [injects_iff] at h
  cases hnone.symm.trans h

end Multicast.Switch
