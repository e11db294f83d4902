import Mathlib.Data.Set.Card
import Multicast.Proofs.InPlace
import Multicast.Proofs.Rendering

/-! The members of a group amount to at most one for ingress and a map from interfaces for egress,
however they came about. -/
namespace Multicast

/-- Takes steps in turn, each where the one before ended, and lists what each answered. -/
def replay {ι β σ : Type} (step : ι → σ → β × σ) : List ι → σ → List (ι × β) × σ
  | [], s => ([], s)
  | i :: rest, s =>
    let (b, s) := step i s
    let (answers, s) := replay step rest s
    ((i, b) :: answers, s)

/-- What can be asked of the members of a group. -/
inductive MemberEdit where
  | add (role : Role) (m : Member)
  | remove (role : Role) (rif : RifId)
  | setPorts (role : Role) (rif : RifId) (ports : PortSet)

namespace MemberEdit

def role : MemberEdit → Role
  | .add role _ | .remove role _ | .setPorts role _ _ => role

/-- Answers the member that was taken out, if one was to be. -/
def run : MemberEdit → Edit MemberSet (Option Member)
  | .add role m => do
    Edit.addMember role m
    return none
  | .remove role rif => do
    let m ← Edit.removeMember role rif
    return some m
  | .setPorts role rif ports => do
    Edit.setPorts role rif ports
    return none

def on (e : MemberEdit) (s : MemberSet) : Except CacheError (Option Member) × MemberSet :=
  e.run.on s

end MemberEdit

/-- An ingress member, if there is one, and egress members by their interfaces. -/
@[ext] structure Roster where
  rpf : Option Member
  ipmc : RifId → Option Member

namespace Roster

def empty : Roster := ⟨none, fun _ => none⟩

def find? (a : Roster) : Role → RifId → Option Member
  | .rpf, rif => a.rpf.filter (·.rif = rif)
  | .ipmc, rif => a.ipmc rif

def get (a : Roster) (role : Role) (rif : RifId) : Except CacheError Member :=
  match a.find? role rif with
  | some m => .ok m
  | none => .error (.memberNotFound role rif)

/-- Puts a member in the place that it takes. -/
def put (a : Roster) (m : Member) : Role → Roster
  | .rpf => { a with rpf := some m }
  | .ipmc => { a with ipmc := Function.update a.ipmc m.rif (some m) }

/-- Clears the place of a member. -/
def clear (a : Roster) (m : Member) : Role → Roster
  | .rpf => { a with rpf := none }
  | .ipmc => { a with ipmc := Function.update a.ipmc m.rif none }

def checkAdd (a : Roster) : Role → RifId → Except CacheError Unit
  | .rpf, rif =>
    match a.rpf with
    | none => .ok ()
    | some m =>
      if m.rif = rif then .error (.memberExists .rpf rif) else .error (.rpfMemberExists m.rif)
  | .ipmc, rif => if (a.ipmc rif).isSome then .error (.memberExists .ipmc rif) else .ok ()

def step : MemberEdit → Roster → Except CacheError (Option Member) × Roster
  | .add role m, a =>
    match a.checkAdd role m.rif with
    | .ok () => (.ok none, a.put m role)
    | .error e => (.error e, a)
  | .remove role rif, a =>
    match a.get role rif with
    | .ok m => (.ok (some m), a.clear m role)
    | .error e => (.error e, a)
  | .setPorts role rif ports, a =>
    match a.get role rif with
    | .ok m => (.ok none, a.put { m with ports := ports } role)
    | .error e => (.error e, a)

/-! Look-ups after a change -/

variable {a : Roster} {role : Role} {m : Member}

/-- A member of another interface must not lose the ingress place to the new one. -/
theorem find?_put (hplace : role = .rpf → ∀ m', a.rpf = some m' → m'.rif = m.rif) (role' : Role)
    (rif : RifId) :
    (a.put m role).find? role' rif =
      if role' = role ∧ rif = m.rif then some m else a.find? role' rif := by
  cases role with
  | rpf =>
    cases role' with
    | ipmc => simp [put, find?]
    | rpf =>
      by_cases hrif : rif = m.rif
      · simp [put, find?, hrif]
      · cases ha : a.rpf with
        | none => simp [put, find?, Option.filter_some, hrif, ha, Ne.symm hrif]
        | some m' =>
          have hrif' : m'.rif ≠ rif := fun h => hrif (h.symm.trans (hplace rfl m' ha))
          simp [put, find?, Option.filter_some, hrif, ha, Ne.symm hrif, hrif']
  | ipmc =>
    cases role' with
    | rpf => simp [put, find?]
    | ipmc => simp [put, find?, Function.update_apply]

theorem rpf_of_find? {rif : RifId} (hm : a.find? .rpf rif = some m) : a.rpf = some m :=
  (Option.filter_eq_some_iff.mp hm).1

theorem rpf_of_checkAdd {rif : RifId} {u : Unit} (h : a.checkAdd .rpf rif = .ok u) :
    a.rpf = none := by
  cases ha : a.rpf with
  | none => rfl
  | some m => by_cases hrif : m.rif = rif <;> simp [checkAdd, ha, hrif] at h

theorem find?_clear (hm : a.find? role m.rif = some m) (role' : Role) (rif : RifId) :
    (a.clear m role).find? role' rif =
      if role' = role ∧ rif = m.rif then none else a.find? role' rif := by
  cases role with
  | rpf =>
    cases role' with
    | ipmc => simp [clear, find?]
    | rpf =>
      have ha := rpf_of_find? hm
      by_cases hrif : rif = m.rif
      · simp [clear, find?, hrif]
      · simp [clear, find?, Option.filter_some, hrif, ha, Ne.symm hrif]
  | ipmc =>
    cases role' with
    | rpf => simp [clear, find?]
    | ipmc => simp [clear, find?, Function.update_apply]

end Roster

theorem RifId.before_iff {r r' : RifId} : SortKey.Before r r' ↔ r.number < r'.number := by
  simp [SortKey.Before, SortKey.code, UInt32.lt_iff_toNat_lt, List.cons_lt_cons_iff]

namespace Table

variable {κ α : Type} [SortKey κ]

theorem ncard_find? [DecidableEq κ] (t : Table κ α) :
    {k | (t.find? k).isSome}.ncard = t.size := by
  have hkeys : {k | (t.find? k).isSome} = (t.keys.toFinset : Set κ) := by
    ext k
    rw [List.coe_toFinset]
    exact mem_keys_iff.symm
  rw [hkeys, Set.ncard_coe_finset, List.toFinset_card_of_nodup t.keys_nodup]
  exact List.length_map _

end Table

/-! What the edits of a member set do -/

namespace MemberSet

/-- The check is all that can refuse a member. -/
theorem add_eq (s : MemberSet) (role : Role) (m : Member) :
    s.add role m = (s.checkAdd role m.rif).map fun _ =>
      s.setRole ((s.ofRole role).insert m.rif m) role := by
  cases hcheck : s.checkAdd role m.rif with
  | error e =>
    unfold add
    rw [hcheck]
    rfl
  | ok u => exact add_eq_ok_iff.mpr ⟨hcheck, rfl⟩

/-- The check looks at members of its own role only. -/
theorem checkAdd_congr {s s' : MemberSet} {role : Role} (h : s.ofRole role = s'.ofRole role)
    (rif : RifId) : s.checkAdd role rif = s'.checkAdd role rif := by
  unfold checkAdd
  rw [h]
  cases role with
  | rpf =>
    have hrpf : s.rpf = s'.rpf := h
    rw [hrpf]
  | ipmc => rfl

end MemberSet

namespace Edit

theorem Atomic.map {σ α β : Type} {x : Edit σ α} (h : x.Atomic) (f : α → β) :
    (do let a ← x; return f a : Edit σ β).Atomic := by
  intro s e s' hs
  rw [on_bind] at hs
  rcases hx : x.on s with ⟨a | e', s''⟩
  · rw [hx] at hs
    cases hs
    exact h s _ _ hx
  · rw [hx] at hs
    cases hs

end Edit

namespace MemberEdit

theorem atomic (e : MemberEdit) : e.run.Atomic := by
  cases e with
  | add role m =>
    refine Edit.Atomic.map ?_ fun _ => none
    rw [Edit.addMember_eq_change]
    exact Edit.atomic_change _
  | remove role rif => exact (Edit.atomic_change _).map some
  | setPorts role rif ports =>
    refine Edit.Atomic.map ?_ fun _ => none
    rw [Edit.setPorts_eq_change]
    exact Edit.atomic_change _

variable (s : MemberSet) (role : Role) (rif : RifId)

theorem add_on (m : Member) :
    (add role m).on s = match s.checkAdd role m.rif with
      | .ok _ => (.ok none, s.setRole ((s.ofRole role).insert m.rif m) role)
      | .error e => (.error e, s) := by
  rw [on, run, Edit.on_bind, Edit.addMember_eq_change, Edit.on_change, MemberSet.add_eq]
  cases s.checkAdd role m.rif <;> rfl

theorem remove_on :
    (remove role rif).on s = match (s.ofRole role).find? rif with
      | some m => (.ok (some m), s.setRole ((s.ofRole role).erase rif) role)
      | none => (.error (.memberNotFound role rif), s) := by
  rw [on, run, Edit.on_bind, Edit.removeMember_eq_change, Edit.on_change, MemberSet.remove,
    Table.remove]
  cases (s.ofRole role).find? rif <;> rfl

theorem setPorts_on (ports : PortSet) :
    (setPorts role rif ports).on s = match (s.ofRole role).find? rif with
      | some m =>
        (.ok none, s.setRole ((s.ofRole role).insert rif { m with ports := ports }) role)
      | none => (.error (.memberNotFound role rif), s) := by
  rw [on, run, Edit.on_bind, Edit.setPorts_eq_change, Edit.on_change, MemberSet.setPorts,
    MemberSet.get]
  cases hm : (s.ofRole role).find? rif with
  | none => rfl
  | some m =>
    rw [Table.modify_eq_insert _ hm]
    rfl

/-! An edit keeps to the members of its role -/

theorem ofRole_on_of_ne (e : MemberEdit) (s : MemberSet) {role : Role} (h : role ≠ e.role) :
    (e.on s).2.ofRole role = s.ofRole role := by
  cases e with
  | add role' m =>
    change role ≠ role' at h
    rw [add_on]
    cases s.checkAdd role' m.rif <;> simp [h]
  | remove role' rif =>
    change role ≠ role' at h
    rw [remove_on]
    cases (s.ofRole role').find? rif <;> simp [h]
  | setPorts role' rif ports =>
    change role ≠ role' at h
    rw [setPorts_on]
    cases (s.ofRole role').find? rif <;> simp [h]

/-- Neither its answer nor what it does to them depends on the others. -/
theorem on_congr (e : MemberEdit) {s s' : MemberSet} (h : s.ofRole e.role = s'.ofRole e.role) :
    (e.on s).1 = (e.on s').1 ∧ (e.on s).2.ofRole e.role = (e.on s').2.ofRole e.role := by
  cases e with
  | add role m =>
    change s.ofRole role = s'.ofRole role at h
    rw [add_on, add_on, MemberSet.checkAdd_congr h]
    cases s'.checkAdd role m.rif <;> simp [MemberEdit.role, h]
  | remove role rif =>
    change s.ofRole role = s'.ofRole role at h
    rw [remove_on, remove_on, h]
    cases (s'.ofRole role).find? rif <;> simp [MemberEdit.role, h]
  | setPorts role rif ports =>
    change s.ofRole role = s'.ofRole role at h
    rw [setPorts_on, setPorts_on, h]
    cases (s'.ofRole role).find? rif <;> simp [MemberEdit.role, h]

/-- A run of edits is to the members of one role what the edits of that role alone are. -/
theorem replay_ofRole (role : Role) (es : List MemberEdit) {s s' : MemberSet}
    (h : s.ofRole role = s'.ofRole role) :
    (replay on es s).1.filter (·.1.role = role) =
        (replay on (es.filter (·.role = role)) s').1 ∧
      (replay on es s).2.ofRole role =
        (replay on (es.filter (·.role = role)) s').2.ofRole role := by
  induction es generalizing s s' with
  | nil => exact ⟨rfl, h⟩
  | cons e es ih =>
    by_cases hrole : e.role = role
    · subst hrole
      obtain ⟨hanswer, hleft⟩ := e.on_congr h
      obtain ⟨hanswers, hleft⟩ := ih hleft
      simp [replay, hanswer, hanswers, hleft]
    · -- an edit of the other role is not in the run that is compared
      have hleft : (e.on s).2.ofRole role = s'.ofRole role :=
        (e.ofRole_on_of_ne s (Ne.symm hrole)).trans h
      obtain ⟨hanswers, hleft⟩ := ih hleft
      simp [replay, hrole, hanswers, hleft]

end MemberEdit

/-! What a member set has in common with its roster -/

/-- The set has the members of the roster. -/
structure MemberSet.Models (s : MemberSet) (a : Roster) : Prop where
  find? : ∀ role rif, (s.ofRole role).find? rif = a.find? role rif
  /-- Members are under their own interfaces. -/
  keyed : ∀ role rif m, a.find? role rif = some m → m.rif = rif

namespace MemberSet.Models

variable {s : MemberSet} {a : Roster}

theorem empty : MemberSet.empty.Models .empty where
  find? := by
    intro role rif
    cases role <;> rfl
  keyed := by
    intro role rif m hm
    cases role <;> cases hm

/-- There is at most one ingress member, so the order of entries does not matter. -/
theorem rpf_entries (h : s.Models a) :
    s.rpf.entries = (a.rpf.map fun m => (m.rif, m)).toList := by
  have hfind : ∀ rif, s.rpf.find? rif = a.rpf.filter (·.rif = rif) := h.find? .rpf
  cases hrpf : a.rpf with
  | none =>
    have : s.rpf = ∅ := Table.ext_find? fun rif => by
      rw [hfind, hrpf]
      rfl
    rw [this]
    rfl
  | some m =>
    have : s.rpf = (∅ : Table RifId Member).insert m.rif m := Table.ext_find? fun rif => by
      rw [hfind, hrpf]
      by_cases hrif : rif = m.rif
      · simp [hrif, Option.filter]
      · simp [hrif, Option.filter, Ne.symm hrif]
    rw [this]
    rfl

theorem keyedBy (h : s.Models a) (role : Role) : (s.ofRole role).KeyedBy Member.rif := by
  intro rif m hm
  rw [h.find?] at hm
  exact h.keyed role rif m hm

theorem get_eq (h : s.Models a) (role : Role) (rif : RifId) : s.get role rif = a.get role rif := by
  cases hm : a.find? role rif <;> simp [MemberSet.get, Roster.get, h.find?, hm]

theorem checkAdd_eq (h : s.Models a) (role : Role) (rif : RifId) :
    s.checkAdd role rif = a.checkAdd role rif := by
  have hcontains : (s.ofRole role).contains rif = (a.find? role rif).isSome :=
    congrArg Option.isSome (h.find? role rif)
  have hhead : s.rpf.keys.head? = a.rpf.map Member.rif := by
    rw [Table.keys, h.rpf_entries]
    cases a.rpf <;> rfl
  unfold MemberSet.checkAdd
  rw [hcontains, hhead]
  cases role with
  | rpf =>
    cases hrpf : a.rpf with
    | none => simp [Roster.checkAdd, Roster.find?, hrpf]
    | some m =>
      by_cases hrif : m.rif = rif <;>
        simp [Roster.checkAdd, Roster.find?, hrpf, hrif, Option.filter]
  | ipmc => cases hm : a.ipmc rif <;> simp [Roster.checkAdd, Roster.find?, hm]

/-! Edits keep set and roster together -/

/-- A change that gives one interface the member `v`, or none, on both sides. -/
theorem set (h : s.Models a) {role : Role} {rif : RifId} {v : Option Member}
    {t : Table RifId Member} {a' : Roster}
    (ht : ∀ rif', t.find? rif' = if rif' = rif then v else (s.ofRole role).find? rif')
    (ha : ∀ role' rif', a'.find? role' rif' =
      if role' = role ∧ rif' = rif then v else a.find? role' rif')
    (hv : ∀ m, v = some m → m.rif = rif) : (s.setRole t role).Models a' where
  find? := by
    intro role' rif'
    rw [ha, ofRole_setRole]
    by_cases hrole : role' = role
    · subst hrole
      simp [ht, h.find?]
    · simp [hrole, h.find?]
  keyed := by
    intro role' rif' m hm
    rw [ha] at hm
    split at hm
    · next hplace => exact (hv m hm).trans hplace.2.symm
    · exact h.keyed role' rif' m hm

theorem put (h : s.Models a) {role : Role} {m : Member}
    (hplace : role = .rpf → ∀ m', a.rpf = some m' → m'.rif = m.rif) :
    (s.setRole ((s.ofRole role).insert m.rif m) role).Models (a.put m role) :=
  h.set (by simp) (Roster.find?_put hplace) (by rintro _ ⟨⟩; rfl)

theorem clear (h : s.Models a) {role : Role} {m : Member} (hm : a.find? role m.rif = some m) :
    (s.setRole ((s.ofRole role).erase m.rif) role).Models (a.clear m role) :=
  h.set (by simp) (Roster.find?_clear hm) nofun

/-- An edit answers as it does on the roster, and what it leaves has the members left there. -/
theorem step (h : s.Models a) (e : MemberEdit) :
    (e.on s).1 = (Roster.step e a).1 ∧ (e.on s).2.Models (Roster.step e a).2 := by
  cases e with
  | add role m =>
    rw [MemberEdit.add_on, h.checkAdd_eq, Roster.step]
    cases hcheck : a.checkAdd role m.rif with
    | error => exact ⟨rfl, h⟩
    | ok =>
      refine ⟨rfl, h.put ?_⟩
      -- the check has found the ingress place free
      rintro rfl m' hm'
      rw [Roster.rpf_of_checkAdd hcheck] at hm'
      cases hm'
  | remove role rif =>
    rw [MemberEdit.remove_on, h.find?, Roster.step, Roster.get]
    cases hm : a.find? role rif with
    | none => exact ⟨rfl, h⟩
    | some m =>
      obtain rfl := h.keyed role rif m hm
      exact ⟨rfl, h.clear hm⟩
  | setPorts role rif ports =>
    rw [MemberEdit.setPorts_on, h.find?, Roster.step, Roster.get]
    cases hm : a.find? role rif with
    | none => exact ⟨rfl, h⟩
    | some m =>
      obtain rfl := h.keyed role rif m hm
      refine ⟨rfl, h.put (m := { m with ports := ports }) ?_⟩
      -- the member keeps the place that it has
      rintro rfl m' hm'
      rw [Roster.rpf_of_find? hm] at hm'
      cases hm'
      rfl

end MemberSet.Models

namespace MemberSet

theorem replay_models (es : List MemberEdit) {s : MemberSet} {a : Roster} (h : s.Models a) :
    (replay MemberEdit.on es s).1 = (replay Roster.step es a).1 ∧
      (replay MemberEdit.on es s).2.Models (replay Roster.step es a).2 := by
  induction es generalizing s a with
  | nil => exact ⟨rfl, h⟩
  | cons e es ih =>
    obtain ⟨hanswer, hleft⟩ := h.step e
    obtain ⟨hanswers, hleft⟩ := ih hleft
    simp [replay, hanswer, hanswers, hleft]

/-- All that can be asked of the set without changing it. -/
structure Shows (s : MemberSet) (a : Roster) : Prop where
  get : ∀ role rif, s.get role rif = a.get role rif
  handle : ∀ role rif, s.handle role rif = (a.get role rif).map Member.handle
  contains : ∀ role rif, s.contains role rif = (a.find? role rif).isSome
  rpfSize : s.size .rpf = a.rpf.toList.length
  ipmcSize : s.size .ipmc = {rif | (a.ipmc rif).isSome}.ncard
  isEmpty : s.isEmpty = true ↔ a = .empty
  rpfMember : s.rpfMember? = a.rpf
  /-- In whatever order the ingress members are visited, the first is the same. -/
  rpfFirst : ∀ visited : List (RifId × Member), visited.Perm s.rpf.entries →
    visited.head? = a.rpf.map fun m => (m.rif, m)
  /-- The list is the only one in this order with these members. -/
  listed : ∀ role, (s.list role).Pairwise fun m m' => m.rif.number < m'.rif.number
  mem_list : ∀ role m, m ∈ s.list role ↔ a.find? role m.rif = some m
  checkAdd : ∀ role rif, s.checkAdd role rif = a.checkAdd role rif

theorem Models.shows {s : MemberSet} {a : Roster} (h : s.Models a) : s.Shows a where
  get := h.get_eq
  handle role rif := by
    rw [MemberSet.handle, h.get_eq]
    cases a.get role rif <;> rfl
  contains role rif := congrArg Option.isSome (h.find? role rif)
  rpfSize := by
    rw [size, ofRole, Table.size, h.rpf_entries]
    cases a.rpf <;> rfl
  ipmcSize := by
    have hfind : ∀ rif, a.ipmc rif = s.ipmc.find? rif := fun rif => (h.find? .ipmc rif).symm
    simp only [hfind, Table.ncard_find?]
    rfl
  isEmpty := by
    rw [MemberSet.isEmpty, Bool.and_eq_true]
    constructor
    · rintro ⟨hrpf, hipmc⟩
      have hnone : a.rpf = none := by
        have hentries := h.rpf_entries
        rw [List.isEmpty_iff.mp hrpf] at hentries
        cases hm : a.rpf with
        | none => rfl
        | some m => simp [hm] at hentries
      have hnowhere : a.ipmc = fun _ => none := funext fun rif =>
        (h.find? .ipmc rif).symm.trans (Table.find?_eq_none_of_isEmpty hipmc rif)
      exact Roster.ext hnone hnowhere
    · rintro rfl
      exact ⟨Table.isEmpty_of_find?_eq_none (h.find? .rpf),
        Table.isEmpty_of_find?_eq_none (h.find? .ipmc)⟩
  rpfMember := by
    rw [rpfMember?, Table.values, h.rpf_entries]
    cases a.rpf <;> rfl
  rpfFirst visited hvisited := by
    rw [h.rpf_entries] at hvisited
    cases hrpf : a.rpf with
    | none =>
      rw [hrpf] at hvisited
      rw [hvisited.eq_nil]
      rfl
    | some m =>
      rw [hrpf] at hvisited
      rw [List.perm_singleton.mp hvisited]
      rfl
  listed role := (h.keyedBy role).values_ascending.imp RifId.before_iff.mp
  mem_list role m := by
    rw [MemberSet.list, Table.mem_values_iff]
    simp only [h.find?]
    constructor
    · rintro ⟨rif, hm⟩
      obtain rfl := h.keyed role rif m hm
      exact hm
    · intro hm
      exact ⟨m.rif, hm⟩
  checkAdd := h.checkAdd_eq

/-- From the empty set on, edits answer and leave what they do on a roster. Those of one role have
no part in the other, and what is refused leaves no trace. -/
theorem refines_roster :
    (∀ es, (replay MemberEdit.on es .empty).1 = (replay Roster.step es .empty).1 ∧
      (replay MemberEdit.on es .empty).2.Shows (replay Roster.step es .empty).2) ∧
    (∀ role es s,
      (replay MemberEdit.on es s).1.filter (·.1.role = role) =
          (replay MemberEdit.on (es.filter (·.role = role)) s).1 ∧
        (replay MemberEdit.on es s).2.ofRole role =
          (replay MemberEdit.on (es.filter (·.role = role)) s).2.ofRole role) ∧
    (∀ e : MemberEdit, e.run.Atomic) ∧
    ∀ s role m, ((Edit.addMember role m).on s).1 = s.checkAdd role m.rif := by
  refine ⟨fun es => ?_, fun role es s => ?_, MemberEdit.atomic, fun s role m => ?_⟩
  · obtain ⟨hanswers, hleft⟩ := replay_models es .empty
    exact ⟨hanswers, hleft.shows⟩
  · exact MemberEdit.replay_ofRole role es rfl
  · rw [Edit.addMember_eq_change, Edit.on_change, add_eq]
    cases s.checkAdd role m.rif <;> rfl

/-- The ingress place is taken, by the same member or by another. -/
example :
    (replay MemberEdit.on [.add .rpf ⟨⟨1⟩, ⟨10⟩, ∅⟩, .add .rpf ⟨⟨2⟩, ⟨10⟩, ∅⟩,
      .add .rpf ⟨⟨3⟩, ⟨20⟩, ∅⟩] .empty).1.map Prod.snd =
      [.ok none, .error (.memberExists .rpf ⟨10⟩), .error (.rpfMemberExists ⟨10⟩)] := rfl

end MemberSet

end Multicast
