import Multicast.Proofs.Attributes

/-! Handles are given out once. Each comes with the code of its kind and the next number, so it
names nothing yet, nor will any later one name the same. -/
namespace Multicast

namespace Handle

/-- The top sixteen bits. -/
def typeBits (h : Handle) : Nat := (h.raw >>> 48).toNat

/-- The low 48 bits. -/
def number (h : Handle) : Nat := h.raw.toNat % 2 ^ 48

variable {kind : ObjectKind} {i : Nat}

theorem typeBits_make (hi : i < 2 ^ 48) : (make kind i).typeBits = kind.typeCode := by
  unfold typeBits
  rw [UInt64.toNat_shiftRight, toNat_make hi, show UInt64.toNat 48 % 64 = 48 from rfl,
    Nat.shiftRight_eq_div_pow]
  omega

theorem number_make (hi : i < 2 ^ 48) : (make kind i).number = i := by
  unfold number
  rw [toNat_make hi]
  omega

theorem make_ne_null : make kind i ≠ null := by
  intro h
  have hnull := isNull_make kind i
  rw [h] at hnull
  cases hnull

end Handle

/-- The kind and the handle of what a call has created, by its reply. -/
def Call.created? : (c : Call) → c.Reply → Option (ObjectKind × Handle)
  | .createGroup _, h => some (.group, h)
  | .createSubGroup role _, h => some (.subGroup role, h)
  | .createMember role _, h => some (.member role, h)
  | _, _ => none

namespace Switch

/-- The handle that a deed is answered with, and its kind, if it creates or registers something. -/
def handed? (s : Switch) : Deed → Option (ObjectKind × Handle)
  | .feed (.call d c) =>
    match (s.call d c).1.result with
    | .ok reply => c.created? reply
    | .error _ => none
  | .feed (.register d l) => some (l.kind, (s.register d l).1)
  | _ => none

/-- The handles that deeds are answered with, in order. -/
def handed (s : Switch) : List Deed → List (ObjectKind × Handle)
  | [] => []
  | deed :: rest => (s.handed? deed).toList ++ (s.act deed).handed rest

/-- What becomes of counter and objects, beside the handle that is given out. -/
inductive Issue (s s' : Switch) : Option (ObjectKind × Handle) → Prop where
  | none (hcounter : s'.counter = s.counter)
    (hobjects : ∀ h o, s'.objects.find? h = some o →
      ∃ o', s.objects.find? h = some o' ∧ o'.kind = o.kind) : Issue s s' none
  | name (kind : ObjectKind) (hcounter : s'.counter = s.counter + 1)
    (hobjects : s'.objects = s.objects) :
    Issue s s' (some (kind, .make kind (s.counter + 1)))
  | object (o : Object) (hcounter : s'.counter = s.counter + 1)
    (hobjects : s'.objects = s.objects.insert (.make o.kind (s.counter + 1)) o) :
    Issue s s' (some (o.kind, .make o.kind (s.counter + 1)))

variable {s s' : Switch} {d : DeviceId} {h : Handle} {given : Option (ObjectKind × Handle)}

namespace Issue

theorem of_eq (hcounter : s'.counter = s.counter) (hobjects : s'.objects = s.objects) :
    Issue s s' .none :=
  .none hcounter fun _ o ho => ⟨o, hobjects ▸ ho, rfl⟩

theorem of_alike {s₀ : Switch} (h : Issue s₀ s' given) (ha : s.Alike s₀) : Issue s s' given := by
  obtain ⟨counter, objects, entries, mappings, faults, journal⟩ := s
  obtain ⟨hcounter, hobjects, -, -⟩ := ha
  subst hcounter hobjects
  cases h with
  | none hcounter hobjects => exact .none hcounter hobjects
  | name kind hcounter hobjects => exact .name kind hcounter hobjects
  | object o hcounter hobjects => exact .object o hcounter hobjects

theorem insert (s : Switch) (o : Object) :
    Issue s (s.insert o).2 (some (o.kind, (s.insert o).1)) := .object o rfl rfl

theorem erase (s : Switch) (h : Handle) :
    Issue s { s with objects := s.objects.erase h } .none := by
  refine .none rfl fun h' o ho => ?_
  by_cases hh : h' = h
  · rw [hh, Table.find?_erase_self] at ho
    cases ho
  · rw [Table.find?_erase_of_ne _ hh] at ho
    exact ⟨o, ho, rfl⟩

theorem setPorts (s : Switch) (h : Handle) (ports : List Handle) :
    Issue s { s with objects := s.objects.modify h fun o => { o with bridgePorts := ports } }
      .none := by
  refine .none rfl fun h' o ho => ?_
  by_cases hh : h' = h
  · subst hh
    rw [Table.find?_modify, if_pos rfl, Option.map_eq_some_iff] at ho
    obtain ⟨o', ho', rfl⟩ := ho
    exact ⟨o', ho', rfl⟩
  · rw [Table.find?_modify_of_ne _ _ hh] at ho
    exact ⟨o, ho, rfl⟩

end Issue

theorem issue_perform {c : Call} {reply : c.Reply} (hs : s.perform d c = .ok (reply, s')) :
    Issue s s' (c.created? reply) := by
  cases c with
  | createGroup owners =>
    cases hs
    exact .insert s _
  | createSubGroup role groups =>
    obtain ⟨_, -, hs⟩ := insert_of_createSubGroup hs
    cases hs
    exact .insert s _
  | createMember role attrs =>
    obtain ⟨_, -, hs⟩ := insert_of_createMember hs
    cases hs
    exact .insert s _
  | removeGroup h | removeSubGroup role h | removeMember role h =>
    rw [remove_eq_ok (Call.eq_ok_of_map hs)]
    exact .erase s h
  | setMember role h attr =>
    obtain ⟨-, ports, rfl⟩ := setPorts_of_setMember (Call.eq_ok_of_map hs)
    exact .setPorts s h ports
  | createEntry e attrs =>
    rw [(createEntry_eq_ok (Call.eq_ok_of_map hs)).2]
    exact .of_eq rfl rfl
  | removeEntry e =>
    rw [(removeEntry_eq_ok (Call.eq_ok_of_map hs)).2]
    exact .of_eq rfl rfl
  | setEntry e a =>
    rw [(setEntry_eq_ok (Call.eq_ok_of_map hs)).2]
    exact .of_eq rfl rfl
  | readEntry e ids =>
    rw [eq_of_readEntry hs]
    exact .of_eq rfl rfl

theorem issue_act (s : Switch) (deed : Deed) : Issue s (s.act deed) (s.handed? deed) := by
  match deed with
  | .force d e a => exact .of_eq rfl rfl
  | .feed (.failNth ..) | .feed .clearFaults => exact .of_eq rfl rfl
  | .feed (.register d l) => exact .name l.kind rfl rfl
  | .feed (.call d c) =>
    change Issue s (s.call d c).2 _
    simp only [handed?]
    rcases s.call_cases d c with ⟨e, he, halike⟩ | ⟨reply, s₀, halike, hreply, hs⟩
    · rw [he]
      exact .of_eq halike.counter halike.objects
    · rw [hreply]
      exact (issue_perform hs).of_alike halike

/-! Runs -/

variable {deed : Deed} {deeds : List Deed} {x : ObjectKind × Handle}

theorem handed?_eq_some (h : s.handed? deed = some x) :
    x.2 = .make x.1 (s.counter + 1) ∧ (s.act deed).counter = s.counter + 1 := by
  have hissue := s.issue_act deed
  rw [h] at hissue
  cases hissue with
  | name _ hcounter _ | object _ hcounter _ => exact ⟨rfl, hcounter⟩

theorem counter_act (s : Switch) (deed : Deed) :
    (s.act deed).counter = s.counter + (s.handed? deed).toList.length := by
  have hissue := s.issue_act deed
  generalize s.handed? deed = given at hissue
  cases hissue with
  | none hcounter _ | name _ hcounter _ | object _ hcounter _ => exact hcounter

/-- The counter counts the handles given out. -/
theorem counter_actAll (s : Switch) (deeds : List Deed) :
    (s.actAll deeds).counter = s.counter + (s.handed deeds).length := by
  induction deeds generalizing s with
  | nil => rfl
  | cons deed rest ih =>
    rw [handed, List.length_append, ← Nat.add_assoc, ← counter_act]
    exact ih (s.act deed)

theorem actAll_append (s : Switch) (deeds later : List Deed) :
    s.actAll (deeds ++ later) = (s.actAll deeds).actAll later :=
  List.foldl_append

theorem exists_make_of_mem_handed (h : x ∈ s.handed deeds) :
    ∃ i, s.counter < i ∧ i ≤ (s.actAll deeds).counter ∧ x.2 = .make x.1 i := by
  induction deeds generalizing s with
  | nil => cases h
  | cons deed rest ih =>
    have hstart := s.counter_act deed
    have hend := (s.act deed).counter_actAll rest
    rcases List.mem_append.mp h with h | h
    · obtain ⟨hx, hcounter⟩ := handed?_eq_some (Option.mem_toList.mp h)
      refine ⟨s.counter + 1, Nat.lt_succ_self _, ?_, hx⟩
      change _ ≤ ((s.act deed).actAll rest).counter
      omega
    · obtain ⟨i, hlow, hhigh, hx⟩ := ih h
      exact ⟨i, by omega, hhigh, hx⟩

theorem handed_ascending (hc : (s.actAll deeds).counter < 2 ^ 48) :
    (s.handed deeds).Pairwise fun x y => x.2.number < y.2.number := by
  induction deeds generalizing s with
  | nil => exact .nil
  | cons deed rest ih =>
    have hc : ((s.act deed).actAll rest).counter < 2 ^ 48 := hc
    have hend := (s.act deed).counter_actAll rest
    refine List.pairwise_append.mpr ⟨?_, ih hc, fun x hx y hy => ?_⟩
    · cases s.handed? deed with
      | none => exact .nil
      | some x => exact List.pairwise_singleton _ x
    · obtain ⟨hx, hcounter⟩ := handed?_eq_some (Option.mem_toList.mp hx)
      obtain ⟨i, hlow, hhigh, hy⟩ := exists_make_of_mem_handed hy
      rw [hx, hy, Handle.number_make (by omega), Handle.number_make (by omega)]
      omega

/-- What is there was there before, or has been given out since. -/
theorem object_actAll {o : Object} (ho : (s.actAll deeds).objects.find? h = some o) :
    (∃ o', s.objects.find? h = some o' ∧ o'.kind = o.kind) ∨ (o.kind, h) ∈ s.handed deeds := by
  induction deeds generalizing s with
  | nil => exact .inl ⟨o, ho, rfl⟩
  | cons deed rest ih =>
    rcases ih ho with ⟨o', ho', hkind⟩ | hlater
    · have hissue := s.issue_act deed
      rw [← hkind, handed]
      generalize s.handed? deed = given at hissue
      cases hissue with
      | none _ hobjects => exact .inl (hobjects h o' ho')
      | name _ _ hobjects => exact .inl ⟨o', hobjects ▸ ho', rfl⟩
      | object new _ hobjects =>
        rw [hobjects] at ho'
        by_cases hh : h = .make new.kind (s.counter + 1)
        · rw [hh, Table.find?_insert_self] at ho'
          cases ho'
          exact .inr (hh ▸ List.mem_cons_self)
        · rw [Table.find?_insert_of_ne _ _ hh] at ho'
          exact .inl ⟨o', ho', rfl⟩
    · exact .inr (List.mem_append_right _ hlater)

theorem Numbered.actAll (hn : s.Numbered) (deeds : List Deed) : (s.actAll deeds).Numbered := by
  induction deeds generalizing s with
  | nil => exact hn
  | cons deed rest ih =>
    refine ih ?_
    cases deed with
    | feed input => exact hn.feed input
    | force d e a => exact hn

/-- A handle that is given out is new, and nothing that is there makes way for what it names. -/
theorem find?_act_of_handed (hn : s.Numbered) (hc : s.counter + 1 < 2 ^ 48)
    (h : s.handed? deed = some x) :
    s.objects.find? x.2 = none ∧
      ∀ h' o, s.objects.find? h' = some o → (s.act deed).objects.find? h' = some o := by
  have hfresh : s.objects.find? x.2 = none := (handed?_eq_some h).1 ▸ hn.fresh hc x.1
  refine ⟨hfresh, fun h' o ho => ?_⟩
  have hne : h' ≠ x.2 := by
    rintro rfl
    rw [hfresh] at ho
    cases ho
  have hissue := s.issue_act deed
  rw [h] at hissue
  cases hissue with
  | name _ _ hobjects => rw [hobjects, ho]
  | object new _ hobjects => rw [hobjects, Table.find?_insert_of_ne _ _ hne, ho]

/-- Whatever is done to a new switch, with fewer than 2 ^ 48 handles given out: none is null, each
carries the code of its kind, they ascend by number and so are all different, every object is under
one of them that was given out for its kind, and each was no object's when it was given out. -/
theorem handles_fresh_and_typed (hc : (empty.handed deeds).length < 2 ^ 48) :
    (∀ x ∈ empty.handed deeds, x.2 ≠ .null ∧ x.2.typeBits = x.1.typeCode) ∧
    (empty.handed deeds).Pairwise (fun x y => x.2.number < y.2.number ∧ x.2 ≠ y.2) ∧
    (∀ h o, (empty.actAll deeds).objects.find? h = some o → (o.kind, h) ∈ empty.handed deeds) ∧
    ∀ before deed after, deeds = before ++ deed :: after →
      ∀ x, (empty.actAll before).handed? deed = some x →
        (empty.actAll before).objects.find? x.2 = none ∧
        ∀ h o, (empty.actAll before).objects.find? h = some o →
          (empty.actAll (before ++ [deed])).objects.find? h = some o := by
  have hcounter : ∀ deeds, (empty.actAll deeds).counter = (empty.handed deeds).length :=
    fun deeds => (empty.counter_actAll deeds).trans (Nat.zero_add _)
  have hend : (empty.actAll deeds).counter < 2 ^ 48 := hcounter deeds ▸ hc
  refine ⟨fun x hx => ?_, ?_, fun h o ho => ?_, ?_⟩
  · obtain ⟨i, -, hi, hx⟩ := exists_make_of_mem_handed hx
    rw [hx]
    exact ⟨Handle.make_ne_null, Handle.typeBits_make (by omega)⟩
  · refine (handed_ascending hend).imp fun hlt => ⟨hlt, fun heq => ?_⟩
    rw [heq] at hlt
    exact Nat.lt_irrefl _ hlt
  · exact (object_actAll ho).resolve_left fun ⟨_, hnone, _⟩ => nomatch hnone
  · rintro before deed after rfl x hx
    have hstep : (empty.actAll (before ++ deed :: after)).counter =
        ((empty.actAll before).act deed).counter +
          (((empty.actAll before).act deed).handed after).length := by
      rw [← counter_actAll, actAll_append]
      rfl
    rw [(handed?_eq_some hx).2] at hstep
    rw [actAll_append]
    exact find?_act_of_handed (Numbered.empty.actAll before) (by omega) hx

/-- A group is made, removed and made again; in between a call fails, and another device registers
a port. -/
def reissued : List Deed :=
  [.feed (.register ⟨1⟩ (.vrf ⟨0⟩)), .feed (.call ⟨1⟩ (.createGroup [])),
    .feed (.call ⟨1⟩ (.removeGroup (.make .group 2))), .feed (.failNth .createGroup 1 .tableFull),
    .feed (.call ⟨1⟩ (.createGroup [])), .feed (.register ⟨2⟩ (.port (.lag 1))),
    .feed (.call ⟨1⟩ (.createGroup []))]

theorem handles_fresh_and_typed_reissued :
    (empty.handed reissued).length < 2 ^ 48 ∧
    empty.handed reissued = [(.virtualRouter, .make .virtualRouter 1), (.group, .make .group 2),
      (.bridgePort, .make .bridgePort 3), (.group, .make .group 4)] ∧
    (empty.handed reissued).Pairwise (fun x y => x.2.number < y.2.number ∧ x.2 ≠ y.2) := by
  have hhanded : empty.handed reissued = [(.virtualRouter, .make .virtualRouter 1),
      (.group, .make .group 2), (.bridgePort, .make .bridgePort 3), (.group, .make .group 4)] := by
    decide +kernel
  have hc : (empty.handed reissued).length < 2 ^ 48 := by
    rw [hhanded]
    decide
  exact ⟨hc, hhanded, (handles_fresh_and_typed hc).2.1⟩

end Switch

end Multicast
