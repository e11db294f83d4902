import Multicast.Proofs.Accounts

/-! What a call that succeeds does to a switch: one step for each way in which it may change the
tables, with all that the switch has checked before. -/
namespace Multicast.Switch

/-- The handle names an object of that kind on the device. -/
def Live (s : Switch) (d : DeviceId) (h : Handle) (kind : ObjectKind) : Prop :=
  ∃ o, s.objects.find? h = some o ∧ o.device = d ∧ o.kind = kind

/-- The parent that an object of its kind needs is there, on its own device. -/
def Supports (s : Switch) (o : Object) : Prop :=
  match o.kind with
  | .group => o.parent = none
  | .subGroup _ => ∃ p, o.parent = some p ∧ s.Live o.device p .group
  | .member role => ∃ p, o.parent = some p ∧ s.Live o.device p (.subGroup role)
  | _ => False

/-- The sub-group that an attribute names is there, on that device, unless it is null. -/
def Backs (s : Switch) (d : DeviceId) : EntryAttr → Prop
  | .outputGroup h => h.isNull = true ∨ s.Live d h (.subGroup .ipmc)
  | .rpfGroup h => h.isNull = true ∨ s.Live d h (.subGroup .rpf)
  | _ => True

inductive Step (d : DeviceId) (s : Switch) : Switch → Prop where
  | read : Step d s s
  | insert (o : Object) (hd : o.device = d) (ho : s.Supports o) : Step d s (s.insert o).2
  | erase (h : Handle) (kind : ObjectKind) (hlive : s.Live d h kind)
    (hleaf : ∀ h' o, s.objects.find? h' = some o → o.parent ≠ some h)
    (hfree : ∀ k attrs, s.entries.find? k = some attrs → ∀ a ∈ attrs, a.target? ≠ some h) :
    Step d s { s with objects := s.objects.erase h }
  | setPorts (h : Handle) (kind : ObjectKind) (ports : List Handle) (hlive : s.Live d h kind) :
    Step d s { s with objects := s.objects.modify h fun o => { o with bridgePorts := ports } }
  | enter (e : Entry) (attrs : List EntryAttr) (habsent : s.entries.contains (d, e) = false)
    (hattrs : ∀ a ∈ attrs, s.Backs d a) :
    Step d s { s with entries := s.entries.insert (d, e) attrs }
  | leave (e : Entry) (hthere : s.entries.contains (d, e) = true) :
    Step d s { s with entries := s.entries.erase (d, e) }
  | write (e : Entry) (a : EntryAttr) (hthere : s.entries.contains (d, e) = true)
    (ha : s.Backs d a) : Step d s (s.forceAttr d e a)

variable {s s' : Switch} {d : DeviceId} {h : Handle} {kind : ObjectKind} {a : EntryAttr}

/-! Checks -/

theorem expect_eq_ok_iff : s.expect d h kind = .ok () ↔ s.Live d h kind := by
  unfold expect Live
  cases s.objects.find? h with
  | none => simp
  | some o => simp

theorem hasChild_eq_false_iff :
    s.hasChild h = false ↔ ∀ h' o, s.objects.find? h' = some o → o.parent ≠ some h := by
  unfold hasChild
  simp only [List.any_eq_false, beq_iff_eq, Table.mem_values_iff]
  constructor
  · intro hleaf h' o ho
    exact hleaf o ⟨h', ho⟩
  · rintro hleaf o ⟨h', ho⟩
    exact hleaf h' o ho

theorem isReferenced_eq_false_iff :
    s.isReferenced h = false ↔
      ∀ k attrs, s.entries.find? k = some attrs → ∀ a ∈ attrs, a.target? ≠ some h := by
  unfold isReferenced
  simp only [List.any_eq_false, List.any_eq_true, beq_iff_eq, not_exists, not_and,
    Table.mem_values_iff]
  constructor
  · intro hfree k attrs hattrs
    exact hfree attrs ⟨k, hattrs⟩
  · rintro hfree attrs ⟨k, hattrs⟩
    exact hfree k attrs hattrs

theorem checkAttr_eq_ok_iff : s.checkAttr d a = .ok () ↔ s.Backs d a := by
  cases a with
  | packetAction _ | ingress _ => simp [checkAttr, Backs]
  | outputGroup h | rpfGroup h =>
    cases hnull : h.isNull <;> simp [checkAttr, Backs, hnull, expect_eq_ok_iff]

theorem checkAttrs_eq_ok_iff {attrs : List EntryAttr} :
    s.checkAttrs d attrs = .ok () ↔ ∀ a ∈ attrs, s.Backs d a := by
  induction attrs with
  | nil => simp [checkAttrs]
  | cons a rest ih =>
    rw [checkAttrs, Except.bind_eq_ok_iff, List.forall_mem_cons, ← ih, ← checkAttr_eq_ok_iff]
    exact ⟨fun ⟨_, h⟩ => h, fun h => ⟨(), h⟩⟩

/-! Calls -/

theorem hasChild_of_remove (hs : s.remove d h kind = .ok s') : s.hasChild h = false := by
  obtain ⟨_, _, hs⟩ := Except.bind_eq_ok_iff.mp hs
  split at hs
  · cases hs
  · next hchild => exact Bool.eq_false_iff.mpr hchild

theorem step_of_remove (hs : s.remove d h kind = .ok s') : s.Step d s' := by
  obtain ⟨_, hexpect, hs⟩ := Except.bind_eq_ok_iff.mp hs
  split at hs
  · cases hs
  · next hchild =>
    split at hs
    · cases hs
    · next href =>
      cases hs
      exact .erase h kind (expect_eq_ok_iff.mp hexpect)
        (hasChild_eq_false_iff.mp (Bool.eq_false_iff.mpr hchild))
        (isReferenced_eq_false_iff.mp (Bool.eq_false_iff.mpr href))

theorem step_of_createSubGroup {role : Role} {groups : List Handle} {reply : Handle}
    (hs : s.createSubGroup d role groups = .ok (reply, s')) : s.Step d s' := by
  obtain ⟨group, hexpect, hs⟩ := insert_of_createSubGroup hs
  cases hs
  exact .insert _ rfl ⟨group, rfl, expect_eq_ok_iff.mp hexpect⟩

theorem step_of_createMember {role : Role} {attrs : List MemberAttr} {reply : Handle}
    (hs : s.createMember d role attrs = .ok (reply, s')) : s.Step d s' := by
  obtain ⟨subGroup, hexpect, hs⟩ := insert_of_createMember hs
  cases hs
  exact .insert _ rfl ⟨subGroup, rfl, expect_eq_ok_iff.mp hexpect⟩

theorem step_of_setMember {role : Role} {attr : MemberAttr}
    (hs : s.setMember d role h attr = .ok s') : s.Step d s' := by
  obtain ⟨hexpect, ports, rfl⟩ := setPorts_of_setMember hs
  exact .setPorts h _ ports (expect_eq_ok_iff.mp hexpect)

theorem step_of_createEntry {e : Entry} {attrs : List EntryAttr}
    (hs : s.createEntry d e attrs = .ok s') : s.Step d s' := by
  have ⟨habsent, heq⟩ := createEntry_eq_ok hs
  unfold createEntry at hs
  split at hs
  · cases hs
  · split at hs
    · cases hs
    · obtain ⟨_, hcheck, _⟩ := Except.bind_eq_ok_iff.mp hs
      rw [heq]
      exact .enter e attrs habsent (checkAttrs_eq_ok_iff.mp hcheck)

theorem step_of_setEntry {e : Entry} (hs : s.setEntry d e a = .ok s') : s.Step d s' := by
  have ⟨hthere, heq⟩ := setEntry_eq_ok hs
  obtain ⟨_, hcheck, _⟩ := Except.bind_eq_ok_iff.mp hs
  rw [heq]
  exact .write e a hthere (checkAttr_eq_ok_iff.mp hcheck)

theorem perform_step {c : Call} {reply : c.Reply} (hs : s.perform d c = .ok (reply, s')) :
    s.Step d s' := by
  cases c with
  | createGroup owners =>
    cases hs
    exact .insert _ rfl rfl
  | createSubGroup role groups => exact step_of_createSubGroup hs
  | createMember role attrs => exact step_of_createMember hs
  | removeGroup h | removeSubGroup role h | removeMember role h =>
    exact step_of_remove (Call.eq_ok_of_map hs)
  | setMember role h attr => exact step_of_setMember (Call.eq_ok_of_map hs)
  | createEntry e attrs => exact step_of_createEntry (Call.eq_ok_of_map hs)
  | removeEntry e =>
    have ⟨hthere, heq⟩ := removeEntry_eq_ok (Call.eq_ok_of_map hs)
    rw [heq]
    exact .leave e hthere
  | setEntry e a => exact step_of_setEntry (Call.eq_ok_of_map hs)
  | readEntry e ids =>
    rw [eq_of_readEntry hs]
    exact .read

/-- A call leaves the tables alone, or makes a step. -/
theorem call_step (s : Switch) (d : DeviceId) (c : Call) :
    s.Alike (s.call d c).2 ∨ ∃ s₀, s.Alike s₀ ∧ s₀.Step d (s.call d c).2 := by
  rcases s.call_cases d c with ⟨_, _, halike⟩ | ⟨reply, s₀, halike, _, hs⟩
  · exact .inl halike
  · exact .inr ⟨s₀, halike, perform_step hs⟩

/-! Handles given out and names, whatever is done -/

theorem Step.counter_le (hs : s.Step d s') : s.counter ≤ s'.counter := by
  cases hs with
  | insert o hd ho => exact Nat.le_succ _
  | _ => exact Nat.le_refl _

theorem Step.mappings_eq (hs : s.Step d s') : s'.mappings = s.mappings := by
  cases hs <;> rfl

theorem counter_le_call (s : Switch) (d : DeviceId) (c : Call) :
    s.counter ≤ (s.call d c).2.counter := by
  rcases s.call_step d c with halike | ⟨s₀, halike, hstep⟩
  · exact Nat.le_of_eq halike.counter.symm
  · exact Nat.le_trans (Nat.le_of_eq halike.counter.symm) hstep.counter_le

theorem mappings_call (s : Switch) (d : DeviceId) (c : Call) :
    (s.call d c).2.mappings = s.mappings := by
  rcases s.call_step d c with halike | ⟨s₀, halike, hstep⟩
  · exact halike.mappings
  · exact hstep.mappings_eq.trans halike.mappings

namespace Numbered

theorem alike (hn : s.Numbered) (ha : s.Alike s') : s'.Numbered :=
  hn.mono ha.objects (Nat.le_of_eq ha.counter.symm)

theorem step (hn : s.Numbered) (hs : s.Step d s') : s'.Numbered := by
  cases hs with
  | insert o hd ho => exact hn.insert o
  | erase h kind hlive hleaf hfree => exact hn.erase h
  | setPorts h kind ports hlive => exact hn.setPorts h ports
  | read | enter | leave | write => exact hn

theorem call (hn : s.Numbered) (d : DeviceId) (c : Call) : (s.call d c).2.Numbered := by
  rcases s.call_step d c with halike | ⟨s₀, halike, hstep⟩
  · exact hn.alike halike
  · exact (hn.alike halike).step hstep

end Numbered

end Multicast.Switch
