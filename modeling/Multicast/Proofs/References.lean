import Multicast.Proofs.SwitchStep

/-! The switch keeps its references sound under any calls, whoever makes them. -/
namespace Multicast.Switch

/-- Objects hang off live objects of their own device, and stored attributes name live sub-groups of
the device of their entry. -/
structure References (s : Switch) : Prop where
  supported : ∀ h o, s.objects.find? h = some o → s.Supports o
  backed : ∀ d e attrs, s.entries.find? (d, e) = some attrs → ∀ a ∈ attrs, s.Backs d a

variable {s s' : Switch} {d : DeviceId} {h : Handle} {kind : ObjectKind} {a : EntryAttr}

/-! Objects that stay live -/

theorem Supports.mono {o : Object} (ho : s.Supports o)
    (hlive : ∀ p kind, o.parent = some p → s.Live o.device p kind → s'.Live o.device p kind) :
    s'.Supports o := by
  unfold Supports at ho ⊢
  split at ho
  · exact ho
  · obtain ⟨p, hp, hparent⟩ := ho
    exact ⟨p, hp, hlive p _ hp hparent⟩
  · obtain ⟨p, hp, hparent⟩ := ho
    exact ⟨p, hp, hlive p _ hp hparent⟩
  · exact ho

theorem Backs.mono (ha : s.Backs d a)
    (hlive : ∀ h kind, a.target? = some h → s.Live d h kind → s'.Live d h kind) : s'.Backs d a := by
  cases a with
  | packetAction _ | ingress _ => trivial
  | outputGroup h | rpfGroup h => exact ha.imp (fun hnull => hnull) (hlive h _ rfl)

theorem Live.insert (hl : s.Live d h kind) (hn : s.Numbered) (hc : s.counter + 1 < 2 ^ 48)
    (o : Object) : (s.insert o).2.Live d h kind := by
  obtain ⟨o', hlive, ho'⟩ := hl
  have hne : h ≠ .make o.kind (s.counter + 1) := by
    rintro rfl
    rw [hn.fresh hc] at hlive
    cases hlive
  exact ⟨o', (Table.find?_insert_of_ne _ _ hne).trans hlive, ho'⟩

theorem Live.setPorts (hl : s.Live d h kind) (h' : Handle) (ports : List Handle) :
    Live { s with objects := s.objects.modify h' fun o => { o with bridgePorts := ports } }
      d h kind := by
  obtain ⟨o, hlive, ho⟩ := hl
  by_cases hh : h = h'
  · subst hh
    exact ⟨{ o with bridgePorts := ports }, Table.find?_modify_self _ hlive, ho⟩
  · exact ⟨o, (Table.find?_modify_of_ne _ _ hh).trans hlive, ho⟩

theorem Live.erase {h' : Handle} (hl : s.Live d h kind) (hne : h ≠ h') :
    Live { s with objects := s.objects.erase h' } d h kind := by
  obtain ⟨o, hlive, ho⟩ := hl
  exact ⟨o, (Table.find?_erase_of_ne _ hne).trans hlive, ho⟩

/-! Steps -/

namespace References

theorem empty : References .empty where
  supported := by
    intro h o ho
    cases ho
  backed := by
    intro d e attrs hattrs
    cases hattrs

theorem of_tables (hr : s.References) (ho : s'.objects = s.objects) (he : s'.entries = s.entries) :
    s'.References := by
  have hlive : ∀ d h kind, s.Live d h kind → s'.Live d h kind := by
    intro d h kind hl
    unfold Live
    rw [ho]
    exact hl
  constructor
  · intro h o hfind
    rw [ho] at hfind
    exact (hr.supported h o hfind).mono fun p kind _ => hlive _ p kind
  · intro d e attrs hfind a ha
    rw [he] at hfind
    exact (hr.backed d e attrs hfind a ha).mono fun h kind _ => hlive _ h kind

theorem insert (hr : s.References) (hn : s.Numbered) (hc : s.counter + 1 < 2 ^ 48) {o : Object}
    (ho : s.Supports o) : (s.insert o).2.References where
  supported := by
    intro h o' hfind
    change (s.objects.insert (.make o.kind (s.counter + 1)) o).find? h = some o' at hfind
    have ho' : s.Supports o' := by
      by_cases hh : h = .make o.kind (s.counter + 1)
      · rw [hh, Table.find?_insert_self] at hfind
        cases hfind
        exact ho
      · rw [Table.find?_insert_of_ne _ _ hh] at hfind
        exact hr.supported h o' hfind
    exact ho'.mono fun p kind _ hl => hl.insert hn hc o
  backed := by
    intro d e attrs hfind a ha
    exact (hr.backed d e attrs hfind a ha).mono fun p kind _ hl => hl.insert hn hc o

/-- Nothing refers to what goes. -/
theorem erase (hr : s.References)
    (hleaf : ∀ h' o, s.objects.find? h' = some o → o.parent ≠ some h)
    (hfree : ∀ k attrs, s.entries.find? k = some attrs → ∀ a ∈ attrs, a.target? ≠ some h) :
    References { s with objects := s.objects.erase h } where
  supported := by
    intro h' o hfind
    by_cases hh : h' = h
    · rw [hh, Table.find?_erase_self] at hfind
      cases hfind
    · rw [Table.find?_erase_of_ne _ hh] at hfind
      refine (hr.supported h' o hfind).mono fun p kind hp hl => hl.erase ?_
      rintro rfl
      exact hleaf h' o hfind hp
  backed := by
    intro d e attrs hfind a ha
    refine (hr.backed d e attrs hfind a ha).mono fun p kind hp hl => hl.erase ?_
    rintro rfl
    exact hfree (d, e) attrs hfind a ha hp

theorem setPorts (hr : s.References) (h : Handle) (ports : List Handle) :
    References
      { s with objects := s.objects.modify h fun o => { o with bridgePorts := ports } } where
  supported := by
    intro h' o hfind
    have ho : s.Supports o := by
      by_cases hh : h' = h
      · rw [hh, Table.find?_modify, if_pos rfl, Option.map_eq_some_iff] at hfind
        obtain ⟨o₀, hfind, rfl⟩ := hfind
        exact hr.supported h o₀ hfind
      · rw [Table.find?_modify_of_ne _ _ hh] at hfind
        exact hr.supported h' o hfind
    exact ho.mono fun p kind _ hl => hl.setPorts h ports
  backed := by
    intro d e attrs hfind a ha
    exact (hr.backed d e attrs hfind a ha).mono fun p kind _ hl => hl.setPorts h ports

/-- Entries may change to any with backed attributes. -/
theorem setEntries (hr : s.References) {entries : Table (DeviceId × Entry) (List EntryAttr)}
    (hentries : ∀ d e attrs, entries.find? (d, e) = some attrs → ∀ a ∈ attrs, s.Backs d a) :
    References { s with entries := entries } :=
  ⟨hr.supported, hentries⟩

theorem step (hr : s.References) (hn : s.Numbered) (hs : s.Step d s')
    (hc : s'.counter < 2 ^ 48) : s'.References := by
  cases hs with
  | read => exact hr
  | insert o hd ho => exact hr.insert hn hc ho
  | erase h kind hlive hleaf hfree => exact hr.erase hleaf hfree
  | setPorts h kind ports hlive => exact hr.setPorts h ports
  | enter e attrs habsent hattrs =>
    refine hr.setEntries fun d' e' attrs' hfind => ?_
    by_cases hk : (d', e') = (d, e)
    · cases hk
      rw [Table.find?_insert_self] at hfind
      cases hfind
      exact hattrs
    · rw [Table.find?_insert_of_ne _ _ hk] at hfind
      exact hr.backed d' e' attrs' hfind
  | leave e hthere =>
    refine hr.setEntries fun d' e' attrs hfind => ?_
    by_cases hk : (d', e') = (d, e)
    · rw [hk, Table.find?_erase_self] at hfind
      cases hfind
    · rw [Table.find?_erase_of_ne _ hk] at hfind
      exact hr.backed d' e' attrs hfind
  | write e a hthere ha =>
    refine hr.setEntries fun d' e' attrs hfind b hb => ?_
    by_cases hk : (d', e') = (d, e)
    · cases hk
      rw [Table.find?_modify, if_pos rfl, Option.map_eq_some_iff] at hfind
      obtain ⟨attrs₀, hfind, rfl⟩ := hfind
      rcases List.mem_append.mp hb with hb | hb
      · exact hr.backed d e attrs₀ hfind b (List.mem_of_mem_filter hb)
      · exact List.mem_singleton.mp hb ▸ ha
    · rw [Table.find?_modify_of_ne _ _ hk] at hfind
      exact hr.backed d' e' attrs hfind b hb

end References

/-! Runs -/

/-- What may be done to a switch from outside, calls with any arguments among it. -/
inductive Input where
  | call (d : DeviceId) (c : Call)
  | register (d : DeviceId) (l : Lookup)
  | failNth (kind : CallKind) (nth : Nat) (status : Status)
  | clearFaults

def feed (s : Switch) : Input → Switch
  | .call d c => (s.call d c).2
  | .register d l => (s.register d l).2
  | .failNth kind nth status => s.failNth kind nth status
  | .clearFaults => s.clearFaults

def run (s : Switch) (inputs : List Input) : Switch := inputs.foldl feed s

theorem counter_le_feed (s : Switch) (input : Input) : s.counter ≤ (s.feed input).counter := by
  cases input with
  | call d c => exact s.counter_le_call d c
  | register d l => exact Nat.le_succ _
  | failNth kind nth status => exact Nat.le_refl _
  | clearFaults => exact Nat.le_refl _

theorem counter_le_run (s : Switch) (inputs : List Input) : s.counter ≤ (s.run inputs).counter := by
  induction inputs generalizing s with
  | nil => exact Nat.le_refl _
  | cons input rest ih => exact Nat.le_trans (s.counter_le_feed input) (ih (s.feed input))

theorem References.feed (hr : s.References) (hn : s.Numbered) {input : Input}
    (hc : (s.feed input).counter < 2 ^ 48) : (s.feed input).References := by
  cases input with
  | call d c =>
    rcases s.call_step d c with halike | ⟨s₀, halike, hstep⟩
    · exact hr.of_tables halike.objects halike.entries
    · exact (hr.of_tables halike.objects halike.entries).step (hn.alike halike) hstep hc
  | register d l => exact hr.of_tables rfl rfl
  | failNth kind nth status => exact hr.of_tables rfl rfl
  | clearFaults => exact hr.of_tables rfl rfl

theorem Numbered.feed (hn : s.Numbered) (input : Input) : (s.feed input).Numbered := by
  cases input with
  | call d c => exact hn.call d c
  | register d l => exact hn.mono rfl (Nat.le_succ _)
  | failNth kind nth status => exact hn
  | clearFaults => exact hn

theorem References.run (hr : s.References) (hn : s.Numbered) {inputs : List Input}
    (hc : (s.run inputs).counter < 2 ^ 48) : (s.run inputs).References := by
  induction inputs generalizing s with
  | nil => exact hr
  | cons input rest ih =>
    have hstep : (s.feed input).counter < 2 ^ 48 :=
      Nat.lt_of_le_of_lt ((s.feed input).counter_le_run rest) hc
    exact ih (hr.feed hn hstep) (hn.feed input) hc

/-- Whatever is asked of a new switch, its references stay sound, and a call that fails changes
neither table nor the counter of handles. -/
theorem references_stay_sound {inputs : List Input} (hc : (empty.run inputs).counter < 2 ^ 48) :
    (empty.run inputs).References ∧
    ∀ d c e, ((empty.run inputs).call d c).1.result = .error e →
      ((empty.run inputs).call d c).2.objects = (empty.run inputs).objects ∧
      ((empty.run inputs).call d c).2.entries = (empty.run inputs).entries ∧
      ((empty.run inputs).call d c).2.counter = (empty.run inputs).counter := by
  refine ⟨References.empty.run Numbered.empty hc, ?_⟩
  intro d c e he
  rcases (empty.run inputs).call_cases d c with ⟨_, _, halike⟩ | ⟨_, _, _, hok, _⟩
  · exact ⟨halike.objects, halike.entries, halike.counter⟩
  · rw [hok] at he
    cases he

/-- The route names the sub-group in the second of two attributes, the member in the second of its
two. Of the removals only the member's goes through. -/
def entangled : List Input :=
  let group := Handle.make .group 1
  let egress := Handle.make (.subGroup .ipmc) 2
  let entry := Entry.ofKey .null (.starG ⟨0⟩ (.v4 ⟨239, 1, 1, 1⟩))
  [.call ⟨1⟩ (.createGroup []), .call ⟨1⟩ (.createSubGroup .ipmc [group]),
    .call ⟨1⟩ (.createMember .ipmc [.subGroup .null, .subGroup egress]),
    .call ⟨1⟩ (.createEntry entry [.outputGroup .null, .outputGroup egress]),
    .call ⟨1⟩ (.removeMember .ipmc (.make (.member .ipmc) 3)),
    .failNth .removeGroup 1 .failure, .call ⟨1⟩ (.removeGroup group),
    .call ⟨1⟩ (.removeGroup group), .call ⟨1⟩ (.removeSubGroup .ipmc egress)]

theorem references_stay_sound_entangled :
    (empty.run entangled).counter < 2 ^ 48 ∧ (empty.run entangled).References ∧
    ∀ d c e, ((empty.run entangled).call d c).1.result = .error e →
      ((empty.run entangled).call d c).2.objects = (empty.run entangled).objects ∧
      ((empty.run entangled).call d c).2.entries = (empty.run entangled).entries ∧
      ((empty.run entangled).call d c).2.counter = (empty.run entangled).counter :=
  have hc : (empty.run entangled).counter < 2 ^ 48 := by decide +kernel
  ⟨hc, references_stay_sound hc⟩

end Multicast.Switch
