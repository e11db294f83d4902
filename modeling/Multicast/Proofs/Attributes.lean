import Multicast.Proofs.Acceptance
import Multicast.Proofs.References

/-! The attributes of an entry are a map with defaults. Of what was written the last counts, of what
the entry was created with the first. -/
namespace Multicast

namespace EntryAttr

theorem find?_write (attrs : List EntryAttr) (a : EntryAttr) (id : Id) :
    find? (write attrs a) id = if a.id = id then some a else find? attrs id := by
  unfold find? write
  induction attrs with
  | nil => by_cases h : a.id = id <;> simp [h]
  | cons b rest ih =>
    by_cases hb : b.id = a.id
    · rw [List.filter_cons_of_neg (by simp [hb]), ih]
      split
      · rfl
      · next h => rw [List.find?_cons_of_neg (by simp [hb, h])]
    · rw [List.filter_cons_of_pos (by simp [hb]), List.cons_append]
      by_cases hid : b.id = id
      · have h : a.id ≠ id := fun h => hb (hid.trans h.symm)
        rw [List.find?_cons_of_pos (by simp [hid]), List.find?_cons_of_pos (by simp [hid]),
          if_neg h]
      · rw [List.find?_cons_of_neg (by simp [hid]), List.find?_cons_of_neg (by simp [hid]), ih]

/-- The last of what was written, or else the first of what was there. -/
theorem find?_foldl_write (written attrs : List EntryAttr) (id : Id) :
    find? (written.foldl write attrs) id = (find? written.reverse id).or (find? attrs id) := by
  induction written generalizing attrs with
  | nil => rfl
  | cons a rest ih =>
    have happend : find? (rest.reverse ++ [a]) id = (find? rest.reverse id).or (find? [a] id) :=
      List.find?_append
    have hlast : find? [a] id = if a.id = id then some a else none := by simp [find?]
    rw [List.foldl_cons, ih, find?_write, List.reverse_cons, happend, hlast, Option.or_assoc]
    split <;> rfl

theorem id_default (id : Id) : (default id).id = id := by
  cases id <;> rfl

theorem id_read (attrs : List EntryAttr) (id : Id) : (read attrs id).id = id := by
  unfold read find?
  cases hfind : attrs.find? fun a => a.id = id with
  | none => exact id_default id
  | some a => simpa using List.find?_some hfind

end EntryAttr

namespace Switch

/-- What may be done to a switch, attributes overwritten behind its users' backs among it. -/
inductive Deed where
  | feed (input : Input)
  | force (d : DeviceId) (e : Entry) (a : EntryAttr)

def act (s : Switch) : Deed → Switch
  | .feed input => s.feed input
  | .force d e a => s.forceAttr d e a

def actAll (s : Switch) (deeds : List Deed) : Switch := deeds.foldl act s

/-- The attribute that a deed writes to an entry. A call that fails writes nothing. -/
def written (s : Switch) (d : DeviceId) (e : Entry) : Deed → List EntryAttr
  | .force d' e' a => if (d', e') = (d, e) then [a] else []
  | .feed (.call d' (.setEntry e' a)) =>
    if (d', e') = (d, e) ∧ (s.call d' (.setEntry e' a)).1.result = .ok () then [a] else []
  | _ => []

/-- The attributes that the deeds write to an entry, in order. -/
def writtenAll (s : Switch) (d : DeviceId) (e : Entry) : List Deed → List EntryAttr
  | [] => []
  | deed :: rest => s.written d e deed ++ (s.act deed).writtenAll d e rest

variable {s s' : Switch} {d d' : DeviceId} {e e' : Entry} {c : Call} {attrs : List EntryAttr}

theorem entryAttrs?_alike (h : s.Alike s') : s'.entryAttrs? d e = s.entryAttrs? d e := by
  rw [entryAttrs?, h.entries, entryAttrs?]

theorem entryAttrs?_forceAttr (h : s.entryAttrs? d e = some attrs) (a : EntryAttr) :
    (s.forceAttr d' e' a).entryAttrs? d e =
      some (if (d', e') = (d, e) then EntryAttr.write attrs a else attrs) := by
  split
  · next hk =>
    cases hk
    exact Table.find?_modify_self _ h
  · next hk => exact (Table.find?_modify_of_ne _ _ (Ne.symm hk)).trans h

/-- Calls other than the writing of attributes and the removal of the entry itself leave it. -/
theorem entryAttrs?_perform {reply : c.Reply} (h : s.entryAttrs? d e = some attrs)
    (hset : ∀ e' a, c ≠ .setEntry e' a) (hremove : (d', c) ≠ (d, .removeEntry e))
    (hs : s.perform d' c = .ok (reply, s')) : s'.entryAttrs? d e = some attrs := by
  rw [← h]
  unfold entryAttrs?
  cases c with
  | createGroup _ | createSubGroup _ _ | createMember _ _ =>
    rw [entries_of_handles rfl hs]
  | removeGroup _ | removeSubGroup _ _ | removeMember _ _ =>
    rw [remove_eq_ok (Call.eq_ok_of_map hs)]
  | setMember role member attr =>
    obtain ⟨-, ports, rfl⟩ := setPorts_of_setMember (Call.eq_ok_of_map hs)
    rfl
  | createEntry e' attrs' =>
    have ⟨habsent, heq⟩ := createEntry_eq_ok (Call.eq_ok_of_map hs)
    have hne : (d, e) ≠ (d', e') := by
      intro hk
      rw [← hk, Table.contains_of_find? h] at habsent
      cases habsent
    rw [heq]
    exact Table.find?_insert_of_ne _ _ hne
  | removeEntry e' =>
    have hne : (d, e) ≠ (d', e') := by
      rintro ⟨⟩
      exact hremove rfl
    rw [(removeEntry_eq_ok (Call.eq_ok_of_map hs)).2]
    exact Table.find?_erase_of_ne _ hne
  | setEntry e' a => exact (hset e' a rfl).elim
  | readEntry e' ids => rw [eq_of_readEntry hs]

/-- Until it is removed, an entry changes by what is written to it. -/
theorem entryAttrs?_act (h : s.entryAttrs? d e = some attrs) {deed : Deed}
    (hkept : deed ≠ .feed (.call d (.removeEntry e))) :
    (s.act deed).entryAttrs? d e = some ((s.written d e deed).foldl EntryAttr.write attrs) := by
  cases deed with
  | force d' e' a =>
    refine (entryAttrs?_forceAttr h a).trans (congrArg some ?_)
    simp only [written]
    split <;> rfl
  | feed input =>
    cases input with
    | register _ _ | failNth _ _ _ | clearFaults => exact h
    | call d' c =>
      have hstill : (∀ e' a, c ≠ .setEntry e' a) →
          (s.call d' c).2.entryAttrs? d e = some attrs := by
        intro hset
        rcases s.call_cases d' c with ⟨_, -, halike⟩ | ⟨_, s₀, halike, -, hs⟩
        · exact (entryAttrs?_alike halike).trans h
        · refine entryAttrs?_perform ((entryAttrs?_alike halike).trans h) hset ?_ hs
          rintro ⟨⟩
          exact hkept rfl
      cases c with
      | setEntry e' a =>
        simp only [written]
        rcases s.call_cases d' (.setEntry e' a) with
          ⟨_, herror, halike⟩ | ⟨reply, s₀, halike, hok, hs⟩
        · rw [if_neg (by simp [herror])]
          exact (entryAttrs?_alike halike).trans h
        · have hforce := (setEntry_eq_ok (Call.eq_ok_of_map hs)).2
          change (s.call d' (.setEntry e' a)).2.entryAttrs? d e = _
          rw [hforce, entryAttrs?_forceAttr ((entryAttrs?_alike halike).trans h), hok]
          by_cases hk : (d', e') = (d, e)
          · rw [if_pos hk, if_pos ⟨hk, rfl⟩]
            rfl
          · rw [if_neg hk, if_neg fun h => hk h.1]
            rfl
      | _ => exact hstill nofun

theorem entryAttrs?_actAll (h : s.entryAttrs? d e = some attrs) {deeds : List Deed}
    (hkept : ∀ deed ∈ deeds, deed ≠ .feed (.call d (.removeEntry e))) :
    (s.actAll deeds).entryAttrs? d e =
      some ((s.writtenAll d e deeds).foldl EntryAttr.write attrs) := by
  induction deeds generalizing s attrs with
  | nil => exact h
  | cons deed rest ih =>
    obtain ⟨hdeed, hrest⟩ := List.forall_mem_cons.mp hkept
    rw [writtenAll, List.foldl_append]
    exact ih (entryAttrs?_act h hdeed) hrest

/-- A read of an entry fails by injection only. -/
theorem call_readEntry (h : s.entryAttrs? d e = some attrs) (ids : List EntryAttr.Id) :
    (s.call d (.readEntry e ids)).1.result =
      match (passFault .readEntry s.faults).1 with
      | some status => .error (.ofStatus status)
      | none => .ok (ids.map (EntryAttr.read attrs)) := by
  have hperform : ∀ s₀ : Switch, s.Alike s₀ →
      s₀.perform d (.readEntry e ids) = .ok (ids.map (EntryAttr.read attrs), s₀) := by
    intro s₀ halike
    simp only [perform, readEntry, (entryAttrs?_alike halike).trans h]
    rfl
  rcases call_cases_of_perform fun s₀ halike => ⟨_, _, hperform s₀ halike⟩ with
    ⟨status, hfired, hresult, -⟩ | ⟨hfired, reply, s₀, halike, hresult, hs⟩
  · have hfired : (passFault .readEntry s.faults).1 = some status := hfired
    rw [hresult, hfired]
  · have hfired : (passFault .readEntry s.faults).1 = none := hfired
    rw [hperform s₀ halike] at hs
    cases hs
    rw [hresult, hfired]

/-- From the creation of an entry on, whatever else is done, a read that no fault hits answers with
one attribute for each id, in the order asked for: what was last written, else the first of the
creation, else the default. -/
theorem reads_answer_latest (s₀ : Switch) (d : DeviceId) (e : Entry) (attrs : List EntryAttr)
    (hcreated : (s₀.call d (.createEntry e attrs)).1.result = .ok ()) {deeds : List Deed}
    (hkept : ∀ deed ∈ deeds, deed ≠ .feed (.call d (.removeEntry e))) (ids : List EntryAttr.Id) :
    let s := (s₀.call d (.createEntry e attrs)).2
    let value := fun id =>
      ((EntryAttr.find? (s.writtenAll d e deeds).reverse id).or (EntryAttr.find? attrs id)).getD
        (.default id)
    (∀ id, (value id).id = id) ∧
    ((s.actAll deeds).call d (.readEntry e ids)).1.result =
      match (passFault .readEntry (s.actAll deeds).faults).1 with
      | some status => .error (.ofStatus status)
      | none => .ok (ids.map value) := by
  intro s value
  have hstart : s.entryAttrs? d e = some attrs := by
    rcases s₀.call_cases d (.createEntry e attrs) with ⟨_, herror, -⟩ | ⟨_, s₁, -, -, hs⟩
    · rw [hcreated] at herror
      cases herror
    · have hentries : s = { s₁ with entries := s₁.entries.insert (d, e) attrs } :=
        (createEntry_eq_ok (Call.eq_ok_of_map hs)).2
      rw [hentries]
      exact Table.find?_insert_self _ _ _
  have hvalue : EntryAttr.read ((s.writtenAll d e deeds).foldl EntryAttr.write attrs) = value := by
    funext id
    rw [EntryAttr.read, EntryAttr.find?_foldl_write]
  refine ⟨fun id => hvalue ▸ EntryAttr.id_read _ id, ?_⟩
  rw [call_readEntry (entryAttrs?_actAll hstart hkept), hvalue]

def sample : Entry := .ofKey .null (.starG ⟨0⟩ (.v4 ⟨239, 1, 1, 1⟩))

/-- The action is given twice. -/
def doubled : List EntryAttr := [.packetAction .trapToCpu, .ingress ⟨6⟩, .packetAction .forward]

/-- Of the writes of the ingress one goes to a device without the entry and one meets a fault. The
forced attribute is of a kind that was not there. -/
def rewritten : List Deed :=
  let other := Entry.ofKey .null (.starG ⟨0⟩ (.v4 ⟨239, 1, 1, 2⟩))
  [.feed (.failNth .setEntry 3 .failure), .feed (.call ⟨1⟩ (.setEntry sample (.ingress ⟨7⟩))),
    .feed (.call ⟨2⟩ (.setEntry sample (.ingress ⟨9⟩))),
    .feed (.call ⟨1⟩ (.setEntry sample (.ingress ⟨8⟩))),
    .feed (.call ⟨1⟩ (.createEntry other [.packetAction .forward])),
    .force ⟨1⟩ sample (.rpfGroup ⟨5⟩), .feed (.call ⟨1⟩ (.removeEntry other))]

theorem reads_answer_latest_rewritten :
    (empty.call ⟨1⟩ (.createEntry sample doubled)).1.result = .ok () ∧
    (∀ deed ∈ rewritten, deed ≠ .feed (.call ⟨1⟩ (.removeEntry sample))) ∧
    (((empty.call ⟨1⟩ (.createEntry sample doubled)).2.actAll rewritten).call ⟨1⟩
      (.readEntry sample [.ingress, .packetAction, .rpfGroup, .outputGroup, .ingress])).1.result =
      .ok [.ingress ⟨7⟩, .packetAction .trapToCpu, .rpfGroup ⟨5⟩, .outputGroup .null,
        .ingress ⟨7⟩] := by
  have hcreated : (empty.call ⟨1⟩ (.createEntry sample doubled)).1.result = .ok () := by
    decide +kernel
  have hkept : ∀ deed ∈ rewritten, deed ≠ .feed (.call ⟨1⟩ (.removeEntry sample)) := by
    simp [rewritten, sample, Entry.ofKey, RouteKey.starG]
  have hread := (reads_answer_latest empty ⟨1⟩ sample doubled hcreated hkept
    [.ingress, .packetAction, .rpfGroup, .outputGroup, .ingress]).2
  exact ⟨hcreated, hkept, hread.trans (by decide +kernel)⟩

end Switch

end Multicast
