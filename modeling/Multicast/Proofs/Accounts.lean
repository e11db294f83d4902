import Multicast.Proofs.Books
import Multicast.Proofs.Commit
import Multicast.Testbed

/-! Books kept along a run on a testbed that reports handles as they are. Each call has one rule,
for when it is needed and for when it takes something back. -/
namespace Multicast

def Event.isFailedUndo : Event → Bool
  | .call _ _ true (some _) => true
  | _ => false

/-- Undo calls that have failed. -/
def failedUndos (events : List Event) : Nat := events.countP Event.isFailedUndo

theorem failedUndos_append (l l' : List Event) :
    failedUndos (l ++ l') = failedUndos l + failedUndos l' :=
  List.countP_append

theorem failedUndos_logs (notes : List Log.Line) : failedUndos (notes.map .log) = 0 := by
  rw [failedUndos, List.countP_eq_zero]
  intro e he
  obtain ⟨_, -, rfl⟩ := List.mem_map.mp he
  exact Bool.false_ne_true

namespace Switch

/-- Only faults and journal may differ. -/
structure Alike (s s' : Switch) : Prop where
  counter : s'.counter = s.counter
  objects : s'.objects = s.objects
  entries : s'.entries = s.entries
  mappings : s'.mappings = s.mappings

/-- A call that fails has no effect, whether a fault was injected or not. -/
theorem call_cases (s : Switch) (d : DeviceId) (c : Call) :
    (∃ e, (s.call d c).1.result = .error e ∧ s.Alike (s.call d c).2) ∨
      ∃ reply s₀, s.Alike s₀ ∧ (s.call d c).1.result = .ok reply ∧
        s₀.perform d c = .ok (reply, (s.call d c).2) := by
  unfold call
  rcases passFault c.kind s.faults with ⟨_ | status, faults⟩
  · dsimp only
    split
    · next reply s' hs =>
      exact .inr ⟨reply, { s with journal := c.kind :: s.journal, faults := faults },
        ⟨rfl, rfl, rfl, rfl⟩, rfl, hs⟩
    · next e _ => exact .inl ⟨e, rfl, rfl, rfl, rfl, rfl⟩
  · exact .inl ⟨_, rfl, rfl, rfl, rfl, rfl⟩

/-! What calls of any arguments have found and done -/

theorem insert_of_createSubGroup {s : Switch} {d : DeviceId} {role : Role} {groups : List Handle}
    {made : Handle × Switch} (hs : s.createSubGroup d role groups = .ok made) :
    ∃ group, s.expect d group .group = .ok () ∧
      made = s.insert ⟨d, .subGroup role, some group, []⟩ := by
  cases groups with
  | nil => cases hs
  | cons group rest =>
    obtain ⟨_, hexpect, hs⟩ := Except.bind_eq_ok_iff.mp hs
    exact ⟨group, hexpect, (Except.ok.inj hs).symm⟩

theorem insert_of_createMember {s : Switch} {d : DeviceId} {role : Role} {attrs : List MemberAttr}
    {made : Handle × Switch} (hs : s.createMember d role attrs = .ok made) :
    ∃ subGroup, s.expect d subGroup (.subGroup role) = .ok () ∧
      made = s.insert ⟨d, .member role, some subGroup, MemberAttr.ports attrs⟩ := by
  unfold createMember at hs
  split at hs
  · cases hs
  · obtain ⟨_, hexpect, hs⟩ := Except.bind_eq_ok_iff.mp hs
    exact ⟨_, hexpect, (Except.ok.inj hs).symm⟩

/-- Only the port list can be set. -/
theorem setPorts_of_setMember {s s' : Switch} {d : DeviceId} {role : Role} {h : Handle}
    {attr : MemberAttr} (hs : s.setMember d role h attr = .ok s') :
    s.expect d h (.member role) = .ok () ∧ ∃ ports : List Handle,
      s' = { s with objects := s.objects.modify h fun o => { o with bridgePorts := ports } } := by
  obtain ⟨_, hexpect, hs⟩ := Except.bind_eq_ok_iff.mp hs
  cases attr with
  | bridgePorts ports => exact ⟨hexpect, ports, (Except.ok.inj hs).symm⟩
  | subGroup _ | routerInterface _ => cases hs

theorem eq_of_readEntry {s s' : Switch} {d : DeviceId} {e : Entry} {ids : List EntryAttr.Id}
    {found : List EntryAttr} (hs : s.perform d (.readEntry e ids) = .ok (found, s')) : s' = s := by
  simp only [perform] at hs
  cases hread : s.readEntry d e ids with
  | error err =>
    rw [hread] at hs
    cases hs
  | ok attrs =>
    rw [hread] at hs
    cases hs
    rfl

end Switch

namespace Testbed

/-- Without overrides a testbed does what its switch does. -/
theorem call_eq {t : Testbed} (ht : t.overrides = []) (d : DeviceId) (c : Call) :
    t.call d c = ((t.switch.call d c).1, { t with switch := (t.switch.call d c).2 }) := by
  have hreply : ∀ r : c.Reply, reply t.overrides c r = (r, t.overrides) := by
    intro r
    rw [ht]
    cases c <;> rfl
  unfold call
  rcases t.switch.call d c with ⟨⟨result, notes⟩, switch⟩
  cases result with
  | error e => rfl
  | ok r =>
    dsimp only
    rw [hreply]

theorem call_cases {t : Testbed} (ht : t.overrides = []) (d : DeviceId) (c : Call) :
    (t.call d c).2.overrides = [] ∧
      ((∃ e, (t.call d c).1.result = .error e ∧ t.switch.Alike (t.call d c).2.switch) ∨
        ∃ reply s₀, t.switch.Alike s₀ ∧ (t.call d c).1.result = .ok reply ∧
          s₀.perform d c = .ok (reply, (t.call d c).2.switch)) := by
  rw [call_eq ht]
  exact ⟨ht, t.switch.call_cases d c⟩

end Testbed

/-- What a run starts from. -/
structure Opening where
  mappings : Table (DeviceId × Lookup) Handle
  counter : Nat
  failures : Nat

/-- The books of a run under way. -/
structure Accounts (b : Opening) (items : List (Handle × Switch.Object)) (E : Programming)
    (r : Run Testbed) : Prop where
  overrides : r.state.overrides = []
  mappings : r.state.switch.mappings = b.mappings
  counter : b.counter ≤ r.state.switch.counter
  books : Books items E r.state.switch (b.failures + failedUndos r.events)

/-- How a call that succeeds changes the books. -/
def Call.Turns (c : Call) (d : DeviceId) (items : List (Handle × Switch.Object)) (E : Programming)
    (items' : c.Reply → List (Handle × Switch.Object)) (E' : Programming) : Prop :=
  ∀ n reply s s', Books items E s n → s.perform d c = .ok (reply, s') →
    s'.mappings = s.mappings ∧ s.counter ≤ s'.counter ∧ Books (items' reply) E' s' n

namespace Call

variable {d : DeviceId} {items : List (Handle × Switch.Object)} {E : Programming} {h : Handle}
  {o : Switch.Object} {e : Entry}

theorem createGroup_turns (owners : List Owner) :
    (Call.createGroup owners).Turns d items E
      (fun h => (h, (⟨d, .group, none, []⟩ : Switch.Object)) :: items) E := by
  intro n reply s s' hb hs
  cases hs
  exact ⟨rfl, Nat.le_succ _, hb.insert _⟩

theorem createSubGroup_turns (role : Role) (group : Handle) :
    (Call.createSubGroup role [group]).Turns d items E
      (fun h => (h, (⟨d, .subGroup role, some group, []⟩ : Switch.Object)) :: items) E := by
  intro n reply s s' hb hs
  have hs := Switch.createSubGroup_eq_ok hs
  cases hs
  exact ⟨rfl, Nat.le_succ _, hb.insert _⟩

theorem createMember_turns (role : Role) (subGroup rif : Handle) (ports : List Handle) :
    (Call.createMember role
      [.subGroup subGroup, .routerInterface rif, .bridgePorts ports]).Turns d items E
      (fun h => (h, (⟨d, .member role, some subGroup, ports⟩ : Switch.Object)) :: items) E := by
  intro n reply s s' hb hs
  have hs := Switch.createMember_eq_ok hs
  cases hs
  exact ⟨rfl, Nat.le_succ _, hb.insert _⟩

/-- Calls that reply nothing. -/
theorem eq_ok_of_map {x : Except HardwareError Switch} {reply : Unit} {s : Switch}
    (h : x.map (fun s => ((), s)) = .ok (reply, s)) : x = .ok s := by
  cases x with
  | error e => cases h
  | ok s =>
    cases h
    rfl

theorem remove_turns {c : Call} (kind : ObjectKind) {items' : List (Handle × Switch.Object)}
    (hc : ∀ s reply s', Switch.perform s d c = .ok (reply, s') → s.remove d h kind = .ok s')
    (hp : items.Perm ((h, o) :: items')) : c.Turns d items E (fun _ => items') E := by
  intro n reply s s' hb hs
  have hremove := hc s reply s' hs
  refine ⟨?_, ?_, (hb.perm hp).remove hremove⟩
  · rw [Switch.remove_eq_ok hremove]
  · exact Nat.le_of_eq (congrArg Switch.counter (Switch.remove_eq_ok hremove)).symm

theorem removeGroup_turns {items' : List (Handle × Switch.Object)}
    (hp : items.Perm ((h, o) :: items')) :
    (Call.removeGroup h).Turns d items E (fun _ => items') E := by
  refine remove_turns .group (h := h) ?_ hp
  exact fun s reply s' => eq_ok_of_map

theorem removeSubGroup_turns {role : Role} {items' : List (Handle × Switch.Object)}
    (hp : items.Perm ((h, o) :: items')) :
    (Call.removeSubGroup role h).Turns d items E (fun _ => items') E := by
  refine remove_turns (.subGroup role) (h := h) ?_ hp
  exact fun s reply s' => eq_ok_of_map

theorem removeMember_turns {role : Role} {items' : List (Handle × Switch.Object)}
    (hp : items.Perm ((h, o) :: items')) :
    (Call.removeMember role h).Turns d items E (fun _ => items') E := by
  refine remove_turns (.member role) (h := h) ?_ hp
  exact fun s reply s' => eq_ok_of_map

theorem setMember_turns {role : Role} {items' : List (Handle × Switch.Object)}
    (hp : items.Perm ((h, o) :: items')) (ports : List Handle) :
    (Call.setMember role h (.bridgePorts ports)).Turns d items E
      (fun _ => (h, { o with bridgePorts := ports }) :: items') E := by
  intro n reply s s' hb hs
  have hs := eq_ok_of_map hs
  refine ⟨?_, ?_, (hb.perm hp).setMember hs⟩
  · rw [Switch.setMember_eq_ok hs]
  · exact Nat.le_of_eq (congrArg Switch.counter (Switch.setMember_eq_ok hs)).symm

theorem createEntry_turns (v : RouteImage) :
    (Call.createEntry e v.attrs).Turns d items E (fun _ => items)
      (E.set (d, e) (some v)) := by
  intro n reply s s' hb hs
  have hs := eq_ok_of_map hs
  refine ⟨?_, ?_, (hb.createEntry hs).2⟩
  · rw [(Switch.createEntry_eq_ok hs).2]
  · exact Nat.le_of_eq (congrArg Switch.counter (Switch.createEntry_eq_ok hs).2).symm

/-- An entry can be created only where none should show. -/
theorem createEntry_tells {v : RouteImage} {n : Nat} {reply : (Call.createEntry e v.attrs).Reply}
    {s s' : Switch} (hb : Books items E s n)
    (hs : s.perform d (.createEntry e v.attrs) = .ok (reply, s')) : E (d, e) = none := by
  exact (hb.createEntry (eq_ok_of_map hs)).1

theorem removeEntry_turns :
    (Call.removeEntry e).Turns d items E (fun _ => items) (E.set (d, e) none) := by
  intro n reply s s' hb hs
  have hs := eq_ok_of_map hs
  refine ⟨?_, ?_, hb.removeEntry hs⟩
  · rw [(Switch.removeEntry_eq_ok hs).2]
  · exact Nat.le_of_eq (congrArg Switch.counter (Switch.removeEntry_eq_ok hs).2).symm

theorem setEntry_turns (a : EntryAttr) :
    (Call.setEntry e a).Turns d items E (fun _ => items) (E.write (d, e) a) := by
  intro n reply s s' hb hs
  have hs := eq_ok_of_map hs
  refine ⟨?_, ?_, hb.setEntry hs⟩
  · rw [(Switch.setEntry_eq_ok hs).2]
    rfl
  · exact Nat.le_of_eq (congrArg Switch.counter (Switch.setEntry_eq_ok hs).2).symm

theorem readEntry_turns (ids : List EntryAttr.Id) :
    (Call.readEntry e ids).Turns d items E (fun _ => items) E := by
  intro n reply s s' hb hs
  obtain rfl := Switch.eq_of_readEntry hs
  exact ⟨rfl, Nat.le_refl _, hb⟩

end Call

namespace Accounts

variable {b : Opening} {items : List (Handle × Switch.Object)} {E E' : Programming}
  {r : Run Testbed} {d : DeviceId} {c : Call}

theorem of_eq (ha : Accounts b items E r) {r' : Run Testbed} (hs : r'.state = r.state)
    (he : r'.events = r.events) : Accounts b items E r' := by
  obtain ⟨hover, hmap, hcounter, hbooks⟩ := ha
  rw [← hs] at hover hmap hcounter hbooks
  rw [← he] at hbooks
  exact ⟨hover, hmap, hcounter, hbooks⟩

/-- Events other than undo calls do not matter. -/
theorem emit (ha : Accounts b items E r) {e : Event} (he : e.isFailedUndo = false) :
    Accounts b items E { r with events := r.events ++ [e] } := by
  refine { ha with books := ?_ }
  have hzero : failedUndos [e] = 0 := by
    simp [failedUndos, he]
  rw [failedUndos_append, hzero]
  exact ha.books

theorem call_ends (ha : Accounts b items E r) (undo : Bool)
    {items' : c.Reply → List (Handle × Switch.Object)} {itemsF : List (Handle × Switch.Object)}
    {EF : Programming} (hok : c.Turns d items E items' E')
    (hfail : ∀ n s, Books items E s n → Books itemsF EF s (n + undo.toNat)) :
    (Effect.call Testbed.hardware d undo c).Ends r fun result r' =>
      match result with
      | .ok reply => Accounts b (items' reply) E' r'
      | .error _ => Accounts b itemsF EF r' := by
  have hcases := Testbed.call_cases ha.overrides d c
  rw [Effect.ends_call]
  change match (r.state.call d c).1.result with
    | .ok reply => Accounts b (items' reply) E' ⟨(r.state.call d c).2, r.cache,
      r.events ++ (r.state.call d c).1.notes.map .log ++
        [.call d c undo (Effect.failure? (r.state.call d c).1.result)]⟩
    | .error _ => Accounts b itemsF EF ⟨(r.state.call d c).2, r.cache,
      r.events ++ (r.state.call d c).1.notes.map .log ++
        [.call d c undo (Effect.failure? (r.state.call d c).1.result)]⟩
  generalize r.state.call d c = called at hcases
  obtain ⟨⟨result, notes⟩, t⟩ := called
  obtain ⟨hover, hcases⟩ := hcases
  have hevents : failedUndos (r.events ++ notes.map .log ++
      [.call d c undo (Effect.failure? result)]) =
      failedUndos r.events + failedUndos [.call d c undo (Effect.failure? result)] := by
    rw [failedUndos_append, failedUndos_append, failedUndos_logs, Nat.add_zero]
  have hsame : ∀ {s₀ : Switch}, r.state.switch.Alike s₀ →
      Books items E s₀ (b.failures + failedUndos r.events) := fun hsame =>
    ha.books.mono (Nat.le_of_eq hsame.counter.symm) hsame.objects hsame.entries (Nat.le_refl _)
  rcases hcases with ⟨e, rfl, halike⟩ | ⟨reply, s₀, halike, rfl, hperform⟩
  · refine ⟨hover, halike.mappings.trans ha.mappings, halike.counter ▸ ha.counter, ?_⟩
    have hcount : failedUndos [.call d c undo (Effect.failure? (.error e : Except _ c.Reply))] =
        undo.toNat := by
      cases undo <;> rfl
    dsimp only
    rw [hevents, hcount, ← Nat.add_assoc]
    exact hfail _ _ (hsame halike)
  · obtain ⟨hmap, hcounter, hbooks⟩ := hok _ reply s₀ _ (hsame halike) hperform
    refine ⟨hover, hmap.trans (halike.mappings.trans ha.mappings), ?_, ?_⟩
    · have hstart := ha.counter
      have hsame := halike.counter
      have hcounter : s₀.counter ≤ t.switch.counter := hcounter
      change b.counter ≤ t.switch.counter
      omega
    · have hcount : failedUndos [.call d c undo (Effect.failure? (.ok reply))] = 0 := by
        cases undo <;> rfl
      dsimp only
      rw [hevents, hcount]
      exact hbooks

theorem request_ends (ha : Accounts b items E r)
    {items' : c.Reply → List (Handle × Switch.Object)} (hok : c.Turns d items E items' E') :
    (Act.request Testbed.hardware d c).Ends r (fun reply r' => Accounts b (items' reply) E' r')
      fun _ r' => Accounts b items E r' := by
  rw [Act.request, Act.ends_call]
  refine Effect.Ends.mono (ha.call_ends false hok fun _ _ h => h) ?_
  intro result r' h
  cases result <;> exact h

/-- What the books say of a call that succeeds. -/
theorem request_tells (ha : Accounts b items E r) {P : Prop}
    (hP : ∀ n reply s s', Books items E s n → s.perform d c = .ok (reply, s') → P) :
    (Act.request Testbed.hardware d c).Ends r (fun _ _ => P) fun _ _ => True := by
  have hcases := (Testbed.call_cases ha.overrides d c).2
  rw [Act.request, Act.ends_call, Effect.ends_call]
  change match (r.state.call d c).1.result with
    | .ok _ => P
    | .error _ => True
  rcases hcases with ⟨e, he, _⟩ | ⟨reply, s₀, hsame, hr, hperform⟩
  · rw [he]
    trivial
  · rw [hr]
    have hbooks := ha.books.mono (Nat.le_of_eq hsame.counter.symm) hsame.objects hsame.entries
      (Nat.le_refl _)
    exact hP _ reply s₀ _ hbooks hperform

/-- An undo call that fails leaves the books with its failure to explain. -/
theorem undo_ends (ha : Accounts b items E r) {items' : List (Handle × Switch.Object)}
    (hok : c.Turns d items E (fun _ => items') E')
    (hfail : ∀ n s, Books items E s n → Books items' E' s (n + 1)) (what context : String) :
    (Effect.undo Testbed.hardware d what context c).Ends r fun _ r' =>
      Accounts b items' E' r' := by
  refine (ha.call_ends true hok hfail).bind ?_
  intro result r' h
  cases result with
  | ok _ => exact h.emit rfl
  | error _ => exact h.emit rfl

end Accounts

end Multicast
