import Multicast.Proofs.Closure

/-! Calls that the switch has no reason to refuse. They fail only when a fault fires, which leaves
all but the faults as it was. -/
namespace Multicast

/-! Traces -/

/-- Calls that succeeded. -/
def successes (events : List Event) : List (DeviceId × Call) :=
  (callsOf events).filterMap fun x => if x.2.2 = none then some (x.1, x.2.1) else none

theorem successes_append (l l' : List Event) :
    successes (l ++ l') = successes l ++ successes l' := by
  rw [successes, callsOf_append, List.filterMap_append]
  rfl

/-! Faults -/

namespace Switch

/-- How many calls of these kinds pass before a fault fires, and its status. -/
def firing : List CallKind → List Fault → Option (Nat × Status)
  | [], _ => none
  | kind :: rest, faults =>
    match passFault kind faults with
    | (some status, _) => some (0, status)
    | (none, faults) => (firing rest faults).map fun x => (x.1 + 1, x.2)

theorem firing_nil (kinds : List CallKind) : firing kinds [] = none := by
  induction kinds with
  | nil => rfl
  | cons kind rest ih => simp [firing, passFault, ih]

variable {s s' : Switch} {d : DeviceId} {c : Call}

theorem call_of_passed {faults : List Fault} {reply : c.Reply}
    (hpass : passFault c.kind s.faults = (none, faults))
    (h : perform { s with journal := c.kind :: s.journal, faults := faults } d c =
      .ok (reply, s')) : s.call d c = (⟨.ok reply, notes c reply⟩, s') := by
  unfold call
  rw [hpass]
  dsimp only
  rw [h]

/-- A call that the switch would not refuse ends as the faults say. -/
theorem call_cases_of_perform
    (hperform : ∀ s₀, s.Alike s₀ → ∃ reply s', s₀.perform d c = .ok (reply, s')) :
    (∃ status, (passFault c.kind s.faults).1 = some status ∧
        (s.call d c).1.result = .error (.ofStatus status) ∧ s.Alike (s.call d c).2) ∨
      (passFault c.kind s.faults).1 = none ∧ ∃ reply s₀, s.Alike s₀ ∧
        (s.call d c).1.result = .ok reply ∧ s₀.perform d c = .ok (reply, (s.call d c).2) := by
  rcases hpass : passFault c.kind s.faults with ⟨_ | status, faults⟩
  · have halike : s.Alike { s with journal := c.kind :: s.journal, faults := faults } :=
      ⟨rfl, rfl, rfl, rfl⟩
    obtain ⟨reply, s', hs⟩ := hperform _ halike
    rw [call_of_passed hpass hs]
    exact .inr ⟨rfl, reply, _, halike, rfl, hs⟩
  · unfold call
    rw [hpass]
    exact .inl ⟨status, rfl, rfl, rfl, rfl, rfl, rfl⟩

end Switch

/-- The switch has no reason to refuse the call. -/
def Call.Works (c : Call) (d : DeviceId) (items : List (Handle × Switch.Object))
    (E : Programming) : Prop :=
  ∀ s, Books items E s 0 → s.counter < 2 ^ 48 → ∃ reply s', s.perform d c = .ok (reply, s')

/-- An object that nothing left on the books depends on may be removed. -/
theorem Call.remove_works {c : Call} {d : DeviceId} {items items' : List (Handle × Switch.Object)}
    {E : Programming} {h : Handle} {o : Switch.Object}
    (hc : ∀ s s', Switch.remove s d h o.kind = .ok s' → ∃ reply, s.perform d c = .ok (reply, s'))
    (hp : items.Perm ((h, o) :: items')) (hd : o.device = d) (hclosed : Closed items' E)
    (hparent : ∀ p, o.parent = some p → p ∈ items'.map Prod.fst) : c.Works d items E := by
  intro s hb hcount
  have hremove := (hb.perm hp).remove_eq hcount hclosed hparent
  rw [hd] at hremove
  obtain ⟨reply, hs⟩ := hc s _ hremove
  exact ⟨reply, _, hs⟩

section

variable {config : Config} {m : Mappings} {d : DeviceId} {others : List Holding}
  {c : DeviceCache} {items : List (Handle × Switch.Object)} {E : Programming} {id : Handle}
  {g : Group} {role : Role} {e : Entry}

/-! What calls need of the books -/

/-- The sub-group that an attribute names is on the books. -/
def EntryAttr.Listed (items : List (Handle × Switch.Object)) (d : DeviceId) : EntryAttr → Prop
  | .outputGroup h => h.isNull = false → Multicast.Listed items d h (.subGroup .ipmc)
  | .rpfGroup h => h.isNull = false → Multicast.Listed items d h (.subGroup .rpf)
  | _ => True

namespace Books

variable {s : Switch}

theorem checkAttr_eq (hb : Books items E s 0) (hcount : s.counter < 2 ^ 48) {a : EntryAttr}
    (ha : a.Listed items d) : s.checkAttr d a = .ok () := by
  cases a with
  | packetAction _ => rfl
  | ingress _ => rfl
  | outputGroup h =>
    cases hnull : h.isNull with
    | true => simp [Switch.checkAttr, hnull]
    | false => simp [Switch.checkAttr, hnull, hb.expect_eq hcount (ha hnull)]
  | rpfGroup h =>
    cases hnull : h.isNull with
    | true => simp [Switch.checkAttr, hnull]
    | false => simp [Switch.checkAttr, hnull, hb.expect_eq hcount (ha hnull)]

theorem checkAttrs_eq (hb : Books items E s 0) (hcount : s.counter < 2 ^ 48)
    {attrs : List EntryAttr} (ha : ∀ a ∈ attrs, a.Listed items d) :
    s.checkAttrs d attrs = .ok () := by
  induction attrs with
  | nil => rfl
  | cons a rest ih =>
    rw [Switch.checkAttrs, hb.checkAttr_eq hcount (ha a List.mem_cons_self)]
    exact ih fun a ha' => ha a (List.mem_cons_of_mem _ ha')

end Books

namespace Call

theorem createGroup_works (owners : List Owner) : (Call.createGroup owners).Works d items E :=
  fun _ _ _ => ⟨_, _, rfl⟩

theorem createSubGroup_works (role : Role) {group : Handle} (h : Listed items d group .group) :
    (Call.createSubGroup role [group]).Works d items E := by
  intro s hb hcount
  simp only [Switch.perform, Switch.createSubGroup, hb.expect_eq hcount h, bind, Except.bind]
  exact ⟨_, _, rfl⟩

theorem createMember_works {subGroup : Handle} (h : Listed items d subGroup (.subGroup role))
    (rif : Handle) (ports : List Handle) :
    (Call.createMember role
      [.subGroup subGroup, .routerInterface rif, .bridgePorts ports]).Works d items E := by
  intro s hb hcount
  simp only [Switch.perform, Switch.createMember, MemberAttr.subGroup?, List.foldl,
    hb.expect_eq hcount h, bind, Except.bind]
  exact ⟨_, _, rfl⟩

theorem setMember_works {member : Handle} (h : Listed items d member (.member role))
    (ports : List Handle) :
    (Call.setMember role member (.bridgePorts ports)).Works d items E := by
  intro s hb hcount
  simp [Switch.perform, Switch.setMember, hb.expect_eq hcount h, bind, Except.bind, Except.map]

/-- Entries show what is on the books, so one can be created where nothing shows. -/
theorem createEntry_works {attrs : List EntryAttr} (hsource : e.type.hasSource = e.source.isSome)
    (hfree : E (d, e) = none) (ha : ∀ a ∈ attrs, a.Listed items d) :
    (Call.createEntry e attrs).Works d items E := by
  intro s hb hcount
  have habsent : s.entries.contains (d, e) = false := by
    rw [hb.routed, hfree]
    rfl
  simp [Switch.perform, Switch.createEntry, hsource, habsent, hb.checkAttrs_eq hcount ha, bind,
    Except.bind, Except.map]

theorem removeEntry_works (h : (E (d, e)).isSome = true) :
    (Call.removeEntry e).Works d items E := by
  intro s hb _
  have hthere := hb.routed (d, e)
  simp [Switch.perform, Switch.removeEntry, hthere, h, Except.map]

theorem setEntry_works {a : EntryAttr} (h : (E (d, e)).isSome = true) (ha : a.Listed items d) :
    (Call.setEntry e a).Works d items E := by
  intro s hb hcount
  have hthere := hb.routed (d, e)
  simp [Switch.perform, Switch.setEntry, hthere, h, hb.checkAttr_eq hcount ha, bind, Except.bind,
    Except.map]

theorem readEntry_works (h : (E (d, e)).isSome = true) (ids : List EntryAttr.Id) :
    (Call.readEntry e ids).Works d items E := by
  intro s hb _
  obtain ⟨v, hv⟩ := Option.isSome_iff_exists.mp h
  simp [Switch.perform, hb.readEntry, hv, Except.map]

end Call

/-! What the books list -/

namespace Ledger

theorem listed (h : Ledger config m d others c items E) {x : Holding} (hx : x ∈ c.holdings d) :
    Listed items d x.handle x.kind := by
  obtain ⟨o, ho, hfits⟩ := h.objects.exists_of_mem (List.mem_append_left others hx)
  exact ⟨o, ho, hfits.device.trans (DeviceCache.device_of_mem_holdings hx), hfits.kind⟩

theorem group_listed (h : Ledger config m d others c items E) (hid : g.id = id)
    (hg : c.groups.find? id = some g) : Listed items d id .group :=
  hid ▸ h.listed (DeviceCache.mem_holdings hg List.mem_cons_self)

theorem subGroup_listed (h : Ledger config m d others c items E) (hg : c.groups.find? id = some g)
    (role : Role) (hnull : (g.subGroup role).isNull = false) :
    Listed items d (g.subGroup role) (.subGroup role) :=
  h.listed (DeviceCache.mem_holdings hg (Group.subGroup_mem_holdings role hnull))

theorem member_listed (h : Ledger config m d others c items E) (hg : c.groups.find? id = some g)
    {rif : RifId} {member : Member} (hm : (g.members.ofRole role).find? rif = some member) :
    Listed items d member.handle (.member role) := by
  obtain ⟨o, items', hperm, hfits, _⟩ := h.withoutMember hg hm
  exact ⟨o, hperm.mem_iff.mpr List.mem_cons_self, hfits.device, hfits.kind⟩

theorem image_listed (h : Ledger config m d others c items E) (hg : c.groups.find? id = some g)
    (iif : Handle) (copyToCpu : Bool) :
    ∀ a ∈ (config.image g iif copyToCpu).attrs, a.Listed items d := by
  simp only [Config.image, RouteImage.attrs, List.forall_mem_cons, EntryAttr.Listed]
  exact ⟨trivial, h.subGroup_listed hg .ipmc, h.subGroup_listed hg .rpf, trivial,
    List.forall_mem_nil _⟩

end Ledger

end

/-! Runs -/

variable {b : Opening} {items : List (Handle × Switch.Object)} {E : Programming}
  {r : Run Testbed} {d : DeviceId} {c : Call}

theorem Accounts.request_works (ha : Accounts b items E r)
    (hundone : b.failures + failedUndos r.events = 0)
    (hcount : r.state.switch.counter < 2 ^ 48) (hc : c.Works d items E) :
    (Act.request Testbed.hardware d c).Ends r
      (fun reply r' => (Switch.passFault c.kind r.state.switch.faults).1 = none ∧
        r.Called d c none r' ∧
        ∃ s, r.state.switch.Alike s ∧ s.perform d c = .ok (reply, r'.state.switch))
      fun e r' => ∃ status, (Switch.passFault c.kind r.state.switch.faults).1 = some status ∧
        e = .hardware c.kind (.ofStatus status) ∧ r.Called d c (some (.ofStatus status)) r' ∧
        r.state.switch.Alike r'.state.switch := by
  have hcases : _ ∨ _ := Switch.call_cases_of_perform (s := r.state.switch) (d := d) (c := c) (by
    intro s hs
    have hbooks := ha.books.mono (Nat.le_of_eq hs.counter.symm) hs.objects hs.entries
      (Nat.le_refl _)
    rw [hundone] at hbooks
    exact hc s hbooks (hs.counter ▸ hcount))
  rw [Act.request, Act.ends_call]
  refine (Effect.call_called ha.overrides d c).mono ?_
  rintro result r' ⟨hresult, hswitch, hcalled⟩
  rw [hswitch]
  rcases hcases with ⟨status, hfired, hfailed, halike⟩ | ⟨hpassed, reply, s, halike, hok, hperform⟩
  · obtain rfl := hresult.trans hfailed
    exact ⟨status, hfired, rfl, hcalled, halike⟩
  · obtain rfl := hresult.trans hok
    exact ⟨hpassed, hcalled, s, halike, hperform⟩

end Multicast
