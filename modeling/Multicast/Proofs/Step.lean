import Multicast.Proofs.Accounts
import Multicast.Proofs.Commit

/-! Parts of operations on the books. A part that fails leaves the books as it found them: what its
undo calls could not take back counts as lost. -/
namespace Multicast

variable {b : Opening} {items : List (Handle × Switch.Object)} {E : Programming} {r : Run Testbed}
  {d : DeviceId} {h : Handle} {o : Switch.Object}

abbrev Orchestrator.bench (config : Config) (order : RouteOrder) : Orchestrator Testbed :=
  ⟨config, Testbed.hardware, order⟩

/-- The entry of a route, by the handle registered for its VRF. -/
def entryAt (mappings : Table (DeviceId × Lookup) Handle) (d : DeviceId) (key : RouteKey) :
    Option Entry :=
  (mappings.find? (d, .vrf key.vrf)).map (Entry.ofKey · key)

namespace Programming

/-- Writes an attribute to several entries of a device. -/
def writeAll (E : Programming) (d : DeviceId) (a : EntryAttr) (entries : List Entry) :
    Programming :=
  fun k => if k.1 = d ∧ k.2 ∈ entries then (E k).map (·.write a) else E k

theorem writeAll_nil (E : Programming) (d : DeviceId) (a : EntryAttr) : E.writeAll d a [] = E := by
  funext k
  simp [writeAll]

theorem write_write (v : RouteImage) (a : EntryAttr) : (v.write a).write a = v.write a := by
  cases a <;> rfl

theorem writeAll_write (E : Programming) (d : DeviceId) (a : EntryAttr) (e : Entry)
    (entries : List Entry) :
    (E.write (d, e) a).writeAll d a entries = E.writeAll d a (e :: entries) := by
  funext ⟨d', e'⟩
  unfold writeAll write
  by_cases hd : d' = d <;> by_cases he : e' = e <;> by_cases hm : e' ∈ entries <;>
    cases hE : E (d', e') <;> simp_all [write_write]

theorem write_writeAll (E : Programming) (d : DeviceId) (a : EntryAttr) (e : Entry)
    (entries : List Entry) :
    (E.writeAll d a entries).write (d, e) a = E.writeAll d a (entries ++ [e]) := by
  funext ⟨d', e'⟩
  unfold writeAll write
  by_cases hd : d' = d <;> by_cases he : e' = e <;> by_cases hm : e' ∈ entries <;>
    cases hE : E (d', e') <;> simp_all [write_write]

/-- Routes without outputs are back where they were once their outputs are reset. -/
theorem writeAll_reset {E : Programming} {d : DeviceId} {entries : List Entry}
    (hnull : ∀ e ∈ entries, ∀ v, E (d, e) = some v → v.output = .null) (subGroup : Handle) :
    (E.writeAll d (.outputGroup subGroup) entries).writeAll d (.outputGroup .null) entries = E := by
  funext ⟨d', e'⟩
  unfold writeAll
  by_cases hk : d' = d ∧ e' ∈ entries
  · obtain ⟨rfl, he⟩ := hk
    simp only [true_and, he, if_true]
    cases hE : E (d', e') with
    | none => rfl
    | some v =>
      have hv := hnull e' he v hE
      simp only [Option.map_some, RouteImage.write, ← hv]
  · simp only [hk, if_false]

theorem set_write (E : Programming) (k : DeviceId × Entry) (v : RouteImage) (a : EntryAttr) :
    (E.set k (some v)).write k a = E.set k (some (v.write a)) := by
  funext k'
  unfold set write
  by_cases hk : k' = k <;> simp [hk]

theorem set_eq_self {E : Programming} {k : DeviceId × Entry} {v : Option RouteImage}
    (h : E k = v) : E.set k v = E := by
  funext k'
  unfold set
  by_cases hk : k' = k
  · rw [if_pos hk, hk, h]
  · rw [if_neg hk]

end Programming

namespace Testbed

theorem lookup_eq (t : Testbed) (d : DeviceId) (l : Lookup) :
    t.lookup d l =
      (if t.hidden.contains (d, l) then none else t.switch.mappings.find? (d, l), t) := by
  unfold lookup
  split <;> rfl

theorem lookup_congr {t t' : Testbed} (hhidden : t'.hidden = t.hidden)
    (hmappings : t'.switch.mappings = t.switch.mappings) (d : DeviceId) (l : Lookup) :
    (t'.lookup d l).1 = (t.lookup d l).1 := by
  rw [lookup_eq, lookup_eq, hhidden, hmappings]

theorem lookupPorts_eq (d : DeviceId) (ports : List Port) (t : Testbed) :
    (hardware.lookupPorts d ports t).2 = t ∧
      ∀ handles, (hardware.lookupPorts d ports t).1 = .ok handles →
        handles.map some = ports.map fun p => t.switch.mappings.find? (d, .port p) := by
  induction ports with
  | nil =>
    refine ⟨rfl, ?_⟩
    intro handles h
    cases h
    rfl
  | cons p rest ih =>
    have hp : hardware.lookup d (.port p) t =
        (if t.hidden.contains (d, .port p) then none
          else t.switch.mappings.find? (d, .port p), t) := t.lookup_eq d (.port p)
    rw [Hardware.lookupPorts, hp]
    cases hfound : (if t.hidden.contains (d, .port p) then none
      else t.switch.mappings.find? (d, .port p)) with
    | none =>
      refine ⟨rfl, ?_⟩
      intro handles h
      cases h
    | some h =>
      have hfound : t.switch.mappings.find? (d, .port p) = some h := by
        split at hfound
        · cases hfound
        · exact hfound
      dsimp only
      rcases hrest : hardware.lookupPorts d rest t with ⟨_ | l, s⟩
      · rw [hrest] at ih
        refine ⟨ih.1, ?_⟩
        intro handles h
        cases h
      · rw [hrest] at ih
        refine ⟨ih.1, ?_⟩
        intro handles h
        cases h
        simp [hfound, ih.2 l rfl]

end Testbed

namespace Accounts

/-! Look-ups change nothing -/

theorem lookup_ends (ha : Accounts b items E r) (l : Lookup) :
    (Act.lookup Testbed.hardware d l).Ends r
      (fun h r' => r = r' ∧ b.mappings.find? (d, l) = some h)
      fun _ r' => Accounts b items E r' := by
  have hlookup : Testbed.hardware.lookup d l r.state = _ := r.state.lookup_eq d l
  rw [Act.ends_lookup, hlookup, ha.mappings]
  dsimp only
  cases hfound : (if r.state.hidden.contains (d, l) then none else b.mappings.find? (d, l)) with
  | none => exact ha
  | some h =>
    refine ⟨rfl, ?_⟩
    split at hfound
    · cases hfound
    · exact hfound

theorem entryOf_ends (ha : Accounts b items E r) (key : RouteKey) :
    (Act.entryOf Testbed.hardware d key).Ends r
      (fun e r' => r = r' ∧ entryAt b.mappings d key = some e)
      fun _ r' => Accounts b items E r' := by
  refine (ha.lookup_ends (.vrf key.vrf)).bind ?_ fun _ _ h => h
  rintro router _ ⟨rfl, hrouter⟩
  refine ⟨rfl, ?_⟩
  unfold entryAt
  rw [hrouter]
  rfl

theorem lookupPorts_ends (ha : Accounts b items E r) (ports : List Port) :
    (Act.lookupPorts Testbed.hardware d ports).Ends r
      (fun handles r' => r = r' ∧
        handles.map some = ports.map fun p => b.mappings.find? (d, .port p))
      fun _ r' => Accounts b items E r' := by
  have hports := Testbed.lookupPorts_eq d ports r.state
  rw [ha.mappings] at hports
  rw [Act.ends_lookupPorts, hports.1]
  cases hfound : (Testbed.hardware.lookupPorts d ports r.state).1 with
  | ok handles => exact ⟨rfl, hports.2 handles hfound⟩
  | error _ => exact ha

theorem note_ends (ha : Accounts b items E r) (level : Log.Level) (message : String) :
    (Act.note level message).Ends r (fun _ r' => Accounts b items E r') fun _ _ => False :=
  ha.emit rfl

/-! Taking back -/

theorem undoRemove_ends {c : Call} (ha : Accounts b ((h, o) :: items) E r)
    (hc : c.Turns d ((h, o) :: items) E (fun _ => items) E) (what context : String) :
    (Effect.undo Testbed.hardware d what context c).Ends r fun _ r' => Accounts b items E r' :=
  ha.undo_ends hc (fun _ _ hb => hb.lose) what context

theorem undoEntries_ends (ha : Accounts b items E r) (what : String) (context : Entry → String)
    (a : EntryAttr) (entries : List Entry) :
    (entries.forM fun e => discard (Effect.undo Testbed.hardware d what (context e)
      (.setEntry e a))).Ends r fun _ r' => Accounts b items (E.writeAll d a entries) r' := by
  induction entries generalizing E r with
  | nil =>
    rw [Programming.writeAll_nil]
    exact ha
  | cons e rest ih =>
    have hfirst := ha.undo_ends (d := d) (Call.setEntry_turns (e := e) a)
      (fun _ _ hb => hb.blur (d, e) a) what (context e)
    refine Effect.Ends.bind (P := fun _ r' => Accounts b items (E.write (d, e) a) r') hfirst ?_
    intro _ r₁ ha₁
    rw [← Programming.writeAll_write]
    exact ih ha₁

theorem undoAttrs_ends {e : Entry} {v : RouteImage}
    (ha : Accounts b items (E.set (d, e) (some v)) r) (what context : String)
    (attrs : List EntryAttr) :
    (attrs.forM fun a => discard (Effect.undo Testbed.hardware d what context
      (.setEntry e a))).Ends r fun _ r' =>
        Accounts b items (E.set (d, e) (some (attrs.foldl RouteImage.write v))) r' := by
  induction attrs generalizing v r with
  | nil => exact ha
  | cons a rest ih =>
    have hfirst := ha.undo_ends (d := d) (Call.setEntry_turns (e := e) a)
      (fun _ _ hb => hb.blur (d, e) a) what context
    rw [Programming.set_write] at hfirst
    refine Effect.Ends.bind (P := fun _ r' =>
      Accounts b items (E.set (d, e) (some (v.write a))) r') hfirst ?_
    exact fun _ _ ha₁ => ih ha₁

end Accounts

namespace Orchestrator

variable {config : Config} {order : RouteOrder} {c : DeviceCache} {id : Handle} {g : Group}
  {role : Role} {spec : MemberSpec}

theorem countRollback_accounts (ha : Accounts b items E r) :
    Effect.countRollback.Ends r fun _ r' => Accounts b items E r' :=
  ha.of_eq rfl rfl

theorem createMember_accounts (ha : Accounts b items E r) (role : Role) (subGroup rif : Handle)
    (ports : List Handle) :
    ((bench config order).createMember d role subGroup rif ports).Ends r
      (fun h r' => Accounts b ((h, ⟨d, .member role, some subGroup, ports⟩) :: items) E r')
      fun _ r' => Accounts b items E r' :=
  ha.request_ends (Call.createMember_turns role subGroup rif ports)

theorem undoMember_accounts (ha : Accounts b ((h, o) :: items) E r) (context : String)
    (role : Role) :
    ((bench config order).undoMember d context role h).Ends r fun _ r' => Accounts b items E r' :=
  ha.undoRemove_ends (Call.removeMember_turns (.refl _)) _ _

theorem undoEgressGroup_accounts (ha : Accounts b ((h, o) :: items) E r) (context : String) :
    ((bench config order).undoEgressGroup d context h).Ends r fun _ r' => Accounts b items E r' :=
  ha.undoRemove_ends (Call.removeSubGroup_turns (.refl _)) _ _

/-- The entries of routes, one for each key. -/
def EntriesOf (b : Opening) (d : DeviceId) (keys : List RouteKey) (entries : List Entry) : Prop :=
  entries.map some = keys.map (entryAt b.mappings d)

theorem repoint_accounts {visited : List Entry} {keys : List RouteKey} {subGroup : Handle}
    (hvisited : ∀ e ∈ visited, ∀ v, E (d, e) = some v → v.output = .null)
    (hkeys : ∀ key ∈ keys, ∀ e, entryAt b.mappings d key = some e →
      ∀ v, E (d, e) = some v → v.output = .null)
    (ha : Accounts b items (E.writeAll d (.outputGroup subGroup) visited) r) :
    ((bench config order).repoint d false subGroup visited keys).Ends r
      (fun _ r' => ∃ entries, EntriesOf b d keys entries ∧
        Accounts b items (E.writeAll d (.outputGroup subGroup) (visited ++ entries)) r')
      fun _ r' => Accounts b items E r' := by
  induction keys generalizing visited r with
  | nil =>
    refine ⟨[], rfl, ?_⟩
    rw [List.append_nil]
    exact ha
  | cons key rest ih =>
    have hreset : ∀ (e : OpError) (r' : Run Testbed),
        Accounts b items (E.writeAll d (.outputGroup subGroup) visited) r' →
        (visited.forM fun e => discard (Effect.undo Testbed.hardware d "reset_output_group" e.text
          (.setEntry e (.outputGroup .null)))).Ends r' fun _ r'' => Accounts b items E r'' := by
      intro _ r' ha'
      have := ha'.undoEntries_ends (d := d) "reset_output_group" Entry.text (.outputGroup .null)
        visited
      rwa [Programming.writeAll_reset hvisited] at this
    rw [repoint]
    refine Act.Ends.bind (Act.Ends.orCleanUp (Q := fun e r' => entryAt b.mappings d key = some e ∧
      Accounts b items (E.writeAll d (.outputGroup subGroup) (visited ++ [e])) r')
      (F := fun _ r' => Accounts b items (E.writeAll d (.outputGroup subGroup) visited) r')
      ?_ hreset) ?_ fun _ _ h => h
    · refine (ha.entryOf_ends key).bind ?_ fun _ _ h => h
      rintro e _ ⟨rfl, he⟩
      refine (ha.request_ends (Call.setEntry_turns (.outputGroup subGroup))).bind ?_
        fun _ _ h => h
      intro _ r₁ ha₁
      rw [Programming.write_writeAll] at ha₁
      exact ⟨he, ha₁⟩
    · rintro e r₁ ⟨he, ha₁⟩
      have hvisited' : ∀ e' ∈ visited ++ [e], ∀ v, E (d, e') = some v → v.output = .null := by
        intro e' he'
        rcases List.mem_append.mp he' with he' | he'
        · exact hvisited e' he'
        · rw [List.mem_singleton.mp he']
          exact hkeys key List.mem_cons_self e he
      refine (ih hvisited' (fun key' hkey' => hkeys key' (List.mem_cons_of_mem _ hkey')) ha₁).mono
        ?_ fun _ _ h => h
      rintro _ r₂ ⟨entries, hentries, ha₂⟩
      refine ⟨e :: entries, ?_, ?_⟩
      · unfold EntriesOf at hentries ⊢
        rw [List.map_cons, List.map_cons, hentries, he]
      · rw [List.append_assoc] at ha₂
        exact ha₂

theorem addToSubGroup_accounts (ha : Accounts b items E r) (hr : r.Holds c)
    (hg : c.groups.find? id = some g) (hcheck : g.members.checkAdd role spec.rif = .ok ())
    (subGroup rif : Handle) (ports : List Handle) :
    ((bench config order).addToSubGroup d id role subGroup rif ports spec).Ends r
      (fun _ r' => ∃ h,
        Accounts b ((h, ⟨d, .member role, some subGroup, ports⟩) :: items) E r' ∧
        r'.Holds (c.setGroup id (g.withMember role (.ofSpec h spec) none)))
      fun _ r' => Accounts b items E r' := by
  have hS := quiet_frame (bench config order).hardware d
  refine Act.Ends.bind ((createMember_accounts ha role subGroup rif ports).and
    ((hS.createMember role subGroup rif ports).holds hr)) ?_ fun _ _ h => h.1
  rintro member r₁ ⟨ha₁, hr₁⟩
  apply Act.Ends.orCleanUp (F := fun _ _ => False)
  · refine (commitMember_ends (m := .ofSpec member spec) hr₁ hg hcheck none).mono ?_ fun _ _ h => h
    rintro _ r₂ ⟨hr₂, hstate, hevents⟩
    exact ⟨member, ha₁.of_eq hstate hevents, hr₂⟩
  · exact fun _ _ h => h.elim

theorem addFirstEgress_accounts (ha : Accounts b items E r) (hr : r.Holds c)
    (hg : c.groups.find? id = some g) (hcheck : g.members.checkAdd .ipmc spec.rif = .ok ())
    {routes : List RouteKey} (hroutes : ∀ key ∈ routes, ∀ e, entryAt b.mappings d key = some e →
      ∀ v, E (d, e) = some v → v.output = .null) (rif : Handle) (ports : List Handle) :
    ((bench config order).addFirstEgress d id routes rif ports spec).Ends r
      (fun _ r' => ∃ subGroup h entries, EntriesOf b d routes entries ∧
        Accounts b ((h, ⟨d, .member .ipmc, some subGroup, ports⟩) ::
          (subGroup, ⟨d, .subGroup .ipmc, some id, []⟩) :: items)
          (E.writeAll d (.outputGroup subGroup) entries) r' ∧
        r'.Holds (c.setGroup id (g.withMember .ipmc (.ofSpec h spec) (some subGroup))))
      fun _ r' => Accounts b items E r' := by
  have hS := quiet_frame (bench config order).hardware d
  refine Act.Ends.bind ((ha.request_ends (Call.createSubGroup_turns .ipmc id)).and
    ((hS.request _).holds hr)) ?_ fun _ _ h => h.1
  rintro subGroup r₁ ⟨ha₁, hr₁⟩
  refine Act.Ends.bind ((ha₁.note_ends _ _).and ((hS.act_note _ _).holds hr₁)) ?_
    fun _ _ h => h.1.elim
  rintro _ r₂ ⟨ha₂, hr₂⟩
  -- what was made is removed again, the last first
  refine Act.Ends.bind (Act.Ends.orCleanUp ((createMember_accounts ha₂ .ipmc subGroup rif ports).and
    ((hS.createMember .ipmc subGroup rif ports).holds hr₂)) ?_) ?_ fun _ _ h => h
  · rintro _ r₃ ⟨ha₃, _⟩
    refine (undoEgressGroup_accounts ha₃ _).bind ?_
    exact fun _ _ ha₄ => countRollback_accounts ha₄
  rintro member r₃ ⟨ha₃, hr₃⟩
  have hpointed : ((bench config order).repoint d false subGroup [] routes).Ends r₃ _ _ :=
    repoint_accounts (fun _ he => by cases he) hroutes
      (by rw [Programming.writeAll_nil]; exact ha₃)
  refine Act.Ends.bind (Act.Ends.orCleanUp
    (hpointed.and ((hS.repoint false subGroup [] routes).holds hr₃)) ?_) ?_ fun _ _ h => h
  · rintro _ r₄ ⟨ha₄, _⟩
    refine (undoMember_accounts ha₄ _ .ipmc).bind fun _ _ ha₅ => ?_
    refine (undoEgressGroup_accounts ha₅ _).bind ?_
    exact fun _ _ ha₆ => countRollback_accounts ha₆
  rintro _ r₄ ⟨⟨entries, hentries, ha₄⟩, hr₄⟩
  apply Act.Ends.orCleanUp (F := fun _ _ => False)
  · refine (commitMember_ends (m := .ofSpec member spec) hr₄ hg hcheck (some subGroup)).mono ?_
      fun _ _ h => h
    rintro _ r₅ ⟨hr₅, hstate, hevents⟩
    exact ⟨subGroup, member, entries, hentries, ha₄.of_eq hstate hevents, hr₅⟩
  · exact fun _ _ h => h.elim

/-! Groups under construction -/

/-- A sub-group among the objects of a device, if it is there. -/
def subGroupItems (d : DeviceId) (role : Role) (group subGroup : Handle) :
    List (Handle × Switch.Object) :=
  if subGroup.isNull then [] else [(subGroup, ⟨d, .subGroup role, some group, []⟩)]

def Draft.made (d : DeviceId) (draft : Draft) : List (Handle × Switch.Object) :=
  subGroupItems d .rpf draft.group draft.rpfGroup ++
    (subGroupItems d .ipmc draft.group draft.ipmcGroup ++ [(draft.group, ⟨d, .group, none, []⟩)])

theorem subGroupItems_of_not_null {subGroup : Handle} (h : subGroup.isNull = false)
    (d : DeviceId) (role : Role) (group : Handle) :
    subGroupItems d role group subGroup =
      [(subGroup, ⟨d, .subGroup role, some group, []⟩)] := by
  rw [subGroupItems, h]
  rfl

theorem undoMade_accounts {group subGroup : Handle}
    (ha : Accounts b (subGroupItems d role group subGroup ++ items) E r) (what context : String) :
    ((bench config order).undoMade d what context subGroup (.removeSubGroup role subGroup)).Ends r
      fun _ r' => Accounts b items E r' := by
  unfold undoMade
  cases hnull : subGroup.isNull with
  | true =>
    rw [subGroupItems, hnull] at ha
    exact ha
  | false =>
    rw [subGroupItems_of_not_null hnull] at ha
    exact ha.undoRemove_ends (Call.removeSubGroup_turns (.refl _)) _ _

theorem rollBack_accounts {draft : Draft} (ha : Accounts b (draft.made d ++ items) E r) :
    ((bench config order).rollBack d draft).Ends r fun _ r' => Accounts b items E r' := by
  unfold Draft.made at ha
  rw [List.append_assoc, List.append_assoc] at ha
  refine (undoMade_accounts ha _ _).bind fun _ _ ha₁ => ?_
  refine (undoMade_accounts ha₁ _ _).bind fun _ _ ha₂ => ?_
  refine (ha₂.undoRemove_ends (Call.removeGroup_turns (.refl _)) _ _).bind fun _ _ ha₃ => ?_
  refine (countRollback_accounts ha₃).bind fun _ _ ha₄ => ?_
  split
  · exact ha₄.emit rfl
  · exact ha₄

theorem buildSubGroup_accounts {draft : Draft} (ha : Accounts b (draft.made d ++ items) E r)
    (role : Role) (what : String) :
    ((bench config order).buildSubGroup d role what draft).Ends r
      (fun h r' => Accounts b
        ((h, ⟨d, .subGroup role, some draft.group, []⟩) :: (draft.made d ++ items)) E r')
      fun _ r' => Accounts b items E r' := by
  apply (ha.request_ends (Call.createSubGroup_turns role draft.group)).orCleanUp
  intro _ r₁ ha₁
  exact Effect.Ends.bind (P := fun _ r' => Accounts b (draft.made d ++ items) E r')
    (ha₁.emit rfl) fun _ _ ha₂ => rollBack_accounts ha₂

theorem buildGroup_accounts (ha : Accounts b items E r) (owner : Owner) (needed : Bool) :
    ((bench config order).buildGroup d owner needed).Ends r
      (fun draft r' => Accounts b (draft.made d ++ items) E r' ∧ draft.rpfGroup.isNull = false)
      fun _ r' => Accounts b items E r' := by
  refine (ha.request_ends (Call.createGroup_turns [owner])).bind ?_ fun _ _ h => h
  intro group r₁ ha₁
  have ha₁ : Accounts b ((⟨group, .null, .null⟩ : Draft).made d ++ items) E r₁ := ha₁
  refine Act.Ends.bind (P := fun ipmcGroup r' =>
    Accounts b ((⟨group, ipmcGroup, .null⟩ : Draft).made d ++ items) E r') ?_ ?_ fun _ _ h => h
  · split
    · refine (buildSubGroup_accounts ha₁ .ipmc _).mono ?_ fun _ _ h => h
      intro ipmcGroup r₂ ha₂
      have hnamed := ha₂.books.named _ List.mem_cons_self
      unfold Draft.made at ha₂ ⊢
      rw [subGroupItems_of_not_null hnamed]
      exact ha₂
    · exact ha₁
  · intro ipmcGroup r₂ ha₂
    refine (buildSubGroup_accounts ha₂ .rpf _).bind ?_ fun _ _ h => h
    intro rpfGroup r₃ ha₃
    have hnamed := ha₃.books.named _ List.mem_cons_self
    refine ⟨?_, hnamed⟩
    unfold Draft.made at ha₃ ⊢
    rw [subGroupItems_of_not_null hnamed]
    exact ha₃

/-! Attributes of a route -/

/-- Before each write the image agrees with the old one where nothing was replaced, and with the
new one where nothing is left to write. -/
theorem writeAttrs_accounts {key : RouteKey} {e : Entry} {v old new : RouteImage}
    {replaced : List EntryAttr} {changes : List (EntryAttr × EntryAttr)}
    (hE : E (d, e) = some old) (hreplaced : ∀ a ∈ replaced, a = old.read a.id)
    (hagree : ∀ id, v.read id = old.read id ∨ ∃ a ∈ replaced, a.id = id)
    (hchanges : ∀ p ∈ changes, ∃ id, p = (old.read id, new.read id))
    (hleft : ∀ id, v.read id = new.read id ∨ (old.read id, new.read id) ∈ changes)
    (ha : Accounts b items (E.set (d, e) (some v)) r) :
    ((bench config order).writeAttrs d key e replaced changes).Ends r
      (fun _ r' => Accounts b items (E.set (d, e) (some new)) r')
      fun _ r' => Accounts b items E r' := by
  induction changes generalizing v replaced r with
  | nil =>
    have hnew : v = new := by
      apply RouteImage.ext_read
      intro id
      simpa using hleft id
    rw [hnew] at ha
    exact ha
  | cons change rest ih =>
    obtain ⟨id, rfl⟩ := hchanges change List.mem_cons_self
    rw [writeAttrs]
    refine Act.Ends.bind (Act.Ends.orCleanUp
      (ha.request_ends (Call.setEntry_turns (new.read id))) ?_) ?_ fun _ _ h => h
    · intro _ r₁ ha₁
      refine (ha₁.undoAttrs_ends _ _ replaced).bind ?_
      rw [RouteImage.foldl_write_eq hreplaced hagree, Programming.set_eq_self hE]
      intro _ r₂ ha₂
      split
      · exact countRollback_accounts ha₂
      · exact ha₂
    · intro _ r₁ ha₁
      rw [Programming.set_write] at ha₁
      refine ih ?_ ?_ (fun p hp => hchanges p (List.mem_cons_of_mem _ hp)) ?_ ha₁
      · intro a ha'
        rcases List.mem_append.mp ha' with ha' | ha'
        · exact hreplaced a ha'
        · rw [List.mem_singleton.mp ha', RouteImage.id_read]
      · intro id'
        rw [RouteImage.read_write, RouteImage.id_read]
        by_cases hid : id' = id
        · exact .inr ⟨old.read id, List.mem_append_right _ List.mem_cons_self,
            (RouteImage.id_read _ _).trans hid.symm⟩
        · rw [if_neg hid]
          rcases hagree id' with h | ⟨a, ha', haid⟩
          · exact .inl h
          · exact .inr ⟨a, List.mem_append_left _ ha', haid⟩
      · intro id'
        rw [RouteImage.read_write, RouteImage.id_read]
        by_cases hid : id' = id
        · rw [if_pos hid, hid]
          exact .inl rfl
        · rw [if_neg hid]
          rcases hleft id' with h | h
          · exact .inl h
          · rcases List.mem_cons.mp h with h | h
            · have hsame := congrArg (fun p => p.1.id) h
              simp only [RouteImage.id_read] at hsame
              exact (hid hsame).elim
            · exact .inr h

end Orchestrator

end Multicast
