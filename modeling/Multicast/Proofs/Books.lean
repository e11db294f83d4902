import Mathlib.Data.List.Perm.Subperm
import Multicast.Proofs.Handle
import Multicast.Proofs.RouteImage
import Multicast.Proofs.Table
import Multicast.Switch

/-! Books kept of a switch: the objects it should hold and the routes it should show. An undo call
that fails leaves behind an object that is on no book, or a route that shows something else. -/
namespace Multicast

namespace Switch

/-- Live objects have numbered handles. -/
def Numbered (s : Switch) : Prop :=
  ∀ h o, s.objects.find? h = some o → ∃ i, i ≤ s.counter ∧ h = Handle.make o.kind i

namespace Numbered

variable {s s' : Switch}

theorem empty : Numbered .empty := by
  intro h o ho
  cases ho

theorem mono (hn : s.Numbered) (ho : s'.objects = s.objects) (hc : s.counter ≤ s'.counter) :
    s'.Numbered := by
  intro h o hlive
  rw [ho] at hlive
  obtain ⟨i, hi, hh⟩ := hn h o hlive
  exact ⟨i, Nat.le_trans hi hc, hh⟩

theorem insert (hn : s.Numbered) (o : Object) : (s.insert o).2.Numbered := by
  intro h o' hlive
  change (s.objects.insert (Handle.make o.kind (s.counter + 1)) o).find? h = some o' at hlive
  by_cases hh : h = Handle.make o.kind (s.counter + 1)
  · rw [hh, Table.find?_insert_self] at hlive
    cases hlive
    exact ⟨s.counter + 1, Nat.le_refl _, hh⟩
  · rw [Table.find?_insert_of_ne _ _ hh] at hlive
    obtain ⟨i, hi, hh⟩ := hn h o' hlive
    exact ⟨i, Nat.le_succ_of_le hi, hh⟩

theorem erase (hn : s.Numbered) (h : Handle) :
    Numbered { s with objects := s.objects.erase h } := by
  intro h' o hlive
  by_cases hh : h' = h
  · rw [hh, Table.find?_erase_self] at hlive
    cases hlive
  · rw [Table.find?_erase_of_ne _ hh] at hlive
    exact hn h' o hlive

theorem setPorts (hn : s.Numbered) (h : Handle) (ports : List Handle) :
    Numbered { s with objects := s.objects.modify h fun o => { o with bridgePorts := ports } } := by
  intro h' o hlive
  by_cases hh : h' = h
  · subst hh
    rw [Table.find?_modify, if_pos rfl, Option.map_eq_some_iff] at hlive
    obtain ⟨o₀, hlive, rfl⟩ := hlive
    exact hn h' o₀ hlive
  · rw [Table.find?_modify_of_ne _ _ hh] at hlive
    exact hn h' o hlive

/-- The handle given out next names nothing yet. -/
theorem fresh (hn : s.Numbered) (hc : s.counter + 1 < 2 ^ 48) (kind : ObjectKind) :
    s.objects.find? (Handle.make kind (s.counter + 1)) = none := by
  cases hlive : s.objects.find? (Handle.make kind (s.counter + 1)) with
  | none => rfl
  | some o =>
    obtain ⟨i, hi, hh⟩ := hn _ o hlive
    have := Handle.number_eq_of_make_eq hc (by omega) hh
    omega

end Numbered

/-- The objects are those of `items`, and at most those under the handles of `lost` beside them. -/
structure Stock (t : Table Handle Object) (items : List (Handle × Object)) (lost : List Handle) :
    Prop where
  live : ∀ x ∈ items, t.find? x.1 = some x.2
  distinct : (items.map Prod.fst).Nodup
  covered : ∀ h o, t.find? h = some o → h ∈ items.map Prod.fst ∨ h ∈ lost

namespace Stock

variable {t : Table Handle Object} {items rest : List (Handle × Object)} {lost : List Handle}
  {h : Handle} {o : Object}

theorem perm (hs : Stock t items lost) (hp : items.Perm rest) : Stock t rest lost where
  live := fun x hx => hs.live x (hp.mem_iff.mpr hx)
  distinct := (hp.map Prod.fst).nodup_iff.mp hs.distinct
  covered := by
    intro h o ho
    rw [← (hp.map Prod.fst).mem_iff]
    exact hs.covered h o ho

theorem not_mem_of_fresh (hs : Stock t items lost) (hfresh : t.find? h = none) :
    h ∉ items.map Prod.fst := by
  intro hmem
  obtain ⟨x, hx, rfl⟩ := List.mem_map.mp hmem
  rw [hs.live x hx] at hfresh
  cases hfresh

theorem insert (hs : Stock t items lost) (hfresh : t.find? h = none) (o : Object) :
    Stock (t.insert h o) ((h, o) :: items) lost where
  live := by
    intro x hx
    rcases List.mem_cons.mp hx with rfl | hitem
    · exact Table.find?_insert_self t h o
    · have hne : x.1 ≠ h := by
        intro heq
        exact hs.not_mem_of_fresh hfresh (List.mem_map.mpr ⟨x, hitem, heq⟩)
      rw [Table.find?_insert_of_ne t o hne]
      exact hs.live x hitem
  distinct := List.nodup_cons.mpr ⟨hs.not_mem_of_fresh hfresh, hs.distinct⟩
  covered := by
    intro h' o' ho'
    by_cases hh : h' = h
    · exact .inl (hh ▸ List.mem_cons_self)
    · rw [Table.find?_insert_of_ne t o hh] at ho'
      exact (hs.covered h' o' ho').imp (List.mem_cons_of_mem _) fun hl => hl

theorem tail (hs : Stock t ((h, o) :: items) lost) {x : Handle × Object} (hx : x ∈ items) :
    x.1 ≠ h ∧ t.find? x.1 = some x.2 := by
  refine ⟨?_, hs.live x (List.mem_cons_of_mem _ hx)⟩
  intro heq
  exact (List.nodup_cons.mp hs.distinct).1 (List.mem_map.mpr ⟨x, hx, heq⟩)

theorem erase (hs : Stock t ((h, o) :: items) lost) : Stock (t.erase h) items lost where
  live := by
    intro x hx
    obtain ⟨hne, hlive⟩ := hs.tail hx
    rw [Table.find?_erase_of_ne t hne]
    exact hlive
  distinct := (List.nodup_cons.mp hs.distinct).2
  covered := by
    intro h' o' ho'
    have hh : h' ≠ h := by
      rintro rfl
      rw [Table.find?_erase_self] at ho'
      cases ho'
    rw [Table.find?_erase_of_ne t hh] at ho'
    refine (hs.covered h' o' ho').imp (fun hmem => ?_) fun hl => hl
    exact (List.mem_cons.mp hmem).resolve_left hh

theorem modify (hs : Stock t ((h, o) :: items) lost) (f : Object → Object) :
    Stock (t.modify h f) ((h, f o) :: items) lost where
  live := by
    intro x hx
    rcases List.mem_cons.mp hx with rfl | hx
    · exact Table.find?_modify_self f (hs.live (h, o) List.mem_cons_self)
    · obtain ⟨hne, hlive⟩ := hs.tail hx
      rw [Table.find?_modify_of_ne t f hne]
      exact hlive
  distinct := hs.distinct
  covered := by
    intro h' o' ho'
    by_cases hh : h' = h
    · exact .inl (hh ▸ List.mem_cons_self)
    · rw [Table.find?_modify_of_ne t f hh] at ho'
      exact hs.covered h' o' ho'

/-- An object that stays behind is lost. -/
theorem lose (hs : Stock t ((h, o) :: items) lost) : Stock t items (h :: lost) where
  live := fun x hx => hs.live x (List.mem_cons_of_mem _ hx)
  distinct := (List.nodup_cons.mp hs.distinct).2
  covered := by
    intro h' o' ho'
    rcases hs.covered h' o' ho' with hmem | hl
    · rcases List.mem_cons.mp hmem with rfl | hmem
      · exact .inr List.mem_cons_self
      · exact .inl hmem
    · exact .inr (List.mem_cons_of_mem _ hl)

/-- With nothing lost the items are all there is. -/
theorem table_eq {t' : Table Handle Object} (hs : Stock t items []) (hs' : Stock t' items []) :
    t = t' := by
  have hle : ∀ {t t' : Table Handle Object}, Stock t items [] → Stock t' items [] →
      ∀ h o, t.find? h = some o → t'.find? h = some o := by
    intro t t' hs hs' h o ho
    have hmem : h ∈ items.map Prod.fst := by
      simpa using hs.covered h o ho
    obtain ⟨x, hx, rfl⟩ := List.mem_map.mp hmem
    rw [hs.live x hx] at ho
    rw [hs'.live x hx, ho]
  apply Table.ext_find?
  intro h
  apply Option.ext
  exact fun o => ⟨hle hs hs' h o, hle hs' hs h o⟩

/-- The objects off the books are no more than the lost ones. -/
theorem length_unlisted_le (hs : Stock t items lost) :
    (t.keys.filter fun h => h ∉ items.map Prod.fst).length ≤ lost.length := by
  have hnodup : (t.keys.filter fun h => h ∉ items.map Prod.fst).Nodup :=
    t.keys_nodup.sublist List.filter_sublist
  apply List.Subperm.length_le
  apply List.subperm_of_subset hnodup
  intro h hmem
  obtain ⟨hkey, hlisted⟩ := List.mem_filter.mp hmem
  obtain ⟨o, ho⟩ := Table.mem_keys_iff_find?.mp hkey
  exact (hs.covered h o ho).resolve_left (of_decide_eq_true hlisted)

end Stock

/-! What calls do to the tables -/

variable {s s' : Switch} {d : DeviceId} {h : Handle} {e : Entry}

theorem remove_eq_ok {kind : ObjectKind} (hs : s.remove d h kind = .ok s') :
    s' = { s with objects := s.objects.erase h } := by
  unfold remove at hs
  cases hexpect : s.expect d h kind with
  | error err => simp [hexpect, bind, Except.bind] at hs
  | ok _ =>
    simp only [hexpect, bind, Except.bind] at hs
    split at hs
    · cases hs
    · split at hs
      · cases hs
      · cases hs
        rfl

theorem createSubGroup_eq_ok {role : Role} {group : Handle} {reply : Handle × Switch}
    (hs : s.createSubGroup d role [group] = .ok reply) :
    reply = s.insert ⟨d, .subGroup role, some group, []⟩ := by
  simp only [createSubGroup] at hs
  cases hexpect : s.expect d group .group with
  | error err => simp [hexpect, bind, Except.bind] at hs
  | ok _ =>
    simp only [hexpect, bind, Except.bind, Except.ok.injEq] at hs
    exact hs.symm

theorem createMember_eq_ok {role : Role} {subGroup rif : Handle} {ports : List Handle}
    {reply : Handle × Switch}
    (hs : s.createMember d role [.subGroup subGroup, .routerInterface rif, .bridgePorts ports] =
      .ok reply) :
    reply = s.insert ⟨d, .member role, some subGroup, ports⟩ := by
  simp only [createMember, MemberAttr.subGroup?, MemberAttr.ports, List.foldl] at hs
  cases hexpect : s.expect d subGroup (.subGroup role) with
  | error err => simp [hexpect, bind, Except.bind] at hs
  | ok _ =>
    simp only [hexpect, bind, Except.bind, Except.ok.injEq] at hs
    exact hs.symm

theorem setMember_eq_ok {role : Role} {ports : List Handle}
    (hs : s.setMember d role h (.bridgePorts ports) = .ok s') :
    s' = { s with objects := s.objects.modify h fun o => { o with bridgePorts := ports } } := by
  unfold setMember at hs
  cases hexpect : s.expect d h (.member role) with
  | error err => simp [hexpect, bind, Except.bind] at hs
  | ok _ =>
    simp only [hexpect, bind, Except.bind, Except.ok.injEq] at hs
    exact hs.symm

theorem createEntry_eq_ok {attrs : List EntryAttr} (hs : s.createEntry d e attrs = .ok s') :
    s.entries.contains (d, e) = false ∧
      s' = { s with entries := s.entries.insert (d, e) attrs } := by
  unfold createEntry at hs
  split at hs
  · cases hs
  · split at hs
    · cases hs
    · next habsent =>
      refine ⟨Bool.eq_false_iff.mpr habsent, ?_⟩
      cases hcheck : s.checkAttrs d attrs with
      | error err => simp [hcheck, bind, Except.bind] at hs
      | ok _ =>
        simp only [hcheck, bind, Except.bind, Except.ok.injEq] at hs
        exact hs.symm

theorem removeEntry_eq_ok (hs : s.removeEntry d e = .ok s') :
    s.entries.contains (d, e) = true ∧ s' = { s with entries := s.entries.erase (d, e) } := by
  unfold removeEntry at hs
  split at hs
  · next hthere =>
    cases hs
    exact ⟨hthere, rfl⟩
  · cases hs

theorem setEntry_eq_ok {a : EntryAttr} (hs : s.setEntry d e a = .ok s') :
    s.entries.contains (d, e) = true ∧ s' = s.forceAttr d e a := by
  unfold setEntry at hs
  cases hcheck : s.checkAttr d a with
  | error err => simp [hcheck, bind, Except.bind] at hs
  | ok _ =>
    simp only [hcheck, bind, Except.bind] at hs
    split at hs
    · next hthere =>
      cases hs
      exact ⟨hthere, rfl⟩
    · cases hs

end Switch

/-! Routes as they should show, by device and entry -/

abbrev Programming := DeviceId × Entry → Option RouteImage

namespace Programming

def set (E : Programming) (k : DeviceId × Entry) (v : Option RouteImage) : Programming :=
  fun k' => if k' = k then v else E k'

def write (E : Programming) (k : DeviceId × Entry) (a : EntryAttr) : Programming :=
  fun k' => if k' = k then (E k').map (·.write a) else E k'

end Programming

/-- `failed` counts the undo calls that have failed. Handles are told apart by 48 bits, so the
stock is known only as long as no more of them were given out. -/
structure Books (items : List (Handle × Switch.Object)) (E : Programming) (s : Switch)
    (failed : Nat) : Prop where
  numbered : s.Numbered
  named : ∀ x ∈ items, x.1.isNull = false
  stock : s.counter < 2 ^ 48 → ∃ lost : List Handle, lost.length ≤ failed ∧
    Switch.Stock s.objects items lost
  routed : ∀ k, s.entries.contains k = (E k).isSome
  shown : failed = 0 → ∀ k v, E k = some v →
    ∃ attrs, s.entries.find? k = some attrs ∧ attrs.Perm v.attrs

namespace Books

variable {items rest : List (Handle × Switch.Object)} {E : Programming} {s s' : Switch} {n n' : Nat}
  {d : DeviceId} {h : Handle} {o : Switch.Object} {e : Entry}

theorem empty : Books [] (fun _ => none) .empty 0 where
  numbered := .empty
  named := by
    intro x hx
    cases hx
  stock := by
    intro _
    refine ⟨[], Nat.le_refl 0, ?_, .nil, ?_⟩
    · intro x hx
      cases hx
    · intro h o ho
      cases ho
  routed := fun _ => rfl
  shown := by
    intro _ k v hv
    cases hv

theorem perm (hb : Books items E s n) (hp : items.Perm rest) : Books rest E s n where
  numbered := hb.numbered
  named := fun x hx => hb.named x (hp.mem_iff.mpr hx)
  stock := by
    intro hc
    obtain ⟨lost, hlen, hstock⟩ := hb.stock hc
    exact ⟨lost, hlen, hstock.perm hp⟩
  routed := hb.routed
  shown := hb.shown

/-- Handles given out elsewhere and further failures do no harm. -/
theorem mono (hb : Books items E s n) (hc : s.counter ≤ s'.counter)
    (ho : s'.objects = s.objects) (he : s'.entries = s.entries) (hn : n ≤ n') :
    Books items E s' n' where
  numbered := hb.numbered.mono ho hc
  named := hb.named
  stock := by
    intro hc'
    obtain ⟨lost, hlen, hstock⟩ := hb.stock (Nat.lt_of_le_of_lt hc hc')
    exact ⟨lost, Nat.le_trans hlen hn, ho ▸ hstock⟩
  routed := by
    rw [he]
    exact hb.routed
  shown := by
    intro hzero
    rw [he]
    exact hb.shown (Nat.le_zero.mp (hzero ▸ hn))

theorem insert (hb : Books items E s n) (o : Switch.Object) :
    Books (((s.insert o).1, o) :: items) E (s.insert o).2 n where
  numbered := hb.numbered.insert o
  named := by
    intro x hx
    rcases List.mem_cons.mp hx with rfl | hx
    · exact Handle.isNull_make _ _
    · exact hb.named x hx
  stock := by
    intro hc
    have hc : s.counter + 1 < 2 ^ 48 := hc
    obtain ⟨lost, hlen, hstock⟩ := hb.stock (by omega)
    exact ⟨lost, hlen, hstock.insert (hb.numbered.fresh hc o.kind) o⟩
  routed := hb.routed
  shown := hb.shown

theorem remove (hb : Books ((h, o) :: items) E s n) {kind : ObjectKind}
    (hs : s.remove d h kind = .ok s') : Books items E s' n := by
  rw [Switch.remove_eq_ok hs]
  refine ⟨hb.numbered.erase h, fun x hx => hb.named x (List.mem_cons_of_mem _ hx), ?_, hb.routed,
    hb.shown⟩
  intro hc
  obtain ⟨lost, hlen, hstock⟩ := hb.stock hc
  exact ⟨lost, hlen, hstock.erase⟩

theorem lose (hb : Books ((h, o) :: items) E s n) : Books items E s (n + 1) where
  numbered := hb.numbered
  named := fun x hx => hb.named x (List.mem_cons_of_mem _ hx)
  stock := by
    intro hc
    obtain ⟨lost, hlen, hstock⟩ := hb.stock hc
    exact ⟨h :: lost, Nat.succ_le_succ hlen, hstock.lose⟩
  routed := hb.routed
  shown := by
    intro hzero
    cases hzero

theorem setMember (hb : Books ((h, o) :: items) E s n) {role : Role} {ports : List Handle}
    (hs : s.setMember d role h (.bridgePorts ports) = .ok s') :
    Books ((h, { o with bridgePorts := ports }) :: items) E s' n := by
  rw [Switch.setMember_eq_ok hs]
  refine ⟨hb.numbered.setPorts h ports, ?_, ?_, hb.routed, hb.shown⟩
  · intro x hx
    rcases List.mem_cons.mp hx with rfl | hx
    · exact hb.named (h, o) List.mem_cons_self
    · exact hb.named x (List.mem_cons_of_mem _ hx)
  · intro hc
    obtain ⟨lost, hlen, hstock⟩ := hb.stock hc
    exact ⟨lost, hlen, hstock.modify fun o => { o with bridgePorts := ports }⟩

/-- A change of one entry, to show `v`. -/
theorem set (hb : Books items E s n) {entries : Table (DeviceId × Entry) (List EntryAttr)}
    {k : DeviceId × Entry} {v : Option RouteImage}
    (hself : entries.find? k = v.map RouteImage.attrs)
    (hothers : ∀ k', k' ≠ k → entries.find? k' = s.entries.find? k') :
    Books items (E.set k v) { s with entries := entries } n where
  numbered := hb.numbered
  named := hb.named
  stock := hb.stock
  routed := by
    intro k'
    unfold Table.contains Programming.set
    by_cases hk : k' = k
    · rw [if_pos hk, hk, hself, Option.isSome_map]
    · rw [if_neg hk, ← hb.routed, hothers k' hk]
      rfl
  shown := by
    intro hzero k' w hw
    unfold Programming.set at hw
    by_cases hk : k' = k
    · rw [if_pos hk] at hw
      refine ⟨w.attrs, ?_, .refl _⟩
      rw [hk, hself, hw]
      rfl
    · rw [if_neg hk] at hw
      rw [hothers k' hk]
      exact hb.shown hzero k' w hw

theorem createEntry (hb : Books items E s n) {v : RouteImage}
    (hs : s.createEntry d e v.attrs = .ok s') :
    E (d, e) = none ∧ Books items (E.set (d, e) (some v)) s' n := by
  obtain ⟨habsent, rfl⟩ := Switch.createEntry_eq_ok hs
  rw [hb.routed] at habsent
  constructor
  · exact Option.isNone_iff_eq_none.mp (Option.isSome_eq_false_iff.mp habsent)
  · exact hb.set (Table.find?_insert_self _ _ _) fun _ hk => Table.find?_insert_of_ne _ _ hk

theorem removeEntry (hb : Books items E s n) (hs : s.removeEntry d e = .ok s') :
    Books items (E.set (d, e) none) s' n := by
  obtain ⟨_, rfl⟩ := Switch.removeEntry_eq_ok hs
  exact hb.set (Table.find?_erase_self _ _) fun _ hk => Table.find?_erase_of_ne _ hk

theorem isSome_write (E : Programming) (k k' : DeviceId × Entry) (a : EntryAttr) :
    (E.write k a k').isSome = (E k').isSome := by
  unfold Programming.write
  split <;> simp

theorem setEntry (hb : Books items E s n) {a : EntryAttr} (hs : s.setEntry d e a = .ok s') :
    Books items (E.write (d, e) a) s' n := by
  obtain ⟨_, rfl⟩ := Switch.setEntry_eq_ok hs
  refine ⟨hb.numbered, hb.named, hb.stock, ?_, ?_⟩
  · intro k
    rw [isSome_write, ← hb.routed]
    exact Table.contains_modify _ _ _ _
  · intro hzero k w hw
    unfold Programming.write at hw
    by_cases hk : k = (d, e)
    · rw [if_pos hk, Option.map_eq_some_iff] at hw
      obtain ⟨v, hv, rfl⟩ := hw
      obtain ⟨attrs, hattrs, hperm⟩ := hb.shown hzero k v hv
      rw [hk] at hattrs ⊢
      exact ⟨_, Table.find?_modify_self _ hattrs, RouteImage.perm_write hperm a⟩
    · rw [if_neg hk] at hw
      change ∃ attrs, (s.entries.modify (d, e) (EntryAttr.write · a)).find? k = some attrs ∧ _
      rw [Table.find?_modify_of_ne _ _ hk]
      exact hb.shown hzero k w hw

/-- What an entry reads as does not depend on the order in which its attributes are stored. -/
theorem readEntry (hb : Books items E s 0) (d : DeviceId) (e : Entry) (ids : List EntryAttr.Id) :
    s.readEntry d e ids = match E (d, e) with
      | some v => .ok (ids.map v.read)
      | none => .error (.notFound e.text) := by
  unfold Switch.readEntry Switch.entryAttrs?
  cases hE : E (d, e) with
  | none =>
    have hnone := hb.routed (d, e)
    rw [hE] at hnone
    rw [Table.contains_eq_false_iff.mp hnone]
  | some v =>
    obtain ⟨attrs, hattrs, hperm⟩ := hb.shown rfl (d, e) v hE
    rw [hattrs]
    exact congrArg Except.ok (List.map_congr_left fun id _ => RouteImage.read_of_perm hperm id)

/-- Once an undo call has failed it no longer matters what the routes show. -/
theorem blur (hb : Books items E s n) (k : DeviceId × Entry) (a : EntryAttr) :
    Books items (E.write k a) s (n + 1) where
  numbered := hb.numbered
  named := hb.named
  stock := by
    intro hc
    obtain ⟨lost, hlen, hstock⟩ := hb.stock hc
    exact ⟨lost, Nat.le_succ_of_le hlen, hstock⟩
  routed := by
    intro k'
    rw [isSome_write]
    exact hb.routed k'
  shown := by
    intro hzero
    cases hzero

end Books

end Multicast
