import Mathlib.Logic.Relation
import Multicast.Cache.Registry
import Multicast.Proofs.CacheStep

/-! Who can reach which cell of a registry. A device's current attachment is in a cell of its own
that is not marked, and a ticket that is left over reaches a marked one, which no device is in. -/
namespace Multicast

namespace Registry

/-- A registry and the tickets taken from it. -/
structure Desk where
  registry : Registry
  kept : List Ticket

def Desk.start : Desk := ⟨.empty, []⟩

/-- One use of a registry. A refused use changes nothing. -/
inductive Desk.Step (s : Desk) : Desk → Prop where
  | attach {d : DeviceId} {r : Registry} (h : s.registry.attach d = .ok r) :
    Step s { s with registry := r }
  | detach {d : DeviceId} {r : Registry} (h : s.registry.detach d = .ok r) :
    Step s { s with registry := r }
  | take {d : DeviceId} {t : Ticket} (h : s.registry.ticket d = .ok t) :
    Step s { s with kept := t :: s.kept }
  | withTicket {α : Type} {t : Ticket} (ht : t ∈ s.kept) {f : DeviceCache → α × DeviceCache}
    {a : α} {r : Registry} (h : s.registry.withTicket t f = .ok (a, r)) :
    Step s { s with registry := r }
  | withDevice {α : Type} {d : DeviceId} {f : DeviceCache → α × DeviceCache}
    {a : α} {r : Registry} (h : s.registry.withDevice d f = .ok (a, r)) :
    Step s { s with registry := r }

abbrev Desk.Steps : Desk → Desk → Prop := Relation.ReflTransGen Desk.Step

def Desk.Reached (s : Desk) : Prop := Desk.Steps .start s

/-! The operations, one lemma each -/

variable {r r' : Registry} {d e : DeviceId} {t : Ticket} {α : Type}

theorem attach_eq_ok_iff :
    r.attach d = .ok r' ↔
      r.serials.find? d = none ∧
        r' = ⟨r.cells ++ [.fresh], r.serials.insert d r.cells.length⟩ := by
  unfold attach
  cases h : r.serials.contains d
  · simp [Table.contains_eq_false_iff.mp h, eq_comm]
  · obtain ⟨n, hn⟩ := Table.contains_iff.mp h
    simp [hn]

theorem ticket_eq_ok_iff :
    r.ticket d = .ok t ↔ r.serials.find? d = some t.serial ∧ t.device = d := by
  obtain ⟨d', n⟩ := t
  unfold ticket
  split
  · next h => simp [h, eq_comm, and_comm]
  · next h => simp [h]

theorem cell_eq_ok_iff {cell : Cell} : r.cell t = .ok cell ↔ r.cells[t.serial]? = some cell := by
  unfold Registry.cell
  split
  · next h => simp [h]
  · next h => simp [h]

theorem liveCell_eq_ok_iff {cell : Cell} :
    r.liveCell d = .ok (t, cell) ↔
      r.serials.find? d = some t.serial ∧ t.device = d ∧ r.cells[t.serial]? = some cell ∧
        cell.detached = false := by
  unfold liveCell
  simp only [Except.bind_eq_ok_iff, ticket_eq_ok_iff, cell_eq_ok_iff]
  constructor
  · rintro ⟨t', ⟨hn, rfl⟩, cell', hcell, h⟩
    split at h
    · cases h
    · next hlive => cases h; exact ⟨hn, rfl, hcell, by simpa using hlive⟩
  · rintro ⟨hn, hd, hcell, hlive⟩
    exact ⟨t, ⟨hn, hd⟩, cell, hcell, by simp [hlive]⟩

theorem detach_eq_ok_iff :
    r.detach d = .ok r' ↔
      ∃ n cell, r.serials.find? d = some n ∧ r.cells[n]? = some cell ∧ cell.detached = false ∧
        cell.cache.groups.size = 0 ∧
        r' = ⟨r.cells.modify n fun cell => { cell with detached := true }, r.serials.erase d⟩ := by
  unfold detach
  simp only [Except.bind_eq_ok_iff, Prod.exists, liveCell_eq_ok_iff]
  constructor
  · rintro ⟨t, cell, ⟨hn, rfl, hcell, hlive⟩, h⟩
    split at h
    · cases h
    · next hgroups =>
      cases h
      exact ⟨t.serial, cell, hn, hcell, hlive, by omega, by simp [forget, update, hn]⟩
  · rintro ⟨n, cell, hn, hcell, hlive, hgroups, rfl⟩
    exact ⟨⟨d, n⟩, cell, ⟨hn, rfl, hcell, hlive⟩, by simp [hgroups, forget, update, hn]⟩

theorem withTicket_eq_ok_iff {f : DeviceCache → α × DeviceCache} {a : α} :
    r.withTicket t f = .ok (a, r') ↔
      ∃ cell, r.cells[t.serial]? = some cell ∧ a = (f cell.cache).1 ∧
        r' = r.update t fun cell => { cell with cache := (f cell.cache).2 } := by
  unfold withTicket
  simp only [Except.bind_eq_ok_iff, cell_eq_ok_iff, Except.ok.injEq, Prod.mk.injEq]
  simp only [eq_comm (b := a), eq_comm (b := r')]

theorem withDevice_eq_ok_iff {f : DeviceCache → α × DeviceCache} {a : α} :
    r.withDevice d f = .ok (a, r') ↔
      ∃ n cell, r.serials.find? d = some n ∧ r.cells[n]? = some cell ∧ cell.detached = false ∧
        a = (f cell.cache).1 ∧
        r' = r.update ⟨d, n⟩ fun cell => { cell with cache := (f cell.cache).2 } := by
  unfold withDevice
  simp only [Except.bind_eq_ok_iff, Prod.exists, liveCell_eq_ok_iff, withTicket_eq_ok_iff]
  constructor
  · rintro ⟨⟨_, n⟩, cell, ⟨hn, rfl, hcell, hlive⟩, cell', hcell', rfl, rfl⟩
    cases hcell.symm.trans hcell'
    exact ⟨n, cell, hn, hcell, hlive, rfl, rfl⟩
  · rintro ⟨n, cell, hn, hcell, hlive, rfl, rfl⟩
    exact ⟨⟨d, n⟩, cell, ⟨hn, rfl, hcell, hlive⟩, cell, hcell, rfl, rfl⟩

theorem isDetached_iff :
    r.isDetached t = true ↔ ∃ cell, r.cells[t.serial]? = some cell ∧ cell.detached = true := by
  unfold isDetached
  split
  · next cell h => simp [cell_eq_ok_iff.mp h]
  · next h =>
    constructor
    · intro h'
      cases h'
    · rintro ⟨cell, hcell, -⟩
      rw [cell_eq_ok_iff.mpr hcell] at h
      cases h

theorem find?_cells_update (r : Registry) (t : Ticket) (f : Cell → Cell) (n : Nat) :
    (r.update t f).cells[n]? =
      (r.cells[n]?).map fun cell => if t.serial = n then f cell else cell := by
  simp [update, List.getElem?_modify]

/-! Which cells are in use -/

/-- Each attached device is in a cell of its own, which is not marked, and a ticket to a cell that
is not marked is for the device in it. -/
structure Tidy (r : Registry) (kept : List Ticket) : Prop where
  live : ∀ {d n}, r.serials.find? d = some n →
    ∃ cell, r.cells[n]? = some cell ∧ cell.detached = false
  apart : ∀ {d e n}, r.serials.find? d = some n → r.serials.find? e = some n → d = e
  kept : ∀ {t}, t ∈ kept → ∃ cell, r.cells[t.serial]? = some cell ∧
    (cell.detached = false → r.serials.find? t.device = some t.serial)

namespace Tidy

variable {kept : List Ticket}

theorem empty : Registry.empty.Tidy [] where
  live hn := by cases hn
  apart hn := by cases hn
  kept ht := by cases ht

theorem attach (h : r.Tidy kept) (ha : r.attach d = .ok r') : r'.Tidy kept := by
  obtain ⟨hd, rfl⟩ := attach_eq_ok_iff.mp ha
  have hlt : ∀ {e n}, r.serials.find? e = some n → n < r.cells.length := fun hn => by
    obtain ⟨cell, hcell, -⟩ := h.live hn
    exact (List.getElem?_eq_some_iff.mp hcell).1
  have hold : ∀ {e n}, (r.serials.insert d r.cells.length).find? e = some n →
      (e = d ∧ n = r.cells.length) ∨ r.serials.find? e = some n := by
    intro e n hn
    by_cases he : e = d
    · rw [he, Table.find?_insert_self] at hn
      exact .inl ⟨he, (Option.some.inj hn).symm⟩
    · rw [Table.find?_insert_of_ne _ _ he] at hn
      exact .inr hn
  have hcells : ∀ {n : Nat} {cell : Cell}, r.cells[n]? = some cell →
      (r.cells ++ [.fresh])[n]? = some cell := fun hcell => by
    rw [List.getElem?_append_left (List.getElem?_eq_some_iff.mp hcell).1, hcell]
  refine ⟨fun hn => ?_, fun hn hm => ?_, fun ht => ?_⟩
  · rcases hold hn with ⟨-, rfl⟩ | hn
    · exact ⟨.fresh, by simp, rfl⟩
    · obtain ⟨cell, hcell, hlive⟩ := h.live hn
      exact ⟨cell, hcells hcell, hlive⟩
  · rcases hold hn with ⟨rfl, rfl⟩ | hn' <;> rcases hold hm with ⟨rfl, hlast⟩ | hm'
    · rfl
    · exact absurd (hlt hm') (Nat.lt_irrefl _)
    · exact absurd (hlast ▸ hlt hn') (Nat.lt_irrefl _)
    · exact h.apart hn' hm'
  · obtain ⟨cell, hcell, hlive⟩ := h.kept ht
    refine ⟨cell, hcells hcell, fun hc => ?_⟩
    have hn := hlive hc
    rw [Table.find?_insert_of_ne _ _ (by rintro rfl; rw [hd] at hn; cases hn), hn]

theorem detach (h : r.Tidy kept) (hr : r.detach d = .ok r') : r'.Tidy kept := by
  obtain ⟨n, cell, hn, -, -, -, rfl⟩ := detach_eq_ok_iff.mp hr
  have hcells : ∀ {m : Nat} {cell : Cell}, r.cells[m]? = some cell → m ≠ n →
      (r.cells.modify n fun cell => { cell with detached := true })[m]? = some cell :=
    fun hcell hm => by simp [hm.symm, hcell]
  have hold : ∀ {e m}, (r.serials.erase d).find? e = some m →
      e ≠ d ∧ r.serials.find? e = some m := by
    intro e m hm
    by_cases he : e = d
    · rw [he, Table.find?_erase_self] at hm
      cases hm
    · exact ⟨he, Table.find?_erase_of_ne _ he ▸ hm⟩
  refine ⟨fun hm => ?_, fun hm hm' => h.apart (hold hm).2 (hold hm').2, fun {t} ht => ?_⟩
  · obtain ⟨he, hm⟩ := hold hm
    obtain ⟨cell, hcell, hlive⟩ := h.live hm
    exact ⟨cell, hcells hcell fun hmn => he (h.apart (hmn ▸ hm) hn), hlive⟩
  · obtain ⟨cell, hcell, hlive⟩ := h.kept ht
    by_cases htn : t.serial = n
    · exact ⟨{ cell with detached := true }, by simp [← htn, hcell],
        fun hc => by cases hc⟩
    · refine ⟨cell, hcells hcell htn, fun hc => ?_⟩
      have hs := hlive hc
      have hne : t.device ≠ d := by
        rintro rfl
        exact htn (Option.some.inj (hs.symm.trans hn))
      rw [Table.find?_erase_of_ne _ hne, hs]

theorem take (h : r.Tidy kept) (ht : r.ticket d = .ok t) : r.Tidy (t :: kept) := by
  obtain ⟨hn, hd⟩ := ticket_eq_ok_iff.mp ht
  refine ⟨h.live, h.apart, fun ht' => ?_⟩
  rcases List.mem_cons.mp ht' with rfl | ht'
  · obtain ⟨cell, hcell, -⟩ := h.live hn
    exact ⟨cell, hcell, fun _ => hd ▸ hn⟩
  · exact h.kept ht'

/-- Work on a cache leaves all marks. -/
theorem update (h : r.Tidy kept) {f : Cell → Cell}
    (hf : ∀ cell, (f cell).detached = cell.detached) : (r.update t f).Tidy kept := by
  have hcells : ∀ {n : Nat} {cell : Cell}, r.cells[n]? = some cell →
      ∃ cell', (r.update t f).cells[n]? = some cell' ∧ cell'.detached = cell.detached := by
    intro n cell hcell
    refine ⟨if t.serial = n then f cell else cell, by rw [find?_cells_update, hcell]; rfl, ?_⟩
    split
    · exact hf cell
    · rfl
  refine ⟨fun hn => ?_, h.apart, fun ht => ?_⟩
  · obtain ⟨cell, hcell, hlive⟩ := h.live hn
    obtain ⟨cell', hcell', hmark⟩ := hcells hcell
    exact ⟨cell', hcell', hmark.trans hlive⟩
  · obtain ⟨cell, hcell, hlive⟩ := h.kept ht
    obtain ⟨cell', hcell', hmark⟩ := hcells hcell
    exact ⟨cell', hcell', fun hc => hlive (hmark.symm.trans hc)⟩

theorem step {s s' : Desk} (h : s.registry.Tidy s.kept) (hstep : s.Step s') :
    s'.registry.Tidy s'.kept := by
  cases hstep with
  | attach ha => exact h.attach ha
  | detach hr => exact h.detach hr
  | take ht => exact h.take ht
  | withTicket _ hw =>
    obtain ⟨cell, -, -, rfl⟩ := withTicket_eq_ok_iff.mp hw
    exact h.update fun _ => rfl
  | withDevice hw =>
    obtain ⟨n, cell, -, -, -, -, rfl⟩ := withDevice_eq_ok_iff.mp hw
    exact h.update fun _ => rfl

end Tidy

theorem Desk.Reached.tidy {s : Desk} (h : s.Reached) : s.registry.Tidy s.kept := by
  induction h with
  | refl => exact .empty
  | tail _ hstep ih => exact ih.step hstep

/-! Marks stay -/

theorem isDetached_update {f : Cell → Cell} {u : Ticket}
    (hf : ∀ cell, cell.detached = true → (f cell).detached = true) (h : r.isDetached t = true) :
    (r.update u f).isDetached t = true := by
  obtain ⟨cell, hcell, hmark⟩ := isDetached_iff.mp h
  refine isDetached_iff.mpr ⟨_, by rw [find?_cells_update, hcell]; rfl, ?_⟩
  split
  · exact hf cell hmark
  · exact hmark

theorem Desk.Step.isDetached {s s' : Desk} (hstep : s.Step s')
    (h : s.registry.isDetached t = true) : s'.registry.isDetached t = true := by
  cases hstep with
  | attach ha =>
    obtain ⟨-, rfl⟩ := attach_eq_ok_iff.mp ha
    obtain ⟨cell, hcell, hmark⟩ := isDetached_iff.mp h
    refine isDetached_iff.mpr ⟨cell, ?_, hmark⟩
    rw [List.getElem?_append_left (List.getElem?_eq_some_iff.mp hcell).1, hcell]
  | detach hr =>
    obtain ⟨n, cell, -, -, -, -, rfl⟩ := detach_eq_ok_iff.mp hr
    refine isDetached_update (u := ⟨t.device, n⟩) ?_ h
    exact fun _ _ => rfl
  | take => exact h
  | withTicket _ hw =>
    obtain ⟨cell, -, -, rfl⟩ := withTicket_eq_ok_iff.mp hw
    refine isDetached_update ?_ h
    exact fun _ hmark => hmark
  | withDevice hw =>
    obtain ⟨n, cell, -, -, -, -, rfl⟩ := withDevice_eq_ok_iff.mp hw
    refine isDetached_update ?_ h
    exact fun _ hmark => hmark

theorem Desk.Steps.isDetached {s s' : Desk} (hsteps : s.Steps s')
    (h : s.registry.isDetached t = true) : s'.registry.isDetached t = true := by
  induction hsteps with
  | refl => exact h
  | tail _ hstep ih => exact hstep.isDetached ih

/-- Detaching a device marks the cell of each ticket to it that was not marked before. -/
theorem Tidy.isDetached_of_detach {kept : List Ticket} (h : r.Tidy kept) (ht : t ∈ kept)
    (hr : r.detach t.device = .ok r') : r'.isDetached t = true := by
  obtain ⟨n, -, hn, -, -, -, rfl⟩ := detach_eq_ok_iff.mp hr
  obtain ⟨cell, hcell, hlive⟩ := h.kept ht
  refine isDetached_iff.mpr ⟨if n = t.serial then { cell with detached := true } else cell,
    by simp [List.getElem?_modify, hcell], ?_⟩
  split
  · rfl
  · next hne =>
    refine Bool.of_not_eq_false fun hc => hne ?_
    exact Option.some.inj (hn.symm.trans (hlive hc))

/-! What work on the cache of a device is shown -/

/-- What work on a device's cache returns. -/
def sees (r : Registry) (d : DeviceId) (f : DeviceCache → α × DeviceCache) : Except CacheError α :=
  (r.withDevice d f).map Prod.fst

theorem sees_of_live {n : Nat} (cell : Cell) (hn : r.serials.find? d = some n)
    (hcell : r.cells[n]? = some cell) (hlive : cell.detached = false)
    (f : DeviceCache → α × DeviceCache) : r.sees d f = .ok (f cell.cache).1 := by
  rw [sees, withDevice_eq_ok_iff.mpr ⟨n, cell, hn, hcell, hlive, rfl, rfl⟩]
  rfl

theorem sees_of_find?_eq_none (hn : r.serials.find? d = none)
    (f : DeviceCache → α × DeviceCache) : r.sees d f = .error (.deviceNotFound d) := by
  simp only [sees, withDevice, liveCell, ticket, hn]
  rfl

/-- Only the cells of attached devices are seen. -/
theorem Tidy.sees_congr {kept : List Ticket} (h : r.Tidy kept) (hs : r'.serials = r.serials)
    (hcells : ∀ {e n}, r.serials.find? e = some n → r'.cells[n]? = r.cells[n]?)
    (f : DeviceCache → α × DeviceCache) : r'.sees d f = r.sees d f := by
  cases hn : r.serials.find? d with
  | none => rw [sees_of_find?_eq_none hn, sees_of_find?_eq_none (hs ▸ hn)]
  | some n =>
    obtain ⟨cell, hcell, hlive⟩ := h.live hn
    rw [sees_of_live _ hn hcell hlive, sees_of_live _ (hs ▸ hn) ((hcells hn).trans hcell) hlive]

/-- What is done through a ticket to a marked cell is not seen. -/
theorem Tidy.sees_update {kept : List Ticket} (h : r.Tidy kept) (ht : r.isDetached t = true)
    (g : Cell → Cell) (f : DeviceCache → α × DeviceCache) :
    (r.update t g).sees d f = r.sees d f := by
  refine h.sees_congr ?_ (fun {e n} hn => ?_) f
  · rfl
  obtain ⟨cell, hcell, hlive⟩ := h.live hn
  obtain ⟨cell', hcell', hmark⟩ := isDetached_iff.mp ht
  have hne : t.serial ≠ n := by
    rintro rfl
    cases hcell.symm.trans hcell'
    rw [hlive] at hmark
    cases hmark
  rw [find?_cells_update, hcell]
  simp [hne]

theorem Tidy.detaches_iff {kept : List Ticket} (h : r.Tidy kept) :
    (∃ r', r.detach d = .ok r') ↔
      r.isAttached d = true ∧ r.sees d (fun c => (c.groups.size, c)) = .ok 0 := by
  simp only [detach_eq_ok_iff, isAttached, Table.contains_iff]
  constructor
  · rintro ⟨r', n, cell, hn, hcell, hlive, hgroups, -⟩
    rw [sees_of_live _ hn hcell hlive, hgroups]
    exact ⟨⟨n, hn⟩, rfl⟩
  · rintro ⟨⟨n, hn⟩, hsees⟩
    obtain ⟨cell, hcell, hlive⟩ := h.live hn
    rw [sees_of_live _ hn hcell hlive] at hsees
    exact ⟨_, n, cell, hn, hcell, hlive, Except.ok.inj hsees, rfl⟩

theorem sees_of_attach (ha : r.attach d = .ok r') (f : DeviceCache → α × DeviceCache) :
    r'.sees d f = .ok (f .empty).1 := by
  obtain ⟨-, rfl⟩ := attach_eq_ok_iff.mp ha
  exact sees_of_live .fresh (Table.find?_insert_self _ _ _) List.getElem?_concat_length rfl f

/-- Each attached device is in a cell that is not marked; it can be detached exactly when its cache
has no groups, and starts again with an empty cache. Once it is detached, tickets taken before read
so forever, and what is done through them is seen on no device. -/
theorem old_tickets_reach_no_device {s : Desk} (hs : s.Reached) :
    (∀ d, s.registry.isAttached d = true → ∃ n cell, s.registry.serials.find? d = some n ∧
      s.registry.cells[n]? = some cell ∧ cell.detached = false) ∧
    (∀ d, (∃ r, s.registry.detach d = .ok r) ↔
      s.registry.isAttached d = true ∧
        s.registry.sees d (fun c => (c.groups.size, c)) = .ok 0) ∧
    (∀ d r, s.registry.attach d = .ok r → r.sees d (fun c => (c, c)) = .ok ⟨∅, ∅, {}⟩) ∧
    ∀ t ∈ s.kept, ∀ r, s.registry.detach t.device = .ok r →
      ∀ s' : Desk, Desk.Steps { s with registry := r } s' →
        s'.registry.isDetached t = true ∧
        ∀ (α : Type) (f : DeviceCache → α × DeviceCache),
          ∃ a r', s'.registry.withTicket t f = .ok (a, r') ∧
            ∀ (d : DeviceId) (β : Type) (g : DeviceCache → β × DeviceCache),
              r'.sees d g = s'.registry.sees d g := by
  have htidy := hs.tidy
  refine ⟨fun d hd => ?_, fun d => htidy.detaches_iff, fun d r ha => sees_of_attach ha _,
    fun t ht r hr s' hsteps => ?_⟩
  · obtain ⟨n, hn⟩ := Table.contains_iff.mp hd
    obtain ⟨cell, hcell, hlive⟩ := htidy.live hn
    exact ⟨n, cell, hn, hcell, hlive⟩
  · have hreached : s'.Reached := (hs.tail (.detach hr)).trans hsteps
    have hmark := hsteps.isDetached (htidy.isDetached_of_detach ht hr)
    refine ⟨hmark, fun α f => ?_⟩
    obtain ⟨cell, hcell, -⟩ := isDetached_iff.mp hmark
    refine ⟨_, _, withTicket_eq_ok_iff.mpr ⟨cell, hcell, rfl, rfl⟩, fun d β g => ?_⟩
    exact hreached.tidy.sees_update hmark _ g

/-- Device 1 is attached, and a ticket to it was taken. -/
def Desk.visited : Desk := ⟨⟨[.fresh], .ofList [(⟨1⟩, 0)]⟩, [⟨⟨1⟩, 0⟩]⟩

/-- Device 1 was detached and attached again since. -/
def Desk.revisited : Desk :=
  ⟨⟨[⟨.empty, true⟩, .fresh], .ofList [(⟨1⟩, 1)]⟩, [⟨⟨1⟩, 0⟩]⟩

theorem Desk.visited_reached : Desk.visited.Reached :=
  .tail (.single (.attach (d := ⟨1⟩) rfl)) (.take (d := ⟨1⟩) rfl)

/-- A count made through the old ticket is not seen on the device that is attached again. -/
theorem old_tickets_reach_no_device_revisited :
    Desk.visited.Reached ∧ ∃ r, Desk.visited.registry.detach ⟨1⟩ = .ok r ∧
      Desk.Steps { Desk.visited with registry := r } .revisited ∧
      Desk.revisited.registry.isDetached ⟨⟨1⟩, 0⟩ = true ∧
      ∃ a r', (Desk.revisited.registry.withTicket ⟨⟨1⟩, 0⟩ fun c =>
          ((), { c with stats.rollbacks := 1 })) = .ok (a, r') ∧
        r'.sees ⟨1⟩ (fun c => (c.stats.rollbacks, c)) =
          Desk.revisited.registry.sees ⟨1⟩ fun c => (c.stats.rollbacks, c) := by
  have hsteps : Desk.Steps ⟨⟨[⟨.empty, true⟩], ∅⟩, [⟨⟨1⟩, 0⟩]⟩ .revisited :=
    .single (.attach (d := ⟨1⟩) rfl)
  obtain ⟨hmark, hwork⟩ :=
    (old_tickets_reach_no_device Desk.visited_reached).2.2.2 ⟨⟨1⟩, 0⟩ (List.mem_singleton.mpr rfl)
      _ rfl _ hsteps
  obtain ⟨a, r', hok, hsees⟩ := hwork Unit fun c => ((), { c with stats.rollbacks := 1 })
  exact ⟨Desk.visited_reached, _, rfl, hsteps, hmark, a, r', hok, hsees ⟨1⟩ Nat _⟩

/-! The caches of attached devices are a fleet, and the registry works on them as a fleet does -/

theorem find?_fleet_of_live {n : Nat} (cell : Cell) (hn : r.serials.find? d = some n)
    (hcell : r.cells[n]? = some cell) : r.fleet.find? d = some cell.cache := by
  simp [fleet, hn, hcell]

theorem find?_fleet_of_none (hn : r.serials.find? d = none) : r.fleet.find? d = none := by
  simp [fleet, hn]

/-- Two registries have the same caches where they have the same devices in the same cells. -/
theorem find?_fleet_congr (hn : r'.serials.find? e = r.serials.find? e)
    (hcells : ∀ {n}, r.serials.find? e = some n → r'.cells[n]? = r.cells[n]?) :
    r'.fleet.find? e = r.fleet.find? e := by
  cases h : r.serials.find? e with
  | none => simp [fleet, hn, h]
  | some n => simp [fleet, hn, h, hcells h]

theorem Tidy.attach_fleet {kept : List Ticket} (h : r.Tidy kept) (ha : r.attach d = .ok r') :
    r.fleet.attach d = .ok r'.fleet := by
  obtain ⟨hd, rfl⟩ := attach_eq_ok_iff.mp ha
  refine Fleet.attach_eq_ok_iff.mpr ⟨find?_fleet_of_none hd, Table.ext_find? fun e => ?_⟩
  by_cases he : e = d
  · rw [he, Table.find?_insert_self]
    exact find?_fleet_of_live .fresh (Table.find?_insert_self _ _ _) List.getElem?_concat_length
  · rw [Table.find?_insert_of_ne _ _ he]
    refine find?_fleet_congr (Table.find?_insert_of_ne _ _ he) fun {n} hn => ?_
    obtain ⟨cell, hcell, -⟩ := h.live hn
    exact List.getElem?_append_left (List.getElem?_eq_some_iff.mp hcell).1

theorem Tidy.detach_fleet {kept : List Ticket} (h : r.Tidy kept) (hr : r.detach d = .ok r') :
    r.fleet.detach d = .ok r'.fleet := by
  obtain ⟨n, cell, hn, hcell, -, hgroups, rfl⟩ := detach_eq_ok_iff.mp hr
  refine Fleet.detach_eq_ok_iff.mpr
    ⟨cell.cache, find?_fleet_of_live _ hn hcell, hgroups, Table.ext_find? fun e => ?_⟩
  by_cases he : e = d
  · rw [he, Table.find?_erase_self]
    exact find?_fleet_of_none (Table.find?_erase_self _ _)
  · rw [Table.find?_erase_of_ne _ he]
    refine find?_fleet_congr (Table.find?_erase_of_ne _ he) fun {m} hm => ?_
    have hne : n ≠ m := fun hnm => he (h.apart hm (hnm ▸ hn))
    simp [hne]

theorem Tidy.withDevice_fleet {kept : List Ticket} (h : r.Tidy kept)
    {f : DeviceCache → α × DeviceCache} {a : α} (hw : r.withDevice d f = .ok (a, r')) :
    ∃ c, r.fleet.find? d = some c ∧ a = (f c).1 ∧
      r'.fleet = r.fleet.modify d fun c => (f c).2 := by
  obtain ⟨n, cell, hn, hcell, -, rfl, rfl⟩ := withDevice_eq_ok_iff.mp hw
  refine ⟨cell.cache, find?_fleet_of_live _ hn hcell, rfl, Table.ext_find? fun e => ?_⟩
  by_cases he : e = d
  · rw [he, Table.find?_modify_self _ (find?_fleet_of_live _ hn hcell)]
    exact find?_fleet_of_live { cell with cache := (f cell.cache).2 } hn
      (by rw [find?_cells_update, hcell]; simp)
  · rw [Table.find?_modify_of_ne _ _ he]
    refine find?_fleet_congr rfl fun {m} hm => ?_
    have hne : n ≠ m := fun hnm => he (h.apart hm (hnm ▸ hn))
    rw [find?_cells_update]
    simp [hne]

end Registry

end Multicast
