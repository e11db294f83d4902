import Multicast.Proofs.Bench

/-! Devices are isolated. All share one table of objects and one counter of handles, and a cache may
hold a handle that names an object of another device; the switch checks the device in every call. -/
namespace Multicast

/-- Nothing of the device differs. Objects keep their handles as long as handles can be told
apart. -/
structure Switch.Spares (d : DeviceId) (s s' : Switch) : Prop where
  numbered : s.Numbered → s'.Numbered
  counter : s.counter ≤ s'.counter
  objects : s.Numbered → s'.counter < 2 ^ 48 → ∀ h o, o.device = d →
    (s'.objects.find? h = some o ↔ s.objects.find? h = some o)
  entries : ∀ e, s'.entries.find? (d, e) = s.entries.find? (d, e)
  mappings : s'.mappings = s.mappings

namespace Switch.Spares

variable {d d' : DeviceId} {s s' s'' : Switch}

theorem refl (d : DeviceId) (s : Switch) : s.Spares d s where
  numbered := fun hn => hn
  counter := Nat.le_refl _
  objects := fun _ _ _ _ _ => Iff.rfl
  entries := fun _ => rfl
  mappings := rfl

theorem trans (h : s.Spares d s') (h' : s'.Spares d s'') : s.Spares d s'' where
  numbered := fun hn => h'.numbered (h.numbered hn)
  counter := Nat.le_trans h.counter h'.counter
  objects := fun hn hc i o ho => (h'.objects (h.numbered hn) hc i o ho).trans
    (h.objects hn (Nat.lt_of_le_of_lt h'.counter hc) i o ho)
  entries := fun e => (h'.entries e).trans (h.entries e)
  mappings := h'.mappings.trans h.mappings

theorem alike (h : s.Alike s') : s.Spares d s' where
  numbered := fun hn => hn.alike h
  counter := Nat.le_of_eq h.counter.symm
  objects := fun _ _ i o _ => by rw [h.objects]
  entries := fun e => by rw [h.entries]
  mappings := h.mappings

/-- Only objects are changed, and none of the device. -/
theorem setObjects {objects : Table Handle Object} {counter : Nat}
    (hn : s.Numbered → Numbered { s with objects := objects, counter := counter })
    (hc : s.counter ≤ counter)
    (ho : s.Numbered → counter < 2 ^ 48 → ∀ h o, o.device = d →
      (objects.find? h = some o ↔ s.objects.find? h = some o)) :
    s.Spares d { s with objects := objects, counter := counter } :=
  ⟨hn, hc, ho, fun _ => rfl, rfl⟩

theorem setEntries {entries : Table (DeviceId × Entry) (List EntryAttr)}
    (he : ∀ e, entries.find? (d, e) = s.entries.find? (d, e)) :
    s.Spares d { s with entries := entries } :=
  ⟨fun hn => hn, Nat.le_refl _, fun _ _ _ _ _ => Iff.rfl, he, rfl⟩

theorem step (hd : d ≠ d') (hs : s.Step d' s') : s.Spares d s' := by
  have hentry : ∀ e e' : Entry, (d, e) ≠ (d', e') := fun e e' heq => hd (Prod.mk.inj heq).1
  cases hs with
  | read => exact refl d s
  | insert o ho hsupported =>
    refine setObjects (fun hn => hn.insert o) (Nat.le_succ _) fun hn hc h o' ho' => ?_
    by_cases hh : h = .make o.kind (s.counter + 1)
    · rw [hh, Table.find?_insert_self, hn.fresh hc]
      simp only [Option.some.injEq, reduceCtorEq, iff_false]
      rintro rfl
      exact hd (ho'.symm.trans ho)
    · rw [Table.find?_insert_of_ne _ _ hh]
  | erase h kind hlive hleaf hfree =>
    obtain ⟨o₀, hfind, hdevice, _⟩ := hlive
    refine setObjects (fun hn => hn.erase h) (Nat.le_refl _) fun _ _ h' o ho => ?_
    by_cases hh : h' = h
    · rw [hh, Table.find?_erase_self, hfind]
      simp only [Option.some.injEq, reduceCtorEq, false_iff]
      rintro rfl
      exact hd (ho.symm.trans hdevice)
    · rw [Table.find?_erase_of_ne _ hh]
  | setPorts h kind ports hlive =>
    obtain ⟨o₀, hfind, hdevice, _⟩ := hlive
    refine setObjects (fun hn => hn.setPorts h ports) (Nat.le_refl _) fun _ _ h' o ho => ?_
    by_cases hh : h' = h
    · rw [hh, Table.find?_modify_self _ hfind, hfind]
      simp only [Option.some.injEq]
      constructor
      · rintro rfl
        exact (hd (ho.symm.trans hdevice)).elim
      · rintro rfl
        exact (hd (ho.symm.trans hdevice)).elim
    · rw [Table.find?_modify_of_ne _ _ hh]
  | enter e attrs habsent hattrs =>
    exact setEntries fun e' => Table.find?_insert_of_ne _ _ (hentry e' e)
  | leave e hthere => exact setEntries fun e' => Table.find?_erase_of_ne _ (hentry e' e)
  | write e a hthere ha => exact setEntries fun e' => Table.find?_modify_of_ne _ _ (hentry e' e)

theorem call (hd : d ≠ d') (s : Switch) (c : Call) : s.Spares d (s.call d' c).2 := by
  rcases s.call_step d' c with halike | ⟨s₀, halike, hstep⟩
  · exact alike halike
  · exact (alike halike).trans (step hd hstep)

end Switch.Spares

/-- Nothing of the device differs: neither its attachment, cache and counters, nor what the hardware
has of it. -/
structure World.Spares (d : DeviceId) (w w' : World Testbed) : Prop where
  cache : w'.fleet.find? d = w.fleet.find? d
  objects : w'.state.switch.counter < 2 ^ 48 → ∀ h o, o.device = d →
    (w'.state.switch.objects.find? h = some o ↔ w.state.switch.objects.find? h = some o)
  entries : ∀ e, w'.state.switch.entries.find? (d, e) = w.state.switch.entries.find? (d, e)
  names : ∀ l, w'.state.switch.mappings.find? (d, l) = w.state.switch.mappings.find? (d, l)
  hidden : ∀ l, w'.state.hidden.contains (d, l) = w.state.hidden.contains (d, l)

/-- Whatever an operation returns, it changes nothing of another device. -/
theorem operations_spare_other_devices {config : Config} {w : World Testbed}
    (h : w.Benched config) (order : RouteOrder) (op : Operation) {d : DeviceId}
    (hd : d ≠ op.device) :
    w.Spares d (op.perform (Orchestrator.bench config order) w).world := by
  have hframe : CommitFrame Testbed.hardware op.device fun r r' =>
      r.state.switch.Spares d r'.state.switch ∧ r'.state.hidden = r.state.hidden := by
    refine Testbed.commitFrame
      (R := fun t t' => t.switch.Spares d t'.switch ∧ t'.hidden = t.hidden) ?_ ?_ ?_
    · exact fun t => ⟨.refl d t.switch, rfl⟩
    · exact fun h h' => ⟨h.1.trans h'.1, h'.2.trans h.2⟩
    · intro t c
      rw [(t.call_snd op.device c).1, (t.call_snd op.device c).2]
      exact ⟨.call hd t.switch c, rfl⟩
  obtain ⟨hspares, hhidden⟩ := op.perform_state (o := Orchestrator.bench config order)
    (R := fun t t' => t.switch.Spares d t'.switch ∧ t'.hidden = t.hidden) hframe w
  constructor
  · exact op.find?_perform _ w hd
  · exact hspares.objects h.numbered
  · exact hspares.entries
  · intro l
    rw [hspares.mappings]
  · intro l
    rw [hhidden]

/-- A group on device 2, whose handle the next group on device 1 is reported to have. -/
def World.crossed : World Testbed :=
  (World.start .empty).run {}
    [.feed (.switch (.register ⟨1⟩ (.rif ⟨10⟩))), .feed (.switch (.register ⟨2⟩ (.rif ⟨10⟩))),
      .operate .ascending (.attach ⟨1⟩), .operate .ascending (.attach ⟨2⟩),
      .operate .ascending (.createGroup ⟨2⟩ .ipmc ⟨⟨10⟩, []⟩ []),
      .feed (.override .createGroup (.make .group 3))]

/-- The group of device 2 takes no sub-group from device 1, nor does it go when that is undone. -/
theorem operations_spare_other_devices_crossed :
    let op := Operation.createGroup ⟨1⟩ .ipmc ⟨⟨10⟩, []⟩ []
    let out := op.perform (Orchestrator.bench {} .ascending) World.crossed
    World.crossed.Benched {} ∧ (⟨2⟩ : DeviceId) ≠ op.device ∧ out.result.isOk = false ∧
      World.crossed.Spares ⟨2⟩ out.world :=
  have hreached : World.crossed.Benched {} := World.Benched.start.run _
  ⟨hreached, by decide, by decide +kernel,
    operations_spare_other_devices hreached .ascending _ (by decide)⟩

end Multicast
