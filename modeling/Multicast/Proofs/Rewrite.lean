import Multicast.Proofs.Calls
import Multicast.Proofs.Step

/-! Attributes written to one entry: the calls made for them, and what they leave alone. -/
namespace Multicast

variable {config : Config} {order : RouteOrder} {d : DeviceId} {e : Entry} {a : EntryAttr}
  {l l' : List EntryAttr} {r r' r'' : Run Testbed}

/-- Operations end by counting and logging. -/
theorem Act.ends_finish {σ : Type} {f : Stats → Stats} {level : Log.Level} {message : String}
    {r : Run σ} {Q : Unit → Run σ → Prop} {F : OpError → Run σ → Prop} :
    (do Act.count f; Act.note level message : Act σ Unit).Ends r Q F ↔
      Q () ⟨r.state, { r.cache with stats := f r.cache.stats },
        r.events ++ [.log ⟨level, "ReplGroupOrch: " ++ message⟩]⟩ := Iff.rfl

/-! Attributes that differ -/

theorem RouteImage.zip_attrs (v w : RouteImage) :
    v.attrs.zip w.attrs = [EntryAttr.Id.packetAction, .outputGroup, .rpfGroup, .ingress].map
      fun id => (v.read id, w.read id) := rfl

/-- The attributes in which the new image differs. -/
def RouteImage.changed (v w : RouteImage) : List EntryAttr :=
  ([.packetAction, .outputGroup, .rpfGroup, .ingress].filter fun id => v.read id ≠ w.read id).map
    w.read

theorem RouteImage.map_snd_changes (v w : RouteImage) :
    ((v.attrs.zip w.attrs).filter fun p => p.1 ≠ p.2).map Prod.snd = v.changed w := by
  rw [zip_attrs, List.filter_map, List.map_map]
  rfl

/-! Writes -/

/-- `r'` is `r` after writing `attrs` to an entry, with one call for each. -/
structure Run.Writes (d : DeviceId) (e : Entry) (attrs : List EntryAttr) (r r' : Run Testbed) :
    Prop where
  overrides : r'.state.overrides = r.state.overrides
  calls : callsOf r'.events = callsOf r.events ++ attrs.map fun a => (d, .setEntry e a, none)
  undone : failedUndos r'.events = failedUndos r.events
  objects : r'.state.switch.objects = r.state.switch.objects
  entries : ∀ k, k ≠ (d, e) →
    r'.state.switch.entries.find? k = r.state.switch.entries.find? k

namespace Run.Writes

theorem refl (r : Run Testbed) (d : DeviceId) (e : Entry) : r.Writes d e [] r :=
  ⟨rfl, (List.append_nil _).symm, rfl, rfl, fun _ _ => rfl⟩

theorem of_eq (h : r.Writes d e l r') (hs : r''.state = r'.state) (he : r''.events = r'.events) :
    r.Writes d e l r'' := by
  obtain ⟨hover, hcalls, hundone, hobjects, hentries⟩ := h
  rw [← hs] at hover hobjects hentries
  rw [← he] at hcalls hundone
  exact ⟨hover, hcalls, hundone, hobjects, hentries⟩

/-- Lines of the log are no calls. -/
theorem log (h : r.Writes d e l r') {line : Log.Line} (hs : r''.state = r'.state)
    (he : r''.events = r'.events ++ [.log line]) : r.Writes d e l r'' := by
  have hlog : r.Writes d e l { r' with events := r'.events ++ [.log line] } := by
    refine { h with calls := ?_, undone := ?_ }
    · rw [callsOf_append, h.calls]
      exact List.append_nil _
    · rw [failedUndos_append, h.undone]
      rfl
  exact hlog.of_eq hs he

theorem trans (h : r.Writes d e l r') (h' : r'.Writes d e l' r'') :
    r.Writes d e (l ++ l') r'' where
  overrides := h'.overrides.trans h.overrides
  calls := by rw [h'.calls, h.calls, List.map_append, List.append_assoc]
  undone := h'.undone.trans h.undone
  objects := h'.objects.trans h.objects
  entries := fun k hk => (h'.entries k hk).trans (h.entries k hk)

end Run.Writes

theorem Switch.Alike.frame_setEntry {s s₀ s' : Switch} (halike : s.Alike s₀)
    (hs : s₀.setEntry d e a = .ok s') :
    s'.objects = s.objects ∧
      ∀ k, k ≠ (d, e) → s'.entries.find? k = s.entries.find? k := by
  obtain ⟨-, rfl⟩ := Switch.setEntry_eq_ok hs
  constructor
  · exact halike.objects
  · intro k hk
    rw [← halike.entries]
    exact Table.find?_modify_of_ne _ _ hk

theorem Act.setEntry_writes (hover : r.state.overrides = []) (a : EntryAttr) :
    (Act.request Testbed.hardware d (.setEntry e a)).Ends r (fun _ r' => r.Writes d e [a] r')
      fun _ _ => True := by
  refine (Act.request_called hover d (.setEntry e a)).mono ?_ fun _ _ _ => trivial
  rintro reply r' ⟨hcalled, s₀, halike, hperform⟩
  obtain ⟨hobjects, hentries⟩ := halike.frame_setEntry (Call.eq_ok_of_map hperform)
  exact ⟨hcalled.overrides, hcalled.calls, hcalled.undone, hobjects, hentries⟩

namespace Orchestrator

theorem writeAttrs_writes (hover : r.state.overrides = []) (key : RouteKey)
    (replaced : List EntryAttr) (changes : List (EntryAttr × EntryAttr)) :
    ((bench config order).writeAttrs d key e replaced changes).Ends r
      (fun _ r' => r.Writes d e (changes.map Prod.snd) r') fun _ _ => True := by
  induction changes generalizing replaced r with
  | nil => exact .refl r d e
  | cons change rest ih =>
    obtain ⟨old, new⟩ := change
    rw [writeAttrs]
    have hfirst := Act.setEntry_writes (d := d) (e := e) hover new
    refine (hfirst.orCleanUp_of_error (F := fun _ => True)).andThen ?_
    intro _ r₁ h₁
    refine (ih (h₁.overrides.trans hover) (replaced ++ [old])).mono ?_ fun _ _ _ => trivial
    exact fun _ _ h₂ => h₁.trans h₂

theorem writeChanges_writes {b : Opening} {items : List (Handle × Switch.Object)}
    {E : Programming} {key : RouteKey} (ha : Accounts b items E r)
    (he : entryAt b.mappings d key = some e) (changes : List (EntryAttr × EntryAttr)) :
    (if changes.isEmpty then pure ()
      else do
        let entry ← Act.entryOf Testbed.hardware d key
        (bench config order).writeAttrs d key entry [] changes : Act Testbed Unit).Ends r
      (fun _ r' => r.Writes d e (changes.map Prod.snd) r') fun _ _ => True := by
  split
  · next hempty =>
    rw [List.isEmpty_iff.mp hempty]
    exact .refl r d e
  · refine (ha.entryOf_ends key).bind ?_ fun _ _ _ => trivial
    rintro e' _ ⟨rfl, he'⟩
    obtain rfl : e' = e := Option.some.inj (he'.symm.trans he)
    exact writeAttrs_writes ha.overrides key [] changes

end Orchestrator

end Multicast
