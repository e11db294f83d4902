import Multicast.Hardware.Entry

/-! The four attributes of a programmed route, in whatever order the hardware keeps them. -/
namespace Multicast

structure RouteImage where
  action : PacketAction
  output : Handle
  rpf : Handle
  ingress : Handle
  deriving DecidableEq

namespace RouteImage

def attrs (v : RouteImage) : List EntryAttr :=
  [.packetAction v.action, .outputGroup v.output, .rpfGroup v.rpf, .ingress v.ingress]

def read (v : RouteImage) : EntryAttr.Id → EntryAttr
  | .packetAction => .packetAction v.action
  | .outputGroup => .outputGroup v.output
  | .rpfGroup => .rpfGroup v.rpf
  | .ingress => .ingress v.ingress

def write (v : RouteImage) : EntryAttr → RouteImage
  | .packetAction a => { v with action := a }
  | .outputGroup h => { v with output := h }
  | .rpfGroup h => { v with rpf := h }
  | .ingress h => { v with ingress := h }

@[simp] theorem id_read (v : RouteImage) (id : EntryAttr.Id) : (v.read id).id = id := by
  cases id <;> rfl

theorem read_mem_attrs (v : RouteImage) (id : EntryAttr.Id) : v.read id ∈ v.attrs := by
  cases id <;> simp [read, attrs]

theorem eq_read_of_mem {v : RouteImage} {a : EntryAttr} (h : a ∈ v.attrs) : a = v.read a.id := by
  simp only [attrs, List.mem_cons, List.not_mem_nil, or_false] at h
  rcases h with rfl | rfl | rfl | rfl <;> rfl

/-- Images are told apart by reading them. -/
theorem ext_read {v w : RouteImage} (h : ∀ id, v.read id = w.read id) : v = w := by
  obtain ⟨action, output, rpf, ingress⟩ := v
  obtain ⟨action', output', rpf', ingress'⟩ := w
  have haction := h .packetAction
  have houtput := h .outputGroup
  have hrpf := h .rpfGroup
  have hingress := h .ingress
  simp only [read, EntryAttr.packetAction.injEq, EntryAttr.outputGroup.injEq,
    EntryAttr.rpfGroup.injEq, EntryAttr.ingress.injEq] at haction houtput hrpf hingress
  rw [haction, houtput, hrpf, hingress]

theorem read_write (v : RouteImage) (a : EntryAttr) (id : EntryAttr.Id) :
    (v.write a).read id = if id = a.id then a else v.read id := by
  cases a <;> cases id <;> rfl

/-- Writing back what was there restores an image, in whatever order. -/
theorem foldl_write_eq {v w : RouteImage} {replaced : List EntryAttr}
    (hold : ∀ a ∈ replaced, a = w.read a.id)
    (hagree : ∀ id, v.read id = w.read id ∨ ∃ a ∈ replaced, a.id = id) :
    replaced.foldl write v = w := by
  induction replaced generalizing v with
  | nil =>
    apply ext_read
    intro id
    simpa using hagree id
  | cons a rest ih =>
    apply ih fun a' ha' => hold a' (List.mem_cons_of_mem _ ha')
    intro id
    rw [read_write]
    by_cases hid : id = a.id
    · rw [if_pos hid, hid]
      exact .inl (hold a List.mem_cons_self)
    · rw [if_neg hid]
      rcases hagree id with h | ⟨a', ha', rfl⟩
      · exact .inl h
      · exact .inr ⟨a', (List.mem_cons.mp ha').resolve_left fun h => hid (h ▸ rfl), rfl⟩

theorem mem_zip_attrs {v w : RouteImage} {p : EntryAttr × EntryAttr} :
    p ∈ v.attrs.zip w.attrs ↔ ∃ id, p = (v.read id, w.read id) := by
  simp only [attrs, List.zip_cons_cons, List.zip_nil_right, List.mem_cons, List.not_mem_nil,
    or_false]
  constructor
  · rintro (rfl | rfl | rfl | rfl)
    · exact ⟨.packetAction, rfl⟩
    · exact ⟨.outputGroup, rfl⟩
    · exact ⟨.rpfGroup, rfl⟩
    · exact ⟨.ingress, rfl⟩
  · rintro ⟨id, rfl⟩
    cases id <;> simp [read]

theorem filter_zip_attrs_eq_nil_iff {v w : RouteImage} :
    (v.attrs.zip w.attrs).filter (fun p => p.1 ≠ p.2) = [] ↔ v = w := by
  constructor
  · intro h
    apply ext_read
    intro id
    simpa using List.filter_eq_nil_iff.mp h _ (mem_zip_attrs.mpr ⟨id, rfl⟩)
  · rintro rfl
    rw [List.filter_eq_nil_iff]
    intro p hp
    obtain ⟨id, rfl⟩ := mem_zip_attrs.mp hp
    simp

/-- Writing to the stored attributes writes to the image. -/
theorem perm_write {attrs : List EntryAttr} {v : RouteImage} (h : attrs.Perm v.attrs)
    (a : EntryAttr) : (EntryAttr.write attrs a).Perm (v.write a).attrs := by
  unfold EntryAttr.write
  refine ((h.filter fun b => b.id ≠ a.id).append_right [a]).trans ?_
  refine (List.perm_append_singleton a _).trans ?_
  cases a with
  | packetAction _ => exact .refl _
  | outputGroup _ => exact .swap _ _ _
  | rpfGroup _ => exact (List.Perm.swap _ _ _).trans (.cons _ (.swap _ _ _))
  | ingress _ =>
    exact (List.Perm.swap _ _ _).trans (.cons _
      ((List.Perm.swap _ _ _).trans (.cons _ (.swap _ _ _))))

/-- The order of the stored attributes does not show. -/
theorem read_of_perm {attrs : List EntryAttr} {v : RouteImage} (h : attrs.Perm v.attrs)
    (id : EntryAttr.Id) : EntryAttr.read attrs id = v.read id := by
  unfold EntryAttr.read EntryAttr.find?
  have hmem : v.read id ∈ attrs := h.mem_iff.mpr (v.read_mem_attrs id)
  cases hfind : attrs.find? fun a => decide (a.id = id) with
  | none =>
    have hnone := List.find?_eq_none.mp hfind _ hmem
    simp at hnone
  | some a =>
    have hid : a.id = id := by simpa using List.find?_some hfind
    have ha := eq_read_of_mem (h.mem_iff.mp (List.mem_of_find?_eq_some hfind))
    rw [Option.getD_some, ha, hid]

end RouteImage

end Multicast
