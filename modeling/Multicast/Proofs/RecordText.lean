import Multicast.Audit.Record
import Multicast.Proofs.TimestampText

/-! Audit records are read back from their texts. Details that are null cannot be told from none. -/
namespace Multicast

namespace Json

/-! Values with sorted objects -/

mutual

/-- The fields of each object ascend by name. -/
def Sorted : Json → Prop
  | .arr items => SortedItems items
  | .obj fields => SortedFields fields
  | _ => True

def SortedItems : List Json → Prop
  | [] => True
  | v :: rest => Sorted v ∧ SortedItems rest

def SortedFields : List (String × Json) → Prop
  | [] => True
  | (name, v) :: rest => Sorted v ∧ (∀ f ∈ rest, name < f.1) ∧ SortedFields rest

end

theorem insertField_append {name : String} {v : Json} {done : List (String × Json)}
    (h : ∀ f ∈ done, f.1 < name) : insertField name v done = done ++ [(name, v)] := by
  induction done with
  | nil => rfl
  | cons f rest ih =>
    have hf := h f List.mem_cons_self
    have hnot : ¬name < f.1 := String.lt_asymm hf
    have hne : ¬name = f.1 := fun he => String.lt_irrefl _ (he ▸ hf)
    rw [insertField, if_neg hnot, if_neg hne, ih fun f hf => h f (List.mem_cons_of_mem _ hf)]
    rfl

mutual

theorem canonical_of_sorted : ∀ v : Json, v.Sorted → v.canonical = v
  | .null, _ | .bool _, _ | .num _, _ | .str _, _ => rfl
  | .arr items, h => by rw [canonical, canonicalItems_of_sorted items h]
  | .obj fields, h => by rw [canonical, canonicalFields_of_sorted fields [] h nofun]; rfl

theorem canonicalItems_of_sorted : ∀ items, SortedItems items → canonicalItems items = items
  | [], _ => rfl
  | v :: rest, h => by
    rw [canonicalItems, canonical_of_sorted v h.1, canonicalItems_of_sorted rest h.2]

theorem canonicalFields_of_sorted : ∀ fields done, SortedFields fields →
    (∀ f ∈ done, ∀ f' ∈ fields, f.1 < f'.1) → canonicalFields fields done = done ++ fields
  | [], done, _, _ => by rw [canonicalFields, List.append_nil]
  | (name, v) :: rest, done, h, hdone => by
    have hlast : ∀ f ∈ done, f.1 < name := fun f hf => hdone f hf _ List.mem_cons_self
    rw [canonicalFields, canonical_of_sorted v h.1, insertField_append hlast,
      canonicalFields_of_sorted rest _ h.2.2, List.append_assoc]
    · rfl
    · intro f hf f' hf'
      rcases List.mem_append.mp hf with hf | hf
      · exact hdone f hf f' (List.mem_cons_of_mem _ hf')
      · rw [List.mem_singleton.mp hf]
        exact h.2.1 f' hf'

end

/-! Records -/

theorem documentFields_eq_map (fields : List (String × Json)) :
    documentFields fields = fields.map fun f => (some f.1, f.2.document) := by
  induction fields with
  | nil => rfl
  | cons f rest ih => rw [documentFields, ih]; rfl

theorem integralFields_of_forall {fields : List (String × Json)}
    (h : ∀ f ∈ fields, f.2.Integral) : NumbersFields Number.Integral fields := by
  induction fields with
  | nil => trivial
  | cons f rest ih =>
    exact ⟨h f List.mem_cons_self, ih fun f hf => h f (List.mem_cons_of_mem _ hf)⟩

/-- A record all of whose fields have a place in it. -/
theorem Document.record?_document {names : List String} {fields : List (String × Json)}
    (hnames : ∀ f ∈ fields, f.1 ∈ names) (hdepth : ∀ f ∈ fields, f.2.depth ≤ maxDepth) :
    (Json.obj fields).document.record? names = some (.obj fields) := by
  rw [document, documentFields_eq_map, record?]
  refine Option.bind_eq_some_iff.mpr ⟨fields, ?_, rfl⟩
  induction fields with
  | nil => rfl
  | cons f rest ih =>
    have hrest := ih (fun f hf => hnames f (List.mem_cons_of_mem _ hf))
      fun f hf => hdepth f (List.mem_cons_of_mem _ hf)
    have hname := hnames f List.mem_cons_self
    have hbounded : f.2.document.bounded? = some f.2 := by
      simp [bounded?, value?_document, hdepth f List.mem_cons_self]
    simp only [List.contains_eq_mem, decide_eq_true_eq, Option.bind_eq_bind, List.map_cons,
      List.filterMapM_cons, hbounded, Option.bind_some, hname, if_true, Option.pure_def] at hrest ⊢
    rw [hrest]
    rfl

/-- The fields that are there. -/
def present (slots : List (String × Option Json)) : List (String × Json) :=
  slots.flatMap fun s => s.2.toList.map (s.1, ·)

theorem name_of_mem_present {slots : List (String × Option Json)} {f : String × Json}
    (h : f ∈ present slots) : f.1 ∈ slots.map Prod.fst := by
  obtain ⟨s, hs, hf⟩ := List.mem_flatMap.mp h
  obtain ⟨v, -, rfl⟩ := List.mem_map.mp hf
  exact List.mem_map_of_mem hs

theorem filter_present {slots : List (String × Option Json)}
    (hnames : (slots.map Prod.fst).Nodup) {s : String × Option Json} (hs : s ∈ slots) :
    (present slots).filter (·.1 == s.1) = s.2.toList.map (s.1, ·) := by
  induction slots with
  | nil => cases hs
  | cons t rest ih =>
    obtain ⟨hnew, hrest⟩ := List.nodup_cons.mp hnames
    have hsplit : present (t :: rest) = t.2.toList.map (t.1, ·) ++ present rest := rfl
    rw [hsplit, List.filter_append]
    rcases List.mem_cons.mp hs with rfl | hs
    · have hnone : (present rest).filter (·.1 == s.1) = [] := by
        refine List.filter_eq_nil_iff.mpr fun f hf heq => hnew ?_
        exact eq_of_beq heq ▸ name_of_mem_present hf
      rw [hnone, List.append_nil]
      cases s.2 <;> simp
    · have hne : t.1 ≠ s.1 := fun he => hnew (he ▸ List.mem_map_of_mem hs)
      rw [ih hrest hs]
      cases t.2 <;> simp [hne]

/-- Fields that are there are read in order, if their names differ. -/
theorem fields?_present {slots : List (String × Option Json)}
    (hnames : (slots.map Prod.fst).Nodup) :
    (Json.obj (present slots)).fields? (slots.map Prod.fst) = some (slots.map Prod.snd) := by
  have honce : (slots.map Prod.fst).all fun name =>
      decide (((present slots).filter (·.1 == name)).length ≤ 1) := by
    refine List.all_eq_true.mpr fun name hname => ?_
    obtain ⟨s, hs, rfl⟩ := List.mem_map.mp hname
    rw [filter_present hnames hs]
    cases s.2 <;> simp
  rw [fields?, if_pos honce, List.map_map]
  refine congrArg some (List.map_congr_left fun s hs => ?_)
  have hfind := congrArg List.head? (filter_present hnames hs)
  rw [List.head?_filter] at hfind
  simp only [Function.comp_apply]
  rw [hfind]
  cases s.2 <;> rfl

/-- Null counts as nothing. -/
def unlessNull : Option Json → Option Json
  | some .null => none
  | v => v

end Json

namespace Audit

theorem Category.ofJson?_toJson (c : Category) : ofJson? c.toJson = some c := by
  cases c <;> rfl

theorem Outcome.ofJson?_toJson (o : Outcome) : ofJson? o.toJson = some o := by
  cases o <;> rfl

namespace Record

/-- The names of a record's fields with their values, in order. -/
def slots (timestamp : String) (r : Record) : List (String × Option Json) :=
  [("timestamp", some (.str timestamp)), ("category", some r.category.toJson),
    ("source", some (.str r.source)), ("action", some (.str r.action)),
    ("outcome", some r.outcome.toJson), ("object_id", r.objectId.map .str),
    ("object_type", r.objectType.map .str), ("details", r.details),
    ("error", r.error.map .str)]

theorem toJson_eq (timestamp : String) (r : Record) :
    r.toJson timestamp = .obj (Json.present (r.slots timestamp)) := by
  obtain ⟨category, source, action, outcome, objectId, objectType, details, error⟩ := r
  cases objectId <;> cases objectType <;> cases details <;> cases error <;> rfl

/-- The record without details that are null. -/
def withoutNull (r : Record) : Record := { r with details := Json.unlessNull r.details }

/-- Details that a text can carry: without fractions, with sorted objects, and not too deep. -/
structure Details (v : Json) : Prop where
  integral : v.Integral
  sorted : v.Sorted
  depth : v.depth ≤ Json.Document.maxDepth

theorem optional?_text (s : Option String) :
    Json.optional? Json.text? (s.map .str) = some s := by
  cases s <;> rfl

theorem optional?_details {details : Option Json} (h : ∀ v ∈ details, v.Sorted) :
    Json.optional? (some ∘ Json.canonical) details = some (Json.unlessNull details) := by
  cases details with
  | none => rfl
  | some v =>
    have hcanonical := Json.canonical_of_sorted v (h v rfl)
    cases v <;> simp [Json.optional?, Json.unlessNull] <;> assumption

/-- Every field is a text but the details. -/
theorem mem_present_slots {timestamp : String} {r : Record} {f : String × Json}
    (h : f ∈ Json.present (r.slots timestamp)) : (∃ s, f.2 = .str s) ∨ f.2 ∈ r.details := by
  obtain ⟨⟨name, v⟩, hs, hf⟩ := List.mem_flatMap.mp h
  obtain ⟨v, hv, rfl⟩ := List.mem_map.mp hf
  have hv := Option.mem_toList.mp hv
  have htext : ∀ text : Option String, v ∈ text.map .str → ∃ s, v = .str s := by
    intro text h
    obtain ⟨s, -, rfl⟩ := Option.map_eq_some_iff.mp h
    exact ⟨s, rfl⟩
  simp only [slots, List.mem_cons, Prod.mk.injEq, List.not_mem_nil, or_false] at hs
  rcases hs with ⟨-, rfl⟩ | ⟨-, rfl⟩ | ⟨-, rfl⟩ | ⟨-, rfl⟩ | ⟨-, rfl⟩ | ⟨-, rfl⟩ | ⟨-, rfl⟩ |
    ⟨-, rfl⟩ | ⟨-, rfl⟩
  · exact .inl (htext (some timestamp) hv)
  · exact .inl (htext (some r.category.text) hv)
  · exact .inl (htext (some r.source) hv)
  · exact .inl (htext (some r.action) hv)
  · obtain rfl := Option.some.inj hv
    refine .inl ?_
    cases r.outcome <;> exact ⟨_, rfl⟩
  · exact .inl (htext r.objectId hv)
  · exact .inl (htext r.objectType hv)
  · exact .inr hv
  · exact .inl (htext r.error hv)

/-- A record that is read from its text is the same, however it was built, but details that are null
read back as none. -/
theorem text_reads_back {t : Timestamp} (ht : t.Valid) (r : Record)
    (hdetails : ∀ v ∈ r.details, Details v) :
    Record.ofText? (r.toJson t.text).compact = some (t, r.withoutNull) := by
  have hvalue : ∀ f ∈ Json.present (r.slots t.text),
      f.2.Integral ∧ f.2.depth ≤ Json.Document.maxDepth := by
    intro f hf
    rcases mem_present_slots hf with ⟨s, hs⟩ | hv
    · rw [hs]
      exact ⟨trivial, Nat.zero_le _⟩
    · exact ⟨(hdetails _ hv).integral, (hdetails _ hv).depth⟩
  have hdocument : Json.Document.ofText? (r.toJson t.text).compact =
      some (r.toJson t.text).document := by
    refine Json.Document.ofText?_compact ?_
    rw [toJson_eq]
    exact Json.integralFields_of_forall fun f hf => (hvalue f hf).1
  have hrecord : (r.toJson t.text).document.record? fieldNames = some (r.toJson t.text) := by
    rw [toJson_eq]
    exact Json.Document.record?_document (fun f hf => Json.name_of_mem_present hf)
      fun f hf => (hvalue f hf).2
  have hnames : ((r.slots t.text).map Prod.fst).Nodup := by
    change fieldNames.Nodup
    decide
  have hfields : (r.toJson t.text).fields? fieldNames = some ((r.slots t.text).map Prod.snd) := by
    rw [toJson_eq]
    exact Json.fields?_present hnames
  rw [ofText?, hdocument, Option.bind_some, hrecord, Option.bind_some, ofJson?, hfields]
  simp [slots, Json.required?, Json.text?, Timestamp.ofText?_text ht, Category.ofJson?_toJson,
    Outcome.ofJson?_toJson, optional?_text, withoutNull,
    optional?_details fun v hv => (hdetails v hv).sorted]

/-- Quotes, line ends, negative numbers and empty objects among the details. -/
theorem text_reads_back_nested :
    let t : Timestamp := ⟨2024, 2, 29, 23, 59, 60, 120000⟩
    let r := (Record.new .rollback "ReplGroupOrch" "create_group").withObjectId "\"\n\u0001é"
      |>.withDetails (.obj [("\\", .str ""),
        ("a", .arr [.num (.int (-9223372036854775808)), .null, .obj []]),
        ("b", .num (.int 18446744073709551615))])
      |>.withError "" |>.withOutcome .denied
    t.Valid ∧ (∀ v ∈ r.details, Details v) ∧
      Record.ofText? (r.toJson t.text).compact = some (t, r.withoutNull) ∧ r.withoutNull = r := by
  intro t r
  have ht : t.Valid := by decide
  have hdetails : ∀ v ∈ r.details, Details v := by
    rintro _ ⟨⟩
    refine ⟨?_, ?_, by decide⟩
    · simp [Json.Integral, Json.Numbers, Json.NumbersFields, Json.NumbersItems,
        Json.Number.Integral]
    · simp only [Json.Sorted, Json.SortedFields, Json.SortedItems]
      decide
  exact ⟨ht, hdetails, text_reads_back ht r hdetails, rfl⟩

/-- Null is written, and read as nothing. -/
theorem null_details_read_back_as_none :
    let t : Timestamp := ⟨2024, 1, 2, 3, 4, 5, 0⟩
    let r := (Record.new .rollback "ReplGroupOrch" "create_group").withDetails .null
    let read := Record.ofText? (r.toJson t.text).compact
    t.Valid ∧ r.details = some .null ∧ (read.map fun p => p.2.details.isNone) = some true :=
  ⟨by decide, rfl, by decide +kernel⟩

end Record

end Audit

end Multicast
