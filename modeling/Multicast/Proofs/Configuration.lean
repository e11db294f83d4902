import Multicast.CommandLine

/-! Which configurations are accepted, and what they say. A field is found by its name or, in an
array, by its place; one that is absent leaves its setting at the default. -/
namespace Multicast

namespace Json

/-- The field of that name, in an array the item at that place. -/
def slot? (v : Json) (place : Nat) (name : String) : Option Json :=
  match v with
  | .arr items => items[place]?
  | v => v.get? name

/-- A record with no field twice; an array has no items beyond the fields. -/
def IsRecord (names : List String) : Json → Prop
  | .arr items => items.length ≤ names.length
  | .obj fields => ∀ name ∈ names, (fields.filter (·.1 == name)).length ≤ 1
  | _ => False

theorem mapIdx_getElem? {α β : Type} {items : List α} {names : List β}
    (h : items.length ≤ names.length) :
    (names.mapIdx fun place _ => items[place]?) =
      items.map some ++ List.replicate (names.length - items.length) none := by
  refine List.ext_getElem (by simp; omega) fun place _ hplace => ?_
  rw [List.getElem_mapIdx]
  by_cases hitem : place < items.length
  · simp [hitem]
  · rw [List.getElem_append_right (by simpa using hitem), List.getElem_replicate]
    simp [hitem]

/-- A field that is given once is the first and the last of its name. -/
theorem get?_eq_find? {fields : List (String × Json)} {name : String}
    (h : (fields.filter (·.1 == name)).length ≤ 1) :
    (obj fields).get? name = (fields.find? (·.1 == name)).map Prod.snd := by
  rw [get?, ← List.head?_filter, ← List.head?_filter, List.filter_reverse]
  have hreverse : ∀ l : List (String × Json), l.length ≤ 1 → l.reverse = l
    | [], _ | [_], _ => rfl
  rw [hreverse _ h]

theorem mapIdx_get? {fields : List (String × Json)} {names : List String}
    (h : ∀ name ∈ names, (fields.filter (·.1 == name)).length ≤ 1) :
    (names.mapIdx fun _ name => (obj fields).get? name) =
      names.map fun name => (fields.find? (·.1 == name)).map Prod.snd := by
  refine List.ext_getElem (by simp) fun place _ hplace => ?_
  rw [List.length_map] at hplace
  rw [List.getElem_mapIdx, List.getElem_map, get?_eq_find? (h _ (List.getElem_mem hplace))]

theorem leadingFields?_eq_some_iff {names : List String} {v : Json} {slots : List (Option Json)} :
    v.leadingFields? names = some slots ↔
      v.IsRecord names ∧ slots = names.mapIdx fun place name => v.slot? place name := by
  cases v with
  | arr items =>
    simp only [leadingFields?, IsRecord, slot?, Option.ite_none_right_eq_some, Option.some.injEq]
    exact and_congr_right fun hlen => mapIdx_getElem? hlen ▸ eq_comm
  | obj fields =>
    simp only [leadingFields?, fields?, IsRecord, slot?, Option.ite_none_right_eq_some,
      Option.some.injEq, List.all_eq_true, decide_eq_true_eq]
    exact and_congr_right fun honce => mapIdx_get? honce ▸ eq_comm
  | _ => simp [leadingFields?, fields?, IsRecord]

/-- A setting is what its field is read as, or the default if there is none. -/
def Sets {α : Type} (field : Option Json) (read? : Json → Option α) (default a : α) : Prop :=
  field = none ∧ a = default ∨ ∃ v, field = some v ∧ read? v = some a

theorem withDefault?_eq_some_iff {α : Type} {read? : Json → Option α} {default a : α}
    {field : Option Json} :
    withDefault? read? default field = some a ↔ Sets field read? default a := by
  cases field <;> simp [withDefault?, Sets, eq_comm]

theorem below?_eq_some_iff {v : Json} {bound n : Nat} :
    v.below? bound = some n ↔ v = .nat n ∧ n < bound := by
  cases v with
  | num m =>
    cases m with
    | int m =>
      simp only [below?, nat, Option.ite_none_right_eq_some, Option.some.injEq, num.injEq,
        Number.int.injEq]
      omega
    | real => simp [below?, nat]
  | _ => simp [below?, nat]

theorem withDefault?_below? {field : Option Json} {bound default n : Nat} :
    withDefault? (below? bound) default field = some n ↔
      field = none ∧ n = default ∨ field = some (.nat n) ∧ n < bound := by
  rw [withDefault?_eq_some_iff]
  simp only [Sets, below?_eq_some_iff]
  refine or_congr_right ⟨?_, fun h => ⟨_, h.1, rfl, h.2⟩⟩
  rintro ⟨_, rfl, rfl, hn⟩
  exact ⟨rfl, hn⟩

theorem withDefault?_bool? {field : Option Json} {default b : Bool} :
    withDefault? bool? default field = some b ↔
      field = none ∧ b = default ∨ field = some (.bool b) := by
  have hread : ∀ v : Json, v.bool? = some b ↔ v = .bool b := fun v => by cases v <;> simp [bool?]
  rw [withDefault?_eq_some_iff]
  simp [Sets, hread]

end Json

namespace Config

variable {config : Config} {v : Json} {path : String} {contents : Option String}

/-- The configuration has what the fields of the record say, and defaults besides. -/
structure Follows (config : Config) (v : Json) : Prop where
  record : v.IsRecord fieldNames
  maxGroups : v.slot? 0 "max_groups_per_device" = none ∧ config.maxGroups = 4096 ∨
    v.slot? 0 "max_groups_per_device" = some (.nat config.maxGroups) ∧
      config.maxGroups < UInt64.size
  copyAction : Json.Sets (v.slot? 1 "copy_to_cpu_action") PacketAction.ofJson? .trapToCpu
    config.copyAction
  audit : v.slot? 2 "audit_enabled" = none ∧ config.audit = true ∨
    v.slot? 2 "audit_enabled" = some (.bool config.audit)

theorem ofJson?_eq_some_iff : ofJson? v = some config ↔ config.Follows v := by
  have hslots : ∀ slots, v.leadingFields? fieldNames = some slots ↔ v.IsRecord fieldNames ∧
      slots = [v.slot? 0 "max_groups_per_device", v.slot? 1 "copy_to_cpu_action",
        v.slot? 2 "audit_enabled"] := fun _ => Json.leadingFields?_eq_some_iff
  obtain ⟨maxGroups, copyAction, audit⟩ := config
  constructor
  · intro h
    unfold ofJson? at h
    split at h
    · next hfields =>
      obtain ⟨hrecord, hl⟩ := (hslots _).mp hfields
      cases hl
      simp only [Option.bind_eq_bind, Option.bind_eq_some_iff] at h
      obtain ⟨_, hmax, _, hcopy, _, haudit, heq⟩ := h
      cases heq
      exact ⟨hrecord, Json.withDefault?_below?.mp hmax, Json.withDefault?_eq_some_iff.mp hcopy,
        Json.withDefault?_bool?.mp haudit⟩
    · cases h
  · rintro ⟨hrecord, hmax, hcopy, haudit⟩
    have hfields := (hslots _).mpr ⟨hrecord, rfl⟩
    have hmax : Json.withDefault? (Json.below? UInt64.size) 4096
        (v.slot? 0 "max_groups_per_device") = some maxGroups :=
      Json.withDefault?_below?.mpr hmax
    have hcopy : Json.withDefault? PacketAction.ofJson? .trapToCpu
        (v.slot? 1 "copy_to_cpu_action") = some copyAction :=
      Json.withDefault?_eq_some_iff.mpr hcopy
    have haudit : Json.withDefault? Json.bool? true (v.slot? 2 "audit_enabled") = some audit :=
      Json.withDefault?_bool?.mpr haudit
    simp only [ofJson?, hfields, hmax, hcopy, haudit]
    rfl

/-- The text is that of a record which the configuration follows, with room for a group. -/
def ReadFrom (config : Config) (text : String) : Prop :=
  ∃ v, (Json.Document.ofText? text).bind (·.record? fieldNames) = some v ∧ config.Follows v ∧
    0 < config.maxGroups

theorem load_eq_ok_iff :
    load path contents = .ok config ↔ ∃ text, contents = some text ∧ config.ReadFrom text := by
  cases contents with
  | none => simp [load]
  | some text =>
    have hload : load path (some text) = .ok config ↔
        ((Json.Document.ofText? text).bind (·.record? fieldNames)).bind ofJson? = some config ∧
          0 < config.maxGroups := by
      simp only [load]
      cases ((Json.Document.ofText? text).bind (·.record? fieldNames)).bind ofJson? with
      | none => simp
      | some read =>
        dsimp only
        by_cases hzero : read.maxGroups = 0
        · rw [if_pos hzero]
          refine iff_of_false nofun ?_
          rintro ⟨⟨⟩, hpos⟩
          exact Nat.ne_of_gt hpos hzero
        · rw [if_neg hzero, Except.ok.injEq, Option.some.injEq]
          refine (and_iff_left_of_imp ?_).symm
          rintro rfl
          exact Nat.pos_of_ne_zero hzero
    rw [hload, Option.bind_eq_some_iff]
    constructor
    · rintro ⟨⟨v, hv, hread⟩, hpos⟩
      exact ⟨text, rfl, v, hv, ofJson?_eq_some_iff.mp hread, hpos⟩
    · rintro ⟨_, ⟨⟩, v, hv, hfollows, hpos⟩
      exact ⟨⟨v, hv, ofJson?_eq_some_iff.mpr hfollows⟩, hpos⟩

/-- A limit that leaves no room for a group is refused, here in an array. -/
example : load "limits.json" (some "[0]") = .error (.noGroups "limits.json") := by rfl

end Config

namespace CommandLine

variable {c : CommandLine} {contents : Option String} {config : Config}

/-- Without a file the defaults apply. -/
theorem configuration_eq_ok_iff :
    c.configuration contents = .ok config ↔
      (c.config = none → config = {}) ∧
        ∀ path, c.config = some path → ∃ text, contents = some text ∧ config.ReadFrom text := by
  unfold configuration
  cases c.config with
  | none => simp [eq_comm]
  | some path => simp [Config.load_eq_ok_iff]

end CommandLine

end Multicast
