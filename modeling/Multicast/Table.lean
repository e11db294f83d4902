import Multicast.SortKey

/-! Finite maps kept strictly ascending by key, so that two maps with the same look-ups are equal.
Each operation has one lemma that says what it does to `find?`. -/
namespace Multicast

structure Table (κ α : Type) [SortKey κ] where
  entries : List (κ × α)
  ascending : entries.Pairwise fun x y => SortKey.Before x.1 y.1

namespace Table

inductive Error where
  | keyNotFound
  | keyExists
  deriving DecidableEq, Repr

def Error.message : Error → String
  | .keyNotFound => "Key not found"
  | .keyExists => "Key already exists"

variable {κ α : Type} [SortKey κ]

@[ext] theorem ext_entries {s t : Table κ α} (h : s.entries = t.entries) : s = t := by
  cases s; cases t; cases h; rfl

instance [DecidableEq κ] [DecidableEq α] : DecidableEq (Table κ α) := fun s t =>
  decidable_of_iff (s.entries = t.entries) ⟨ext_entries, congrArg entries⟩

/-! Ascending lists of entries -/

def lookup (k : κ) : List (κ × α) → Option α
  | [] => none
  | e :: rest => if SortKey.code k = SortKey.code e.1 then some e.2 else lookup k rest

def insertEntry (k : κ) (v : α) : List (κ × α) → List (κ × α)
  | [] => [(k, v)]
  | e :: rest =>
    match SortKey.compare k e.1 with
    | .lt => (k, v) :: e :: rest
    | .eq => (k, v) :: rest
    | .gt => e :: insertEntry k v rest

def eraseEntry (k : κ) : List (κ × α) → List (κ × α)
  | [] => []
  | e :: rest => if SortKey.code k = SortKey.code e.1 then rest else e :: eraseEntry k rest

def modifyEntry (k : κ) (f : α → α) : List (κ × α) → List (κ × α)
  | [] => []
  | e :: rest =>
    if SortKey.code k = SortKey.code e.1 then (e.1, f e.2) :: rest else e :: modifyEntry k f rest

theorem mem_insertEntry {k : κ} {v : α} {x : κ × α} {l : List (κ × α)}
    (h : x ∈ insertEntry k v l) : x = (k, v) ∨ x ∈ l := by
  induction l with
  | nil => simpa [insertEntry] using h
  | cons e rest ih =>
    rw [insertEntry] at h
    split at h
    · simpa using h
    · rcases List.mem_cons.mp h with rfl | h
      · exact .inl rfl
      · exact .inr (List.mem_cons_of_mem _ h)
    · rcases List.mem_cons.mp h with rfl | h
      · exact .inr List.mem_cons_self
      · exact (ih h).imp id (List.mem_cons_of_mem _)

theorem insertEntry_ascending (k : κ) (v : α) {l : List (κ × α)}
    (h : l.Pairwise fun x y => SortKey.Before x.1 y.1) :
    (insertEntry k v l).Pairwise fun x y => SortKey.Before x.1 y.1 := by
  induction l with
  | nil => simp [insertEntry]
  | cons e rest ih =>
    have ⟨hhead, htail⟩ := List.pairwise_cons.mp h
    rw [insertEntry]
    split
    · next hlt =>
      have hlt := SortKey.compare_eq_lt_iff.mp hlt
      refine List.pairwise_cons.mpr ⟨fun x hx => ?_, h⟩
      rcases List.mem_cons.mp hx with rfl | hx
      · exact hlt
      · exact hlt.trans (hhead x hx)
    · next heq =>
      have heq := SortKey.compare_eq_eq_iff.mp heq
      exact List.pairwise_cons.mpr ⟨fun x hx => heq ▸ hhead x hx, htail⟩
    · next hgt =>
      refine List.pairwise_cons.mpr ⟨fun x hx => ?_, ih htail⟩
      rcases mem_insertEntry hx with rfl | hx
      · rcases SortKey.before_trichotomy k e.1 with hb | hb | hb
        · rw [SortKey.compare_eq_lt_iff.mpr hb] at hgt; cases hgt
        · rw [SortKey.compare_eq_eq_iff.mpr hb] at hgt; cases hgt
        · exact hb
      · exact hhead x hx

theorem eraseEntry_sublist (k : κ) (l : List (κ × α)) : (eraseEntry k l).Sublist l := by
  induction l with
  | nil => exact .slnil
  | cons e rest ih =>
    rw [eraseEntry]
    split
    · exact List.sublist_cons_self e rest
    · exact ih.cons_cons e

theorem map_fst_modifyEntry (k : κ) (f : α → α) (l : List (κ × α)) :
    (modifyEntry k f l).map Prod.fst = l.map Prod.fst := by
  induction l with
  | nil => rfl
  | cons e rest ih => rw [modifyEntry]; split <;> simp [ih]

theorem ascending_iff_map_fst {l : List (κ × α)} :
    (l.Pairwise fun x y => SortKey.Before x.1 y.1) ↔ (l.map Prod.fst).Pairwise SortKey.Before :=
  List.pairwise_map.symm

/-! Operations -/

def empty : Table κ α := ⟨[], .nil⟩

instance : EmptyCollection (Table κ α) := ⟨empty⟩
instance : Inhabited (Table κ α) := ⟨empty⟩

def find? (t : Table κ α) (k : κ) : Option α := lookup k t.entries

def contains (t : Table κ α) (k : κ) : Bool := (t.find? k).isSome

def size (t : Table κ α) : Nat := t.entries.length

def isEmpty (t : Table κ α) : Bool := t.entries.isEmpty

def keys (t : Table κ α) : List κ := t.entries.map Prod.fst

def values (t : Table κ α) : List α := t.entries.map Prod.snd

/-- Overwrites. -/
def insert (t : Table κ α) (k : κ) (v : α) : Table κ α :=
  ⟨insertEntry k v t.entries, insertEntry_ascending k v t.ascending⟩

def erase (t : Table κ α) (k : κ) : Table κ α :=
  ⟨eraseEntry k t.entries, t.ascending.sublist (eraseEntry_sublist k t.entries)⟩

/-- Changes the value of a present key; an absent key stays absent. -/
def modify (t : Table κ α) (k : κ) (f : α → α) : Table κ α :=
  ⟨modifyEntry k f t.entries, by
    rw [ascending_iff_map_fst, map_fst_modifyEntry, ← ascending_iff_map_fst]; exact t.ascending⟩

/-- Changes all values and keeps the keys. -/
def map {β : Type} (t : Table κ α) (f : α → β) : Table κ β :=
  ⟨t.entries.map fun e => (e.1, f e.2), List.pairwise_map.mpr t.ascending⟩

/-- Never overwrites. -/
def add (t : Table κ α) (k : κ) (v : α) : Except Error (Table κ α) :=
  if t.contains k then .error .keyExists else .ok (t.insert k v)

/-- Takes a key out together with its value. -/
def remove (t : Table κ α) (k : κ) : Except Error (α × Table κ α) :=
  match t.find? k with
  | some v => .ok (v, t.erase k)
  | none => .error .keyNotFound

/-- Later entries win. -/
def ofList (l : List (κ × α)) : Table κ α := l.foldl (fun t e => t.insert e.1 e.2) empty

/-! Look-ups after each operation -/

theorem lookup_insertEntry (k k' : κ) (v : α) (l : List (κ × α)) :
    lookup k' (insertEntry k v l) =
      if SortKey.code k' = SortKey.code k then some v else lookup k' l := by
  induction l with
  | nil => simp [insertEntry, lookup]
  | cons e rest ih =>
    rw [insertEntry]
    split
    · simp [lookup]
    · next heq =>
      have heq := SortKey.compare_eq_eq_iff.mp heq
      subst heq
      simp only [lookup]
      split <;> rfl
    · simp only [lookup, ih]
      split
      · next h =>
        split
        · next h' =>
          next hgt =>
          rw [SortKey.compare_eq_eq_iff.mpr (SortKey.code_injective (h'.symm.trans h))] at hgt
          cases hgt
        · rfl
      · rfl

@[simp] theorem find?_empty (k : κ) : (∅ : Table κ α).find? k = none := rfl

@[simp] theorem find?_insert (t : Table κ α) (k k' : κ) (v : α) :
    (t.insert k v).find? k' =
      if SortKey.code k' = SortKey.code k then some v else t.find? k' :=
  lookup_insertEntry k k' v t.entries

theorem lookup_eq_none_of_before {k : κ} {l : List (κ × α)}
    (h : ∀ x ∈ l, SortKey.Before k x.1) : lookup k l = none := by
  induction l with
  | nil => rfl
  | cons e rest ih =>
    rw [lookup, if_neg]
    · exact ih fun x hx => h x (List.mem_cons_of_mem _ hx)
    · intro e'
      exact (h e List.mem_cons_self).ne (SortKey.code_injective e')

theorem lookup_eraseEntry (k k' : κ) {l : List (κ × α)}
    (h : l.Pairwise fun x y => SortKey.Before x.1 y.1) :
    lookup k' (eraseEntry k l) =
      if SortKey.code k' = SortKey.code k then none else lookup k' l := by
  induction l with
  | nil => simp [eraseEntry, lookup]
  | cons e rest ih =>
    have ⟨hhead, htail⟩ := List.pairwise_cons.mp h
    rw [eraseEntry]
    split
    · next he =>
      have he := SortKey.code_injective he
      subst he
      split
      · next hk =>
        have hk := SortKey.code_injective hk
        subst hk
        exact lookup_eq_none_of_before hhead
      · next hk => rw [lookup, if_neg hk]
    · next he =>
      simp only [lookup, ih htail]
      split
      · next hk =>
        rw [if_neg]
        intro hk'
        exact he (hk'.symm.trans hk)
      · rfl

@[simp] theorem find?_erase (t : Table κ α) (k k' : κ) :
    (t.erase k).find? k' = if SortKey.code k' = SortKey.code k then none else t.find? k' :=
  lookup_eraseEntry k k' t.ascending

theorem lookup_modifyEntry (k k' : κ) (f : α → α) (l : List (κ × α)) :
    lookup k' (modifyEntry k f l) =
      if SortKey.code k' = SortKey.code k then (lookup k' l).map f else lookup k' l := by
  induction l with
  | nil => simp [modifyEntry, lookup]
  | cons e rest ih =>
    rw [modifyEntry]
    by_cases hk : SortKey.code k' = SortKey.code k
    · have hk' := SortKey.code_injective hk
      subst hk'
      rw [if_pos rfl] at ih ⊢
      split
      · next he => simp [lookup, he]
      · next he => rw [lookup, lookup, if_neg he, if_neg he, ih]
    · rw [if_neg hk] at ih ⊢
      split
      · next he =>
        have : ¬SortKey.code k' = SortKey.code e.1 := fun h => hk (h.trans he.symm)
        rw [lookup, lookup, if_neg this, if_neg this]
      · rw [lookup, lookup, ih]

@[simp] theorem find?_modify (t : Table κ α) (k k' : κ) (f : α → α) :
    (t.modify k f).find? k' =
      if SortKey.code k' = SortKey.code k then (t.find? k').map f else t.find? k' :=
  lookup_modifyEntry k k' f t.entries

theorem lookup_map {β : Type} (k : κ) (f : α → β) (l : List (κ × α)) :
    lookup k (l.map fun e => (e.1, f e.2)) = (lookup k l).map f := by
  induction l with
  | nil => rfl
  | cons e rest ih => simp only [List.map_cons, lookup, ih]; split <;> rfl

@[simp] theorem find?_map {β : Type} (t : Table κ α) (f : α → β) (k : κ) :
    (t.map f).find? k = (t.find? k).map f :=
  lookup_map k f t.entries

theorem lookup_eq_some_iff {k : κ} {v : α} {l : List (κ × α)}
    (h : l.Pairwise fun x y => SortKey.Before x.1 y.1) :
    lookup k l = some v ↔ (k, v) ∈ l := by
  induction l with
  | nil => simp [lookup]
  | cons e rest ih =>
    have ⟨hhead, htail⟩ := List.pairwise_cons.mp h
    rw [lookup, List.mem_cons]
    split
    · next he =>
      have he := SortKey.code_injective he
      subst he
      constructor
      · rintro ⟨⟩
        exact .inl rfl
      · rintro (h | h)
        · rw [← h]
        · exact ((hhead _ h).ne rfl).elim
    · next he =>
      rw [ih htail]
      refine ⟨.inr, ?_⟩
      rintro (h | h)
      · exact (he (by rw [← h])).elim
      · exact h

theorem find?_eq_some_iff {t : Table κ α} {k : κ} {v : α} :
    t.find? k = some v ↔ (k, v) ∈ t.entries :=
  lookup_eq_some_iff t.ascending

/-- Look-ups determine a table. -/
theorem ext_find? {s t : Table κ α} (h : ∀ k, s.find? k = t.find? k) : s = t := by
  have hmem : ∀ x, x ∈ s.entries ↔ x ∈ t.entries := fun x => by
    rw [← find?_eq_some_iff, ← find?_eq_some_iff, h]
  have hnodup : ∀ u : Table κ α, u.entries.Nodup := fun u =>
    u.ascending.imp fun hb e => hb.ne (congrArg Prod.fst e)
  refine ext_entries (List.Perm.eq_of_pairwise ?_ s.ascending t.ascending
    ((List.perm_ext_iff_of_nodup (hnodup s) (hnodup t)).mpr hmem))
  intro a b _ _ hab hba
  exact (hab.asymm hba).elim

theorem mem_keys_iff {t : Table κ α} {k : κ} : k ∈ t.keys ↔ t.contains k = true := by
  rw [keys, List.mem_map, contains, Option.isSome_iff_exists]
  constructor
  · rintro ⟨⟨_, v⟩, hmem, rfl⟩
    exact ⟨v, find?_eq_some_iff.mpr hmem⟩
  · rintro ⟨v, hv⟩
    exact ⟨(k, v), find?_eq_some_iff.mp hv, rfl⟩

theorem keys_ascending (t : Table κ α) : t.keys.Pairwise SortKey.Before :=
  ascending_iff_map_fst.mp t.ascending

end Table

/-- A finite set, kept in ascending order. -/
abbrev KeySet (κ : Type) [SortKey κ] := Table κ Unit

namespace KeySet

variable {κ : Type} [SortKey κ]

def insert (s : KeySet κ) (k : κ) : KeySet κ := Table.insert s k ()

def toList (s : KeySet κ) : List κ := s.keys

def ofList (l : List κ) : KeySet κ := l.foldl insert ∅

end KeySet

end Multicast
