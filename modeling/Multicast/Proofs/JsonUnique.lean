import Multicast.Proofs.JsonText

/-! Different JSON values have different texts, in either layout, if their numbers are integers. -/
namespace Multicast

namespace Json

variable {x y : List Char}

theorem decimal_append_inj {m n : Nat} (hx : Closed x) (hy : Closed y)
    (h : Numeral.decimal m ++ x = Numeral.decimal n ++ y) : m = n ∧ x = y := by
  have hdigits := digits_decimal m hx
  rw [h, digits_decimal n hy] at hdigits
  obtain ⟨hsame, hrest⟩ := Prod.mk.inj hdigits
  exact ⟨(Numeral.decimal_injective hsame).symm, hrest.symm⟩

theorem Number.chars_append_inj {m n : Number} (hm : m.Whole) (hn : n.Whole) (hx : Closed x)
    (hy : Closed y) (h : m.chars ++ x = n.chars ++ y) : m = n ∧ x = y := by
  cases m with
  | real => exact hm.elim
  | int m =>
    cases n with
    | real => exact hn.elim
    | int n =>
      simp only [Number.chars] at h
      split at h
      · split at h
        · obtain ⟨hsize, hrest⟩ := decimal_append_inj hx hy (List.cons.inj h).2
          exact ⟨congrArg Number.int (by omega), hrest⟩
        · -- a minus is no digit
          cases Numeral.isDigit_of_decimal_append h.symm
      · split at h
        · cases Numeral.isDigit_of_decimal_append h
        · obtain ⟨hsize, hrest⟩ := decimal_append_inj hx hy h
          exact ⟨congrArg Number.int (by omega), hrest⟩

theorem quote_append_inj {s t : String} (h : quote s ++ x = quote t ++ y) : s = t ∧ x = y := by
  have hread : string? (s.toList.flatMap escape ++ '"' :: x) =
      string? (t.toList.flatMap escape ++ '"' :: y) := by
    refine congrArg string? ?_
    simpa [quote] using h
  rw [string?_quoted, string?_quoted] at hread
  simpa using hread

/-! What a value is -/

inductive Kind where
  | null
  | bool
  | num
  | str
  | arr
  | obj

def kind : Json → Kind
  | .null => .null
  | .bool _ => .bool
  | .num _ => .num
  | .str _ => .str
  | .arr _ => .arr
  | .obj _ => .obj

/-- The first character of a text tells what it is the text of. -/
def Kind.ofChar (c : Char) : Kind :=
  if c = 'n' then .null
  else if c = 't' ∨ c = 'f' then .bool
  else if c = '"' then .str
  else if c = '[' then .arr
  else if c = '{' then .obj
  else .num

variable (l : Layout) {level : Nat}

theorem kind_eq_ofChar {v : Json} (hv : v.Whole) {c : Char} {cs : List Char}
    (h : v.write l level ++ x = c :: cs) : v.kind = .ofChar c := by
  cases v with
  | num n =>
    obtain ⟨d, ds, hds, hd⟩ := Number.chars_cons hv
    have hne := fun d' => @StartsNumber.ne d d' hd
    rw [write, hds] at h
    cases h
    simp [kind, Kind.ofChar, hne]
  | null | str s => cases h; rfl
  | bool b => cases b <;> cases h <;> rfl
  | arr items => cases items <;> cases h <;> rfl
  | obj fields => rcases fields with _ | ⟨⟨name, v⟩, rest⟩ <;> cases h <;> rfl

theorem kind_eq_of_write_append {v w : Json} (hv : v.Whole) (hw : w.Whole)
    (h : v.write l level ++ x = w.write l level ++ y) : v.kind = w.kind := by
  obtain ⟨c, cs, hcs, -⟩ := write_cons l level hw
  have hc : w.write l level ++ y = c :: (cs ++ y) := by rw [hcs, List.cons_append]
  rw [kind_eq_ofChar l hv (h.trans hc), kind_eq_ofChar l hw hc]

/-! Where lists end -/

theorem eq_of_pad_append {c d : Char} (hc : isBlank c = false) (hd : isBlank d = false)
    (h : l.pad level ++ c :: x = d :: y) : c = d := by
  have hskip := congrArg skipBlanks h
  rw [skipBlanks_append (l.isBlank_pad level), skipBlanks_cons hc, skipBlanks_cons hd] at hskip
  exact (List.cons.inj hskip).1

theorem pad_append_ne_comma {mark : Char} (hmark : mark = ']' ∨ mark = '}') :
    l.pad level ++ mark :: x ≠ ',' :: y := by
  intro h
  have hcomma := isBlank_mark ',' (by decide)
  rcases hmark with rfl | rfl
  · cases eq_of_pad_append l (isBlank_mark ']' (by decide)) hcomma h
  · cases eq_of_pad_append l (isBlank_mark '}' (by decide)) hcomma h

theorem write_arr_nil_append_ne {v : Json} {items : List Json} (hv : v.Whole) :
    (arr []).write l level ++ x ≠ (arr (v :: items)).write l level ++ y := by
  intro h
  obtain ⟨c, cs, hcs, hblank, hne⟩ := write_cons l (level + 1) hv
  simp only [write, hcs, List.cons_append, List.append_assoc, List.nil_append] at h
  exact hne (eq_of_pad_append l hblank (isBlank_mark ']' (by decide)) (List.cons.inj h).2.symm)

theorem write_obj_nil_append_ne {f : String × Json} {fields : List (String × Json)} :
    (obj []).write l level ++ x ≠ (obj (f :: fields)).write l level ++ y := by
  intro h
  simp only [write, quote, List.cons_append, List.append_assoc, List.nil_append] at h
  cases eq_of_pad_append l (isBlank_mark '"' (by decide)) (isBlank_mark '}' (by decide))
    (List.cons.inj h).2.symm

mutual

theorem write_append_inj : ∀ (v w : Json) (level : Nat) (x y : List Char), v.Whole → w.Whole →
    Closed x → Closed y → v.write l level ++ x = w.write l level ++ y → v = w ∧ x = y
  | .null, w, _, _, _, hv, hw, _, _, h => by
    have hkind := kind_eq_of_write_append l hv hw h
    cases w with
    | null => exact ⟨rfl, List.append_cancel_left h⟩
    | _ => cases hkind
  | .bool b, w, _, _, _, hv, hw, _, _, h => by
    have hkind := kind_eq_of_write_append l hv hw h
    cases w with
    | bool b' => cases b <;> cases b' <;> first | exact ⟨rfl, List.append_cancel_left h⟩ | cases h
    | _ => cases hkind
  | .num m, w, _, _, _, hv, hw, hx, hy, h => by
    have hkind := kind_eq_of_write_append l hv hw h
    cases w with
    | num n => exact (Number.chars_append_inj hv hw hx hy h).imp_left (congrArg Json.num)
    | _ => cases hkind
  | .str s, w, _, _, _, hv, hw, _, _, h => by
    have hkind := kind_eq_of_write_append l hv hw h
    cases w with
    | str t => exact (quote_append_inj h).imp_left (congrArg Json.str)
    | _ => cases hkind
  | .arr items, w, level, x, y, hv, hw, hx, hy, h => by
    have hkind := kind_eq_of_write_append l hv hw h
    cases w with
    | arr items' =>
      have hitems : writeItems l level items ++ x = writeItems l level items' ++ y := by
        match items, items', hv, hw, h with
        | [], [], _, _, h => rw [List.append_cancel_left h]
        | [], _ :: _, _, hw, h => exact (write_arr_nil_append_ne l hw.1 h).elim
        | _ :: _, [], hv, _, h => exact (write_arr_nil_append_ne l hv.1 h.symm).elim
        | _ :: _, _ :: _, _, _, h => exact congrArg (',' :: ·) (List.cons.inj h).2
      exact (writeItems_append_inj items items' level x y hv hw hx hy hitems).imp_left
        (congrArg Json.arr)
    | _ => cases hkind
  | .obj fields, w, level, x, y, hv, hw, hx, hy, h => by
    have hkind := kind_eq_of_write_append l hv hw h
    cases w with
    | obj fields' =>
      have hfields : writeFields l level fields ++ x = writeFields l level fields' ++ y := by
        match fields, fields', h with
        | [], [], h => rw [List.append_cancel_left h]
        | [], _ :: _, h => exact (write_obj_nil_append_ne l h).elim
        | _ :: _, [], h => exact (write_obj_nil_append_ne l h.symm).elim
        | (_, _) :: _, (_, _) :: _, h => exact congrArg (',' :: ·) (List.cons.inj h).2
      exact (writeFields_append_inj fields fields' level x y hv hw hx hy hfields).imp_left
        (congrArg Json.obj)
    | _ => cases hkind

theorem writeItems_append_inj : ∀ (items items' : List Json) (level : Nat) (x y : List Char),
    NumbersItems Number.Whole items → NumbersItems Number.Whole items' → Closed x → Closed y →
    writeItems l level items ++ x = writeItems l level items' ++ y → items = items' ∧ x = y
  | [], [], _, _, _, _, _, _, _, h => ⟨rfl, List.append_cancel_left h⟩
  | [], _ :: _, _, _, _, _, _, _, _, h => by
    rw [writeItems, List.append_assoc] at h
    exact (pad_append_ne_comma l (.inl rfl) h).elim
  | _ :: _, [], _, _, _, _, _, _, _, h => by
    rw [writeItems, writeItems, List.append_assoc] at h
    exact (pad_append_ne_comma l (.inl rfl) h.symm).elim
  | v :: items, w :: items', level, x, y, hv, hw, hx, hy, h => by
    simp only [writeItems, List.cons_append, List.append_assoc] at h
    obtain ⟨rfl, hrest⟩ := write_append_inj v w _ _ _ hv.1 hw.1 (writeItems_closed l level items x)
      (writeItems_closed l level items' y) (List.append_cancel_left (List.cons.inj h).2)
    obtain ⟨rfl, hend⟩ := writeItems_append_inj items items' _ _ _ hv.2 hw.2 hx hy hrest
    exact ⟨rfl, hend⟩

theorem writeFields_append_inj : ∀ (fields fields' : List (String × Json)) (level : Nat)
    (x y : List Char), NumbersFields Number.Whole fields → NumbersFields Number.Whole fields' →
    Closed x → Closed y → writeFields l level fields ++ x = writeFields l level fields' ++ y →
    fields = fields' ∧ x = y
  | [], [], _, _, _, _, _, _, _, h => ⟨rfl, List.append_cancel_left h⟩
  | [], (_, _) :: _, _, _, _, _, _, _, _, h => by
    rw [writeFields, List.append_assoc] at h
    exact (pad_append_ne_comma l (.inr rfl) h).elim
  | (_, _) :: _, [], _, _, _, _, _, _, _, h => by
    rw [writeFields, writeFields, List.append_assoc] at h
    exact (pad_append_ne_comma l (.inr rfl) h.symm).elim
  | (name, v) :: fields, (name', w) :: fields', level, x, y, hv, hw, hx, hy, h => by
    simp only [writeFields, List.cons_append, List.append_assoc] at h
    obtain ⟨rfl, hvalue⟩ := quote_append_inj (List.append_cancel_left (List.cons.inj h).2)
    obtain ⟨rfl, hrest⟩ := write_append_inj v w _ _ _ hv.1 hw.1
      (writeFields_closed l level fields x) (writeFields_closed l level fields' y)
      (List.append_cancel_left (List.cons.inj hvalue).2)
    obtain ⟨rfl, hend⟩ := writeFields_append_inj fields fields' _ _ _ hv.2 hw.2 hx hy hrest
    exact ⟨rfl, hend⟩

end

theorem pretty_inj {v w : Json} (hv : v.Whole) (hw : w.Whole) : v.pretty = w.pretty ↔ v = w := by
  constructor
  · intro h
    have hwrite : v.write .indented 0 ++ [] = w.write .indented 0 ++ [] :=
      congrArg (· ++ []) (String.ofList_injective h)
    exact (write_append_inj .indented v w 0 [] [] hv hw closed_nil closed_nil hwrite).1
  · exact congrArg pretty

end Json

end Multicast
