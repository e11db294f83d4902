import Mathlib.Algebra.Group.Nat.Defs
import Multicast.Json.Document
import Multicast.Json.Printer
import Multicast.Proofs.AddressText

/-! The text of a JSON value, compact or indented, is read back as that value, if its numbers are
integers of 64 bits. -/
namespace Multicast

namespace Numeral

theorem digitChar_ne_zero : ∀ d < 10, 0 < d → d.digitChar ≠ '0' := by decide

/-- No numeral but that of zero starts with a zero. -/
theorem decimal_cons {n : Nat} (h : 0 < n) : ∃ c rest, decimal n = c :: rest ∧ c ≠ '0' := by
  induction n using Nat.strongRecOn with
  | ind n ih =>
    unfold decimal
    rw [Nat.toDigits_eq_if (by decide)]
    split
    · next hlt => exact ⟨_, [], rfl, digitChar_ne_zero n hlt h⟩
    · next hge =>
      obtain ⟨c, rest, hc, hne⟩ := ih (n / 10) (Nat.div_lt_self h (by decide)) (by omega)
      unfold decimal at hc
      exact ⟨c, rest ++ [(n % 10).digitChar], by rw [hc]; rfl, hne⟩

theorem decimal_ne_nil (n : Nat) : decimal n ≠ [] := Nat.toDigits_ne_nil

theorem ofDigitChars_decimal (n : Nat) : Nat.ofDigitChars 10 (decimal n) 0 = n :=
  Nat.ofDigitChars_toDigits (by decide) (by decide)

theorem isDigit_of_decimal_append {n : Nat} {rest : List Char} {c : Char} {cs : List Char}
    (h : decimal n ++ rest = c :: cs) : c.isDigit = true := by
  cases hn : decimal n with
  | nil => exact absurd hn (decimal_ne_nil n)
  | cons d ds =>
    rw [hn] at h
    cases h
    exact mem_decimal_isDigit (hn ▸ List.mem_cons_self)

/-- A run of digits ends where no digit follows. -/
theorem takeWhile_digits {ds rest : List Char} (hds : ∀ c ∈ ds, c.isDigit = true)
    (hrest : ∀ c ∈ rest.head?, c.isDigit = false) : (ds ++ rest).takeWhile Char.isDigit = ds := by
  have hnone : rest.takeWhile Char.isDigit = [] := by
    cases rest with
    | nil => rfl
    | cons c rest => simp [hrest c rfl]
  rw [List.takeWhile_append_of_pos hds, hnone, List.append_nil]

theorem dropWhile_digits {ds rest : List Char} (hds : ∀ c ∈ ds, c.isDigit = true)
    (hrest : ∀ c ∈ rest.head?, c.isDigit = false) :
    (ds ++ rest).dropWhile Char.isDigit = rest := by
  rw [List.dropWhile_append_of_pos hds]
  cases rest with
  | nil => rfl
  | cons c rest => simp [hrest c rfl]

end Numeral

namespace Json

/-- What may follow a value inside a text: nothing that a number could go on with. -/
def Closed (rest : List Char) : Prop :=
  ∀ c ∈ rest.head?, c.isDigit = false ∧ c ≠ '.' ∧ c ≠ 'e' ∧ c ≠ 'E'

theorem closed_nil : Closed [] := nofun

theorem closed_cons {c : Char} (hc : c = ',' ∨ c = ']' ∨ c = '}' ∨ isBlank c = true)
    (rest : List Char) : Closed (c :: rest) := by
  rintro _ ⟨⟩
  have hc : c = ',' ∨ c = ']' ∨ c = '}' ∨ ((c = ' ' ∨ c = '\n') ∨ c = '\t') ∨ c = '\r' := by
    simpa [isBlank] using hc
  rcases hc with rfl | rfl | rfl | ((rfl | rfl) | rfl) | rfl <;> decide

theorem Closed.not_digit {rest : List Char} (h : Closed rest) :
    ∀ c ∈ rest.head?, c.isDigit = false := fun c hc => (h c hc).1

/-! Strings -/

theorem unit?_paddedHex : ∀ n < 32, (Numeral.paddedHex 4 n).length = 4 ∧
    unit? (Numeral.paddedHex 4 n) = some n := by
  decide

theorem stringUnits?_hex {n : Nat} (h : n < 32) (cs : List Char) :
    stringUnits? ('\\' :: 'u' :: (Numeral.paddedHex 4 n ++ cs)) =
      (stringUnits? cs).map fun p => (n :: p.1, p.2) := by
  obtain ⟨hlength, hunit⟩ := unit?_paddedHex n h
  match hds : Numeral.paddedHex 4 n, hlength with
  | [a, b, c, d], _ =>
    rw [hds] at hunit
    simp only [List.cons_append, List.nil_append, stringUnits?, hunit, Option.bind_eq_bind,
      Option.bind_some]
    cases stringUnits? cs <;> rfl

/-- The escapes of two characters that are written. -/
theorem stringUnits?_pair {e : Char} {u : Nat}
    (h : (e, u) ∈ [('"', 34), ('\\', 92), ('n', 10), ('r', 13), ('t', 9), ('b', 8), ('f', 12)])
    (cs : List Char) :
    stringUnits? ('\\' :: e :: cs) = (stringUnits? cs).map fun p => (u :: p.1, p.2) := by
  simp only [List.mem_cons, Prod.mk.injEq, List.not_mem_nil, or_false] at h
  rcases h with ⟨rfl, rfl⟩ | ⟨rfl, rfl⟩ | ⟨rfl, rfl⟩ | ⟨rfl, rfl⟩ | ⟨rfl, rfl⟩ | ⟨rfl, rfl⟩ |
      ⟨rfl, rfl⟩ <;>
  · simp only [stringUnits?, Option.bind_eq_bind, Option.bind_some]
    cases stringUnits? cs <;> rfl

theorem stringUnits?_plain {c : Char} (hquote : c ≠ '"') (hslash : c ≠ '\\')
    (hcontrol : ¬c.toNat < 32) (cs : List Char) :
    stringUnits? (c :: cs) = (stringUnits? cs).map fun p => (c.toNat :: p.1, p.2) := by
  simp [stringUnits?, hslash, hcontrol]

theorem stringUnits?_escape (c : Char) (cs : List Char) :
    stringUnits? (escape c ++ cs) =
      (stringUnits? cs).map fun p => (c.toNat :: p.1, p.2) := by
  unfold escape
  split
  · next h =>
    subst h
    exact stringUnits?_pair (by decide) cs
  next hquote =>
  split
  · next h =>
    subst h
    exact stringUnits?_pair (by decide) cs
  next hslash =>
  split
  · next h =>
    subst h
    exact stringUnits?_pair (by decide) cs
  split
  · next h =>
    subst h
    exact stringUnits?_pair (by decide) cs
  split
  · next h =>
    subst h
    exact stringUnits?_pair (by decide) cs
  split
  · next h => exact h ▸ stringUnits?_pair (by decide) cs
  split
  · next h => exact h ▸ stringUnits?_pair (by decide) cs
  split
  · next h => exact stringUnits?_hex h cs
  · next h => exact stringUnits?_plain hquote hslash h cs

theorem stringUnits?_quoted (cs rest : List Char) :
    stringUnits? (cs.flatMap escape ++ '"' :: rest) = some (cs.map Char.toNat, rest) := by
  induction cs with
  | nil => simp [stringUnits?]
  | cons c cs ih =>
    rw [List.flatMap_cons, List.append_assoc, stringUnits?_escape, ih]
    rfl

/-- A character is no surrogate. -/
theorem joinUnits?_toNat (cs : List Char) : joinUnits? (cs.map Char.toNat) = some cs := by
  induction cs with
  | nil => rfl
  | cons c cs ih =>
    have hvalid : c.toNat < 0xD800 ∨ 0xDFFF < c.toNat ∧ c.toNat < 0x110000 := c.valid
    have hlow : isLowSurrogate c.toNat = false := by
      simp only [isLowSurrogate, Bool.and_eq_false_iff, decide_eq_false_iff_not]
      omega
    have hhigh : isHighSurrogate c.toNat = false := by
      simp only [isHighSurrogate, Bool.and_eq_false_iff, decide_eq_false_iff_not]
      omega
    rw [List.map_cons, joinUnits?.eq_def]
    simp [hlow, hhigh, ih]

theorem string?_quoted (s : String) (rest : List Char) :
    string? (s.toList.flatMap escape ++ '"' :: rest) = some (some s, rest) := by
  rw [string?, stringUnits?_quoted]
  simp [joinUnits?_toNat]

/-! Numbers -/

/-- An integer of 64 bits, signed or not. -/
def Number.Integral : Number → Prop
  | .int n => -(2 ^ 63 : Nat) ≤ n ∧ n < (2 ^ 64 : Nat)
  | .real .. => False

/-- An integer, of any size. -/
def Number.Whole : Number → Prop
  | .int _ => True
  | .real .. => False

theorem Number.Integral.whole {n : Number} (h : n.Integral) : n.Whole := by
  cases n with
  | int => trivial
  | real => exact h

/-- How the text of an integer starts. -/
def StartsNumber (c : Char) : Prop := c = '-' ∨ c.isDigit = true

theorem StartsNumber.ne {c d : Char} (hc : StartsNumber c) (hdash : d ≠ '-')
    (hdigit : d.isDigit = false) : c ≠ d := by
  rintro rfl
  rcases hc with rfl | hc
  · exact hdash rfl
  · cases hdigit.symm.trans hc

theorem StartsNumber.not_blank {c : Char} (hc : StartsNumber c) : isBlank c = false := by
  have hne := fun d => @StartsNumber.ne c d hc
  simp [isBlank, hne]

theorem Number.chars_cons {n : Number} (hn : n.Whole) :
    ∃ c cs, n.chars = c :: cs ∧ StartsNumber c := by
  cases n with
  | real => exact hn.elim
  | int n =>
    simp only [Number.chars]
    split
    · exact ⟨_, _, rfl, .inl rfl⟩
    · cases hds : Numeral.decimal n.natAbs with
      | nil => exact absurd hds (Numeral.decimal_ne_nil _)
      | cons c cs =>
        exact ⟨c, cs, rfl, .inr (Numeral.mem_decimal_isDigit (hds ▸ List.mem_cons_self))⟩

theorem digits_decimal (n : Nat) {rest : List Char} (h : Closed rest) :
    digits (Numeral.decimal n ++ rest) = (Numeral.decimal n, rest) := by
  have hds : ∀ c ∈ Numeral.decimal n, c.isDigit = true := fun _ => Numeral.mem_decimal_isDigit
  rw [digits, Numeral.takeWhile_digits hds h.not_digit, Numeral.dropWhile_digits hds h.not_digit]

theorem magnitude?_decimal (negative : Bool) (n : Nat) {rest : List Char} (h : Closed rest) :
    magnitude? negative (Numeral.decimal n ++ rest) =
      some (integer negative (Numeral.decimal n), rest) := by
  rcases Nat.eq_zero_or_pos n with rfl | hn
  · have hzero : Numeral.decimal 0 = ['0'] := rfl
    cases rest with
    | nil => simp [magnitude?, hzero]
    | cons c rest =>
      obtain ⟨-, hdot, he, hE⟩ := h c rfl
      simp [magnitude?, hzero, hdot, he, hE]
  · obtain ⟨c, cs, hc, hne⟩ := Numeral.decimal_cons hn
    have hdigits := digits_decimal n h
    rw [hc, List.cons_append] at hdigits ⊢
    cases rest with
    | nil =>
      rw [List.append_nil] at hdigits ⊢
      simp [magnitude?, hne, hdigits]
    | cons d rest =>
      obtain ⟨-, hdot, he, hE⟩ := h d rfl
      simp [magnitude?, hne, hdigits, hdot, he, hE]

theorem number?_chars {n : Number} (hn : n.Integral) {rest : List Char} (h : Closed rest) :
    number? (n.chars ++ rest) = some (some n, rest) := by
  cases n with
  | real => exact hn.elim
  | int n =>
    obtain ⟨hlow, hhigh⟩ := hn
    simp only [Number.chars]
    split
    · next hneg =>
      have hinteger : integer true (Numeral.decimal n.natAbs) = some (.int n) := by
        have hshift : 1 <<< 63 = 2 ^ 63 := rfl
        have hbounds : 0 < n.natAbs ∧ n.natAbs ≤ 1 <<< 63 := by omega
        have hback : -(n.natAbs : Int) = n := by omega
        rw [integer, Numeral.ofDigitChars_decimal, if_pos rfl, if_pos hbounds, hback]
      rw [List.cons_append, number?, magnitude?_decimal _ _ h, hinteger]
    · next hpos =>
      have hinteger : integer false (Numeral.decimal n.natAbs) = some (.int n) := by
        have hsize : UInt64.size = 2 ^ 64 := rfl
        have hbound : n.natAbs < UInt64.size := by omega
        have hback : (n.natAbs : Int) = n := by omega
        simp [integer, Numeral.ofDigitChars_decimal, hbound, hback]
      rw [number?.eq_def]
      split
      · next rest heq =>
        have hdash := Numeral.isDigit_of_decimal_append heq
        cases hdash
      · rw [magnitude?_decimal _ _ h, hinteger]

/-! Values -/

mutual

/-- Every number of the value satisfies `p`. -/
def Numbers (p : Number → Prop) : Json → Prop
  | .num n => p n
  | .arr items => NumbersItems p items
  | .obj fields => NumbersFields p fields
  | _ => True

def NumbersItems (p : Number → Prop) : List Json → Prop
  | [] => True
  | v :: rest => Numbers p v ∧ NumbersItems p rest

def NumbersFields (p : Number → Prop) : List (String × Json) → Prop
  | [] => True
  | (_, v) :: rest => Numbers p v ∧ NumbersFields p rest

end

mutual

theorem Numbers.mono {p q : Number → Prop} (h : ∀ n, p n → q n) : ∀ {v : Json},
    v.Numbers p → v.Numbers q
  | .null, _ | .bool _, _ | .str _, _ => trivial
  | .num n, hn => h n hn
  | .arr _, hitems => NumbersItems.mono h hitems
  | .obj _, hfields => NumbersFields.mono h hfields

theorem NumbersItems.mono {p q : Number → Prop} (h : ∀ n, p n → q n) : ∀ {items : List Json},
    NumbersItems p items → NumbersItems q items
  | [], _ => trivial
  | _ :: _, hitems => ⟨Numbers.mono h hitems.1, NumbersItems.mono h hitems.2⟩

theorem NumbersFields.mono {p q : Number → Prop} (h : ∀ n, p n → q n) :
    ∀ {fields : List (String × Json)}, NumbersFields p fields → NumbersFields q fields
  | [], _ => trivial
  | (_, _) :: _, hfields => ⟨Numbers.mono h hfields.1, NumbersFields.mono h hfields.2⟩

end

/-- Every number of the value is an integer of 64 bits. -/
def Integral (v : Json) : Prop := v.Numbers Number.Integral

/-- Every number of the value is an integer. -/
def Whole (v : Json) : Prop := v.Numbers Number.Whole

theorem Integral.whole {v : Json} (h : v.Integral) : v.Whole :=
  Numbers.mono (fun _ => Number.Integral.whole) h

mutual

/-- The document of which this is the value. -/
def document : Json → Document
  | .null => .null
  | .bool b => .bool b
  | .num n => .num (some n)
  | .str s => .str (some s)
  | .arr items => .arr (documentItems items)
  | .obj fields => .obj (documentFields fields)

def documentItems : List Json → List Document
  | [] => []
  | v :: rest => document v :: documentItems rest

def documentFields : List (String × Json) → List (Option String × Document)
  | [] => []
  | (name, v) :: rest => (some name, document v) :: documentFields rest

end

mutual

theorem value?_document : ∀ v : Json, v.document.value? = some v
  | .null | .bool _ | .num _ | .str _ => rfl
  | .arr items => by simp [document, Document.value?, valueItems?_document items]
  | .obj fields => by simp [document, Document.value?, valueFields?_document fields]

theorem valueItems?_document : ∀ items, Document.valueItems? (documentItems items) = some items
  | [] => rfl
  | v :: rest => by
    simp [documentItems, Document.valueItems?, value?_document v, valueItems?_document rest]

theorem valueFields?_document : ∀ fields,
    Document.valueFields? (documentFields fields) = some fields
  | [] => rfl
  | (name, v) :: rest => by
    simp [documentFields, Document.valueFields?, value?_document v, valueFields?_document rest]

end

/-! Texts -/

theorem Layout.isBlank_pad (l : Layout) (level : Nat) : ∀ c ∈ l.pad level, isBlank c = true := by
  cases l with
  | compact => exact nofun
  | indented =>
    intro c hc
    rcases List.mem_cons.mp hc with rfl | hc
    · rfl
    · rw [(List.mem_replicate.mp hc).2]
      rfl

theorem Layout.isBlank_gap (l : Layout) : ∀ c ∈ l.gap, isBlank c = true := by
  cases l with
  | compact => exact nofun
  | indented => exact fun c hc => List.mem_singleton.mp hc ▸ rfl

theorem skipBlanks_append {blanks : List Char} (h : ∀ c ∈ blanks, isBlank c = true)
    (cs : List Char) : skipBlanks (blanks ++ cs) = skipBlanks cs :=
  List.dropWhile_append_of_pos h

theorem skipBlanks_cons {c : Char} (h : isBlank c = false) (cs : List Char) :
    skipBlanks (c :: cs) = c :: cs := by
  simp [skipBlanks, h]

theorem isBlank_mark : ∀ c ∈ ['"', ',', ':', ']', '}'], isBlank c = false := by
  simp [isBlank]

variable (l : Layout) (level : Nat)

/-- No value starts like a blank, nor as the end of an array. -/
theorem write_cons {v : Json} (hv : v.Whole) :
    ∃ c cs, v.write l level = c :: cs ∧ isBlank c = false ∧ c ≠ ']' := by
  cases v with
  | null => exact ⟨_, _, rfl, rfl, by decide⟩
  | bool b => cases b <;> exact ⟨_, _, rfl, rfl, by decide⟩
  | num n =>
    obtain ⟨c, cs, hcs, hc⟩ := Number.chars_cons hv
    exact ⟨c, cs, hcs, hc.not_blank, hc.ne (by decide) (by decide)⟩
  | str s => exact ⟨_, _, rfl, rfl, by decide⟩
  | arr items => cases items <;> exact ⟨_, _, rfl, rfl, by decide⟩
  | obj fields =>
    rcases fields with _ | ⟨⟨name, v⟩, rest⟩ <;> exact ⟨_, _, rfl, rfl, by decide⟩

theorem skipBlanks_write {v : Json} (hv : v.Whole) (rest : List Char) :
    skipBlanks (v.write l level ++ rest) = v.write l level ++ rest := by
  obtain ⟨c, cs, hcs, hblank, -⟩ := write_cons l level hv
  rw [hcs]
  exact skipBlanks_cons hblank _

theorem length_write_pos {v : Json} (hv : v.Whole) : 0 < (v.write l level).length := by
  obtain ⟨c, cs, hcs, -⟩ := write_cons l level hv
  simp [hcs]

theorem closed_pad_append {c : Char} (hc : c = ']' ∨ c = '}') (rest : List Char) :
    Closed (l.pad level ++ c :: rest) := by
  cases hpad : l.pad level with
  | nil => exact closed_cons (by rcases hc with rfl | rfl <;> decide) rest
  | cons blank blanks =>
    have hblank := l.isBlank_pad level blank (hpad ▸ List.mem_cons_self)
    exact closed_cons (.inr (.inr (.inr hblank))) _

theorem writeItems_closed (items : List Json) (rest : List Char) :
    Closed (writeItems l level items ++ rest) := by
  cases items with
  | nil =>
    rw [writeItems, List.append_assoc]
    exact closed_pad_append l level (.inl rfl) rest
  | cons v items => exact closed_cons (.inl rfl) _

theorem writeFields_closed (fields : List (String × Json)) (rest : List Char) :
    Closed (writeFields l level fields ++ rest) := by
  rcases fields with _ | ⟨⟨name, v⟩, fields⟩
  · rw [writeFields, List.append_assoc]
    exact closed_pad_append l level (.inr rfl) rest
  · exact closed_cons (.inl rfl) _

theorem length_writeItems_pos (items : List Json) : 0 < (writeItems l level items).length := by
  cases items <;> simp [writeItems]

theorem length_writeFields_pos (fields : List (String × Json)) :
    0 < (writeFields l level fields).length := by
  rcases fields with _ | ⟨⟨name, v⟩, fields⟩ <;> simp [writeFields]

namespace Document

theorem scanItems?_append {blanks : List Char} (h : ∀ c ∈ blanks, isBlank c = true) (fuel : Nat)
    (cs : List Char) : scanItems? fuel (blanks ++ cs) = scanItems? fuel cs := by
  cases fuel with
  | zero => rfl
  | succ fuel => rw [scanItems?, scanItems?, skipBlanks_append h]

theorem scanFields?_append {blanks : List Char} (h : ∀ c ∈ blanks, isBlank c = true) (fuel : Nat)
    (cs : List Char) : scanFields? fuel (blanks ++ cs) = scanFields? fuel cs := by
  cases fuel with
  | zero => rfl
  | succ fuel => rw [scanFields?, scanFields?, skipBlanks_append h]

end Document

mutual

theorem scan?_write : ∀ (v : Json) (level fuel : Nat) (rest : List Char), v.Integral →
    2 * (v.write l level).length ≤ fuel → Closed rest →
    Document.scan? fuel (v.write l level ++ rest) = some (v.document, rest)
  | v, level, 0, rest, hv, hfuel, _ => by
    have hpos := length_write_pos l level hv.whole
    omega
  | .null, _, fuel + 1, rest, _, _, _ => rfl
  | .bool true, _, fuel + 1, rest, _, _, _ => rfl
  | .bool false, _, fuel + 1, rest, _, _, _ => rfl
  | .num n, _, fuel + 1, rest, hv, _, hrest => by
    have hnumber : number? (n.chars ++ rest) = some (some n, rest) := number?_chars hv hrest
    obtain ⟨c, cs, hcs, hc⟩ := Number.chars_cons (Number.Integral.whole hv)
    have hne := fun d => @StartsNumber.ne c d hc
    rw [write, document]
    rw [hcs, List.cons_append] at hnumber ⊢
    simp [Document.scan?, hne, hnumber]
  | .str s, _, fuel + 1, rest, _, _, _ => by
    simp [write, quote, Document.scan?, string?_quoted, document]
  | .arr [], _, fuel + 1, rest, _, _, _ => rfl
  | .arr (v :: items), level, fuel + 1, rest, hv, hfuel, _ => by
    obtain ⟨c, cs, hcs, hblank, hne⟩ := write_cons l (level + 1) (Integral.whole hv.1)
    have hitems := scanItems?_write v items level fuel rest hv.1 hv.2 (by
      simp only [write, List.length_cons, List.length_append] at hfuel
      omega)
    rw [hcs, List.cons_append] at hitems
    simp [write, hcs, Document.scan?, skipBlanks_append (l.isBlank_pad _), skipBlanks_cons hblank,
      hne, hitems, document]
  | .obj [], _, fuel + 1, rest, _, _, _ => rfl
  | .obj ((name, v) :: fields), level, fuel + 1, rest, hv, hfuel, _ => by
    have hfields := scanFields?_write name v fields level fuel rest hv.1 hv.2 (by
      simp only [write, List.length_cons, List.length_append] at hfuel
      omega)
    have hquote := isBlank_mark '"' (by decide)
    simp [write, quote, Document.scan?, skipBlanks_append (l.isBlank_pad _),
      skipBlanks_cons hquote, hfields, document]

theorem scanItems?_write : ∀ (v : Json) (items : List Json) (level fuel : Nat)
    (rest : List Char), v.Integral → NumbersItems Number.Integral items →
    2 * ((v.write l (level + 1)).length + (writeItems l level items).length) ≤ fuel + 1 →
    Document.scanItems? fuel (v.write l (level + 1) ++ (writeItems l level items ++ rest)) =
      some (documentItems (v :: items), rest)
  | v, items, level, 0, rest, hv, _, hfuel => by
    have hpos := length_write_pos l (level + 1) hv.whole
    omega
  | v, items, level, fuel + 1, rest, hv, hitems, hfuel => by
    have hpos := length_writeItems_pos l level items
    have hfirst := scan?_write v (level + 1) fuel (writeItems l level items ++ rest) hv (by omega)
      (writeItems_closed l level items rest)
    rw [Document.scanItems?, skipBlanks_write l (level + 1) hv.whole, hfirst]
    cases items with
    | nil =>
      have hmark := isBlank_mark ']' (by decide)
      simp [writeItems, skipBlanks_append (l.isBlank_pad _), skipBlanks_cons hmark, documentItems]
    | cons w items =>
      have hrest := scanItems?_write w items level fuel rest hitems.1 hitems.2 (by
        simp only [writeItems, List.length_cons, List.length_append] at hfuel
        omega)
      have hmark := isBlank_mark ',' (by decide)
      simp [writeItems, Document.scanItems?_append (l.isBlank_pad _), skipBlanks_cons hmark, hrest,
        documentItems]

theorem scanFields?_write : ∀ (name : String) (v : Json) (fields : List (String × Json))
    (level fuel : Nat) (rest : List Char), v.Integral → NumbersFields Number.Integral fields →
    2 * ((quote name).length + ((v.write l (level + 1)).length +
      (writeFields l level fields).length)) ≤ fuel + 1 →
    Document.scanFields? fuel ('"' :: (name.toList.flatMap escape ++ '"' :: ':' :: (l.gap ++
        (v.write l (level + 1) ++ (writeFields l level fields ++ rest))))) =
      some (documentFields ((name, v) :: fields), rest)
  | name, v, fields, level, 0, rest, hv, _, hfuel => by
    have hpos := length_write_pos l (level + 1) hv.whole
    omega
  | name, v, fields, level, fuel + 1, rest, hv, hfields, hfuel => by
    have hpos := length_writeFields_pos l level fields
    have hfirst := scan?_write v (level + 1) fuel (writeFields l level fields ++ rest) hv
      (by omega) (writeFields_closed l level fields rest)
    have hquote := isBlank_mark '"' (by decide)
    have hcolon := isBlank_mark ':' (by decide)
    rw [Document.scanFields?, skipBlanks_cons hquote]
    simp only [string?_quoted, Option.bind_eq_bind, Option.bind_some, skipBlanks_cons hcolon,
      skipBlanks_append l.isBlank_gap, skipBlanks_write l (level + 1) hv.whole, hfirst]
    rcases fields with _ | ⟨⟨name', w⟩, fields⟩
    · have hmark := isBlank_mark '}' (by decide)
      simp [writeFields, skipBlanks_append (l.isBlank_pad _), skipBlanks_cons hmark,
        documentFields]
    · have hrest := scanFields?_write name' w fields level fuel rest hfields.1 hfields.2 (by
        simp only [writeFields, List.length_cons, List.length_append] at hfuel
        omega)
      have hmark := isBlank_mark ',' (by decide)
      simp [writeFields, quote, Document.scanFields?_append (l.isBlank_pad _),
        skipBlanks_cons hmark, hrest, documentFields]

end

namespace Document

/-- The text of a value is the text of its document. -/
theorem ofText?_write {v : Json} (hv : v.Integral) :
    ofText? (String.ofList (v.write l 0)) = some v.document := by
  have hscan := scan?_write l v 0 (2 * (v.write l 0).length + 2) [] hv (by omega) closed_nil
  have hskip := skipBlanks_write l 0 hv.whole []
  have hend : skipBlanks [] = [] := rfl
  rw [List.append_nil] at hscan hskip
  simp [ofText?, ofChars?, hskip, hscan, hend]

theorem ofText?_compact {v : Json} (hv : v.Integral) : ofText? v.compact = some v.document :=
  ofText?_write .compact hv

end Document

theorem ofText?_compact {v : Json} (hv : v.Integral) : ofText? v.compact = some v := by
  rw [ofText?, Document.ofText?_compact hv, Option.bind_some, value?_document]

theorem ofText?_pretty {v : Json} (hv : v.Integral) : ofText? v.pretty = some v := by
  rw [ofText?, pretty, Document.ofText?_write .indented hv, Option.bind_some, value?_document]

end Json

end Multicast
