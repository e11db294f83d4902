import Mathlib.Algebra.Group.Nat.Defs
import Mathlib.Data.List.Induction
import Mathlib.Data.List.TakeWhile
import Multicast.Port
import Multicast.Proofs.AddressText

/-! The texts that stand for a port; no other text is read as one. -/
namespace Multicast

namespace Numeral

/-- One or more decimal digits and the number they stand for. Zeros may lead. -/
inductive Denotes : List Char → Nat → Prop
  | digit {d : Nat} (hd : d < 10) : Denotes [d.digitChar] d
  | append {cs : List Char} {n d : Nat} (front : Denotes cs n) (hd : d < 10) :
    Denotes (cs ++ [d.digitChar]) (10 * n + d)

theorem exists_digitChar {c : Char} (h : c.isDigit = true) : ∃ d < 10, c = d.digitChar := by
  obtain ⟨hlow, hhigh⟩ := Char.isDigit_iff_toNat.mp h
  rw [show '0'.toNat = 48 from rfl] at hlow
  rw [show '9'.toNat = 57 from rfl] at hhigh
  have hd : c.toNat - 48 < 10 := by omega
  refine ⟨c.toNat - 48, hd, Char.toNat_inj.mp ?_⟩
  rw [Nat.toNat_digitChar_of_lt_ten hd]
  omega

theorem ofDigitChars_append_digit (cs : List Char) {d : Nat} (hd : d < 10) :
    Nat.ofDigitChars 10 (cs ++ [d.digitChar]) 0 = 10 * Nat.ofDigitChars 10 cs 0 + d := by
  rw [Nat.ofDigitChars_append, Nat.ofDigitChars_cons, Nat.ofDigitChars_nil]
  have := Nat.toNat_digitChar_sub_48_of_lt_ten hd
  rw [show '0'.toNat = 48 from rfl, this]

namespace Denotes

variable {cs : List Char} {n : Nat}

theorem ne_nil (h : Denotes cs n) : cs ≠ [] := by
  cases h <;> simp

theorem isDigit (h : Denotes cs n) : ∀ c ∈ cs, c.isDigit = true := by
  have hdigit : ∀ {d : Nat}, d < 10 → d.digitChar.isDigit = true := fun hd => by
    rw [Nat.isDigit_digitChar, decide_eq_true hd]
  induction h with
  | digit hd =>
    intro c hc
    rw [List.mem_singleton.mp hc]
    exact hdigit hd
  | append front hd ih =>
    intro c hc
    rcases List.mem_append.mp hc with hc | hc
    · exact ih c hc
    · rw [List.mem_singleton.mp hc]
      exact hdigit hd

theorem ofDigitChars_eq (h : Denotes cs n) : Nat.ofDigitChars 10 cs 0 = n := by
  induction h with
  | digit hd => simpa using ofDigitChars_append_digit [] hd
  | append front hd ih => rw [ofDigitChars_append_digit _ hd, ih]

/-- Digits stand for the number that reading them from the left adds up to. -/
theorem of_digits (hne : cs ≠ []) (hdigits : ∀ c ∈ cs, c.isDigit = true) :
    Denotes cs (Nat.ofDigitChars 10 cs 0) := by
  induction cs using List.reverseRecOn with
  | nil => exact absurd rfl hne
  | append_singleton front c ih =>
    obtain ⟨d, hd, rfl⟩ := exists_digitChar (hdigits c (by simp))
    rw [ofDigitChars_append_digit _ hd]
    by_cases hfront : front = []
    · subst hfront
      simpa using Denotes.digit hd
    · exact (ih hfront fun c hc => hdigits c (List.mem_append_left _ hc)).append hd

end Denotes

theorem decimal?_eq_some_iff {cs : List Char} {n : Nat} : decimal? cs = some n ↔ Denotes cs n := by
  unfold decimal?
  constructor
  · intro h
    split at h
    · next hdigits =>
      cases h
      exact .of_digits hdigits.1 (List.all_eq_true.mp hdigits.2)
    · cases h
  · intro h
    rw [if_pos ⟨h.ne_nil, List.all_eq_true.mpr h.isDigit⟩, h.ofDigitChars_eq]

/-- Decimal digits of a 32-bit value, after a plus sign or without. -/
inductive Spells : List Char → UInt32 → Prop
  | plain {cs : List Char} {n : UInt32} (h : Denotes cs n.toNat) : Spells cs n
  | signed {cs : List Char} {n : UInt32} (h : Denotes cs n.toNat) : Spells ('+' :: cs) n

/-- A text without the plus sign in front. -/
def unsigned : List Char → List Char
  | '+' :: rest => rest
  | cs => cs

theorem unsigned_of_ne {cs : List Char} (h : ∀ rest, cs ≠ '+' :: rest) : unsigned cs = cs := by
  unfold unsigned
  split
  · exact absurd rfl (h _)
  · rfl

theorem spells_iff {cs : List Char} {n : UInt32} : Spells cs n ↔ Denotes (unsigned cs) n.toNat := by
  constructor
  · rintro (h | h)
    · rw [unsigned_of_ne]
      · exact h
      · rintro rest rfl
        exact absurd (h.isDigit '+' List.mem_cons_self) (by decide)
    · exact h
  · intro h
    by_cases hplus : ∃ rest, cs = '+' :: rest
    · obtain ⟨rest, rfl⟩ := hplus
      exact .signed h
    · rw [unsigned_of_ne fun rest hrest => hplus ⟨rest, hrest⟩] at h
      exact .plain h

theorem word?_eq (cs : List Char) :
    word? cs = (decimal? (unsigned cs)).bind fun n =>
      if n < UInt32.size then some (UInt32.ofNat n) else none := by
  unfold word?
  split
  · next rest =>
    change _ = (decimal? rest).bind _
    dsimp only
    cases decimal? rest <;> rfl
  · next hplus =>
    rw [unsigned_of_ne hplus]
    dsimp only
    cases decimal? cs <;> rfl

theorem word?_eq_some_iff {cs : List Char} {n : UInt32} : word? cs = some n ↔ Spells cs n := by
  rw [word?_eq, spells_iff, ← decimal?_eq_some_iff, Option.bind_eq_some_iff]
  constructor
  · rintro ⟨m, hm, h⟩
    split at h
    · next hlt =>
      cases h
      rw [hm, UInt32.toNat_ofNat_of_lt' hlt]
    · cases h
  · intro h
    exact ⟨_, h, by rw [if_pos n.toNat_lt, UInt32.ofNat_toNat]⟩

theorem Spells.mem {cs : List Char} {n : UInt32} (h : Spells cs n) {c : Char} (hc : c ∈ cs) :
    c = '+' ∨ c.isDigit = true := by
  rcases h with h | h
  · exact .inr (h.isDigit c hc)
  · exact (List.mem_cons.mp hc).imp id (h.isDigit c)

theorem Spells.ne_nil {cs : List Char} {n : UInt32} (h : Spells cs n) : cs ≠ [] := by
  rcases h with h | h
  · exact h.ne_nil
  · exact List.cons_ne_nil _ _

theorem Spells.slash_not_mem {cs : List Char} {n : UInt32} (h : Spells cs n) : '/' ∉ cs := by
  intro hc
  rcases h.mem hc with h | h <;> exact absurd h (by decide)

theorem spells_decimal (n : UInt32) : Spells (decimal n.toNat) n :=
  .plain (decimal?_eq_some_iff.mp (decimal?_decimal _))

end Numeral

namespace Port

/-- `lag` and a word, or two words with a slash between. -/
inductive Spells : List Char → Port → Prop
  | lag {cs : List Char} {id : UInt32} (h : Numeral.Spells cs id) :
    Spells ('l' :: 'a' :: 'g' :: cs) (.lag id)
  | panel {cs ds : List Char} {npu port : UInt32} (hnpu : Numeral.Spells cs npu)
    (hport : Numeral.Spells ds port) : Spells (cs ++ '/' :: ds) (.panel npu port)

theorem Spells.chars (p : Port) : Spells p.chars p := by
  cases p with
  | panel npu port => exact .panel (Numeral.spells_decimal npu) (Numeral.spells_decimal port)
  | lag id => exact .lag (Numeral.spells_decimal id)

/-- The first slash divides a text. -/
theorem cut_append_slash {cs : List Char} (h : '/' ∉ cs) (ds : List Char) :
    (cs ++ '/' :: ds).takeWhile (· != '/') = cs ∧
      (cs ++ '/' :: ds).dropWhile (· != '/') = '/' :: ds := by
  have hpass : ∀ c ∈ cs, (c != '/') = true := by
    intro c hc
    have : c ≠ '/' := fun e => h (e ▸ hc)
    simp [this]
  rw [List.takeWhile_append_of_pos hpass, List.dropWhile_append_of_pos hpass]
  simp

theorem eq_append_of_dropWhile {cs rest : List Char} {c : Char}
    (h : cs.dropWhile (· != '/') = c :: rest) :
    '/' ∉ cs.takeWhile (· != '/') ∧ cs = cs.takeWhile (· != '/') ++ '/' :: rest := by
  have hslash : c = '/' := by
    have hhead := List.head_dropWhile_not (· != '/') (l := cs) (by simp [h])
    simpa [h] using hhead
  have hwhole := List.takeWhile_append_dropWhile (p := (· != '/')) (l := cs)
  rw [h, hslash] at hwhole
  refine ⟨fun hmem => ?_, hwhole.symm⟩
  have hpass := List.mem_takeWhile_imp hmem
  cases hpass

theorem spells_lag_iff {cs : List Char} {p : Port} :
    Spells ('l' :: 'a' :: 'g' :: cs) p ↔ ∃ id, Numeral.Spells cs id ∧ .lag id = p := by
  constructor
  · generalize hwhole : 'l' :: 'a' :: 'g' :: cs = whole
    rintro (h | ⟨hnpu, -⟩)
    · cases hwhole
      exact ⟨_, h, rfl⟩
    · -- no word starts with a letter
      obtain ⟨c, front, rfl⟩ := List.exists_cons_of_ne_nil hnpu.ne_nil
      rw [← (List.cons.inj hwhole).1] at hnpu
      rcases hnpu.mem List.mem_cons_self with h | h <;> exact absurd h (by decide)
  · rintro ⟨id, h, rfl⟩
    exact .lag h

theorem slash_mem_of_spells {cs : List Char} {p : Port} (h : Spells cs p)
    (hlag : ∀ rest, cs ≠ 'l' :: 'a' :: 'g' :: rest) : '/' ∈ cs := by
  rcases h with h | ⟨-, -⟩
  · exact absurd rfl (hlag _)
  · simp

/-- No word has a slash, so the first one is where the two words meet. -/
theorem spells_panel_iff {cs ds : List Char} {p : Port} (hslash : '/' ∉ cs)
    (hlag : ∀ rest, cs ++ '/' :: ds ≠ 'l' :: 'a' :: 'g' :: rest) :
    Spells (cs ++ '/' :: ds) p ↔
      ∃ npu, Numeral.Spells cs npu ∧ ∃ port, Numeral.Spells ds port ∧ .panel npu port = p := by
  constructor
  · generalize hwhole : cs ++ '/' :: ds = whole at hlag
    rintro (h | ⟨hnpu, hport⟩)
    · exact absurd rfl (hlag _)
    · next cs' ds' npu port =>
      obtain ⟨hfront, hback⟩ := cut_append_slash hslash ds
      obtain ⟨hfront', hback'⟩ := cut_append_slash hnpu.slash_not_mem ds'
      rw [hwhole] at hfront hback
      obtain rfl : cs = cs' := hfront.symm.trans hfront'
      obtain rfl : ds = ds' := (List.cons.inj (hback.symm.trans hback')).2
      exact ⟨npu, hnpu, port, hport, rfl⟩
  · rintro ⟨npu, hnpu, port, hport, rfl⟩
    exact .panel hnpu hport

theorem read?_eq_some_iff {cs : List Char} {p : Port} : read? cs = some p ↔ Spells cs p := by
  unfold read?
  split
  · rw [Option.map_eq_some_iff, spells_lag_iff]
    simp only [Numeral.word?_eq_some_iff]
  · next hlag =>
    split
    · next hnone =>
      refine ⟨nofun, fun h => ?_⟩
      have hpass := List.dropWhile_eq_nil_iff.mp hnone '/' (slash_mem_of_spells h hlag)
      cases hpass
    · next c rest hrest =>
      obtain ⟨hslash, hcut⟩ := eq_append_of_dropWhile hrest
      rw [hcut] at hlag
      have hspells := spells_panel_iff (p := p) hslash hlag
      rw [← hcut] at hspells
      rw [hspells]
      simp only [bind, Option.bind_eq_some_iff, Numeral.word?_eq_some_iff, Option.some.injEq]

theorem read_eq_ok_iff {s : String} {p : Port} : read s = .ok p ↔ Spells s.toList p := by
  unfold read
  rw [← read?_eq_some_iff]
  cases read? s.toList <;> simp

theorem read_eq_error_iff {s : String} {e : ReadError} :
    read s = .error e ↔ e = .port s ∧ ∀ p, ¬Spells s.toList p := by
  simp only [← read?_eq_some_iff]
  unfold read
  cases read? s.toList <;> simp [eq_comm]

theorem read_text (p : Port) : read p.text = .ok p := by
  rw [read_eq_ok_iff, text, String.toList_ofList]
  exact .chars p

/-- Exactly the spellings of a port are read as it, any other text is refused as it stands, and each
port has a text of its own. -/
theorem read_accepts_spellings :
    (∀ s p, read s = .ok p ↔ Spells s.toList p) ∧
      (∀ s e, read s = .error e ↔ e = .port s ∧ ∀ p, ¬Spells s.toList p) ∧
      (∀ p : Port, read p.text = .ok p) ∧ ∀ p q : Port, p.text = q.text ↔ p = q := by
  refine ⟨fun _ _ => read_eq_ok_iff, fun _ _ => read_eq_error_iff, read_text, fun p q => ?_⟩
  constructor
  · intro h
    have hread := read_text p
    rw [h, read_text q] at hread
    exact (Except.ok.inj hread).symm
  · exact congrArg text

example : read "lag+007" = .ok (.lag 7) := by decide +kernel

/-- The prefix settles that it is no pair. -/
example : read "lag1/2" = .error (.port "lag1/2") := by decide +kernel

example : read "0/4294967296" = .error (.port "0/4294967296") := by decide +kernel

end Port

end Multicast
