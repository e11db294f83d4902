import Multicast.Audit.Timestamp
import Multicast.Proofs.JsonText

/-! A point of time is read back from its text. -/
namespace Multicast.Timestamp

/-! Padded numerals -/

theorem padded_eq (width n : Nat) : padded width n =
    List.replicate (width - (Numeral.decimal n).length) '0' ++ Numeral.decimal n := rfl

theorem isDigit_of_mem_padded {width n : Nat} {c : Char} (h : c ∈ padded width n) :
    c.isDigit = true := by
  rcases List.mem_append.mp (padded_eq width n ▸ h) with h | h
  · rw [List.eq_of_mem_replicate h]
    rfl
  · exact Numeral.mem_decimal_isDigit h

theorem padded_ne_nil (width n : Nat) : padded width n ≠ [] := by
  simp [padded_eq, Numeral.decimal_ne_nil]

/-- Numbers of at most `width` digits fill it. -/
theorem length_padded {width n : Nat} (hwidth : 0 < width) (h : n < 10 ^ width) :
    (padded width n).length = width := by
  have hlength : (Numeral.decimal n).length ≤ width :=
    (Nat.length_toDigits_le_iff (by decide) hwidth).mpr h
  rw [padded_eq, List.length_append, List.length_replicate]
  omega

theorem ofDigitChars_padded (width n : Nat) : Nat.ofDigitChars 10 (padded width n) 0 = n := by
  rw [padded_eq, Nat.ofDigitChars_append, Nat.ofDigitChars_replicate_zero, Nat.mul_zero,
    Numeral.ofDigitChars_decimal]

/-! Parts of the text -/

theorem not_isBlank_of_isDigit {c : Char} (h : c.isDigit = true) : isBlank c = false := by
  have hrange : 48 ≤ c.toNat ∧ c.toNat ≤ 57 := by
    simpa [Char.isDigit, UInt32.le_iff_toNat_le] using h
  simp only [isBlank, Bool.or_eq_false_iff, Bool.and_eq_false_imp, decide_eq_true_eq,
    decide_eq_false_iff_not, beq_eq_false_iff_ne]
  omega

theorem skipBlanks_cons {c : Char} (h : isBlank c = false) (rest : List Char) :
    skipBlanks (c :: rest) = c :: rest := by
  simp [skipBlanks, h]

theorem exists_padded_cons (width n : Nat) :
    ∃ c ds, padded width n = c :: ds ∧ c.isDigit = true := by
  cases h : padded width n with
  | nil => exact absurd h (padded_ne_nil width n)
  | cons c ds => exact ⟨c, ds, rfl, isDigit_of_mem_padded (h ▸ List.mem_cons_self)⟩

theorem skipBlanks_padded (width n : Nat) (rest : List Char) :
    skipBlanks (padded width n ++ rest) = padded width n ++ rest := by
  obtain ⟨c, ds, hcs, hc⟩ := exists_padded_cons width n
  rw [hcs]
  exact skipBlanks_cons (not_isBlank_of_isDigit hc) _

/-- A padded numeral is read as far as `limit` lets it, or as its digits go. -/
theorem number?_of_take {limit width n : Nat} {rest : List Char}
    (h : ((padded width n ++ rest).take limit).takeWhile Char.isDigit = padded width n) :
    number? limit (padded width n ++ rest) = some (n, rest) := by
  simp [number?, skipBlanks_padded, h, padded_ne_nil, ofDigitChars_padded]

theorem number?_padded {width n : Nat} (hwidth : 0 < width) (h : n < 10 ^ width)
    (rest : List Char) : number? width (padded width n ++ rest) = some (n, rest) := by
  apply number?_of_take
  rw [List.take_left' (length_padded hwidth h)]
  have hall : (padded width n ++ []).takeWhile Char.isDigit = padded width n :=
    Numeral.takeWhile_digits (fun _ => isDigit_of_mem_padded) nofun
  rwa [List.append_nil] at hall

theorem signed?_padded (width n : Nat) (rest : List Char) :
    year?.signed? (padded width n ++ '-' :: rest) = some (n, '-' :: rest) := by
  rw [year?.signed?, skipBlanks_padded, if_pos rfl]
  apply number?_of_take
  rw [List.take_length]
  exact Numeral.takeWhile_digits (fun _ => isDigit_of_mem_padded) (by rintro _ ⟨⟩; rfl)

theorem year?_chars (year : Int) (rest : List Char) :
    year? (yearChars year ++ '-' :: rest) = some (year, '-' :: rest) := by
  unfold yearChars
  split
  · next h =>
    have hbound : year.toNat < 10 ^ 4 := by omega
    have hnumber := number?_padded (by decide) hbound ('-' :: rest)
    have hskip := skipBlanks_padded 4 year.toNat ('-' :: rest)
    have hyear : (year.toNat : Int) = year := by omega
    obtain ⟨c, ds, hcs, hc⟩ := exists_padded_cons 4 year.toNat
    rw [hcs, List.cons_append] at hnumber hskip ⊢
    rw [year?, hskip]
    split
    · next heq => cases heq; cases hc
    · next heq => cases heq; cases hc
    · rw [hnumber]
      simp [hyear]
  · next h =>
    split
    · next hneg =>
      have hyear : -(year.natAbs : Int) = year := by omega
      generalize year.natAbs = n at hyear ⊢
      simp [year?, skipBlanks_cons, isBlank, signed?_padded, hyear]
    · next hpos =>
      have hyear : (year.natAbs : Int) = year := by omega
      generalize year.natAbs = n at hyear ⊢
      simp [year?, skipBlanks_cons, isBlank, signed?_padded, hyear]

theorem mark?_cons {c : Char} (h : isBlank c = false) (rest : List Char) :
    mark? c (c :: rest) = some rest := by
  simp [mark?, skipBlanks_cons h]

theorem fraction?_padded {width n : Nat} (hwidth : 0 < width) (hnine : width ≤ 9)
    (h : n < 10 ^ width) :
    fraction? ('.' :: (padded width n ++ ['Z'])) = some (10 ^ (9 - width) * n, ['Z']) := by
  have hlength := length_padded hwidth h
  have hdigits : (padded width n ++ ['Z']).takeWhile Char.isDigit = padded width n :=
    Numeral.takeWhile_digits (fun _ => isDigit_of_mem_padded) (by rintro _ ⟨⟩; rfl)
  have htake : (padded width n).take 9 = padded width n :=
    List.take_of_length_le (by omega)
  have hzeros : Nat.ofDigitChars 10 (padded width n ++ List.replicate (9 - width) '0') 0 =
      10 ^ (9 - width) * n := by
    rw [Nat.ofDigitChars_append, Nat.ofDigitChars_replicate_zero, ofDigitChars_padded]
  simp [fraction?, hdigits, htake, hlength, hzeros, padded_ne_nil]

theorem fraction?_chars {n : Nat} (h : n < 1000000000) :
    fraction? (fractionChars n ++ ['Z']) = some (n, ['Z']) := by
  unfold fractionChars
  split
  · next hzero => rw [hzero]; rfl
  split
  · next hmillis =>
    have hbound : n / 1000000 < 10 ^ 3 := by omega
    have hback : 1000000 * (n / 1000000) = n := by omega
    simpa [hback] using fraction?_padded (by decide) (by decide) hbound
  split
  · next hmicros =>
    have hbound : n / 1000 < 10 ^ 6 := by omega
    have hback : 1000 * (n / 1000) = n := by omega
    simpa [hback] using fraction?_padded (by decide) (by decide) hbound
  · have hbound : n < 10 ^ 9 := by omega
    simpa using fraction?_padded (by decide) (by decide) hbound

theorem toUtc_zero {t : Timestamp} (hhour : t.hour < 24) (hminute : t.minute < 60) :
    t.toUtc 0 = t := by
  obtain ⟨year, month, day, hour, minute, second, nanosecond⟩ := t
  dsimp only at hhour hminute
  have hsameDay : ¬(60 * hour + minute - 0 : Int) < 0 ∧ ¬(1440 : Int) ≤ 60 * hour + minute - 0 := by
    omega
  have hback : ((60 * hour + minute - 0 : Int) % 1440).toNat = 60 * hour + minute := by omega
  simp only [toUtc, if_neg hsameDay.1, if_neg hsameDay.2, hback]
  congr 1 <;> omega

theorem ofChars?_chars {t : Timestamp} (ht : t.Valid) : ofChars? t.chars = some t := by
  obtain ⟨-, -, -, hmonth, -, hday, hhour, hminute, hsecond, hnano⟩ := id ht
  have hdays : daysInMonth t.year t.month ≤ 31 := by
    unfold daysInMonth
    repeat' split
    all_goals decide
  have hpair : ∀ {n : Nat}, n < 100 → ∀ rest, number? 2 (padded 2 n ++ rest) = some (n, rest) :=
    fun h => number?_padded (by decide) h
  have hzone : zone? (skipBlanks ['Z']) = some (0, []) := by decide
  have hend : skipBlanks [] = [] := rfl
  have hutc : toUtc ⟨t.year, t.month, t.day, t.hour, t.minute, t.second, t.nanosecond⟩ 0 = t :=
    toUtc_zero hhour hminute
  simp only [chars, List.append_assoc, List.cons_append]
  rw [ofChars?, year?_chars]
  simp [mark?_cons, isBlank, hpair (show t.month < 100 by omega),
    hpair (show t.day < 100 by omega), hpair (show t.hour < 100 by omega),
    hpair (show t.minute < 100 by omega), hpair (show t.second < 100 by omega),
    fraction?_chars hnano, isDateEnd, hzone, hend, hutc, ht]

theorem ofText?_text {t : Timestamp} (ht : t.Valid) : ofText? t.text = some t := by
  rw [ofText?, text, String.toList_ofList, ofChars?_chars ht]

end Multicast.Timestamp
