/-! Decimal and hexadecimal numerals, written with the fewest digits, and the words read from
them. -/
namespace Multicast.Numeral

def decimal (n : Nat) : List Char := Nat.toDigits 10 n

/-- One or more digits; leading zeros count for nothing. -/
def decimal? (cs : List Char) : Option Nat :=
  if cs ≠ [] ∧ cs.all Char.isDigit then some (Nat.ofDigitChars 10 cs 0) else none

@[simp] theorem decimal?_decimal (n : Nat) : decimal? (decimal n) = some n := by
  rw [decimal?, if_pos]
  · exact congrArg some (Nat.ofDigitChars_toDigits (by decide) (by decide))
  · exact ⟨Nat.toDigits_ne_nil, List.all_eq_true.mpr fun _ h =>
      Nat.isDigit_of_mem_toDigits (by decide) (by decide) h⟩

/-- A 32-bit word: an optional plus sign and a decimal numeral. -/
def word? (cs : List Char) : Option UInt32 :=
  let digits := match cs with
    | '+' :: rest => rest
    | _ => cs
  match decimal? digits with
  | some n => if n < UInt32.size then some (UInt32.ofNat n) else none
  | none => none

def decimalText (n : Nat) : String := String.ofList (decimal n)

def hexDigit? (c : Char) : Option Nat :=
  if c.isDigit then some (c.toNat - '0'.toNat)
  else if 'a' ≤ c ∧ c ≤ 'f' then some (c.toNat - 'a'.toNat + 10)
  else if 'A' ≤ c ∧ c ≤ 'F' then some (c.toNat - 'A'.toNat + 10)
  else none

/-- One or more hexadecimal digits of either case. -/
def hex? (cs : List Char) : Option Nat :=
  if cs.isEmpty then none
  else cs.foldlM (fun n c => (hexDigit? c).map (16 * n + ·)) 0

/-- Lower-case digits. -/
def hex (n : Nat) : List Char := Nat.toDigits 16 n

/-- Lower-case digits, with zeros in front up to `width`. -/
def paddedHex (width n : Nat) : List Char := (hex n).leftpad width '0'

end Multicast.Numeral
