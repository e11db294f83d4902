import Multicast.Numeral

/-! Points of time in UTC: written in the Internet date format, and read from any offset and from
looser spacing. -/
namespace Multicast

/-- A second of 60 is a leap second. -/
structure Timestamp where
  year : Int
  month : Nat
  day : Nat
  hour : Nat
  minute : Nat
  second : Nat
  nanosecond : Nat
  deriving DecidableEq, Repr

namespace Timestamp

def isLeapYear (year : Int) : Bool :=
  year % 4 == 0 && (year % 100 != 0 || year % 400 == 0)

def daysInMonth (year : Int) (month : Nat) : Nat :=
  if month = 2 then (if isLeapYear year then 29 else 28)
  else if month = 4 ∨ month = 6 ∨ month = 9 ∨ month = 11 then 30
  else 31

/-- Years that the calendar covers. -/
def minYear : Int := -262143

def maxYear : Int := 262142

def Valid (t : Timestamp) : Prop :=
  minYear ≤ t.year ∧ t.year ≤ maxYear ∧ 1 ≤ t.month ∧ t.month ≤ 12 ∧ 1 ≤ t.day ∧
    t.day ≤ daysInMonth t.year t.month ∧ t.hour < 24 ∧ t.minute < 60 ∧ t.second ≤ 60 ∧
    t.nanosecond < 1000000000

instance (t : Timestamp) : Decidable t.Valid := by unfold Valid; infer_instance

def nextDay (t : Timestamp) : Timestamp :=
  if t.day < daysInMonth t.year t.month then { t with day := t.day + 1 }
  else if t.month < 12 then { t with month := t.month + 1, day := 1 }
  else { t with year := t.year + 1, month := 1, day := 1 }

def previousDay (t : Timestamp) : Timestamp :=
  if 1 < t.day then { t with day := t.day - 1 }
  else if 1 < t.month then
    { t with month := t.month - 1, day := daysInMonth t.year (t.month - 1) }
  else { t with year := t.year - 1, month := 12, day := 31 }

/-- A local time less its offset from UTC, which is shorter than a day. -/
def toUtc (wall : Timestamp) (offsetMinutes : Int) : Timestamp :=
  let minutes : Int := 60 * wall.hour + wall.minute - offsetMinutes
  let onDay :=
    if minutes < 0 then previousDay wall
    else if 1440 ≤ minutes then nextDay wall
    else wall
  let minutes := (minutes % 1440).toNat
  { onDay with hour := minutes / 60, minute := minutes % 60 }

/-! Writing -/

def padded (width n : Nat) : List Char := (Numeral.decimal n).leftpad width '0'

/-- Years of other than four digits have a sign. -/
def yearChars (year : Int) : List Char :=
  if 0 ≤ year ∧ year ≤ 9999 then padded 4 year.toNat
  else (if year < 0 then '-' else '+') :: padded 4 year.natAbs

/-- No digits, three, six or nine. -/
def fractionChars (nanosecond : Nat) : List Char :=
  if nanosecond = 0 then []
  else if nanosecond % 1000000 = 0 then '.' :: padded 3 (nanosecond / 1000000)
  else if nanosecond % 1000 = 0 then '.' :: padded 6 (nanosecond / 1000)
  else '.' :: padded 9 nanosecond

def chars (t : Timestamp) : List Char :=
  yearChars t.year ++ '-' :: padded 2 t.month ++ '-' :: padded 2 t.day ++ 'T' :: padded 2 t.hour ++
    ':' :: padded 2 t.minute ++ ':' :: padded 2 t.second ++ fractionChars t.nanosecond ++ ['Z']

def text (t : Timestamp) : String := String.ofList t.chars

/-! Reading -/

/-- White space of any script. -/
def isBlank (c : Char) : Bool :=
  let n := c.toNat
  (9 ≤ n && n ≤ 13) || n == 32 || n == 0x85 || n == 0xA0 || n == 0x1680 ||
    (0x2000 ≤ n && n ≤ 0x200A) || n == 0x2028 || n == 0x2029 || n == 0x202F || n == 0x205F ||
    n == 0x3000

def skipBlanks (cs : List Char) : List Char := cs.dropWhile isBlank

/-- One to `width` digits, after blanks. -/
def number? (width : Nat) (cs : List Char) : Option (Nat × List Char) :=
  let cs := skipBlanks cs
  let digits := (cs.take width).takeWhile Char.isDigit
  if digits.isEmpty then none
  else some (Nat.ofDigitChars 10 digits 0, cs.drop digits.length)

/-- Four digits at most, or any number of them after a sign. -/
def year? (cs : List Char) : Option (Int × List Char) :=
  match skipBlanks cs with
  | '-' :: rest => (signed? rest).map fun p => (-(p.1 : Int), p.2)
  | '+' :: rest => (signed? rest).map fun p => ((p.1 : Int), p.2)
  | cs => (number? 4 cs).map fun p => ((p.1 : Int), p.2)
where
  signed? (cs : List Char) : Option (Nat × List Char) :=
    if (skipBlanks cs).length = cs.length then number? cs.length cs else none

/-- A separator, after blanks. -/
def mark? (c : Char) (cs : List Char) : Option (List Char) :=
  match skipBlanks cs with
  | d :: rest => if d = c then some rest else none
  | [] => none

/-- Digits after the ninth are passed over. -/
def fraction? : List Char → Option (Nat × List Char)
  | '.' :: rest =>
    let digits := rest.takeWhile Char.isDigit
    let counted := digits.take 9
    if digits.isEmpty then none
    else some (Nat.ofDigitChars 10 (counted.rightpad 9 '0') 0, rest.drop digits.length)
  | cs => some (0, cs)

/-- Minutes east of UTC. -/
def offset? (cs : List Char) : Option (Int × List Char) :=
  match cs with
  | 'Z' :: rest | 'z' :: rest => some (0, rest)
  | sign :: h :: h' :: rest =>
    if (sign = '+' ∨ sign = '-' ∨ sign = '\u2212') ∧ h.isDigit ∧ h'.isDigit then
      match rest.dropWhile (fun c => c == ':' || isBlank c) with
      | m :: m' :: rest =>
        if m.isDigit ∧ m'.isDigit then
          let hours := Nat.ofDigitChars 10 [h, h'] 0
          let minutes := Nat.ofDigitChars 10 [m, m'] 0
          if hours < 24 ∧ minutes < 60 then
            let total : Int := 60 * hours + minutes
            some (if sign = '+' then total else -total, rest)
          else none
        else none
      | _ => none
    else none
  | _ => none

/-- `UTC` in any case, or an offset. -/
def zone? (cs : List Char) : Option (Int × List Char) :=
  match cs with
  | u :: t :: c :: rest =>
    if u.toUpper = 'U' ∧ t.toUpper = 'T' ∧ c.toUpper = 'C' then some (0, rest) else offset? cs
  | _ => offset? cs

def isDateEnd (c : Char) : Bool := c == 'T' || c == 't' || c == ' '

def ofChars? (cs : List Char) : Option Timestamp := do
  let (year, cs) ← year? cs
  let cs ← mark? '-' cs
  let (month, cs) ← number? 2 cs
  let cs ← mark? '-' cs
  let (day, cs) ← number? 2 cs
  let cs ← match cs with
    | c :: rest => if isDateEnd c then some rest else none
    | [] => none
  let (hour, cs) ← number? 2 cs
  let cs ← mark? ':' cs
  let (minute, cs) ← number? 2 cs
  let cs ← mark? ':' cs
  let (second, cs) ← number? 2 cs
  let (nanosecond, cs) ← fraction? cs
  let (offset, cs) ← zone? (skipBlanks cs)
  let t : Timestamp := ⟨year, month, day, hour, minute, second, nanosecond⟩
  let utc := t.toUtc offset
  if (skipBlanks cs).isEmpty ∧ t.Valid ∧ utc.Valid then some utc else none

def ofText? (s : String) : Option Timestamp := ofChars? s.toList

end Timestamp

end Multicast
