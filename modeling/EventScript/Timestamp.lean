/-
Instants, and the text they are written in. An instant counts seconds from the start of
1970 in universal time; a second may be a leap second, whose fraction counts on past one
second. Dates are those of the Gregorian calendar, extended in both directions.
-/
import EventScript.Text.Numeral
import EventScript.Text.Split

namespace EventScript

/-- An instant. -/
structure Timestamp where
  seconds : Int
  /-- Billionths of a second; those of a leap second start at a whole billion. -/
  nanos : Nat := 0
deriving DecidableEq, Repr

namespace Timestamp

/-- The start of 1970. -/
def epoch : Timestamp := ⟨0, 0⟩

/-- The instant some milliseconds later. -/
def addMillis (t : Timestamp) (ms : Nat) : Timestamp :=
  let nanos := t.nanos + ms % 1000 * 1000000
  ⟨t.seconds + (ms / 1000 : Nat) + (nanos / 1000000000 : Nat), nanos % 1000000000⟩

-- ================================================================ calendar

/-- A date: its year, month and day. -/
structure Date where
  year : Int
  month : Nat
  day : Nat
deriving DecidableEq, Repr

/-- Whether the year is one of those that are counted. -/
def isYear (year : Int) : Bool := -262143 ≤ year && year ≤ 262142

/-- The days of a month. -/
def daysIn (year : Int) (month : Nat) : Nat :=
  if month = 2 then
    if year % 4 = 0 ∧ (year % 100 ≠ 0 ∨ year % 400 = 0) then 29 else 28
  else if month = 4 ∨ month = 6 ∨ month = 9 ∨ month = 11 then 30
  else 31

/-- Whether the date is in the calendar. -/
def Date.isValid (d : Date) : Bool :=
  1 ≤ d.month && d.month ≤ 12 && 1 ≤ d.day && d.day ≤ daysIn d.year d.month

/-- The days from the start of 1970 to a date. Years are counted from March, so that the
leap day is the last of its year. -/
def Date.toDays (d : Date) : Int :=
  let year := if d.month ≤ 2 then d.year - 1 else d.year
  let month := (d.month + 9) % 12
  let era := year / 400
  let inEra := year % 400
  let inYear : Nat := (153 * month + 2) / 5 + (d.day - 1)
  era * 146097 + (inEra * 365 + inEra / 4 - inEra / 100 + inYear) - 719468

/-- The date some days after the start of 1970. -/
def Date.ofDays (days : Int) : Date :=
  let days := days + 719468
  let era := days / 146097
  let inEra := (days % 146097).toNat
  let year := (inEra - inEra / 1460 + inEra / 36524 - inEra / 146096) / 365
  let inYear := inEra - (365 * year + year / 4 - year / 100)
  let month := (5 * inYear + 2) / 153
  let day := inYear - (153 * month + 2) / 5 + 1
  let shifted := if month < 10 then month + 3 else month - 9
  ⟨era * 400 + year + (if shifted ≤ 2 then 1 else 0), shifted, day⟩

-- ================================================================= writing

/-- A number with at least `width` digits. -/
def padded (width n : Nat) : String :=
  let digits := toString n
  String.ofList (List.replicate (width - digits.length) '0') ++ digits

/-- A year in four digits or more; a sign stands before one that is outside four digits. -/
def yearText (y : Int) : String :=
  if 0 ≤ y ∧ y < 10000 then padded 4 y.toNat
  else if y < 0 then "-" ++ padded 4 y.natAbs
  else "+" ++ padded 4 y.toNat

/-- Hour, minute and second with colons between. -/
def clockText (t : Timestamp) : String :=
  let s := (t.seconds % 86400).toNat
  let leap := if 1000000000 ≤ t.nanos then 1 else 0
  padded 2 (s / 3600) ++ ":" ++ padded 2 (s / 60 % 60) ++ ":" ++ padded 2 (s % 60 + leap)

/-- A fraction in three, six or nine digits, as few as show it whole. -/
def fractionText (nanos : Nat) : String :=
  if nanos = 0 then ""
  else if nanos % 1000000 = 0 then "." ++ padded 3 (nanos / 1000000)
  else if nanos % 1000 = 0 then "." ++ padded 6 (nanos / 1000)
  else "." ++ padded 9 nanos

/-- The instant in universal time. -/
def write (t : Timestamp) : String :=
  let d := Date.ofDays (t.seconds / 86400)
  yearText d.year ++ "-" ++ padded 2 d.month ++ "-" ++ padded 2 d.day ++ "T" ++ t.clockText
    ++ fractionText (t.nanos % 1000000000) ++ "Z"

-- ================================================================= reading

/-- What is left to be read. -/
abbrev Rest := List Char

/-- What follows the blanks in front. -/
def skipBlank (cs : List Char) : Rest := cs.dropWhile Text.isBlank

/-- One to `width` digits, after blanks. -/
def number? (width : Nat) (cs : List Char) : Option (Nat × Rest) :=
  let cs := skipBlank cs
  let digits := (cs.take width).takeWhile Char.isDigit
  (Text.natural? 10 digits).map fun n => (n, cs.drop digits.length)

/-- A year: four digits at most, or any number behind a sign. -/
def year? (cs : List Char) : Option (Int × Rest) :=
  match skipBlank cs with
  | '-' :: rest =>
    if (rest.head?.map Char.isDigit).getD false then
      (number? rest.length rest).map fun (n, r) => (-(n : Int), r)
    else none
  | '+' :: rest =>
    if (rest.head?.map Char.isDigit).getD false then
      (number? rest.length rest).map fun (n, r) => ((n : Int), r)
    else none
  | cs => (number? 4 cs).map fun (n, r) => ((n : Int), r)

/-- The text behind a mark, after blanks. -/
def mark? (c : Char) (cs : List Char) : Option Rest :=
  match skipBlank cs with
  | d :: rest => if c == d then some rest else none
  | [] => none

/-- A fraction behind a point, in billionths; further digits do not count. -/
def fraction? : List Char → Option (Nat × Rest)
  | '.' :: cs =>
    let digits := cs.takeWhile Char.isDigit
    let kept := digits.take 9
    (Text.natural? 10 kept).map fun n =>
      (n * Nat.pow 10 (9 - kept.length), cs.drop digits.length)
  | cs => some (0, cs)

/-- An offset from universal time in seconds: a zero mark, or hours and minutes behind a
sign. -/
def offset? (cs : List Char) : Option (Int × Rest) :=
  let cs := skipBlank cs
  if (cs.take 3).map Char.toLower = ['u', 't', 'c'] then some (0, cs.drop 3)
  else
    let digits? : List Char → Option (Nat × Rest)
      | a :: b :: rest =>
        if a.isDigit && b.isDigit then
          (Text.natural? 10 [a, b]).map fun n => (n, rest)
        else none
      | _ => none
    let duration? (cs : List Char) : Option (Nat × Rest) := do
      let (h, cs) ← digits? cs
      let (m, cs) ← digits? (cs.dropWhile fun c => c == ':' || Text.isBlank c)
      if m < 60 ∧ h < 24 then some (h * 3600 + m * 60, cs) else none
    match cs with
    | 'Z' :: rest => some (0, rest)
    | 'z' :: rest => some (0, rest)
    | '+' :: rest => (duration? rest).map fun (n, r) => ((n : Int), r)
    | '-' :: rest => (duration? rest).map fun (n, r) => (-(n : Int), r)
    | '\u2212' :: rest => (duration? rest).map fun (n, r) => (-(n : Int), r)
    | _ => none

/-- The instant that a date, a time and an offset spell. -/
def parse? (s : String) : Option Timestamp := do
  let (year, cs) ← year? s.toList
  let (month, cs) ← number? 2 (← mark? '-' cs)
  let (day, cs) ← number? 2 (← mark? '-' cs)
  let cs ← match cs with
    | c :: rest => if c == 'T' || c == 't' || c == ' ' then some rest else none
    | [] => none
  let (hour, cs) ← number? 2 cs
  let (minute, cs) ← number? 2 (← mark? ':' cs)
  let (second, cs) ← number? 2 (← mark? ':' cs)
  let (nanos, cs) ← fraction? cs
  let (offset, cs) ← offset? cs
  let date : Date := ⟨year, month, day⟩
  let leap := second = 60
  let inDay := hour * 3600 + minute * 60 + (if leap then 59 else second)
  let seconds := date.toDays * 86400 + inDay - offset
  -- an offset may lead out of the years there are
  if date.isValid && hour < 24 && minute < 60 && second ≤ 60 && cs.all Text.isBlank
      && isYear year && isYear (Date.ofDays (seconds / 86400)).year then
    some ⟨seconds, nanos + (if leap then 1000000000 else 0)⟩
  else none

end Timestamp
end EventScript
