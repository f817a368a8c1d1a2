/-
Amounts. Chain events give amounts as JSON numbers or as text, decimal or hexadecimal, so
a variable is read as an amount from either. An amount is an exact integer of at most 128
bits or a double; `toJson?` and `ofJson?` are the two directions of the passage through a
variable.
-/
import EventScript.Decimal.Literal
import EventScript.Json.Printer
import EventScript.Text.Numeral
import EventScript.Text.Split

namespace EventScript

open Decimal (Binary64)

/-- The integers kept exact: those of 128 bits with a sign. -/
def FitsExact (i : Int) : Prop :=
  -0x80000000000000000000000000000000 ≤ i ∧ i < 0x80000000000000000000000000000000

instance (i : Int) : Decidable (FitsExact i) :=
  inferInstanceAs (Decidable (_ ∧ _))

/-- An amount. -/
inductive Numeric where
  | int (value : Int) (fits : FitsExact value)
  | float (value : Binary64)
deriving DecidableEq

namespace Numeric

/-- The exact amount, when the integer is in range. -/
def ofInt? (i : Int) : Option Numeric :=
  if h : FitsExact i then some (.int i h) else none

/-- What a number can keep is within 128 bits. -/
theorem fitsExact_of_fitsWord {i : Int} (h : Json.FitsWord i) : FitsExact i := by
  unfold Json.FitsWord at h
  unfold FitsExact
  omega

/-- Every JSON number is an amount. -/
def ofNumber : Json.Number → Numeric
  | .int i h => .int i (fitsExact_of_fitsWord h)
  | .float x _ => .float x

/-- The amount a text spells: after trimming, hexadecimal digits behind `0x`, or a decimal
integer, or a decimal that is finite as a double. A decimal integer out of range counts as
a decimal. -/
def parse? (text : String) : Option Numeric :=
  match Text.trimmed text.toList with
  | [] => none
  | '0' :: 'x' :: digits => (Text.signed? 16 digits).bind ofInt?
  | '0' :: 'X' :: digits => (Text.signed? 16 digits).bind ofInt?
  | cs => ((Text.signed? 10 cs).bind ofInt?).orElse fun _ =>
      ((Decimal.literal? cs).filter Binary64.isFinite).map .float

/-- The amount a value holds. -/
def ofJson? : Json → Option Numeric
  | .number n => some (ofNumber n)
  | .string s => parse? s
  | _ => none

/-- The amount as a double; an integer is rounded to the nearest one. -/
def toBinary64 : Numeric → Binary64
  | int i _ => .ofInt i
  | float x => x

/-- The integer part, when it is in range. -/
def truncate? : Numeric → Option Int
  | int i _ => some i
  | float x =>
    if x.isFinite && x.magnitude < 1 <<< (127 + Binary64.unitShift) then some x.truncate
    else none

/-- How two amounts compare: integers exactly, any other pair as doubles. -/
def compare? : Numeric → Numeric → Option Ordering
  | int a _, int b _ => some (compare a b)
  | a, b => a.toBinary64.compare? b.toBinary64

/-- The value that keeps an amount in a variable: an integer beyond the number range as its
decimal text, and nothing for a double that is not finite. -/
def toJson? : Numeric → Option Json
  | int i _ => some (Json.ofInt i)
  | float x => (Json.Number.ofBinary64? x).map .number

end Numeric
end EventScript
