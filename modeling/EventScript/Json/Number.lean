/-
JSON numbers. A number is either an integer that fits a signed or an unsigned 64-bit
word, or a finite double; the kind is part of the number, so `1` and `1.0` differ.
The ranges are proof fields: nothing downstream has to ask again.
-/
import EventScript.Decimal.Shortest

namespace EventScript

open Decimal (Binary64)

namespace Json

/-- The integers a JSON number can be. -/
def FitsWord (i : Int) : Prop := -0x8000000000000000 ≤ i ∧ i < 0x10000000000000000

instance (i : Int) : Decidable (FitsWord i) :=
  inferInstanceAs (Decidable (_ ∧ _))

/-- A JSON number. -/
inductive Number where
  | int (value : Int) (fits : FitsWord value)
  | float (value : Binary64) (finite : value.isFinite = true)
deriving DecidableEq

namespace Number

/-- The number of an integer in range. -/
def ofInt? (i : Int) : Option Number :=
  if h : FitsWord i then some (.int i h) else none

/-- The number of a finite double. -/
def ofBinary64? (x : Binary64) : Option Number :=
  if h : x.isFinite = true then some (.float x h) else none

/-- The number as a double, integers rounded to the nearest. -/
def toBinary64 : Number → Binary64
  | int i _ => .ofInt i
  | float x _ => x

/-- Whether the number is kept as an integer; a double that is whole is not. -/
def isInteger : Number → Bool
  | int .. => true
  | float .. => false

/-- Equality of documents: kinds agree, and doubles have the same value. -/
def same : Number → Number → Bool
  | int i _, int j _ => i == j
  | float x _, float y _ => x.sameValue y
  | _, _ => false

/-- The number in the notation of documents. -/
def write : Number → String
  | int i _ => toString i
  | float x _ => Decimal.Layout.document.write x

end Number
end Json
end EventScript
