/-
Decimals in JSON text. A decimal is read as a whole number and a power of ten: as many
leading digits as one unsigned 64-bit word holds, then a single multiplication or division
of doubles. A decimal of a few digits therefore comes out as the nearest double, and a
longer one as a double close to it. What would overflow is refused.
-/
import EventScript.Json.Number

namespace EventScript.Json

open Decimal (Binary64)

/-- A decimal as it stands in the text, its digits as values. -/
structure Literal where
  negative : Bool
  whole : List Nat
  /-- The digits after a point, when there is one. -/
  fraction : Option (List Nat)
  exponent : Option Int

namespace Literal

/-- The leading digits that fit one word after `acc`, and how many digits are left. -/
def pack (acc : Nat) : List Nat → Nat × Nat
  | [] => (acc, 0)
  | d :: rest =>
    if acc * 10 + d < 0x10000000000000000 then pack (acc * 10 + d) rest else (acc, rest.length + 1)

/-- The double nearest to a power of ten. -/
private def tenTo (n : Nat) : Binary64 := .ofDecimal false 1 n

/-- A word times a power of ten. Below `10 ^ -308` the division is done in two steps, and
no word survives a third. -/
def scale (word : Nat) (exponent : Int) : Option Binary64 :=
  let x := Binary64.ofInt word
  if word = 0 then some x
  else if 308 < exponent then none
  else if 0 ≤ exponent then
    some (x.mul (tenTo exponent.toNat)) |>.filter Binary64.isFinite
  else if -308 ≤ exponent then some (x.div (tenTo (-exponent).toNat))
  else if -616 ≤ exponent then some ((x.div (tenTo 308)).div (tenTo (-exponent - 308).toNat))
  else some .zero

/-- The number a literal stands for: an integer when it is written as one and fits. Minus
zero is a double. -/
def number? (l : Literal) : Option Number :=
  let (word, excess) := pack 0 l.whole
  let signed (x : Binary64) : Binary64 := if l.negative then x.neg else x
  match l.fraction, l.exponent with
  | none, none =>
    let i : Int := if l.negative then -(word : Int) else word
    if excess = 0 && !(l.negative && word = 0) && (!l.negative || word ≤ 0x8000000000000000) then
      Number.ofInt? i
    else (scale word excess).bind fun x => Number.ofBinary64? (signed x)
  | fraction, exponent =>
    let digits := fraction.getD []
    let (word, lost) := pack word digits
    let kept := digits.length - lost
    (scale word (excess - kept + exponent.getD 0)).bind fun x => Number.ofBinary64? (signed x)

end Literal
end EventScript.Json
