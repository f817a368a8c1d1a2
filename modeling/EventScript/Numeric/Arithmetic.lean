/-
Arithmetic on amounts. A result is exact when both sides are integers and the result is an
integer in range; in every other case it is computed in doubles. Only a division by zero
has no result.
-/
import EventScript.Numeric.Basic

namespace EventScript

namespace Numeric

/-- The operations of the `number` instruction. -/
inductive Operation where
  | add
  | subtract
  | multiply
  | divide
  | pow
  | bigint
deriving DecidableEq, Repr

namespace Operation

/-- Every operation, in the order in which schemas list them. -/
def all : List Operation := [add, subtract, multiply, divide, pow, bigint]

/-- The name in a program. -/
def name : Operation → String
  | add => "add"
  | subtract => "subtract"
  | multiply => "multiply"
  | divide => "divide"
  | pow => "pow"
  | bigint => "bigint"

/-- The name in a message. -/
def label : Operation → String
  | add => "Add"
  | subtract => "Subtract"
  | multiply => "Multiply"
  | divide => "Divide"
  | pow => "Pow"
  | bigint => "Bigint"

/-- Whether the operation takes a second amount. -/
def isBinary : Operation → Bool
  | bigint => false
  | _ => true

end Operation

/-- An integer power unless it is certain to leave the range: a base of two or more with an
exponent above 127 does. -/
def intPow? (a : Int) (n : Nat) : Option Int :=
  if n ≤ 127 then some (Int.pow a n)
  else if a = 0 then some 0
  else if a = 1 then some 1
  else if a = -1 then some (if n % 2 = 0 then 1 else -1)
  else none

/-- The integer result of an operation on integers, in range or not. A quotient has to be
whole, an exponent an unsigned 32-bit word. -/
def exactResult? (op : Operation) (a b : Int) : Option Int :=
  match op with
  | .add => some (a + b)
  | .subtract => some (a - b)
  | .multiply => some (a * b)
  | .divide => if b ≠ 0 ∧ a.tmod b = 0 then some (a.tdiv b) else none
  | .pow => if 0 ≤ b ∧ b < 0x100000000 then intPow? a b.toNat else none
  | .bigint => none

/-- The exact result, when there is one in range. -/
def precise? (op : Operation) : Numeric → Numeric → Option Numeric
  | int a _, int b _ => (exactResult? op a b).bind ofInt?
  | _, _ => none

/-- The result in doubles. -/
def inexact (op : Operation) (a b : Decimal.Binary64) : Decimal.Binary64 :=
  match op with
  | .add => a.add b
  | .subtract => a.sub b
  | .multiply => a.mul b
  | .divide => a.div b
  | .pow => a.pow b
  | .bigint => a

/-- The result of an operation; none for a division by either zero. -/
def apply (op : Operation) (a b : Numeric) : Option Numeric :=
  if op = .divide && b.toBinary64.sameValue .zero then none
  else some ((precise? op a b).getD (.float (inexact op a.toBinary64 b.toBinary64)))

end Numeric
end EventScript
