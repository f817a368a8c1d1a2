/-
Comparisons of a variable with a literal. Two texts compare by their characters, two
booleans with false first, and amounts as amounts, where a text counts as an amount when
the other side is a number. Any other pair has no order: it is equal when the documents
are the same, and an absent variable is null.
-/
import EventScript.Numeric.Basic

namespace EventScript

namespace Comparison

/-- The comparisons a program may ask for. -/
inductive Operator where
  | greater
  | greaterEqual
  | lessEqual
  | less
  | equal
  | notEqual
deriving DecidableEq, Repr

namespace Operator

/-- Every operator, in the order in which messages list them. -/
def all : List Operator := [greater, greaterEqual, lessEqual, less, equal, notEqual]

/-- The sign in a program. -/
def sign : Operator → String
  | greater => ">"
  | greaterEqual => ">="
  | lessEqual => "<="
  | less => "<"
  | equal => "="
  | notEqual => "!="

/-- Whether the comparison holds of two sides in this order. -/
def holdsOf : Operator → Ordering → Bool
  | greater, .gt => true
  | greaterEqual, .gt => true
  | greaterEqual, .eq => true
  | lessEqual, .lt => true
  | lessEqual, .eq => true
  | less, .lt => true
  | equal, .eq => true
  | notEqual, .lt => true
  | notEqual, .gt => true
  | _, _ => false

end Operator

/-- The order of two amounts held by values. -/
def amountOrder? (a b : Json) : Option Ordering :=
  match Numeric.ofJson? a, Numeric.ofJson? b with
  | some x, some y => x.compare? y
  | _, _ => none

/-- The order of two values, when they have one. -/
def order? : Json → Json → Option Ordering
  | .string a, .string b => some (compare a b)
  | .bool a, .bool b => some (compare a b)
  | .number a, .number b => amountOrder? (.number a) (.number b)
  | .number a, .string b => amountOrder? (.number a) (.string b)
  | .string a, .number b => amountOrder? (.string a) (.number b)
  | _, _ => none

/-- Whether `operator` holds between a variable, absent or not, and a literal. -/
def holds (actual : Option Json) (operator : Operator) (expected : Json) : Bool :=
  let actual := actual.getD .null
  match order? actual expected with
  | some order => operator.holdsOf order
  | none => match operator with
    | .equal => actual.same expected
    | .notEqual => !actual.same expected
    | _ => false

end Comparison
end EventScript
