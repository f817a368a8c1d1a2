/-
The `condition` instruction: comparisons joined by "all" or "any", and what to do on either
outcome: go on, run one of two branches, or halt.
-/
import EventScript.Comparison
import EventScript.Globals
import EventScript.Instruction.Decode
import EventScript.Schema

namespace EventScript.Instruction

namespace Condition

/-- One comparison: a variable against a literal. -/
structure Expression where
  variableName : String
  operator : Comparison.Operator
  compareTo : Json

/-- Whether the comparison holds of the variables. -/
def Expression.holds (e : Expression) (g : Globals) : Bool :=
  Comparison.holds (g.getPath? e.variableName) e.operator e.compareTo

/-- The reader of operators. -/
def operator? : Decode.Reader Comparison.Operator :=
  Decode.choice (Comparison.Operator.all.map fun o => (o.sign, o))

/-- An expression has its three fields and no other. -/
def Expression.decode : Decode.Reader Expression :=
  Decode.record "struct Expression"
    [Decode.slot "variable" Decode.text, Decode.slot "operator" operator?,
      Decode.slot "compareTo" Decode.any]
    (fun args => do
      let variableName ← Decode.need args "variable" Decode.text
      let operator ← Decode.need args "operator" operator?
      let compareTo ← Decode.need args "compareTo" Decode.any
      return { variableName, operator, compareTo })
    true

/-- What to do after the comparisons. -/
inductive Directive where
  /-- Run the first branch. -/
  | goto0
  /-- Run the second branch. -/
  | goto1
  | halt
deriving DecidableEq, Repr

namespace Directive

/-- Every directive, in the order in which schemas list them. -/
def all : List Directive := [goto0, goto1, halt]

/-- The name in a program. -/
def name : Directive → String
  | goto0 => "goto_0"
  | goto1 => "goto_1"
  | halt => "halt"

/-- The name in a message. -/
def label : Directive → String
  | goto0 => "Goto0"
  | goto1 => "Goto1"
  | halt => "Halt"

end Directive
end Condition

/-- The comparisons and directives of a condition; its branches stand beside it. -/
structure Condition where
  all : Option (List Condition.Expression)
  any : Option (List Condition.Expression)
  onTrue : Option Condition.Directive
  onFalse : Option Condition.Directive

namespace Condition

/-- The word that calls the instruction. -/
def name : String := "condition"

/-- No argument is needed by itself: that one of the lists of comparisons stands there, and one
only, is not up to the schema. -/
def schema : Schema := ⟨[
  .may "AND" .mappingList [.minItems 1],
  .may "OR" .mappingList [.minItems 1],
  .may "onTrue" .string [.oneOf (Directive.all.map Directive.name)],
  .may "onFalse" .string [.oneOf (Directive.all.map Directive.name)],
  .may "branch_0" .program [.minItems 1],
  .may "branch_1" .program [.minItems 1]]⟩

/-- A condition with the entries of its branches as written. -/
structure Draft where
  condition : Condition
  branch0 : Option (List Json)
  branch1 : Option (List Json)

/-- The reader of directives, by their names. -/
private def directiveNamed : Decode.Reader Directive :=
  Decode.choice (Directive.all.map fun d => (d.name, d))

/-- The draft that arguments describe. The entries of the branches are left as they are written,
and read when the program is compiled. -/
def decode : Decode.Reader Draft :=
  let junction := Decode.listOf Expression.decode
  let entries := Decode.listOf Decode.any
  Decode.record "struct ConditionInstruction"
    [Decode.slot "AND" (Decode.orNull junction), Decode.slot "OR" (Decode.orNull junction),
      Decode.slot "onTrue" (Decode.orNull directiveNamed),
      Decode.slot "onFalse" (Decode.orNull directiveNamed),
      Decode.slot "branch_0" (Decode.orNull entries),
      Decode.slot "branch_1" (Decode.orNull entries)] fun args => do
      let all ← Decode.may args "AND" junction
      let any ← Decode.may args "OR" junction
      let onTrue ← Decode.may args "onTrue" directiveNamed
      let onFalse ← Decode.may args "onFalse" directiveNamed
      let branch0 ← Decode.may args "branch_0" entries
      let branch1 ← Decode.may args "branch_1" entries
      return { condition := { all, any, onTrue, onFalse }, branch0, branch1 }

/-- The outcome of the comparisons. "All" comes before "any"; without either the condition
does not hold. -/
def evaluate (c : Condition) (g : Globals) : Bool :=
  match c.all, c.any with
  | some es, _ => es.all fun e => e.holds g
  | none, some es => es.any fun e => e.holds g
  | none, none => false

/-- The directive for an outcome. -/
def directive? (c : Condition) (outcome : Bool) : Option Directive :=
  if outcome then c.onTrue else c.onFalse

end Condition
end EventScript.Instruction
