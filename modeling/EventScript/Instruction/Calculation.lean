/-
The `number` instruction: arithmetic on amounts. The first amount is a variable, the second
a literal or another variable.
-/
import EventScript.Instruction.Decode
import EventScript.Instruction.Outcome
import EventScript.Numeric.Arithmetic
import EventScript.Schema

namespace EventScript.Instruction

/-- An amount in a variable, the operation, and its operand: a value, or the variable that has
it. -/
structure Calculation where
  variableName : String
  operation : Numeric.Operation
  operand : Option Json
  operandVariable : Option String
  output : String

namespace Calculation

open Numeric (Operation)

/-- The word that calls the instruction. -/
def name : String := "number"

/-- The amount, the operation and the output are needed. Which of the operands is there is not up
to the schema. -/
def schema : Schema := ⟨[
  .need "variable" .string [.minLength 1],
  .need "transform" .string [.oneOf (Operation.all.map Operation.name)],
  .may "operand" .any,
  .may "operandVariable" .string [.minLength 1],
  .need "output" .string [.minLength 1]]⟩

/-- The reader of operations, by their names. -/
private def operation? : Decode.Reader Operation :=
  Decode.choice (Operation.all.map fun o => (o.name, o))

/-- The instruction that arguments describe, its operands as they are given. -/
def decode : Decode.Reader Calculation :=
  Decode.record "struct NumberInstruction"
    [Decode.slot "variable" Decode.text, Decode.slot "transform" operation?,
      Decode.slot "operand" Decode.any,
      Decode.slot "operandVariable" (Decode.orNull Decode.text),
      Decode.slot "output" Decode.text] fun args => do
      let variableName ← Decode.need args "variable" Decode.text
      let operation ← Decode.need args "transform" operation?
      let operand ← Decode.may args "operand" Decode.any
      let operandVariable ← Decode.may args "operandVariable" Decode.text
      let output ← Decode.need args "output" Decode.text
      return { variableName, operation, operand, operandVariable, output }

/-- The second amount; a literal comes before a variable. -/
def operandIn (i : Calculation) (g : Globals) : Option Numeric :=
  match i.operand, i.operandVariable with
  | some literal, _ => Numeric.ofJson? literal
  | none, some path => (g.getPath? path).bind Numeric.ofJson?
  | none, none => none

/-- The value computed from the first amount. -/
def compute (i : Calculation) (g : Globals) (input : Numeric) : Except Shortfall Json :=
  if i.operation = .bigint then
    match input.truncate? with
    | some n => .ok (.string (toString n))
    | none => .error .untruncatable
  else match i.operandIn g with
    | none => .error .operandNotNumeric
    | some operand => match Numeric.apply i.operation input operand with
      | none => .error .divisionByZero
      | some amount => match amount.toJson? with
        | some v => .ok v
        | none => .error (.notFinite i.operation.label)

/-- What the instruction yields; the variables stay as they are. -/
def result (i : Calculation) (g : Globals) : Except Shortfall (Json × Globals) :=
  match g.getPath? i.variableName with
  | none => .error .unresolved
  | some v => match Numeric.ofJson? v with
    | none => .error (.notOfKind "numeric")
    | some input => (i.compute g input).map fun v => (v, g)

/-- What the instruction does: the result is stored where there is one, else it is logged what
was lacking. -/
def run (i : Calculation) (g : Globals) : Outcome :=
  Outcome.ofResult g name i.variableName i.output (i.result g)

end Calculation
end EventScript.Instruction
