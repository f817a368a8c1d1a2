/-
The `set` instruction: a literal value is written to a path.
-/
import EventScript.Instruction.Decode
import EventScript.Instruction.Outcome
import EventScript.Schema

namespace EventScript.Instruction

/-- A variable, or a place inside one, and the value it is to have. -/
structure Assignment where
  variableName : String
  value : Json

namespace Assignment

/-- The word that calls the instruction. -/
def name : String := "set"

/-- Both arguments are needed; the value may be of any kind, null included. -/
def schema : Schema := ⟨[
  .need "variable" .string [.minLength 1],
  .need "value" .any]⟩

/-- The instruction that arguments describe. -/
def decode : Decode.Reader Assignment :=
  Decode.record "struct SetInstruction"
    [Decode.slot "variable" Decode.text, Decode.slot "value" Decode.any] fun args => do
      let variableName ← Decode.need args "variable" Decode.text
      let value ← Decode.need args "value" Decode.any
      return { variableName, value }

/-- What the instruction does: the value is written, and the write is logged before what comes of
it. -/
def run (i : Assignment) (g : Globals) : Outcome :=
  let done := Outcome.write g name i.variableName i.value
  { done with
    log := Log.debug ("set: " ++ i.variableName ++ " = " ++ i.value.compact) :: done.log }

end Assignment
end EventScript.Instruction
