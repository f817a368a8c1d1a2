/-
The `debug` instruction: the values of some variables, each as one message.
-/
import EventScript.Globals
import EventScript.Instruction.Decode
import EventScript.Schema

namespace EventScript.Instruction

/-- The paths whose values are told as events. -/
structure VariableReport where
  paths : List String

namespace VariableReport

/-- The word that calls the instruction. -/
def name : String := "debug"

/-- At least one path is needed. -/
def schema : Schema := ⟨[.need "variablesToDebug" .stringList [.minItems 1]]⟩

/-- The instruction that arguments describe. -/
def decode : Decode.Reader VariableReport :=
  Decode.record "struct DebugInstruction"
    [Decode.slot "variablesToDebug" (Decode.listOf Decode.text)] fun args => do
      let paths ← Decode.need args "variablesToDebug" (Decode.listOf Decode.text)
      return { paths }

/-- The message about one path; what cannot be reached is null. -/
def message (g : Globals) (path : String) : String :=
  path ++ " = " ++ ((g.getPath? path).getD .null).compact

/-- The messages, in the order of the paths. -/
def messages (i : VariableReport) (g : Globals) : List String := i.paths.map (message g)

end VariableReport
end EventScript.Instruction
