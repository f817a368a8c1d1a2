/-
What a transform leaves behind. A transform reads a variable, computes a result and writes
it to its output path; it never stops a program. When there is no result, or the output
cannot be written, it says so in the log, and nothing is written.
-/
import EventScript.Globals
import EventScript.Log

namespace EventScript.Instruction

/-- The variables after a transform, and what it logged. -/
structure Outcome where
  globals : Globals
  log : List Log.Record := []

/-- Why a transform has no result for its variable. -/
inductive Shortfall where
  /-- The variable's path leads nowhere. -/
  | unresolved
  /-- The variable is not what the transform works on. -/
  | notOfKind (kind : String)
  /-- There is nothing to take. -/
  | nothing (operation : String)
  | noKey (key : String)
  | untruncatable
  | operandNotNumeric
  | notFinite (operation : String)
  | divisionByZero
  /-- The text does not convert. -/
  | inapplicable (operation : String)
deriving DecidableEq, Repr

/-- A shortfall in words. -/
def Shortfall.message (variableName : String) : Shortfall → String
  | unresolved => "variable '" ++ variableName ++ "' not found"
  | notOfKind kind => "'" ++ variableName ++ "' is not " ++ kind
  | nothing operation => operation ++ " produced nothing for '" ++ variableName ++ "'"
  | noKey key => "key '" ++ key ++ "' not found in '" ++ variableName ++ "'"
  | untruncatable => "'" ++ variableName ++ "' cannot be truncated"
  | operandNotNumeric => "operand for '" ++ variableName ++ "' is not numeric"
  | notFinite operation => operation ++ " of '" ++ variableName ++ "' is not finite"
  | divisionByZero => "division by zero for '" ++ variableName ++ "'"
  | inapplicable operation => "cannot apply " ++ operation ++ " to '" ++ variableName ++ "'"

namespace Outcome

/-- The outcome of writing a value to an output path. -/
def write (g : Globals) (instruction output : String) (value : Json) : Outcome :=
  match g.setPath output value with
  | .ok g => ⟨g, []⟩
  | .error e => ⟨g, [Log.warn
      (instruction ++ ": cannot write output '" ++ output ++ "': " ++ e.message)]⟩

/-- The outcome of a transform that starts from the variables `g` and ends with a result
and the variables to write it to, or with a shortfall. -/
def ofResult (g : Globals) (instruction variableName output : String) :
    Except Shortfall (Json × Globals) → Outcome
  | .ok (value, g) => write g instruction output value
  | .error s => ⟨g, [Log.warn (instruction ++ ": " ++ s.message variableName)]⟩

end Outcome
end EventScript.Instruction
