/-
Compiled programs. A step is a call bound to what it does: an action, or a condition with
the programs of its branches, which are lists of steps again. Branches nest inside the
type, so everything that walks a program recurses on its structure.
-/
import EventScript.CallStack
import EventScript.Document
import EventScript.Instruction.ArrayAccess
import EventScript.Instruction.Assignment
import EventScript.Instruction.Calculation
import EventScript.Instruction.Condition
import EventScript.Instruction.JobOrder
import EventScript.Instruction.LogNote
import EventScript.Instruction.ObjectAccess
import EventScript.Instruction.SheetRow
import EventScript.Instruction.TemplateText
import EventScript.Instruction.TextTransform
import EventScript.Instruction.VariableReport
import EventScript.Instruction.Webhook
import EventScript.Machine.Status

namespace EventScript

/-- What an instruction from outside the built-in set does in a given situation. -/
structure Reaction where
  globals : Globals
  /-- The category and the message of each event it records. -/
  events : List (String × String) := []
  /-- Whether it asks to halt. -/
  halts : Bool := false
  /-- The error it ends the run with. -/
  error : Option RunError := none

/-- An instruction from outside the built-in set: what it does, given the variables and the
calls being executed. -/
abbrev Hook := Globals → CallStack Call → Reaction

/-- What a call without branches does. -/
inductive Action where
  | array (i : Instruction.ArrayAccess)
  | debug (i : Instruction.VariableReport)
  | log (i : Instruction.LogNote)
  | number (i : Instruction.Calculation)
  | object (i : Instruction.ObjectAccess)
  | queue (i : Instruction.JobOrder)
  | set (i : Instruction.Assignment)
  | spreadsheet (i : Instruction.SheetRow)
  | string (i : Instruction.TextTransform)
  | template (i : Instruction.TemplateText)
  | webhook (i : Instruction.Webhook)
  | hook (run : Hook)

/-- A call bound to what it does. -/
inductive Step where
  | action (call : Call) (action : Action)
  /-- A condition; an absent branch was not written. -/
  | branch (call : Call) (condition : Instruction.Condition)
      (zero one : Option (List Step))

/-- The call as written. -/
def Step.call : Step → Call
  | action call _ => call
  | branch call _ _ _ => call

/-- A compiled program. -/
structure Program where
  steps : List Step

namespace Program

/-- The calls as written. -/
def calls (p : Program) : List Call := p.steps.map Step.call

/-- The number of steps, those in branches not counted. -/
def size (p : Program) : Nat := p.steps.length

/-- Whether there is no step. -/
def isEmpty (p : Program) : Bool := p.steps.isEmpty

/-- Equality of programs: that of their calls. -/
def same (p q : Program) : Bool :=
  p.size == q.size && (p.calls.zip q.calls).all fun (a, b) => a.same b

end Program
end EventScript
