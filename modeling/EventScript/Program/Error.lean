/-
Why a program does not compile. An error names a call by its position; an error inside a
branch is wrapped in the error of the condition that holds the branch, so the wrapping is
the way to the call at fault.
-/
import EventScript.Document
import EventScript.Instruction.Decode
import EventScript.Schema

namespace EventScript

/-- What is wrong with the arguments of a call taken by themselves. -/
inductive Defect where
  /-- They do not fit the schema. -/
  | schema (fault : Schema.Fault)
  /-- They fit the schema and yet make no configuration. -/
  | undecodable (mismatch : Decode.Mismatch)
  /-- A condition has neither kind of comparisons, or both. -/
  | junction
  /-- A calculation has its second amount twice. -/
  | twoOperands
  /-- A calculation has no second amount. -/
  | noOperand
deriving DecidableEq

/-- The defect in words. -/
def Defect.message : Defect → String
  | schema fault => fault.message
  | undecodable mismatch => mismatch.message
  | junction => "exactly one of AND or OR is required"
  | twoOperands => "operand and operandVariable are mutually exclusive"
  | noOperand => "operand or operandVariable is required"

mutual

/-- Why the arguments of a call are refused. -/
inductive ArgsError where
  | defect (defect : Defect)
  /-- Entries of a branch are no calls. -/
  | entries (branch : String) (problems : List Document.Problem)
  | tooDeep (branch : String) (limit : Nat)
  /-- The program of a branch does not compile. -/
  | nested (branch : String) (source : CompileError)

/-- Why a call does not compile. -/
inductive CompileError where
  | unknown (position : Nat) (name : String)
  | invalid (position : Nat) (name : String) (reason : ArgsError)

end

mutual

/-- The error in words: what is wrong inside a branch is told behind the name of the branch. -/
def ArgsError.message : ArgsError → String
  | .defect d => d.message
  | .entries branch problems => branch ++ ": " ++ Document.displayAll problems
  | .tooDeep branch limit =>
    branch ++ " is nested deeper than the maximum of " ++ toString limit
  | .nested branch source => branch ++ ": " ++ CompileError.message source

/-- The error in words, with the place and the name of the call it is about. -/
def CompileError.message : CompileError → String
  | .unknown position name =>
    "Unknown instruction '" ++ name ++ "' at position " ++ toString position
  | .invalid position name reason =>
    "Invalid arguments for '" ++ name ++ "' at position " ++ toString position ++ ": "
      ++ ArgsError.message reason

end

/-- Why a source is no program. -/
inductive ProgramError where
  | parse (problems : List Document.Problem)
  | compile (error : CompileError)

/-- The error in words, with all problems where the text is no document. -/
def ProgramError.message : ProgramError → String
  | parse problems => Document.displayAll problems
  | compile error => error.message

end EventScript
