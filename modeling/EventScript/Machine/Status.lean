/-
How far a run has come, and the errors that end it.
-/

namespace EventScript

/-- The life of a run: idle, then running, then one of three ends. -/
inductive Status where
  | idle
  | running
  /-- An instruction asked to halt. -/
  | halted
  /-- Every instruction ran. -/
  | completed
  /-- An instruction failed. -/
  | errored
deriving DecidableEq, Repr

namespace Status

/-- Every status. -/
def all : List Status := [idle, running, halted, completed, errored]

/-- The status in a word. -/
def name : Status → String
  | idle => "idle"
  | running => "running"
  | halted => "halted"
  | completed => "completed"
  | errored => "errored"

/-- Whether the run has ended. -/
def isFinished : Status → Bool
  | idle => false
  | running => false
  | halted => true
  | completed => true
  | errored => true

end Status

/-- Why a run does not start or does not reach its end. -/
inductive RunError where
  | noProgram
  /-- The program has been run, or is running. -/
  | invalidState (status : Status)
  /-- A branch is nested deeper than the limit. -/
  | tooDeep (limit : Nat)
deriving DecidableEq, Repr

/-- The error in words. -/
def RunError.message : RunError → String
  | noProgram => "No program loaded"
  | invalidState status =>
    "Cannot execute from state '" ++ status.name ++ "'; load the program again"
  | tooDeep limit => "Maximum branch depth " ++ toString limit ++ " exceeded"

end EventScript
