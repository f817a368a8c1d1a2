/-
Walking a program. A walk performs its steps in order on one machine and stops after a step
that halts the machine or fails; a branch is a walk inside the step of its condition, one
level deeper. The three functions follow the nesting of steps, so they end for every
program.
-/
import EventScript.Machine.Action

namespace EventScript

namespace Machine

/-- Evaluates a condition: the directive that its outcome selects. -/
def decide (m : Machine) (c : Instruction.Condition) :
    Option Instruction.Condition.Directive × Machine :=
  let outcome := c.evaluate m.globals
  let directive := c.directive? outcome
  let label := match directive with
    | some d => "Some(" ++ d.label ++ ")"
    | none => "None"
  (directive, m.log (Log.debug ("condition evaluated to "
    ++ (if outcome then "true" else "false") ++ ", directive " ++ label)))

/-- The machine when a step with this call starts. -/
def begin (m : Machine) (call : Call) : Machine :=
  { m.log (Log.debug ("[" ++ toString m.stack.size ++ "] " ++ call.name)) with
    stack := m.stack.push call }

/-- The machine when a step with this call has ended; an error is recorded. -/
def finish (m : Machine) (call : Call) (error : Option RunError) : Machine :=
  let m := { m with stack := m.stack.pop }
  match error with
  | none => m
  | some e =>
    (m.log (Log.error ("Instruction '" ++ call.name ++ "' failed: " ++ e.message))).setError e

/-- Whether another walk would go beyond the limit on nesting. -/
def atLimit (m : Machine) : Bool := m.settings.branchLimit < m.depth

end Machine

mutual

/-- What a step does: the machine afterwards, and the error that ends the run. -/
def Step.perform : Step → Machine → Machine × Option RunError
  | .action _ a, m => a.perform m
  | .branch _ condition zero one, m =>
    match m.decide condition with
    | (none, m) => (m, none)
    | (some .halt, m) => ((m.log (Log.info "condition: halting program")).halt true, none)
    | (some .goto0, m) => Step.enter? zero m
    | (some .goto1, m) => Step.enter? one m

/-- Walks a branch, when it is there, unless it would be nested too deep. -/
def Step.enter? : Option (List Step) → Machine → Machine × Option RunError
  | none, m => (m, none)
  | some steps, m =>
    if m.atLimit then (m, some (.tooDeep m.settings.branchLimit))
    else
      let m := Step.walk steps { m with depth := m.depth + 1 }
      ({ m with depth := m.depth - 1 }, none)

/-- Performs steps in order until one halts the machine or fails. -/
def Step.walk : List Step → Machine → Machine
  | [], m => m
  | step :: rest, m =>
    let (m, error) := Step.perform step (m.begin step.call)
    let m := m.finish step.call error
    if m.stopped then m else Step.walk rest m

end

namespace Machine

/-- Walks a program on the machine as it is. -/
def runSteps (m : Machine) (steps : List Step) : Machine × Option RunError :=
  Step.enter? (some steps) m

/-- The end of a run that nothing else is to follow. -/
def endStatus (m : Machine) : Status :=
  if m.error.isSome then .errored else if m.halted then .halted else .completed

/-- The machine about to run: the event is a variable, and the run is under way. -/
def start (m : Machine) (p : Program) (event : Option Json) : Machine :=
  let m := match event with
    | some v => m.set "event" v
    | none => m
  { m with status := .running }.log
    (Log.info ("Executing program of " ++ toString p.size ++ " instructions"))

/-- The machine after a run. -/
def conclude (m : Machine) (error : Option RunError) : Machine :=
  let m := match error with
    | some e => m.setError e
    | none => m
  let status := m.endStatus
  { m with status }.log (Log.info ("Program finished: " ++ status.name))

/-- Runs the program on an event: how the run ended, and the machine afterwards. Only an
idle machine with a program runs; any other stays as it is. -/
def execute (m : Machine) (event : Option Json) : Except RunError Status × Machine :=
  if m.status ≠ .idle then (.error (.invalidState m.status), m)
  else match m.program with
    | none => (.error .noProgram, m)
    | some p =>
      let (m, error) := (m.start p event).runSteps p.steps
      let m := m.conclude error
      match m.error with
      | some e => (.error e, m)
      | none => (.ok m.status, m)

end Machine
end EventScript
