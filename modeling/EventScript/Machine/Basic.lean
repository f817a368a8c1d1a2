/-
The machine that runs a program: the variables, the calls being executed, the events
recorded, and how far the run has come. What lies outside it, a queue, the network, the
log and the clock, is its world; machines that share a world take turns with it.
-/
import EventScript.Cast
import EventScript.JobQueue
import EventScript.Program.Step
import EventScript.Settings

namespace EventScript

/-- What lies outside a machine. -/
structure World where
  queue : JobQueue := .inMemory
  network : Http.Network := .unreachable
  /-- What was logged, in order. -/
  log : List Log.Record := []
  now : Timestamp := .epoch

/-- The state of a machine. -/
structure Machine where
  settings : Settings
  world : World
  program : Option Program := none
  globals : Globals := .empty
  /-- The calls being executed. -/
  stack : CallStack Call := .empty
  /-- The number of programs being walked, the outermost and its branches. -/
  depth : Nat := 0
  halted : Bool := false
  error : Option RunError := none
  status : Status := .idle
  events : List Event := []

namespace Machine

/-- A machine without a program. -/
def new (settings : Settings) (world : World) : Machine := { settings, world }

/-- A machine with a program for a cast; nothing is left of an earlier run. -/
def load (m : Machine) (p : Program) (cast : Cast) : Machine :=
  { new m.settings m.world with
    program := some p
    globals := Globals.empty.set "cast" cast.toJson }

/-- Adds records to the log. -/
def logAll (m : Machine) (records : List Log.Record) : Machine :=
  { m with world := { m.world with log := m.world.log ++ records } }

/-- Adds one record to the log. -/
def log (m : Machine) (record : Log.Record) : Machine := m.logAll [record]

/-- Records an event. -/
def emit (m : Machine) (category message : String) : Machine :=
  { m with events := m.events ++ [⟨category, message, m.world.now⟩] }

/-- Notes whether the program has halted. -/
def halt (m : Machine) (flag : Bool) : Machine := { m with halted := flag }

/-- Notes the error that a run has met. -/
def setError (m : Machine) (e : RunError) : Machine := { m with error := some e }

/-- Whether a walk has to stop. -/
def stopped (m : Machine) : Bool := m.halted || m.error.isSome

/-- The value of a variable. -/
def get? (m : Machine) (name : String) : Option Json := m.globals.get? name

/-- The value a path leads to from a variable on. -/
def getPath? (m : Machine) (path : String) : Option Json := m.globals.getPath? path

/-- The machine with a variable set. -/
def set (m : Machine) (name : String) (value : Json) : Machine :=
  { m with globals := m.globals.set name value }

/-- The machine with a value at a path, unless the path does not lead there. -/
def setPath (m : Machine) (path : String) (value : Json) : Except Path.Error Machine :=
  (m.globals.setPath path value).map fun g => { m with globals := g }

end Machine
end EventScript
