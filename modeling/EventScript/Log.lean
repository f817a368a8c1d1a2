/-
The log. A record has a level and a line of text; levels are ordered from the gravest, and
a reader asks for the records at least as grave as some level.
-/
import EventScript.Text.Case

namespace EventScript

namespace Log

/-- How grave a record is. -/
inductive Level where
  | error
  | warn
  | info
  | debug
deriving DecidableEq, Repr

namespace Level

/-- The place in the order; the gravest is first. -/
def rank : Level → Nat
  | error => 0
  | warn => 1
  | info => 2
  | debug => 3

/-- The level as a line of the log shows it. -/
def name : Level → String
  | error => "ERROR"
  | warn => "WARN"
  | info => "INFO"
  | debug => "DEBUG"

/-- Whether a record of this level is shown to a reader of `threshold`. -/
def shownAt (level threshold : Level) : Bool := level.rank ≤ threshold.rank

end Level

/-- One line of the log. -/
structure Record where
  level : Level
  text : String
deriving DecidableEq, Repr

/-- A record of an error. -/
def error (text : String) : Record := ⟨.error, text⟩

/-- A record of a warning. -/
def warn (text : String) : Record := ⟨.warn, text⟩

/-- A record of information. -/
def info (text : String) : Record := ⟨.info, text⟩

/-- A record for whoever looks for a mistake. -/
def debug (text : String) : Record := ⟨.debug, text⟩

/-- Which records are shown. -/
inductive Filter where
  | nothing
  | upTo (threshold : Level)
deriving DecidableEq, Repr

namespace Filter

/-- The filter that is asked for: a level in any case, or `off`. An empty request is for
errors, and any other is for the records of another program. -/
def ofRequest (s : String) : Filter :=
  match Text.lower s with
  | "" => upTo .error
  | "error" => upTo .error
  | "warn" => upTo .warn
  | "info" => upTo .info
  | "debug" => upTo .debug
  | "trace" => upTo .debug
  | _ => nothing

/-- The filter of a request, or without one the usual one. -/
def choose (verbose : Bool) : Option String → Filter
  | some request => ofRequest request
  | none => upTo (if verbose then .debug else .warn)

/-- Whether the filter lets a record through. -/
def shows : Filter → Record → Bool
  | nothing, _ => false
  | upTo threshold, r => r.level.shownAt threshold

end Filter

end Log
end EventScript
