/-
Settings shared by every run, with their defaults and the environment variables that
change them.
-/
import EventScript.Event
import EventScript.Http.Delivery

namespace EventScript

/-- The settings of a run. -/
structure Settings where
  /-- The deepest nesting of branches. -/
  branchLimit : Nat := 16
  /-- How long a request may take, in seconds. -/
  timeout : Nat := 10
  /-- The attempts allowed after the first. -/
  retries : Nat := 2
  /-- The wait before the first of them, in milliseconds. -/
  backoff : Nat := 200
  /-- Where rows are appended. -/
  sheetsBase : String := "https://sheets.googleapis.com"
  format : OutputFormat := .pretty
deriving DecidableEq, Repr

namespace Settings

/-- How requests are sent again. -/
def retryPolicy (s : Settings) : Http.RetryPolicy := ⟨s.retries, s.backoff⟩

/-- A variable whose value does not fit. -/
structure Fault where
  key : String
  value : String
deriving DecidableEq, Repr

/-- The fault in words. -/
def Fault.message (f : Fault) : String := "Invalid value '" ++ f.value ++ "' for " ++ f.key

/-- The variables of a process, by name. -/
abbrev Environment := List (String × String)

/-- The names of the variables that matter. -/
def variableNames : List String := [
  "CAST_VM_MAX_BRANCH_DEPTH", "CAST_VM_HTTP_TIMEOUT_SECS", "CAST_VM_HTTP_RETRIES",
  "CAST_VM_RETRY_BACKOFF_MS", "CAST_VM_SHEETS_API_BASE", "CAST_VM_LOG_FORMAT"]

/-- A variable as `read` understands it without the blanks around it; its default when it
is not set. -/
def valueOf {α : Type} (env : Environment) (key : String) (read : String → Option α)
    (default : α) : Except Fault α :=
  match env.lookup key with
  | none => .ok default
  | some raw => match read (Text.trim raw) with
    | some a => .ok a
    | none => .error ⟨key, raw⟩

/-- A number below a limit. -/
private def below (limit : Nat) (s : String) : Option Nat :=
  Text.unsignedBelow? limit s.toList

/-- The settings of an environment. -/
def ofEnvironment (env : Environment) : Except Fault Settings := do
  let d : Settings := {}
  let word64 := below 0x10000000000000000
  let word32 := below 0x100000000
  let branchLimit ← valueOf env "CAST_VM_MAX_BRANCH_DEPTH" word64 d.branchLimit
  let timeout ← valueOf env "CAST_VM_HTTP_TIMEOUT_SECS" word64 d.timeout
  let retries ← valueOf env "CAST_VM_HTTP_RETRIES" word32 d.retries
  let backoff ← valueOf env "CAST_VM_RETRY_BACKOFF_MS" word64 d.backoff
  let sheetsBase := (env.lookup "CAST_VM_SHEETS_API_BASE").getD d.sheetsBase
  let format ← valueOf env "CAST_VM_LOG_FORMAT"
    (fun s => (OutputFormat.parse s).toOption) d.format
  return { branchLimit, timeout, retries, backoff, sheetsBase, format }

end Settings
end EventScript
