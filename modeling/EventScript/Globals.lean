/-
The variables of one run. They are the members of an object whose members instructions
read and write by dot paths; that the root is an object is part of the type, so no write
can turn it into anything else.
-/
import EventScript.Json.Path
import EventScript.Json.Printer

namespace EventScript

/-- The variables of one run, by name. -/
structure Globals where
  members : Json.Object := []

namespace Globals

/-- No variables. -/
def empty : Globals := {}

/-- All variables as one value. -/
def root (g : Globals) : Json := .object g.members

/-- The variable of a name. -/
def get? (g : Globals) (name : String) : Option Json := Table.get? name g.members

/-- The value at a path. -/
def getPath? (g : Globals) (path : String) : Option Json := g.root.get? path

/-- The variables with `value` under a name. -/
def set (g : Globals) (name : String) (value : Json) : Globals :=
  ⟨Table.insert name value g.members⟩

/-- The variables a value holds, when it is an object. -/
def ofRoot? : Json → Option Globals
  | .object members => some ⟨members⟩
  | _ => none

/-- The variables with the value at a path exchanged, when there is one. -/
def overwrite (g : Globals) (path : String) (value : Json) : Globals :=
  ((g.root.overwrite? path value).bind ofRoot?).getD g

/-- The variables with `value` at a path, whose parents have to exist. -/
def setPath (g : Globals) (path : String) (value : Json) : Except Path.Error Globals :=
  match g.root.assign path value with
  | .ok (_, root) => .ok ((ofRoot? root).getD g)
  | .error e => .error e

/-- The number of variables. -/
def size (g : Globals) : Nat := g.members.length

/-- Whether no variable is set. -/
def isEmpty (g : Globals) : Bool := g.members.isEmpty

/-- The variables for reading, one a line. -/
def display (g : Globals) : String :=
  g.members.foldl (fun s (name, v) => s ++ "  " ++ name ++ " = " ++ v.compact ++ "\n")
    "Globals:\n"

end Globals
end EventScript
