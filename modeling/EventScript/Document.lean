/-
Program documents. A document names a version and a sequence of calls; reading one checks
its shape only, and reports every problem it has at once, in a fixed order: version, name,
description, then the program or its entries by position.
-/
import EventScript.Text.Split
import EventScript.Yaml.Value

namespace EventScript

/-- One statement of a program: an instruction's name and its arguments as written, none
when it was written without. -/
structure Call where
  name : String
  args : Option Json.Object := none

/-- Equality of calls as documents. -/
def Call.same (a b : Call) : Bool :=
  a.name == b.name && match a.args, b.args with
    | none, none => true
    | some a, some b => Json.sameMembers a b
    | _, _ => false

/-- A document whose shape is right. -/
structure Document where
  version : String
  name : Option String := none
  description : Option String := none
  program : List Call

namespace Document

/-- The kinds of problems, as reports show them. -/
inductive Code where
  | invalidYaml
  | missingRequiredField
  | invalidFieldType
  | emptyProgram
deriving DecidableEq, Repr

/-- The code as reports show it. -/
def Code.text : Code → String
  | invalidYaml => "INVALID_YAML"
  | missingRequiredField => "MISSING_REQUIRED_FIELD"
  | invalidFieldType => "INVALID_FIELD_TYPE"
  | emptyProgram => "EMPTY_PROGRAM"

/-- What is wrong with a document. -/
inductive Problem where
  /-- The text is no YAML. -/
  | unreadable (fault : Yaml.Fault)
  | rootNotMapping
  | missing (field : String)
  /-- The field has another kind of value than `expected` says. -/
  | wrongKind (field expected : String)
  | emptyProgram
deriving DecidableEq, Repr

namespace Problem

/-- The code of a problem. A text that is no YAML and a root that is no mapping have the same
one. -/
def code : Problem → Code
  | unreadable _ => .invalidYaml
  | rootNotMapping => .invalidYaml
  | missing _ => .missingRequiredField
  | wrongKind .. => .invalidFieldType
  | emptyProgram => .emptyProgram

/-- The problem in words. -/
def message : Problem → String
  | unreadable fault => fault.message
  | rootNotMapping => "Document root must be a mapping"
  | missing field => "Missing required field '" ++ field ++ "'"
  | wrongKind field expected => "Field '" ++ field ++ "' must be " ++ expected
  | emptyProgram => "Program must contain at least one instruction"

/-- The field a problem is about, when it is about one. -/
def field? : Problem → Option String
  | unreadable _ => none
  | rootNotMapping => none
  | missing field => some field
  | wrongKind field _ => some field
  | emptyProgram => some "program"

/-- A problem on one line, its code first. -/
def display (p : Problem) : String := p.code.text ++ ": " ++ p.message

end Problem

/-- The problems of a document on one line. -/
def displayAll (ps : List Problem) : String := Text.join "; " (ps.map Problem.display)

-- ================================================================ entries

/-- The call an entry stands for: a mapping with one name, and under it nothing or a
mapping. -/
def entryCall (position : Nat) (entry : Json) : Except Problem Call :=
  let field := "program[" ++ toString position ++ "]"
  match entry with
  | .object [(name, .null)] => .ok ⟨name, none⟩
  | .object [(name, .object args)] => .ok ⟨name, some args⟩
  | .object [(name, _)] => .error (.wrongKind (field ++ "." ++ name) "a mapping of arguments")
  | _ => .error (.wrongKind field "a mapping with exactly one instruction name")

/-- The calls of entries that start at `position`, and the problems of those that are
none. -/
def entryCallsFrom (position : Nat) : List Json → List Call × List Problem
  | [] => ([], [])
  | entry :: rest =>
    let (calls, problems) := entryCallsFrom (position + 1) rest
    match entryCall position entry with
    | .ok call => (call :: calls, problems)
    | .error p => (calls, p :: problems)

/-- The calls of a sequence of entries, or every problem among them. -/
def entryCalls (entries : List Json) : Except (List Problem) (List Call) :=
  match entryCallsFrom 0 entries with
  | (calls, []) => .ok calls
  | (_, problems) => .error problems

-- ================================================================= fields

/-- The version: a text that is not blank. -/
def versionOf (root : Json.Object) : Except Problem String :=
  match (root.get? "version").getD .null with
  | .null => .error (.missing "version")
  | .string s => if Text.isAllBlank s then .error (.missing "version") else .ok s
  | _ => .error (.wrongKind "version" "a string")

/-- A text that may be left out. -/
def optionalText (root : Json.Object) (field : String) : Except Problem (Option String) :=
  match (root.get? field).getD .null with
  | .null => .ok none
  | .string s => .ok (some s)
  | _ => .error (.wrongKind field "a string")

/-- The calls of the program. -/
def programOf (root : Json.Object) : Except (List Problem) (List Call) :=
  match (root.get? "program").getD .null with
  | .null => .error [.missing "program"]
  | .array [] => .error [.emptyProgram]
  | .array entries => entryCalls entries
  | _ => .error [.wrongKind "program" "a sequence of instructions"]

/-- The problem of a field as a list. -/
def problemOf {α : Type} : Except Problem α → List Problem
  | .ok _ => []
  | .error p => [p]

/-- The document a value describes, or all its problems. -/
def ofJson : Json → Except (List Problem) Document
  | .object root =>
    let version := versionOf root
    let name := optionalText root "name"
    let description := optionalText root "description"
    let program := programOf root
    match version, name, description, program with
    | .ok version, .ok name, .ok description, .ok program =>
      .ok { version, name, description, program }
    | _, _, _, _ =>
      let inProgram := match program with
        | .ok _ => []
        | .error ps => ps
      .error (problemOf version ++ problemOf name ++ problemOf description ++ inProgram)
  | _ => .error [.rootNotMapping]

/-- The document of a source text. A blank text is an empty document. -/
def parse (source : String) : Except (List Problem) Document :=
  if Text.isAllBlank source then ofJson .null
  else match Yaml.read source with
    | .ok v => ofJson v
    | .error fault => .error [.unreadable fault]

end Document
end EventScript
