/-
Argument schemas. A schema lists the fields an instruction takes, each with a kind and
constraints, and `check?` finds the first fault of an argument mapping: a name the schema
does not declare, then field by field in the order of declaration whether it is there, of
its kind, and within its constraints. A null counts as absent.
-/
import EventScript.Json.Printer
import EventScript.Text.Split

namespace EventScript

open Decimal (Binary64)

namespace Schema

/-- The shape of an argument. -/
inductive Kind where
  | string
  | number
  | integer
  | boolean
  | any
  | stringList
  | stringMap
  | mappingList
  /-- A nested program: a sequence of mappings with one name each. -/
  | program
deriving DecidableEq, Repr

namespace Kind

/-- Every kind. -/
def all : List Kind :=
  [string, number, integer, boolean, any, stringList, stringMap, mappingList, program]

/-- The name in a listing of schemas. -/
def name : Kind → String
  | string => "string"
  | number => "number"
  | integer => "integer"
  | boolean => "boolean"
  | any => "any"
  | stringList => "string_list"
  | stringMap => "string_map"
  | mappingList => "mapping_list"
  | program => "program"

/-- The name in a message. -/
def description : Kind → String
  | string => "a string"
  | number => "a number"
  | integer => "an integer"
  | boolean => "a boolean"
  | any => "any value"
  | stringList => "a list of strings"
  | stringMap => "a mapping of strings"
  | mappingList => "a list of mappings"
  | program => "a list of instructions"

/-- Whether a value has one member, as an entry of a program does. -/
def isEntry : Json → Bool
  | .object [_] => true
  | _ => false

/-- Whether a value is of the kind. -/
def accepts : Kind → Json → Bool
  | string, .string _ => true
  | number, .number _ => true
  | integer, .number n => n.isInteger
  | boolean, .bool _ => true
  | any, _ => true
  | stringList, .array items => items.all Json.isString
  | stringMap, .object members => members.all fun m => m.2.isString
  | mappingList, .array items => items.all Json.isObject
  | program, .array items => items.all isEntry
  | _, _ => false

end Kind

/-- A restriction on an argument of the right kind. -/
inductive Constraint where
  /-- A text has at least so many characters. -/
  | minLength (n : Nat)
  /-- A sequence or mapping has at least so many items. -/
  | minItems (n : Nat)
  /-- A text is one of these. -/
  | oneOf (allowed : List String)
  /-- A number lies between these, ends included. -/
  | range (low high : Binary64)
deriving DecidableEq, Repr

/-- How an argument violates a restriction. -/
inductive Violation where
  | tooShort (least : Nat)
  | tooFew (least : Nat)
  | notOneOf (allowed : List String) (got : String)
  | outOfRange (low high : Binary64)
  | notNumeric
deriving DecidableEq, Repr

/-- The violation in words, to stand behind the name of the argument. -/
def Violation.message : Violation → String
  | tooShort n => "must be at least " ++ toString n ++ " characters"
  | tooFew n => "must contain at least " ++ toString n ++ " items"
  | notOneOf allowed got =>
    "must be one of " ++ Text.join ", " allowed ++ ", got '" ++ got ++ "'"
  | outOfRange low high =>
    "must be between " ++ Decimal.Layout.plain.write low ++ " and "
      ++ Decimal.Layout.plain.write high
  | notNumeric => "must be numeric"

/-- Whether `x` is less than `y`; nothing is less than, or more than, a NaN. -/
def less (x y : Binary64) : Bool := x.compare? y == some .lt

/-- The violation of a constraint by a value. Constraints say nothing about values of
other types than theirs. -/
def Constraint.violation? : Constraint → Json → Option Violation
  | minLength n, .string s => if s.length < n then some (.tooShort n) else none
  | minItems n, .array items => if items.length < n then some (.tooFew n) else none
  | minItems n, .object members => if members.length < n then some (.tooFew n) else none
  | oneOf allowed, .string s => if allowed.contains s then none else some (.notOneOf allowed s)
  | range low high, .number x =>
    let x := x.toBinary64
    if less x low || less high x then some (.outOfRange low high) else none
  | _, _ => none

/-- The declaration of a field. -/
structure Field where
  name : String
  kind : Kind
  required : Bool
  constraints : List Constraint := []
deriving DecidableEq, Repr

/-- What is wrong with an argument mapping. -/
inductive Fault where
  /-- There is no mapping where one is needed. -/
  | missingArgs
  | missingField (field : String)
  | unexpectedField (field : String)
  | wrongKind (field : String) (expected : Kind)
  | violated (field : String) (violation : Violation)
deriving DecidableEq, Repr

/-- The fault in words; each names the argument it is about, unless all of them are missing. -/
def Fault.message : Fault → String
  | missingArgs => "arguments are required"
  | missingField field => "missing required argument '" ++ field ++ "'"
  | unexpectedField field => "unexpected argument '" ++ field ++ "'"
  | wrongKind field expected => "argument '" ++ field ++ "' must be " ++ expected.description
  | violated field violation => "argument '" ++ field ++ "' " ++ violation.message

namespace Field

/-- A field without which the arguments are refused. -/
def need (name : String) (kind : Kind) (constraints : List Constraint := []) : Field :=
  ⟨name, kind, true, constraints⟩

/-- A field that may be left out. -/
def may (name : String) (kind : Kind) (constraints : List Constraint := []) : Field :=
  ⟨name, kind, false, constraints⟩

/-- The first fault of the value given for a field; null is as good as none. -/
def fault? (f : Field) (given : Option Json) : Option Fault :=
  let absent := if f.required then some (.missingField f.name) else none
  match given with
  | none => absent
  | some .null => absent
  | some v =>
    if !f.kind.accepts v then some (.wrongKind f.name f.kind)
    else (f.constraints.findSome? fun c => c.violation? v).map (.violated f.name)

end Field
end Schema

/-- The fields of an argument mapping. -/
structure Schema where
  fields : List Schema.Field
deriving DecidableEq, Repr

namespace Schema

/-- Whether there is a field that must not be left out. -/
def hasRequired (s : Schema) : Bool := s.fields.any Field.required

/-- Whether there is a field of this name. -/
def declares (s : Schema) (name : String) : Bool := s.fields.any fun f => f.name == name

/-- The first fault of an argument mapping, or of its absence. -/
def check? (s : Schema) : Option Json.Object → Option Fault
  | none => if s.hasRequired then some .missingArgs else none
  | some args =>
    match args.keys.find? fun k => !s.declares k with
    | some unknown => some (.unexpectedField unknown)
    | none => s.fields.findSome? fun f => f.fault? (args.get? f.name)

-- ============================================================== listings

/-- The constraint as a listing of the instructions shows it. -/
def Constraint.toJson : Constraint → Json
  | minLength n => .object [("min_length", .ofNat n)]
  | minItems n => .object [("min_items", .ofNat n)]
  | oneOf allowed => .object [("one_of", .array (allowed.map .string))]
  | range low high => .object [("range", .object [("max", ofReal high), ("min", ofReal low)])]
where
  ofReal (x : Binary64) : Json := match Json.Number.ofBinary64? x with
    | some n => .number n
    | none => .null

/-- A field as listings show it; empty constraints are left out. -/
def Field.toJson (f : Field) : Json :=
  .object ((if f.constraints.isEmpty then []
      else [("constraints", .array (f.constraints.map Constraint.toJson))])
    ++ [("kind", .string f.kind.name), ("name", .string f.name), ("required", .bool f.required)])

/-- The schema as a listing of the instructions shows it. -/
def toJson (s : Schema) : Json := .object [("fields", .array (s.fields.map Field.toJson))]

end Schema
end EventScript
