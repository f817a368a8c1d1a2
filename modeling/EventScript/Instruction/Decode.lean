/-
Reading an instruction's configuration from its arguments. The members are looked at in
the order of their names, and the first that does not fit is reported; only then the
fields that are missing, in the order they are declared. Names that are not declared do
not matter unless a record is strict.
-/
import EventScript.Json.Printer
import EventScript.Text.Split

namespace EventScript

namespace Decode

/-- What a value is, as a message names it. -/
inductive Found where
  | null
  | bool (b : Bool)
  | number (n : Json.Number)
  | text (s : String)
  | sequence
  | map
deriving DecidableEq

/-- Why arguments do not make a configuration. -/
inductive Mismatch where
  | missing (field : String)
  | unknownField (field : String) (known : List String)
  | unknownVariant (name : String) (known : List String)
  /-- The value has another type than expected. -/
  | wrongType (found : Found) (expected : String)
  /-- The value has the right type and yet does not fit. -/
  | wrongValue (found : Found) (expected : String)
  | wrongLength (length : Nat) (expected : String)
deriving DecidableEq

/-- What a value is found to be. -/
def Found.of : Json → Found
  | .null => null
  | .bool b => bool b
  | .number n => number n
  | .string s => text s
  | .array _ => sequence
  | .object _ => map

/-- A text between quotes with its control characters made visible. -/
private def visible (s : String) : String :=
  let hex (n : Nat) : List Char := Nat.toDigits 16 n
  let escape (c : Char) : List Char :=
    if c == '"' then ['\\', '"']
    else if c == '\\' then ['\\', '\\']
    else if c == '\n' then ['\\', 'n']
    else if c == '\r' then ['\\', 'r']
    else if c == '\t' then ['\\', 't']
    else if c == '\x00' then ['\\', '0']
    else if c.toNat < 0x20 || (0x7F ≤ c.toNat && c.toNat < 0xA0) then
      ['\\', 'u', '{'] ++ hex c.toNat ++ ['}']
    else [c]
  String.ofList ('"' :: s.toList.flatMap escape ++ ['"'])

/-- What was found, as a mismatch tells it; of lists and mappings only what they are. -/
def Found.describe : Found → String
  | null => "null"
  | bool b => "boolean \x60" ++ (if b then "true" else "false") ++ "\x60"
  | number (.int i _) => "integer \x60" ++ toString i ++ "\x60"
  | number (.float x _) => "floating point \x60" ++ Decimal.Layout.document.write x ++ "\x60"
  | text s => "string " ++ visible s
  | sequence => "sequence"
  | map => "map"

/-- The names that would have been right. -/
private def oneOf (known : List String) : String :=
  let mark (s : String) : String := "\x60" ++ s ++ "\x60"
  match known with
  | [a] => mark a
  | [a, b] => mark a ++ " or " ++ mark b
  | _ => "one of " ++ Text.join ", " (known.map mark)

/-- The mismatch in words. -/
def Mismatch.message : Mismatch → String
  | missing field => "missing field \x60" ++ field ++ "\x60"
  | unknownField field known => "unknown field \x60" ++ field ++ "\x60, expected " ++ oneOf known
  | unknownVariant name known =>
    "unknown variant \x60" ++ name ++ "\x60, expected " ++ oneOf known
  | wrongType found expected => "invalid type: " ++ found.describe ++ ", expected " ++ expected
  | wrongValue found expected => "invalid value: " ++ found.describe ++ ", expected " ++ expected
  | wrongLength n expected => "invalid length " ++ toString n ++ ", expected " ++ expected

/-- A reader of one value. -/
abbrev Reader (α : Type) := Json → Except Mismatch α

-- =============================================================== values

/-- Any value, as it is. -/
def any : Reader Json := .ok

/-- A text. -/
def text : Reader String
  | .string s => .ok s
  | v => .error (.wrongType (.of v) "a string")

/-- An integer of 64 bits with a sign. -/
def integer : Reader Int
  | .number (.int i h) =>
    if i < 0x8000000000000000 then .ok i else .error (.wrongValue (.number (.int i h)) "i64")
  | v => .error (.wrongType (.of v) "i64")

/-- An integer of 64 bits without sign. -/
def word (expected : String) : Reader Nat
  | .number (.int i h) =>
    if 0 ≤ i then .ok i.toNat else .error (.wrongValue (.number (.int i h)) expected)
  | v => .error (.wrongType (.of v) expected)

/-- Each item in turn. -/
def listOf {α : Type} (item : Reader α) : Reader (List α)
  | .array items => items.mapM item
  | v => .error (.wrongType (.of v) "a sequence")

/-- A mapping of names to values of one reader. -/
def mapOf {α : Type} (value : Reader α) : Reader (List (String × α))
  | .object members => members.mapM fun (k, v) => (value v).map fun v => (k, v)
  | v => .error (.wrongType (.of v) "a map")

/-- One of several names. The name may also stand as the only member of a mapping, with
null under it. -/
def choice {α : Type} (options : List (String × α)) : Reader α :=
  let pick (name : String) : Except Mismatch α :=
    match options.find? fun o => o.1 == name with
    | some (_, a) => .ok a
    | none => .error (.unknownVariant name (options.map Prod.fst))
  fun v => match v with
    | .string s => pick s
    | .object [(name, content)] => do
      let a ← pick name
      match content with
      | .null => .ok a
      | v => .error (.wrongType (.of v) "unit")
    | .object _ => .error (.wrongValue .map "map with a single key")
    | v => .error (.wrongType (.of v) "string or map")

/-- Null or a value. -/
def orNull {α : Type} (r : Reader α) : Reader (Option α)
  | .null => .ok none
  | v => (r v).map some

-- ============================================================== records

/-- A declared name: the mismatch its value may have, and whether a sequence may end
before it. -/
structure Slot where
  name : String
  check : Json → Option Mismatch
  spare : Bool

/-- The slot of a field that `r` reads. -/
def slot {α : Type} (name : String) (r : Reader α) : Slot where
  name
  check v := match r v with
    | .ok _ => none
    | .error m => some m
  spare := false

/-- The slot of a field that has a value for its absence. -/
def spareSlot {α : Type} (name : String) (r : Reader α) : Slot :=
  { slot name r with spare := true }

/-- The first mismatch among the members. `strict` refuses names not declared. -/
def firstMismatch? (strict : Bool) (slots : List Slot) (args : Json.Object) :
    Option Mismatch :=
  args.findSome? fun (k, v) => match slots.find? fun f => f.name == k with
    | some f => f.check v
    | none => if strict then some (.unknownField k (slots.map Slot.name)) else none

/-- The members a sequence stands for, its items taken in the order the slots are declared.
`position` counts the items before. -/
def pair (whole : String) (position : Nat) :
    List Slot → List Json → Except Mismatch Json.Object
  | [], [] => .ok []
  | [], rest => .error (.wrongLength (position + rest.length) "fewer elements in array")
  | f :: slots, [] =>
    if f.spare then pair whole (position + 1) slots []
    else .error (.wrongLength position whole)
  | f :: slots, v :: rest => match f.check v with
    | some m => .error m
    | none => (pair whole (position + 1) slots rest).map ((f.name, v) :: ·)

/-- A record called `title`, written as a mapping or as the sequence of its fields. -/
def record {α : Type} (title : String) (slots : List Slot)
    (build : Json.Object → Except Mismatch α) (strict : Bool := false) : Reader α
  | .object args => match firstMismatch? strict slots args with
    | some m => .error m
    | none => build args
  | .array items =>
    let count := match slots with
      | [_] => " with 1 element"
      | _ => " with " ++ toString slots.length ++ " elements"
    (pair (title ++ count) 0 slots items).bind build
  | v => .error (.wrongType (.of v) title)

/-- A field that has to be there. -/
def need {α : Type} (args : Json.Object) (field : String) (r : Reader α) : Except Mismatch α :=
  match args.get? field with
  | some v => r v
  | none => .error (.missing field)

/-- A field that may be null or absent. -/
def may {α : Type} (args : Json.Object) (field : String) (r : Reader α) :
    Except Mismatch (Option α) :=
  match args.get? field with
  | some v => orNull r v
  | none => .ok none

/-- A field with a value for its absence. -/
def orElse {α : Type} (args : Json.Object) (field : String) (r : Reader α) (absent : α) :
    Except Mismatch α :=
  match args.get? field with
  | some v => r v
  | none => .ok absent

end Decode
end EventScript
