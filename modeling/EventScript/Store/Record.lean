/-
Records: a program's source with the cast it runs for, kept under an id. A record is
written as an indented object whose members stand in the order of declaration, and read
from an object in any order that has none of them twice, or from the sequence of its
fields. What can go wrong with a store is the id, the record it holds, or the files underneath.
-/
import EventScript.Cast
import EventScript.Json.Reader
import EventScript.Timestamp

namespace EventScript

-- ================================================================= errors

/-- Why a store does not do what it is asked. -/
inductive StoreError where
  | notFound (id : String)
  | alreadyExists (id : String)
  | invalidId (id : String)
  /-- What is stored is no record. -/
  | undecodable (details : String)
  /-- A file could not be used. -/
  | io (operation details : String)
deriving DecidableEq, Repr

namespace StoreError

/-- The error in words. -/
def message : StoreError → String
  | notFound id => "Program not found: " ++ id
  | alreadyExists id => "Program already exists: " ++ id
  | invalidId id => "Invalid program id '" ++ id ++ "': use letters, digits, '_' or '-'"
  | undecodable details => "Serialization error: " ++ details
  | io operation details => "I/O error during " ++ operation ++ ": " ++ details

/-- An error of the files where the operation is not told. -/
def ofFiles (details : String) : StoreError := .io "unknown" details

end StoreError

-- ================================================================ records

namespace Store

/-- Whether an id can be used as a key: letters, digits, `_` and `-` of ASCII, at least
one. -/
def isValidId (id : String) : Bool :=
  !id.isEmpty && id.toList.all fun c => c.isAlphanum || c == '_' || c == '-'

/-- A stored program. -/
structure Record where
  id : String
  source : String
  cast : Cast
  updatedAt : Timestamp
deriving DecidableEq, Repr

namespace Record

/-- The members in the order of declaration. -/
def members (r : Record) : List (String × Json) :=
  [("id", .string r.id), ("source", .string r.source), ("cast", .object r.cast.members),
    ("updatedAt", .string r.updatedAt.write)]

/-- The text a record is kept as. -/
def write (r : Record) : String := (Json.object r.members).indented

-- =============================================================== reading

/-- An instant. -/
def instant : Decode.Reader Timestamp
  | .string s => match Timestamp.parse? s with
    | some t => .ok t
    | none => .error (.wrongValue (.text s) "an RFC 3339 formatted date and time string")
  | v => .error (.wrongType (.of v) "an RFC 3339 formatted date and time string")

/-- The record a value describes. -/
def decode : Decode.Reader Record :=
  Decode.record "struct Record"
    [Decode.slot "id" Decode.text, Decode.slot "source" Decode.text,
      Decode.slot "cast" Cast.decode, Decode.slot "updatedAt" instant] fun args => do
      let id ← Decode.need args "id" Decode.text
      let source ← Decode.need args "source" Decode.text
      let cast ← Decode.need args "cast" Cast.decode
      let updatedAt ← Decode.need args "updatedAt" instant
      return { id, source, cast, updatedAt }

/-- The first of some names that members have twice. -/
def twice? (names : List String) (v : Json) : Option String :=
  match v with
  | .object members => names.find? fun n => 1 < (members.map Prod.fst).count n
  | _ => none

/-- The first name that a record as it is written has twice. -/
def repeated? (written : Json) : Option String :=
  (twice? ["id", "source", "cast", "updatedAt"] written).or
    ((written.member? "cast").bind (twice? ["id", "name", "address", "chainId"]))

/-- The record a text holds. -/
def read (text : String) : Except StoreError Record :=
  match Json.written? text with
  | none => .error (.undecodable "the text is no JSON document")
  | some written => match repeated? written with
    | some name => .error (.undecodable ("duplicate field \x60" ++ name ++ "\x60"))
    | none => match decode written.merged with
      | .error mismatch => .error (.undecodable mismatch.message)
      | .ok r => .ok r

end Record
end Store
end EventScript
