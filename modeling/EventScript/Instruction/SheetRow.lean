/-
The `spreadsheet` instruction: the values of some variables are appended to a range of a
spreadsheet as one row.
-/
import EventScript.Globals
import EventScript.Http.Delivery
import EventScript.Instruction.Decode
import EventScript.Schema

namespace EventScript.Instruction

/-- A row for a spreadsheet: the sheet and the range it goes to, the token that allows it, and
the variables whose values it shows. -/
structure SheetRow where
  spreadsheetId : String
  range : String
  token : String
  paths : List String

namespace SheetRow

/-- The word that calls the instruction. -/
def name : String := "spreadsheet"

/-- All four arguments are needed, and at least one variable. -/
def schema : Schema := ⟨[
  .need "spreadsheetId" .string [.minLength 1],
  .need "range" .string [.minLength 1],
  .need "token" .string [.minLength 1],
  .need "variables" .stringList [.minItems 1]]⟩

/-- The instruction that arguments describe. -/
def decode : Decode.Reader SheetRow :=
  let paths := Decode.listOf Decode.text
  Decode.record "struct SpreadsheetInstruction"
    [Decode.slot "spreadsheetId" Decode.text, Decode.slot "range" Decode.text,
      Decode.slot "token" Decode.text, Decode.slot "variables" paths] fun args => do
      let spreadsheetId ← Decode.need args "spreadsheetId" Decode.text
      let range ← Decode.need args "range" Decode.text
      let token ← Decode.need args "token" Decode.text
      let paths ← Decode.need args "variables" paths
      return { spreadsheetId, range, token, paths }

/-- The cell for a value: texts, numbers and booleans stand for themselves, nothing and
null are an empty text, anything else is its text. -/
def cell : Option Json → Json
  | none => .string ""
  | some .null => .string ""
  | some (.array items) => .string (Json.compact (.array items))
  | some (.object members) => .string (Json.compact (.object members))
  | some v => v

/-- The cells, in the order of the paths. -/
def row (i : SheetRow) (g : Globals) : List Json := i.paths.map fun p => cell (g.getPath? p)

/-- The body of the request. -/
def body (i : SheetRow) (g : Globals) : Json :=
  .object [("values", .array [.array (i.row g)])]

/-- The address to append at, below a base; none when the base cannot have a path. The id
and the range are segments of their own. -/
def appendUrl? (i : SheetRow) (base : String) : Option Http.Url := do
  let u ← Http.Url.parse? base
  match u.path with
  | .plain _ => none
  | .segments ss =>
    let ss := ["v4", "spreadsheets", i.spreadsheetId, "values", i.range ++ ":append"].foldl
      Http.Url.pushSegment (Http.Url.dropEmptyLast ss)
    return { u with path := .segments ss }

/-- The request to an address. -/
def request (i : SheetRow) (g : Globals) (u : Http.Url) :
    Except Http.Request.Fault Http.Request :=
  Http.Request.build .post (u.addQuery "valueInputOption" "USER_ENTERED") (i.body g)
    [Http.Request.bearer i.token]

end SheetRow
end EventScript.Instruction
