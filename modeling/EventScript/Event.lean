/-
Events, the record of what a run reported, and the two forms of a line they are printed in:
for reading, with a coloured category, and as an object.
-/
import EventScript.Json.Printer
import EventScript.Text.Case
import EventScript.Timestamp

namespace EventScript

/-- One report of an instruction. -/
structure Event where
  category : String
  message : String
  time : Timestamp
deriving DecidableEq, Repr

/-- The forms in which events and reports are printed. -/
inductive OutputFormat where
  | pretty
  | json
deriving DecidableEq, Repr

namespace OutputFormat

/-- The word that asks for the format. -/
def name : OutputFormat → String
  | pretty => "pretty"
  | json => "json"

/-- The format of a name, in any case; else the name in lower case, which is unknown. -/
def parse (s : String) : Except String OutputFormat :=
  match Text.lower s with
  | "pretty" => .ok pretty
  | "json" => .ok json
  | other => .error other

/-- What is said of an unknown name. -/
def unknown (name : String) : String := "unknown log format '" ++ name ++ "'"

end OutputFormat

-- ================================================================ colours

/-- The ways a terminal can set off a piece of text. -/
inductive Style where
  | red
  | green
  | yellow
  | cyan
  | bold
  | boldRed
  | boldGreen
deriving DecidableEq, Repr

namespace Style

/-- The numbers that switch the style on. -/
def codes : Style → String
  | red => "31"
  | green => "32"
  | yellow => "33"
  | cyan => "36"
  | bold => "1"
  | boldRed => "1;31"
  | boldGreen => "1;32"

/-- The text in the style, where colours are shown. -/
def paint (colours : Bool) (style : Style) (s : String) : String :=
  if colours then "\x1b[" ++ style.codes ++ "m" ++ s ++ "\x1b[0m" else s

end Style

namespace Event

/-- The style of a category. -/
def style (category : String) : Style :=
  if category = "warn" ∨ category = "error" then .red
  else if category = "debug" then .cyan
  else .green

/-- The event as an object of its category, its message and its time. -/
def toJson (e : Event) : Json :=
  .object [("category", .string e.category), ("message", .string e.message),
    ("timestamp", .string e.time.write)]

/-- The event on a line. -/
def render (colours : Bool) (format : OutputFormat) (e : Event) : String :=
  match format with
  | .json => e.toJson.compact
  | .pretty =>
    e.time.clockText ++ " "
      ++ (style e.category).paint colours ("[" ++ Text.upper e.category ++ "]") ++ " "
      ++ e.message

end Event
end EventScript
