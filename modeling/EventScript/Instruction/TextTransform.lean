/-
The `string` instruction: a text in another case or spelling, read as a number, or cut into
pieces.
-/
import EventScript.Instruction.Decode
import EventScript.Instruction.Outcome
import EventScript.Numeric.Basic
import EventScript.Schema
import EventScript.Text.Words

namespace EventScript.Instruction

namespace TextTransform

/-- What to do with the text. -/
inductive Operation where
  | capitalize
  | lowercase
  | trim
  | uppercase
  | camelize
  | underscore
  | dasherize
  /-- The integer part as decimal text. -/
  | bigint
  /-- The integer part as a number where it fits. -/
  | int
  | number
  | split
deriving DecidableEq, Repr

namespace Operation

/-- Every operation, in the order in which schemas list them. -/
def all : List Operation :=
  [capitalize, lowercase, trim, uppercase, camelize, underscore, dasherize, bigint, int,
    number, split]

/-- The name in a program. -/
def name : Operation → String
  | capitalize => "capitalize"
  | lowercase => "lowercase"
  | trim => "trim"
  | uppercase => "uppercase"
  | camelize => "camelize"
  | underscore => "underscore"
  | dasherize => "dasherize"
  | bigint => "bigint"
  | int => "int"
  | number => "number"
  | split => "split"

/-- The name in a message. -/
def label : Operation → String
  | capitalize => "Capitalize"
  | lowercase => "Lowercase"
  | trim => "Trim"
  | uppercase => "Uppercase"
  | camelize => "Camelize"
  | underscore => "Underscore"
  | dasherize => "Dasherize"
  | bigint => "Bigint"
  | int => "Int"
  | number => "Number"
  | split => "Split"

end Operation

/-- The transformed text; `none` when it does not convert. An absent separator is a
comma. -/
def apply (operation : Operation) (separator : Option String) (s : String) : Option Json :=
  match operation with
  | .capitalize => some (.string (Text.capitalize s))
  | .lowercase => some (.string (Text.lower s))
  | .trim => some (.string (Text.trim s))
  | .uppercase => some (.string (Text.upper s))
  | .camelize => some (.string (Text.camelize s))
  | .underscore => some (.string (Text.underscore s))
  | .dasherize => some (.string (Text.dasherize s))
  | .bigint => ((Numeric.parse? s).bind Numeric.truncate?).map fun n => .string (toString n)
  | .int => ((Numeric.parse? s).bind Numeric.truncate?).map Json.ofInt
  | .number => (Numeric.parse? s).bind Numeric.toJson?
  | .split => some (.array ((Text.split (separator.getD ",") s).map .string))

end TextTransform

/-- The text in a variable, what is done with it, and the variable for the outcome. The separator
is read by `split` alone. -/
structure TextTransform where
  variableName : String
  operation : TextTransform.Operation
  separator : Option String
  output : String

namespace TextTransform

/-- The word that calls the instruction. -/
def name : String := "string"

/-- The text, the operation and the output are needed; the separator may be left out. -/
def schema : Schema := ⟨[
  .need "variable" .string [.minLength 1],
  .need "transform" .string [.oneOf (Operation.all.map Operation.name)],
  .may "separator" .string [.minLength 1],
  .need "output" .string [.minLength 1]]⟩

/-- The reader of operations, by their names. -/
private def operation? : Decode.Reader Operation :=
  Decode.choice (Operation.all.map fun o => (o.name, o))

/-- The instruction that arguments describe. -/
def decode : Decode.Reader TextTransform :=
  Decode.record "struct StringInstruction"
    [Decode.slot "variable" Decode.text, Decode.slot "transform" operation?,
      Decode.slot "separator" (Decode.orNull Decode.text),
      Decode.slot "output" Decode.text] fun args => do
      let variableName ← Decode.need args "variable" Decode.text
      let operation ← Decode.need args "transform" operation?
      let separator ← Decode.may args "separator" Decode.text
      let output ← Decode.need args "output" Decode.text
      return { variableName, operation, separator, output }

/-- What the instruction yields; the variables stay as they are. -/
def result (i : TextTransform) (g : Globals) : Except Shortfall (Json × Globals) :=
  match g.getPath? i.variableName with
  | none => .error .unresolved
  | some (.string s) => match apply i.operation i.separator s with
    | some v => .ok (v, g)
    | none => .error (.inapplicable i.operation.label)
  | some _ => .error (.notOfKind "a string")

/-- What the instruction does: the outcome is stored where one is yielded, else it is logged what
was lacking. -/
def run (i : TextTransform) (g : Globals) : Outcome :=
  Outcome.ofResult g name i.variableName i.output (i.result g)

end TextTransform
end EventScript.Instruction
