/-
The `template` instruction: a text with placeholders, each bound to the path of a variable,
is filled and written to a path.
-/
import EventScript.Instruction.Decode
import EventScript.Instruction.Outcome
import EventScript.Schema
import EventScript.Template

namespace EventScript.Instruction

/-- A text with placeholders, and the variable for what it becomes. -/
structure TemplateText where
  template : String
  /-- The path bound to each placeholder. -/
  bindings : List (String × String)
  output : String

namespace TemplateText

/-- The word that calls the instruction. -/
def name : String := "template"

/-- All three arguments are needed; the template may be empty, and so may the bindings. -/
def schema : Schema := ⟨[
  .need "template" .string,
  .need "variables" .stringMap,
  .need "output" .string [.minLength 1]]⟩

/-- The instruction that arguments describe. -/
def decode : Decode.Reader TemplateText :=
  Decode.record "struct TemplateInstruction"
    [Decode.slot "template" Decode.text, Decode.slot "variables" (Decode.mapOf Decode.text),
      Decode.slot "output" Decode.text] fun args => do
      let template ← Decode.need args "template" Decode.text
      let bindings ← Decode.need args "variables" (Decode.mapOf Decode.text)
      let output ← Decode.need args "output" Decode.text
      return { template, bindings, output }

/-- The filled text. -/
def render (i : TemplateText) (g : Globals) : String :=
  Template.render (fun name => (i.bindings.lookup name).bind g.getPath?) i.template

/-- What the instruction does: the text is rendered and stored, and its length is logged in
bytes. -/
def run (i : TemplateText) (g : Globals) : Outcome :=
  let text := i.render g
  let done := Outcome.write g name i.output (.string text)
  { done with
    log := Log.debug ("template: rendered " ++ toString text.utf8ByteSize
      ++ " characters into '" ++ i.output ++ "'") :: done.log }

end TemplateText
end EventScript.Instruction
