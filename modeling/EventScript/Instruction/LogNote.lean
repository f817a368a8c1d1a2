/-
The `log` instruction: a message whose placeholders are paths of variables.
-/
import EventScript.Globals
import EventScript.Instruction.Decode
import EventScript.Log
import EventScript.Schema
import EventScript.Template

namespace EventScript.Instruction

/-- A note for the log, its placeholders still to be filled. -/
structure LogNote where
  message : String
  level : Log.Level

namespace LogNote

/-- The word that calls the instruction. -/
def name : String := "log"

/-- The levels a program may name. -/
def levels : List (String × Log.Level) :=
  [("debug", .debug), ("info", .info), ("warn", .warn), ("error", .error)]

/-- The message is needed, and may be empty; the level may be left out. -/
def schema : Schema := ⟨[
  .need "message" .string,
  .may "level" .string [.oneOf (levels.map Prod.fst)]]⟩

/-- The instruction that arguments describe, at the level of information unless they say
otherwise. -/
def decode : Decode.Reader LogNote :=
  Decode.record "struct LogInstruction"
    [Decode.slot "message" Decode.text,
      Decode.spareSlot "level" (Decode.choice levels)] fun args => do
      let message ← Decode.need args "message" Decode.text
      let level ← Decode.orElse args "level" (Decode.choice levels) .info
      return { message, level }

/-- The message with its placeholders filled. -/
def text (i : LogNote) (g : Globals) : String := Template.render g.getPath? i.message

end LogNote
end EventScript.Instruction
