/-
The `webhook` instruction: the value of a variable is sent as the body of a request. What
comes of it is told by an event; it never stops a program.
-/
import EventScript.Globals
import EventScript.Http.Delivery
import EventScript.Instruction.Decode
import EventScript.Schema

namespace EventScript.Instruction

/-- A value to be sent: the variable that has it, and the address, the method and the headers of
the request. -/
structure Webhook where
  url : String
  method : Http.Method
  token : Option String
  headers : List (String × String)
  variableName : String

namespace Webhook

/-- The word that calls the instruction. -/
def name : String := "webhook"

/-- The address and the variable are needed; the method, the token and the headers may be left
out. -/
def schema : Schema := ⟨[
  .need "url" .string [.minLength 1],
  .may "method" .string [.oneOf (Http.Method.all.map Http.Method.name)],
  .may "token" .string,
  .may "headers" .stringMap,
  .need "variable" .string [.minLength 1]]⟩

/-- The reader of methods, by their names. -/
private def methodNamed : Decode.Reader Http.Method :=
  Decode.choice (Http.Method.all.map fun m => (m.name, m))

/-- The instruction that arguments describe, by `POST` unless they say otherwise. -/
def decode : Decode.Reader Webhook :=
  let headers := Decode.mapOf Decode.text
  Decode.record "struct WebhookInstruction"
    [Decode.slot "url" Decode.text, Decode.spareSlot "method" methodNamed,
      Decode.slot "token" (Decode.orNull Decode.text), Decode.spareSlot "headers" headers,
      Decode.slot "variable" Decode.text] fun args => do
      let url ← Decode.need args "url" Decode.text
      let method ← Decode.orElse args "method" methodNamed .post
      let token ← Decode.may args "token" Decode.text
      let headers ← Decode.orElse args "headers" headers []
      let variableName ← Decode.need args "variable" Decode.text
      return { url, method, token, headers, variableName }

/-- The value to send; there is none when it is absent or null. -/
def payload? (i : Webhook) (g : Globals) : Option Json :=
  (g.getPath? i.variableName).filter fun v => !v.isNull

/-- The request with a body. -/
def request (i : Webhook) (body : Json) : Except Http.Request.Fault Http.Request :=
  match Http.Url.parse? i.url with
  | none => .error (.url i.url)
  | some u => Http.Request.build i.method u body
      ((i.token.map Http.Request.bearer).toList
        ++ i.headers.map fun (name, value) => Http.Request.header name value)

/-- The method and the address as messages show them. -/
def line (i : Webhook) : String := i.method.name ++ " " ++ i.url

end Webhook
end EventScript.Instruction
