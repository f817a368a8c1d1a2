/-
The `object` instruction: the names or the values of an object, or the value under one
name, which may be taken out of the object.
-/
import EventScript.Instruction.Decode
import EventScript.Instruction.Outcome
import EventScript.Schema

namespace EventScript.Instruction

namespace ObjectAccess

/-- What to do with the object. -/
inductive Operation where
  | keys
  | values
  /-- Take the value under the key out of the object. -/
  | delete
  /-- Read the value under the key. -/
  | value
deriving DecidableEq, Repr

namespace Operation

/-- Every operation, in the order in which schemas list them. -/
def all : List Operation := [keys, values, delete, value]

/-- The name in a program. -/
def name : Operation → String
  | keys => "keys"
  | values => "values"
  | delete => "delete"
  | value => "value"

/-- Whether the operation is about one key. -/
def needsKey : Operation → Bool
  | delete => true
  | value => true
  | _ => false

end Operation

/-- What the operation yields and the object afterwards; `none` when the key is absent. -/
def apply (operation : Operation) (key : String) (members : Json.Object) :
    Option (Json × Json.Object) :=
  match operation with
  | .keys => some (.array (members.keys.map .string), members)
  | .values => some (.array members.values, members)
  | .delete => (Table.get? key members).map fun v => (v, Table.erase key members)
  | .value => (Table.get? key members).map fun v => (v, members)

end ObjectAccess

/-- The object in a variable, what is done with it, and the variable for the outcome. The key is
read by `delete` and `value` alone. -/
structure ObjectAccess where
  variableName : String
  operation : ObjectAccess.Operation
  key : Option String
  output : String

namespace ObjectAccess

/-- The word that calls the instruction. -/
def name : String := "object"

/-- The object, the operation and the output are needed; the key may be left out, also where the
operation asks for one. -/
def schema : Schema := ⟨[
  .need "variable" .string [.minLength 1],
  .need "transform" .string [.oneOf (Operation.all.map Operation.name)],
  .may "key" .string,
  .need "output" .string [.minLength 1]]⟩

/-- The reader of operations, by their names. -/
private def operation? : Decode.Reader Operation :=
  Decode.choice (Operation.all.map fun o => (o.name, o))

/-- The instruction that arguments describe. -/
def decode : Decode.Reader ObjectAccess :=
  Decode.record "struct ObjectInstruction"
    [Decode.slot "variable" Decode.text, Decode.slot "transform" operation?,
      Decode.slot "key" (Decode.orNull Decode.text),
      Decode.slot "output" Decode.text] fun args => do
      let variableName ← Decode.need args "variable" Decode.text
      let operation ← Decode.need args "transform" operation?
      let key ← Decode.may args "key" Decode.text
      let output ← Decode.need args "output" Decode.text
      return { variableName, operation, key, output }

/-- What the instruction yields, and the variables without the member taken. An absent key
is the empty one. -/
def result (i : ObjectAccess) (g : Globals) : Except Shortfall (Json × Globals) :=
  let key := i.key.getD ""
  match g.getPath? i.variableName with
  | none => .error .unresolved
  | some (.object members) => match apply i.operation key members with
    | some (v, rest) => .ok (v, g.overwrite i.variableName (.object rest))
    | none => .error (.noKey key)
  | some _ => .error (.notOfKind "an object")

/-- What the instruction does: the outcome is stored where one is yielded, else it is logged what
was lacking. -/
def run (i : ObjectAccess) (g : Globals) : Outcome :=
  Outcome.ofResult g name i.variableName i.output (i.result g)

end ObjectAccess
end EventScript.Instruction
