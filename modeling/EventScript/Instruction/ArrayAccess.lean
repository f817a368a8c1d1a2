/-
The `array` instruction: the length of a list, or one of its elements, which is taken out
of the list.
-/
import EventScript.Instruction.Decode
import EventScript.Instruction.Outcome
import EventScript.Schema

namespace EventScript.Instruction

namespace ArrayAccess

/-- What to do with the list. -/
inductive Operation where
  | length
  /-- Take the element at the index. -/
  | takeAt
  | takeLast
  | takeFirst
deriving DecidableEq, Repr

namespace Operation

/-- Every operation, in the order in which schemas list them. -/
def all : List Operation := [length, takeAt, takeLast, takeFirst]

/-- The name in a program. -/
def name : Operation → String
  | length => "length"
  | takeAt => "at"
  | takeLast => "pop"
  | takeFirst => "shift"

/-- The name in a message. -/
def label : Operation → String
  | length => "Length"
  | takeAt => "At"
  | takeLast => "Pop"
  | takeFirst => "Shift"

end Operation

/-- The position that an index means among `count` items; a negative index counts from the
end. -/
def position? (index : Int) (count : Nat) : Option Nat :=
  let i := if index < 0 then count + index else index
  if 0 ≤ i ∧ i < count then some i.toNat else none

/-- The element at a position and the list without it. -/
def take? (items : List Json) (position : Nat) : Option (Json × List Json) :=
  items[position]?.map fun v => (v, items.eraseIdx position)

/-- What the operation yields and the list afterwards; `none` when it yields nothing. An
absent index is the first position. -/
def apply (operation : Operation) (index : Option Int) (items : List Json) :
    Option (Json × List Json) :=
  match operation with
  | .length => some (Json.ofNat items.length, items)
  | .takeAt => (position? (index.getD 0) items.length).bind (take? items)
  | .takeLast => take? items (items.length - 1)
  | .takeFirst => take? items 0

end ArrayAccess

/-- The list in a variable, what is done with it, and the variable for the outcome. The index is
read by `takeAt` alone. -/
structure ArrayAccess where
  variableName : String
  operation : ArrayAccess.Operation
  index : Option Int
  output : String

namespace ArrayAccess

/-- The word that calls the instruction. -/
def name : String := "array"

/-- The list, the operation and the output are needed; the index may be left out, also where the
operation takes an element by it. -/
def schema : Schema := ⟨[
  .need "variable" .string [.minLength 1],
  .need "transform" .string [.oneOf (Operation.all.map Operation.name)],
  .may "index" .integer,
  .need "output" .string [.minLength 1]]⟩

/-- The reader of operations, by their names. -/
private def operation? : Decode.Reader Operation :=
  Decode.choice (Operation.all.map fun o => (o.name, o))

/-- The instruction that arguments describe. -/
def decode : Decode.Reader ArrayAccess :=
  Decode.record "struct ArrayInstruction"
    [Decode.slot "variable" Decode.text, Decode.slot "transform" operation?,
      Decode.slot "index" (Decode.orNull Decode.integer),
      Decode.slot "output" Decode.text] fun args => do
      let variableName ← Decode.need args "variable" Decode.text
      let operation ← Decode.need args "transform" operation?
      let index ← Decode.may args "index" Decode.integer
      let output ← Decode.need args "output" Decode.text
      return { variableName, operation, index, output }

/-- What the instruction yields, and the variables without the element taken. -/
def result (i : ArrayAccess) (g : Globals) : Except Shortfall (Json × Globals) :=
  match g.getPath? i.variableName with
  | none => .error .unresolved
  | some (.array items) => match apply i.operation i.index items with
    | some (v, rest) => .ok (v, g.overwrite i.variableName (.array rest))
    | none => .error (.nothing i.operation.label)
  | some _ => .error (.notOfKind "an array")

/-- What the instruction does: the outcome is stored where one is yielded, else it is logged what
was lacking. -/
def run (i : ArrayAccess) (g : Globals) : Outcome :=
  Outcome.ofResult g name i.variableName i.output (i.result g)

end ArrayAccess
end EventScript.Instruction
