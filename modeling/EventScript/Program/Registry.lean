/-
The instructions a program may call. An entry has a name, a schema, and a reader that turns
arguments into a draft: an action, or a condition whose branches are still to be compiled.
-/
import EventScript.Program.Error
import EventScript.Program.Step

namespace EventScript

/-- What arguments stand for before branches are compiled. -/
inductive Draft where
  | action (a : Action)
  | condition (c : Instruction.Condition.Draft)

namespace Draft

/-- What is wrong with a calculation's second amount. -/
def operandDefect? (i : Instruction.Calculation) : Option Defect :=
  if !i.operation.isBinary then none
  else match i.operand, i.operandVariable with
    | some _, some _ => some .twoOperands
    | none, none => some .noOperand
    | some literal, none =>
      if (Numeric.ofJson? literal).isNone then some (.schema (.violated "operand" .notNumeric))
      else none
    | none, some _ => none

/-- What is wrong with arguments that fit by themselves but not together. -/
def defect? : Draft → Option Defect
  | action (.object i) =>
    if i.operation.needsKey && i.key.isNone then some (.schema (.missingField "key")) else none
  | action (.number i) => operandDefect? i
  | action _ => none
  | condition c =>
    if c.condition.all.isSome == c.condition.any.isSome then some .junction else none

end Draft

/-- An instruction as programs may call it. -/
structure InstructionSpec where
  name : String
  schema : Schema
  decode : Decode.Reader Draft

namespace InstructionSpec

/-- The entry of an instruction that becomes an action. -/
def ofAction {α : Type} (name : String) (schema : Schema) (decode : Decode.Reader α)
    (action : α → Action) : InstructionSpec where
  name
  schema
  decode v := (decode v).map fun i => .action (action i)

/-- The members that count: those that are not null. -/
def given (args : Option Json.Object) : Json.Object :=
  (args.getD []).filter fun m => !m.2.isNull

/-- The draft that arguments stand for, or what is wrong with them. -/
def draft (s : InstructionSpec) (args : Option Json.Object) : Except Defect Draft :=
  match s.schema.check? args with
  | some fault => .error (.schema fault)
  | none => match s.decode (.object (given args)) with
    | .error mismatch => .error (.undecodable mismatch)
    | .ok d => match d.defect? with
      | some defect => .error defect
      | none => .ok d

/-- Whether arguments fit the schema. -/
def accepts (s : InstructionSpec) (args : Option Json.Object) : Bool :=
  (s.schema.check? args).isNone

open Instruction

/-- The built-in instructions, by name. -/
def builtins : List InstructionSpec := [
  ofAction ArrayAccess.name ArrayAccess.schema ArrayAccess.decode .array,
  { name := Condition.name
    schema := Condition.schema
    decode := fun v => (Condition.decode v).map .condition },
  ofAction VariableReport.name VariableReport.schema VariableReport.decode .debug,
  ofAction LogNote.name LogNote.schema LogNote.decode .log,
  ofAction Calculation.name Calculation.schema Calculation.decode .number,
  ofAction ObjectAccess.name ObjectAccess.schema ObjectAccess.decode .object,
  ofAction JobOrder.name JobOrder.schema JobOrder.decode .queue,
  ofAction Assignment.name Assignment.schema Assignment.decode .set,
  ofAction SheetRow.name SheetRow.schema SheetRow.decode .spreadsheet,
  ofAction TextTransform.name TextTransform.schema TextTransform.decode .string,
  ofAction TemplateText.name TemplateText.schema TemplateText.decode .template,
  ofAction Webhook.name Webhook.schema Webhook.decode .webhook]

end InstructionSpec

/-- The instructions known to a compiler, by name, and its limit on nesting. -/
structure Registry where
  specs : List InstructionSpec
  branchLimit : Nat

namespace Registry

/-- The registry of the built-in instructions. -/
def builtin (branchLimit : Nat) : Registry := ⟨InstructionSpec.builtins, branchLimit⟩

/-- The entry of a name. -/
def find? (r : Registry) (name : String) : Option InstructionSpec :=
  r.specs.find? fun s => s.name == name

/-- The names that programs may call, in the order of the registry. -/
def names (r : Registry) : List String := r.specs.map InstructionSpec.name

/-- An entry put in its place among entries ordered by name; one with its name gives way. -/
def place (s : InstructionSpec) : List InstructionSpec → List InstructionSpec
  | [] => [s]
  | t :: rest =>
    if s.name < t.name then s :: t :: rest
    else if s.name = t.name then s :: rest
    else t :: place s rest

/-- The registry with another entry. -/
def register (r : Registry) (s : InstructionSpec) : Registry :=
  { r with specs := place s r.specs }

/-- The instructions with their schemas, for reading. -/
def listing (r : Registry) : Json :=
  .array (r.specs.map fun s => .object [("args", s.schema.toJson), ("name", .string s.name)])

end Registry
end EventScript
