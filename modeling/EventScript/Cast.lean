/-
Casts: who a program runs for, shown to it as a variable.
-/
import EventScript.Instruction.Decode

namespace EventScript

/-- Who a program runs for. -/
structure Cast where
  id : String
  name : Option String := none
  /-- The contract it listens to. -/
  address : Option String := none
  /-- The chain of that contract, an unsigned 64-bit word. -/
  chainId : Option Nat := none
deriving DecidableEq, Repr

namespace Cast

/-- A chain as a program sees it. -/
private def chain : Option Nat → Json
  | some n => Json.ofNat n
  | none => .null

/-- The value a program sees, with null for what is not known. -/
def toJson (c : Cast) : Json :=
  .object [("address", Json.ofString? c.address), ("chainId", chain c.chainId),
    ("id", .string c.id), ("name", Json.ofString? c.name)]

/-- The members that are written to a record, in the order of declaration; what is not
known is left out. -/
def members (c : Cast) : List (String × Json) :=
  let optional (key : String) : Option Json → List (String × Json)
    | some v => [(key, v)]
    | none => []
  [("id", .string c.id)] ++ optional "name" (c.name.map .string)
    ++ optional "address" (c.address.map .string)
    ++ optional "chainId" (c.chainId.map Json.ofNat)

/-- The cast a value describes. -/
def decode : Decode.Reader Cast :=
  let optional := Decode.orNull Decode.text
  let word := Decode.orNull (Decode.word "u64")
  Decode.record "struct Cast"
    [Decode.slot "id" Decode.text, Decode.spareSlot "name" optional,
      Decode.spareSlot "address" optional, Decode.spareSlot "chainId" word] fun args => do
      let id ← Decode.need args "id" Decode.text
      let name ← Decode.may args "name" Decode.text
      let address ← Decode.may args "address" Decode.text
      let chainId ← Decode.may args "chainId" (Decode.word "u64")
      return { id, name, address, chainId }

end Cast
end EventScript
