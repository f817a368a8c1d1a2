/-
The JSON value of a YAML text. Plain scalars are resolved by the core rules of YAML 1.2:
the spellings of null and the booleans, integers in four radixes, decimals. Quoted scalars
are strings. A key is the text of its scalar, whatever it would mean as a value.
-/
import EventScript.Yaml.Node
import EventScript.Json.Basic
import EventScript.Decimal.Literal

namespace EventScript.Yaml

open Decimal (Binary64)

-- ============================================================= resolution

/-- The spellings of null. -/
def null? (s : String) : Option Unit :=
  if ["null", "Null", "NULL", "~"].contains s then some () else none

/-- The spellings of the truth values. -/
def bool? (s : String) : Option Bool :=
  if ["true", "True", "TRUE"].contains s then some true
  else if ["false", "False", "FALSE"].contains s then some false
  else none

/-- A run of digits with leading zero, which is a text and no number. -/
private def isZeroLed (cs : List Char) : Bool :=
  let digits := match cs with
    | '+' :: rest => rest
    | '-' :: rest => rest
    | _ => cs
  match digits with
  | '0' :: rest => !rest.isEmpty && rest.all Char.isDigit
  | _ => false

/-- The radix a lead such as `0x` announces, and the digits behind it. -/
private def radixed? : List Char → Option (Nat × List Char)
  | '0' :: 'x' :: digits => some (16, digits)
  | '0' :: 'o' :: digits => some (8, digits)
  | '0' :: 'b' :: digits => some (2, digits)
  | _ => none

/-- An integer of any size: decimal, or in a radix with lead, with an optional sign. -/
def integer? (s : String) : Option Int :=
  let cs := s.toList
  let (negative, body) := match cs with
    | '-' :: rest => (true, rest)
    | '+' :: rest => (false, rest)
    | _ => (false, cs)
  let magnitude := match (radixed? body).bind fun (radix, digits) => Text.natural? radix digits with
    | some n => some n
    | none => if isZeroLed cs then none else Text.natural? 10 body
  magnitude.map fun n => if negative then -(n : Int) else n

/-- The integers that can be told apart from decimals: those of 128 bits, with a sign or
without. -/
private def isInteger (i : Int) : Bool :=
  -0x80000000000000000000000000000000 ≤ i && i < 0x100000000000000000000000000000000

/-- A decimal, which may be infinite or no number by one of its names. -/
def decimal? (s : String) : Option Binary64 :=
  let cs := s.toList
  let body := match cs with
    | '+' :: rest => rest
    | _ => cs
  let signed := match cs with
    | '+' :: '+' :: _ => true
    | '+' :: '-' :: _ => true
    | _ => false
  let unsigned := String.ofList body
  if signed then none
  else if [".inf", ".Inf", ".INF"].contains unsigned then some (.infinity false)
  else if ["-.inf", "-.Inf", "-.INF"].contains s then some (.infinity true)
  else if [".nan", ".NaN", ".NAN"].contains s then some .nan
  else (Decimal.literal? body).filter Binary64.isFinite

/-- A double as a value; one that is not finite is null. -/
def ofBinary64 (x : Binary64) : Json :=
  match Json.Number.ofBinary64? x with
  | some n => .number n
  | none => .null

/-- An integer as a value, if it is in the range of numbers. -/
def ofInteger (i : Int) : Except Fault Json :=
  match Json.Number.ofInt? i with
  | some n => .ok (.number n)
  | none => .error { problem := .integerRange }

/-- The value of a plain scalar without tag. -/
def plainValue (s : String) : Except Fault Json :=
  if s.isEmpty || (null? s).isSome then .ok .null
  else match bool? s with
    | some b => .ok (.bool b)
    | none => match (integer? s).filter isInteger with
      | some i => ofInteger i
      | none =>
        if isZeroLed s.toList then .ok (.string s)
        else match decimal? s with
          | some x => .ok (ofBinary64 x)
          | none => .ok (.string s)

/-- The value of a scalar with a tag. Of the common tags four demand a form; any other tag
that is not local makes a string. -/
def taggedValue (tag s : String) : Except Fault Json :=
  let demand (v : Option Json) : Except Fault Json := match v with
    | some v => .ok v
    | none => .error { problem := .tagMismatch }
  if tag.startsWith "!" then .error { problem := .localTag }
  else if tag == "tag:yaml.org,2002:bool" then demand ((bool? s).map .bool)
  else if tag == "tag:yaml.org,2002:int" then
    match (integer? s).filter isInteger with
    | some i => ofInteger i
    | none => .error { problem := .tagMismatch }
  else if tag == "tag:yaml.org,2002:float" then demand ((decimal? s).map ofBinary64)
  else if tag == "tag:yaml.org,2002:null" then demand ((null? s).map fun _ => .null)
  else .ok (.string s)

-- ================================================================= values

/-- The deepest nesting of collections. -/
def maxDepth : Nat := 128

/-- What a document allows while its value is made: where aliases lead, and how many may
be followed. -/
structure Allowance where
  anchored : List (Nat × Node)
  aliases : Nat

/-- Making a value, counting the aliases followed. -/
abbrev Making := StateT Nat (Except Fault)

/-- A fault that is on no line. -/
private def refuse {α : Type} (p : Problem) : Making α := throw { problem := p }

/-- The node an alias means, as one more alias followed. -/
private def follow (a : Allowance) (k : Nat) : Making Node := do
  modify (· + 1)
  if a.aliases < (← get) then refuse .tooManyAliases
  else match a.anchored.find? fun f => f.1 == k with
    | some (_, n) => return n
    | none => refuse .unknownAnchor

/-- The node itself or the one its alias means. -/
private def target (a : Allowance) : Node → Making Node
  | .alias k => follow a k
  | n => return n

/-- Whether the tag is one of the document's own. -/
private def isLocal (ps : Properties) : Bool := ps.tag.any fun t => t.startsWith "!"

/-- The text of a key. -/
private def keyText (a : Allowance) (n : Node) : Making String := do
  match ← target a n with
  | .scalar _ text _ => return text
  | _ => refuse .keyNotScalar

/-- The value of a node with `depth` levels of collections left. -/
def value (a : Allowance) (depth : Nat) (n : Node) : Making Json := do
  match ← target a n with
  | .scalar ps text plain => match ps.tag with
    | some tag => taggedValue tag text
    | none => if plain then plainValue text else return .string text
  | .sequence ps items =>
    if isLocal ps then refuse .localTag
    else match depth with
      | 0 => refuse .tooDeep
      | depth + 1 => return .array (← items.mapM fun item => value a depth item)
  | .mapping ps entries =>
    if isLocal ps then refuse .localTag
    else match depth with
      | 0 => refuse .tooDeep
      | depth + 1 =>
        let members ← entries.mapM fun (k, v) => do
          let name ← keyText a k
          let v ← value a depth v
          return (name, v)
        return .object (Table.ofList members)
  | .alias _ => refuse .unknownAnchor

theorem value_scalar (a : Allowance) (depth : Nat) (text : String) (plain : Bool) :
    value a depth (.scalar {} text plain)
      = if plain then liftM (plainValue text) else pure (.string text) := by
  unfold value
  rfl

/-- The value of a sequence without properties is made of those of its items. -/
theorem value_sequence (a : Allowance) (depth : Nat) (items : List Node) :
    value a (depth + 1) (.sequence {} items)
      = return .array (← items.mapM fun item => value a depth item) := by
  rw [value]
  rfl

/-- The value of a mapping without properties is made of its entries, a later one of a name in
the place of an earlier. -/
theorem value_mapping (a : Allowance) (depth : Nat) (entries : List (Node × Node)) :
    value a (depth + 1) (.mapping {} entries) = do
      let members ← entries.mapM fun (k, v) => do return (← keyText a k, ← value a depth v)
      return .object (Table.ofList members) := by
  rw [value]
  rfl

/-- The value of a document. Following aliases is limited in proportion to its size. -/
def Node.toJson (n : Node) : Except Fault Json :=
  ((value ⟨n.anchored [], n.size * 100⟩ maxDepth n).run 0).map Prod.fst

/-- The value of a YAML text; null when it holds no document. -/
def read (text : String) : Except Fault Json := do
  let tokens ← Token.ofText text.toList
  match ← Node.document? tokens with
  | some n => n.toJson
  | none => .ok .null

end EventScript.Yaml
