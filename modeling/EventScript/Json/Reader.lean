/-
Reading JSON text. A step takes the characters still to be read and gives back what it
read and the rest; `none` is a text that is no JSON. Nesting is limited, as deep documents
come from outside. The fuel of the value reader is twice the number of characters, and
every second call consumes one. Members are read as they are written, a name as often as it
stands there; merging them is a second pass.
-/
import EventScript.Json.Basic
import EventScript.Json.Decimal
import EventScript.Text.Numeral

namespace EventScript.Json

namespace Reader

/-- The deepest nesting of arrays and objects. -/
def maxDepth : Nat := 127

/-- The characters after blanks, of which the format knows four. -/
def skipBlanks : List Char → List Char
  | c :: rest =>
    if c == ' ' || c == '\t' || c == '\n' || c == '\r' then skipBlanks rest else c :: rest
  | [] => []

-- ============================================================== strings

/-- Four hexadecimal digits. -/
def codeUnit? : List Char → Option (Nat × List Char)
  | a :: b :: c :: d :: rest => (Text.digitsFrom? 16 0 [a, b, c, d]).map (·, rest)
  | _ => none

/-- The character of a `\u` escape whose first unit is `u`. A high surrogate needs a low
one right behind it, and a low one never stands alone. -/
def unicodeEscape? (u : Nat) (rest : List Char) : Option (Char × List Char) :=
  if 0xD800 ≤ u && u < 0xDC00 then
    match rest with
    | '\\' :: 'u' :: tail => do
      let (low, tail) ← codeUnit? tail
      if 0xDC00 ≤ low && low < 0xE000 then
        some (Char.ofNat (0x10000 + (u - 0xD800) * 0x400 + (low - 0xDC00)), tail)
      else none
    | _ => none
  else if 0xDC00 ≤ u && u < 0xE000 then none
  else some (Char.ofNat u, rest)

/-- The character after a backslash. -/
def escape? : List Char → Option (Char × List Char)
  | '"' :: rest => some ('"', rest)
  | '\\' :: rest => some ('\\', rest)
  | '/' :: rest => some ('/', rest)
  | 'b' :: rest => some ('\x08', rest)
  | 'f' :: rest => some ('\x0C', rest)
  | 'n' :: rest => some ('\n', rest)
  | 'r' :: rest => some ('\r', rest)
  | 't' :: rest => some ('\t', rest)
  | 'u' :: rest => do
    let (u, rest) ← codeUnit? rest
    unicodeEscape? u rest
  | _ => none

/-- The characters up to the closing quote; the opening one is already read. -/
def stringChars : (fuel : Nat) → List Char → Option (List Char × List Char)
  | 0, _ => none
  | _, [] => none
  | fuel + 1, c :: rest =>
    if c == '"' then some ([], rest)
    else if c == '\\' then do
      let (e, rest) ← escape? rest
      let (cs, rest) ← stringChars fuel rest
      some (e :: cs, rest)
    else if c.toNat < 0x20 then none
    else do
      let (cs, rest) ← stringChars fuel rest
      some (c :: cs, rest)

/-- The text up to the closing quote, the opening one already read, and what follows it. -/
def string? (cs : List Char) : Option (String × List Char) :=
  (stringChars (cs.length + 1) cs).map fun (s, rest) => (String.ofList s, rest)

-- ============================================================== numbers

/-- The digits in front, by their values, and what follows them. -/
def digitRun (cs : List Char) : List Nat × List Char :=
  let digits := cs.takeWhile fun c => '0' ≤ c && c ≤ '9'
  (digits.map fun c => c.toNat - 0x30, cs.drop digits.length)

/-- One or more digits. -/
def someDigits? (cs : List Char) : Option (List Nat × List Char) :=
  match digitRun cs with
  | ([], _) => none
  | found => some found

/-- The exponent after its letter. -/
def exponent? (cs : List Char) : Option (Int × List Char) := do
  let (negative, cs) := match cs with
    | '+' :: rest => (false, rest)
    | '-' :: rest => (true, rest)
    | _ => (false, cs)
  let (digits, rest) ← someDigits? cs
  let n : Nat := digits.foldl (fun acc d => acc * 10 + d) 0
  some (if negative then -(n : Int) else n, rest)

/-- The digits before a point. Only a lone zero may lead them. -/
def whole? : List Char → Option (List Nat × List Char)
  | '0' :: rest =>
    if rest.head?.any fun c => '0' ≤ c && c ≤ '9' then none else some ([0], rest)
  | cs => someDigits? cs

/-- The digits after a point, when there is one. -/
def fraction? : List Char → Option (Option (List Nat) × List Char)
  | '.' :: rest => (someDigits? rest).map fun (d, rest) => (some d, rest)
  | cs => some (none, cs)

/-- The exponent, when there is one. -/
def power? : List Char → Option (Option Int × List Char)
  | 'e' :: rest => (exponent? rest).map fun (e, rest) => (some e, rest)
  | 'E' :: rest => (exponent? rest).map fun (e, rest) => (some e, rest)
  | cs => some (none, cs)

/-- A number behind its sign. -/
def unsigned? (negative : Bool) (cs : List Char) : Option (Number × List Char) := do
  let (whole, cs) ← whole? cs
  let (fraction, cs) ← fraction? cs
  let (exponent, cs) ← power? cs
  let n ← Literal.number? ⟨negative, whole, fraction, exponent⟩
  some (n, cs)

/-- The number in front, and what follows it. -/
def number? : List Char → Option (Number × List Char)
  | '-' :: rest => unsigned? true rest
  | cs => unsigned? false cs

-- =============================================================== values

mutual
/-- A value, after blanks, with `depth` levels of nesting left. -/
def value? : (fuel depth : Nat) → List Char → Option (Json × List Char)
  | 0, _, _ => none
  | fuel + 1, depth, cs => match skipBlanks cs with
    | 'n' :: 'u' :: 'l' :: 'l' :: rest => some (.null, rest)
    | 't' :: 'r' :: 'u' :: 'e' :: rest => some (.bool true, rest)
    | 'f' :: 'a' :: 'l' :: 's' :: 'e' :: rest => some (.bool false, rest)
    | '"' :: rest => (string? rest).map fun (s, rest) => (.string s, rest)
    | '[' :: rest => match depth with
      | 0 => none
      | depth + 1 => match skipBlanks rest with
        | ']' :: rest => some (.array [], rest)
        | rest => (items? fuel depth rest).map fun (vs, rest) => (.array vs, rest)
    | '{' :: rest => match depth with
      | 0 => none
      | depth + 1 => match skipBlanks rest with
        | '}' :: rest => some (.object [], rest)
        | rest => (members? fuel depth rest).map fun (ms, rest) => (.object ms, rest)
    | rest => (number? rest).map fun (n, rest) => (.number n, rest)

/-- The items of an array up to its bracket; at least one. -/
def items? : (fuel depth : Nat) → List Char → Option (List Json × List Char)
  | 0, _, _ => none
  | fuel + 1, depth, cs => do
    let (v, rest) ← value? fuel depth cs
    match skipBlanks rest with
    | ']' :: rest => some ([v], rest)
    | ',' :: rest => do
      let (vs, rest) ← items? fuel depth rest
      some (v :: vs, rest)
    | _ => none

/-- The members of an object up to its brace; at least one. -/
def members? : (fuel depth : Nat) → List Char → Option (List (String × Json) × List Char)
  | 0, _, _ => none
  | fuel + 1, depth, cs => match skipBlanks cs with
    | '"' :: rest => do
      let (k, rest) ← string? rest
      match skipBlanks rest with
      | ':' :: rest => do
        let (v, rest) ← value? fuel depth rest
        match skipBlanks rest with
        | '}' :: rest => some ([(k, v)], rest)
        | ',' :: rest => do
          let (ms, rest) ← members? fuel depth rest
          some ((k, v) :: ms, rest)
        | _ => none
      | _ => none
    | _ => none
end

end Reader

mutual
/-- The value with one member a name, the last that is written. -/
def merged : Json → Json
  | .array items => .array (mergedItems items)
  | .object members => .object (Table.ofList (mergedMembers members))
  | v => v

/-- Every item merged. -/
def mergedItems : List Json → List Json
  | [] => []
  | v :: rest => merged v :: mergedItems rest

/-- The value of every member merged; the members themselves stay as they are. -/
def mergedMembers : List (String × Json) → List (String × Json)
  | [] => []
  | (k, v) :: rest => (k, merged v) :: mergedMembers rest
end

/-- The value a text holds, with its members as they are written. Blanks may stand around
it and nothing else. -/
def written? (text : String) : Option Json := do
  let cs := text.toList
  let (v, rest) ← Reader.value? (2 * cs.length + 2) Reader.maxDepth cs
  if (Reader.skipBlanks rest).isEmpty then some v else none

/-- The value a text holds. -/
def parse? (text : String) : Option Json := (written? text).map merged

end EventScript.Json
