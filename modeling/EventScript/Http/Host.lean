/-
Hosts of addresses: a domain name, or an IP address of either length. A name whose last
label is a number can only be an IP address of the short kind, in any of its spellings.
-/
import EventScript.Http.Percent
import EventScript.Http.Punycode
import EventScript.Text.Case
import EventScript.Text.Numeral
import EventScript.Text.Split

namespace EventScript.Http

/-- The host of an address. -/
inductive Host where
  | domain (name : String)
  | ipv4 (address : Nat)
  /-- The eight groups of 16 bits. -/
  | ipv6 (groups : List Nat)
deriving DecidableEq, Repr

namespace Host

-- ================================================================== short

/-- A number of an IPv4 address: decimal, octal behind a zero, hexadecimal behind `0x`. -/
def number? (cs : List Char) : Option Nat :=
  let digits (radix : Nat) (cs : List Char) : Option Nat := Text.digitsFrom? radix 0 cs
  match cs with
  | [] => none
  | '0' :: 'x' :: rest => digits 16 rest
  | '0' :: 'X' :: rest => digits 16 rest
  | '0' :: c :: rest => digits 8 (c :: rest)
  | cs => digits 10 cs

/-- The labels of a name; an empty last one does not count. -/
def labels (cs : List Char) : List (List Char) :=
  let pieces := Text.piecesAt (· == '.') cs
  if pieces.getLast? = some [] then pieces.dropLast else pieces

/-- Whether the last label is a number, so that the name can only be an IPv4 address. -/
def endsInNumber (cs : List Char) : Bool :=
  match (labels cs).getLast? with
  | none => false
  | some l => (!l.isEmpty && l.all Char.isDigit) || (number? l).isSome

/-- The address of numbers from the most significant; the last fills what the others
leave. -/
def address? : List Nat → Option Nat
  | [a] => if a < 0x100000000 then some a else none
  | [a, b] => if a < 256 ∧ b < 0x1000000 then some (a * 0x1000000 + b) else none
  | [a, b, c] =>
    if a < 256 ∧ b < 256 ∧ c < 0x10000 then some (a * 0x1000000 + b * 0x10000 + c) else none
  | [a, b, c, d] =>
    if a < 256 ∧ b < 256 ∧ c < 256 ∧ d < 256 then
      some (a * 0x1000000 + b * 0x10000 + c * 0x100 + d)
    else none
  | _ => none

/-- The address of four numbers between dots, or of fewer where the last stands for the rest. -/
def ipv4? (cs : List Char) : Option Nat := ((labels cs).mapM number?).bind address?

-- =================================================================== long

/-- A decimal part of an IPv4 tail: up to 255 and without leading zeros. -/
def tailPart? (cs : List Char) : Option Nat :=
  match cs with
  | '0' :: _ :: _ => none
  | cs => (Text.natural? 10 cs).filter (· < 256)

/-- The last one or two groups of 16 bits, which may be written as an IPv4 address. -/
def lastGroups? (cs : List Char) : Option (List Nat) :=
  if cs.contains '.' then
    match (Text.piecesAt (· == '.') cs).mapM tailPart? with
    | some [a, b, c, d] => some [a * 256 + b, c * 256 + d]
    | _ => none
  else if cs.length ≤ 4 then (Text.natural? 16 cs).map fun n => [n]
  else none

/-- The groups written between colons; `final` tells whether the address ends with them. -/
def groups? (final : Bool) : List (List Char) → Option (List Nat)
  | [] => some []
  | [last] =>
    if final then lastGroups? last
    else if last.length ≤ 4 then (Text.natural? 16 last).map fun n => [n] else none
  | piece :: rest => do
    let n ← if piece.length ≤ 4 then Text.natural? 16 piece else none
    let ns ← groups? final rest
    return n :: ns

/-- The groups of one side of a double colon. -/
private def side? (final : Bool) (cs : List Char) : Option (List Nat) :=
  if cs.isEmpty then some [] else groups? final (Text.piecesAt (· == ':') cs)

/-- The groups of an address between colons; two colons stand once for as many zero groups as are
missing to eight. -/
def ipv6? (cs : List Char) : Option (List Nat) :=
  match Text.piecesBy ':' [':'] 0 cs with
  | [whole] => (side? true whole).filter fun gs => gs.length == 8
  | [before, after] => do
    let left ← side? false before
    let right ← side? true after
    let missing := 8 - (left.length + right.length)
    if left.length + right.length ≤ 7 then
      some (left ++ List.replicate missing 0 ++ right)
    else none
  | _ => none

/-- The start and the length of the first longest run of zeros; `here` is the run that ends
before `position`. -/
def longestRun (position here : Nat) (best : Nat × Nat) : List Nat → Nat × Nat
  | [] => best
  | n :: rest =>
    if n = 0 then
      let best := if best.2 < here + 1 then (position - here, here + 1) else best
      longestRun (position + 1) (here + 1) best rest
    else longestRun (position + 1) 0 best rest

/-- The digits of a group, without leading zeros. -/
private def hex (n : Nat) : String := String.ofList (Nat.toDigits 16 n)

/-- The groups with the longest run of two or more zeros left out. -/
def writeGroups (gs : List Nat) : String :=
  let (start, length) := longestRun 0 0 (0, 0) gs
  if 2 ≤ length then
    Text.join ":" ((gs.take start).map hex) ++ "::"
      ++ Text.join ":" ((gs.drop (start + length)).map hex)
  else Text.join ":" (gs.map hex)

-- ================================================================ domains

/-- A character that no domain name has. -/
def isForbidden (c : Char) : Bool :=
  Percent.controls c || c == ' ' || c == '%' || c == '#' || c == '/' || c == ':' || c == '<'
    || c == '>' || c == '?' || c == '@' || c == '[' || c == '\\' || c == ']' || c == '^'
    || c == '|'

/-- A character of a domain name in the form names are compared in. -/
private def normalChar (c : Char) : List Char :=
  if c == '\u3002' || c == '\uFF0E' || c == '\uFF61' then ['.']
  else if c == '\u00AD' then []
  else Text.lowerChar c

/-- A label in ASCII. -/
def asciiLabel (label : List Char) : List Char :=
  if label.all fun c => c.toNat < 0x80 then label
  else ['x', 'n', '-', '-'] ++ Punycode.encode label

/-- The ASCII form of a domain name. -/
def asciiDomain? (name : String) : Option (List Char) :=
  let ascii := ((Text.piecesAt (· == '.') (name.toList.flatMap normalChar)).map
    fun label => asciiLabel label).intersperse ['.'] |>.flatten
  if ascii.isEmpty || ascii.any isForbidden then none else some ascii

/-- The host that a text names. -/
def parse? (cs : List Char) : Option Host :=
  match cs with
  | '[' :: rest =>
    if rest.getLast? = some ']' then (ipv6? rest.dropLast).map ipv6 else none
  | cs => do
    let name ← Percent.decode? cs
    let ascii ← asciiDomain? name
    if endsInNumber ascii then (ipv4? ascii).map ipv4
    else some (domain (String.ofList ascii))

/-- The host as it stands in an address. -/
def write : Host → String
  | domain name => name
  | ipv4 a =>
    let parts := [a / 0x1000000, a / 0x10000 % 256, a / 0x100 % 256, a % 256]
    Text.join "." (parts.map toString)
  | ipv6 gs => "[" ++ writeGroups gs ++ "]"

end Host
end EventScript.Http
