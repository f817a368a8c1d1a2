/-
The text of JSON values, on one line and indented. Strings escape the quote, the
backslash and the control characters below the space, and write everything else as it is.
-/
import EventScript.Json.Basic

namespace EventScript.Json

/-- The escape of a character inside a string. -/
def escapeChar (c : Char) : List Char :=
  if c == '"' then ['\\', '"']
  else if c == '\\' then ['\\', '\\']
  else if c == '\n' then ['\\', 'n']
  else if c == '\r' then ['\\', 'r']
  else if c == '\t' then ['\\', 't']
  else if c == '\x08' then ['\\', 'b']
  else if c == '\x0C' then ['\\', 'f']
  else if c.toNat < 0x20 then
    ['\\', 'u', '0', '0', Nat.digitChar (c.toNat / 16), Nat.digitChar (c.toNat % 16)]
  else [c]

/-- A string between quotes. -/
def quoted (s : String) : String :=
  String.ofList ('"' :: s.toList.flatMap escapeChar ++ ['"'])

mutual
/-- The value on one line, without blanks. -/
def compact : Json → String
  | null => "null"
  | bool true => "true"
  | bool false => "false"
  | number n => n.write
  | string s => quoted s
  | array items => "[" ++ compactItems items ++ "]"
  | object members => "\x7b" ++ compactMembers members ++ "\x7d"

/-- Values between commas. -/
def compactItems : List Json → String
  | [] => ""
  | [v] => compact v
  | v :: rest => compact v ++ "," ++ compactItems rest

/-- Members between commas, the names in quotes. -/
def compactMembers : List (String × Json) → String
  | [] => ""
  | [(k, v)] => quoted k ++ ":" ++ compact v
  | (k, v) :: rest => quoted k ++ ":" ++ compact v ++ "," ++ compactMembers rest
end

/-- The start of a line at a depth: two blanks a level. -/
def newLine (depth : Nat) : String :=
  "\n" ++ String.ofList (List.replicate (2 * depth) ' ')

mutual
/-- The value with every item and member on a line of its own, `depth` levels in. Empty
containers stay closed. -/
def indentedAt (depth : Nat) : Json → String
  | array [] => "[]"
  | object [] => "\x7b\x7d"
  | array items => "[" ++ indentedItems (depth + 1) items ++ newLine depth ++ "]"
  | object members => "\x7b" ++ indentedMembers (depth + 1) members ++ newLine depth ++ "\x7d"
  | null => "null"
  | bool true => "true"
  | bool false => "false"
  | number n => n.write
  | string s => quoted s

/-- Values between commas, each on a line of its own. -/
def indentedItems (depth : Nat) : List Json → String
  | [] => ""
  | [v] => newLine depth ++ indentedAt depth v
  | v :: rest => newLine depth ++ indentedAt depth v ++ "," ++ indentedItems depth rest

/-- Members between commas, each on a line of its own. -/
def indentedMembers (depth : Nat) : List (String × Json) → String
  | [] => ""
  | [(k, v)] => newLine depth ++ quoted k ++ ": " ++ indentedAt depth v
  | (k, v) :: rest =>
    newLine depth ++ quoted k ++ ": " ++ indentedAt depth v ++ "," ++ indentedMembers depth rest
end

/-- The value indented by two blanks a level. -/
def indented (v : Json) : String := indentedAt 0 v

/-- The value in running text: strings bare, everything else on one line. -/
def display : Json → String
  | string s => s
  | v => compact v

end EventScript.Json
