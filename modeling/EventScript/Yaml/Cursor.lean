/-
A place in a text: what is left, and how far along and how far in the line it starts.
Columns decide the structure of a document, so every step keeps them.
-/
import EventScript.Yaml.Character

namespace EventScript.Yaml

/-- A place in a text, counted in characters from zero. -/
structure Cursor where
  rest : List Char
  index : Nat
  line : Nat
  column : Nat

namespace Cursor

/-- The place before the first character. -/
def ofText (cs : List Char) : Cursor := ⟨cs, 0, 0, 0⟩

/-- The character `n` places on. -/
def ahead (c : Cursor) (n : Nat) : Option Char := c.rest[n]?

/-- The character ahead, if the text is not at its end. -/
def next (c : Cursor) : Option Char := c.rest.head?

/-- Whether the character ahead is `x`. -/
def isAt (c : Cursor) (x : Char) : Bool := c.next == some x

/-- Whether nothing is ahead. -/
def atEnd (c : Cursor) : Bool := c.rest.isEmpty

/-- Whether the character `n` places on separates words: a blank, a break or the end. -/
def separates (c : Cursor) (n : Nat) : Bool :=
  match c.ahead n with
  | none => true
  | some x => !isInk x

/-- The place `n` characters on in the same line. -/
def skip (c : Cursor) (n : Nat) : Cursor :=
  { c with rest := c.rest.drop n, index := c.index + n, column := c.column + n }

/-- The characters as long as `p` holds, and the place after them. -/
def run (c : Cursor) (p : Char → Bool) : List Char × Cursor :=
  let found := c.rest.takeWhile p
  (found, c.skip found.length)

/-- The place after the blanks ahead. -/
def skipBlanks (c : Cursor) : Cursor := (c.run isBlank).2

/-- The place at the end of the line, its break still ahead. -/
def skipLine (c : Cursor) : Cursor := (c.run fun x => !isBreak x).2

/-- A break at the place, as it enters a scalar, and the place after it. The separators of
Unicode stay themselves; every other break becomes a line feed. -/
def break? (c : Cursor) : Option (Char × Cursor) :=
  let after (n : Nat) : Cursor := ⟨c.rest.drop n, c.index + n, c.line + 1, 0⟩
  match c.rest with
  | '\r' :: '\n' :: _ => some ('\n', after 2)
  | x :: _ =>
    if x == '\u2028' || x == '\u2029' then some (x, after 1)
    else if isBreak x then some ('\n', after 1)
    else none
  | [] => none

/-- Whether a line starts here with three times `x` and nothing more in the word. -/
def atMarker (c : Cursor) (x : Char) : Bool :=
  c.column == 0 && c.rest.take 3 == [x, x, x] && c.separates 3

/-- Whether a document starts or ends on this line. -/
def atDocumentMarker (c : Cursor) : Bool := c.atMarker '-' || c.atMarker '.'

/-- A fault on the line of the place. -/
def fault (c : Cursor) (p : Problem) : Fault := ⟨p, some c.line⟩

end Cursor
end EventScript.Yaml
