/-
The tokens of a YAML text. Indentation turns into the starts and ends of block
collections; a key token stands before every key, also before one that is only known to be
a key once its colon is met.
-/
import EventScript.Yaml.Scalar

namespace EventScript.Yaml

/-- A token's kind with what it carries. -/
inductive Token where
  | streamEnd
  | version (major minor : Nat)
  | tagShorthand (handle lead : String)
  | documentStart
  | documentEnd
  | blockSequenceStart
  | blockMappingStart
  | blockEnd
  | flowSequenceStart
  | flowSequenceEnd
  | flowMappingStart
  | flowMappingEnd
  | flowEntry
  | blockEntry
  | key
  | value
  | alias (name : String)
  | anchor (name : String)
  | tag (handle suffix : String)
  | scalar (text : String) (plain : Bool)
deriving DecidableEq, Repr

/-- A place where a key may have begun, should a colon follow. -/
structure KeyStart where
  /-- Whether the line can be nothing but a key. -/
  required : Bool
  /-- The number of tokens before it. -/
  position : Nat
  place : Cursor

/-- The state of the lexer between tokens. -/
structure Lexer where
  cursor : Cursor
  /-- The number of open flow collections. -/
  flow : Nat := 0
  /-- The column of the innermost block collection, `-1` outside all of them. -/
  indent : Int := -1
  /-- The columns around it, innermost first. -/
  outer : List Int := []
  /-- Whether a key may start at the next token. -/
  keyAllowed : Bool := true
  /-- For each open flow collection and the blocks around them, innermost first, the place
  where a key may have begun. -/
  keys : List (Option KeyStart) := [none]
  /-- The tokens so far. -/
  tokens : Array Token := #[]

namespace Lexer

/-- A fault where the lexer is. -/
def fail {α : Type} (l : Lexer) (p : Problem) : Except Fault α := .error (l.cursor.fault p)

/-- Adds a token. -/
def emit (l : Lexer) (t : Token) : Lexer := { l with tokens := l.tokens.push t }

/-- Goes on from another place. -/
def moveTo (l : Lexer) (c : Cursor) : Lexer := { l with cursor := c }

/-- Passes characters of the line. -/
def skip (l : Lexer) (n : Nat) : Lexer := l.moveTo (l.cursor.skip n)

-- =============================================================== blocks

/-- Opens a block collection at a column right of the current one; its start goes before
the token at `position`. -/
def openBlock (l : Lexer) (column : Nat) (position : Nat) (start : Token) : Lexer :=
  if l.flow = 0 && l.indent < column then
    { l with
      outer := l.indent :: l.outer
      indent := column
      tokens := l.tokens.insertIdxIfInBounds position start }
  else l

/-- The columns left and the tokens with an end for every block right of a column, innermost
first. -/
def closing (column : Int) : Int → List Int → Array Token → Int × List Int × Array Token
  | indent, [], tokens => (indent, [], tokens)
  | indent, next :: outer, tokens =>
    if column < indent then closing column next outer (tokens.push .blockEnd)
    else (indent, next :: outer, tokens)

/-- Closes the block collections right of a column. -/
def closeBlocks (l : Lexer) (column : Int) : Lexer :=
  if l.flow ≠ 0 then l
  else
    let (indent, outer, tokens) := closing column l.indent l.outer l.tokens
    { l with indent, outer, tokens }

-- ================================================================= keys

/-- The longest key that needs no explicit key indicator. -/
def maxKeyLength : Nat := 1024

/-- Gives up the innermost possible key; a required one must not be lost. -/
def dropKey (l : Lexer) : Except Fault Lexer :=
  match l.keys with
  | some k :: rest =>
    if k.required then l.fail .keyWithoutColon else .ok { l with keys := none :: rest }
  | _ => .ok l

/-- Notes that a key may begin here. -/
def noteKey (l : Lexer) : Except Fault Lexer :=
  if l.keyAllowed then do
    let l ← l.dropKey
    let required := l.flow = 0 && l.indent == (l.cursor.column : Int)
    .ok { l with keys := some ⟨required, l.tokens.size, l.cursor⟩ :: l.keys.drop 1 }
  else .ok l

/-- The innermost possible key, as long as it is on this line and not too long. -/
def liveKey? (l : Lexer) : Except Fault (Option KeyStart) :=
  match l.keys with
  | some k :: _ =>
    if k.place.line < l.cursor.line || k.place.index + maxKeyLength < l.cursor.index then
      if k.required then l.fail .keyWithoutColon else .ok none
    else .ok (some k)
  | _ => .ok none

-- ========================================================== white space

/-- The place of the next token: past blanks, comments and breaks. A tab counts as a blank
only where no key may start. -/
def toToken : (fuel : Nat) → Lexer → Lexer
  | 0, l => l
  | fuel + 1, l =>
    let l := if l.cursor.column = 0 && l.cursor.isAt '\uFEFF' then l.skip 1 else l
    let tabs := l.flow ≠ 0 || !l.keyAllowed
    let c := (l.cursor.run fun x => x == ' ' || (tabs && x == '\t')).2
    let c := if c.isAt '#' then c.skipLine else c
    match c.break? with
    | some (_, c) =>
      toToken fuel { l with cursor := c, keyAllowed := l.keyAllowed || l.flow = 0 }
    | none => l.moveTo c

-- ================================================ directives and markers

/-- A number of a version directive. -/
private def versionNumber (c : Cursor) : Except Fault (Nat × Cursor) :=
  let (digits, after) := c.run Char.isDigit
  match Text.natural? 10 digits with
  | some n => if digits.length ≤ 9 then .ok (n, after) else .error (c.fault .directive)
  | none => .error (c.fault .directive)

/-- A tag handle: `!`, `!!` or a word between exclamation marks. Where a tag stands, a lone
mark may also be followed by the tag itself. -/
private def tagHandle (inDirective : Bool) (c : Cursor) : Except Fault (List Char × Cursor) :=
  if !c.isAt '!' then .error (c.fault .tagForm)
  else
    let (name, c) := (c.skip 1).run isWord
    if c.isAt '!' then .ok ('!' :: name ++ ['!'], c.skip 1)
    else if inDirective && !name.isEmpty then .error (c.fault .tagForm)
    else .ok ('!' :: name, c)

/-- A byte of a percent escape. -/
private def percentByte? (cs : List Char) : Option UInt8 :=
  match cs with
  | '%' :: a :: b :: _ => (Text.digitsFrom? 16 0 [a, b]).map UInt8.ofNat
  | _ => none

/-- The bytes of percent escapes in a row. -/
private def percentRun : (fuel : Nat) → Cursor → List UInt8 × Cursor
  | 0, c => ([], c)
  | fuel + 1, c => match percentByte? c.rest with
    | some b =>
      let (bs, c) := percentRun fuel (c.skip 3)
      (b :: bs, c)
    | none => ([], c)

/-- The characters of a tag. In angle brackets and directives, flow indicators belong to
it. -/
private def tagChars (whole : Bool) : (fuel : Nat) → Cursor → Except Fault (List Char × Cursor)
  | 0, c => .error (c.fault .endless)
  | fuel + 1, c => match c.next with
    | some '%' =>
      let (bytes, after) := percentRun fuel c
      match String.fromUTF8? ⟨bytes.toArray⟩ with
      | some s => if bytes.isEmpty then .error (c.fault .tagForm) else do
        let (cs, c) ← tagChars whole fuel after
        .ok (s.toList ++ cs, c)
      | none => .error (c.fault .tagForm)
    | some x =>
      if isWord x || isTagMark x || (whole && (x == ',' || x == '[' || x == ']')) then do
        let (cs, c) ← tagChars whole fuel (c.skip 1)
        .ok (x :: cs, c)
      else .ok ([], c)
    | none => .ok ([], c)

/-- The characters that a tag may have from here on, and the place after them. -/
private def tagText (whole : Bool) (c : Cursor) : Except Fault (List Char × Cursor) :=
  tagChars whole (c.rest.length + 1) c

/-- A directive from its percent sign to the end of its line. -/
def directive (c : Cursor) : Except Fault (Token × Cursor) := do
  let (name, c) := (c.skip 1).run isWord
  if name.isEmpty || !c.separates 0 then .error (c.fault .directive)
  else
    let c := c.skipBlanks
    let (token, c) ← match String.ofList name with
      | "YAML" => do
        let (major, c) ← versionNumber c
        if !c.isAt '.' then .error (c.fault .directive)
        else
          let (minor, c) ← versionNumber (c.skip 1)
          .ok (Token.version major minor, c)
      | "TAG" => do
        let (handle, c) ← tagHandle true c
        if !(c.next.any isBlank) then .error (c.fault .directive)
        else
          let (lead, c) ← tagText true c.skipBlanks
          if lead.isEmpty || !c.separates 0 then .error (c.fault .tagForm)
          else .ok (.tagShorthand (String.ofList handle) (String.ofList lead), c)
      | _ => .error (c.fault .directive)
    let c := c.skipBlanks
    let c := if c.isAt '#' then c.skipLine else c
    match c.break? with
    | some (_, c) => .ok (token, c)
    | none => if c.atEnd then .ok (token, c) else .error (c.fault .directive)

/-- What every token that belongs to no block does first. -/
def leaveBlocks (l : Lexer) : Except Fault Lexer := do
  let l ← (l.closeBlocks (-1)).dropKey
  .ok { l with keyAllowed := false }

-- =========================================================== indicators

/-- The opening bracket or brace of a flow collection; the collection may itself be a key, and a
key may begin behind it. -/
private def openFlow (l : Lexer) (t : Token) : Except Fault Lexer := do
  let l ← l.noteKey
  .ok { (l.emit t).skip 1 with flow := l.flow + 1, keys := none :: l.keys, keyAllowed := true }

/-- The closing bracket or brace of a flow collection; a key that was possible inside it is none. -/
private def closeFlow (l : Lexer) (t : Token) : Except Fault Lexer := do
  let l ← l.dropKey
  let keys := if l.flow = 0 then l.keys else l.keys.drop 1
  .ok { (l.emit t).skip 1 with flow := l.flow - 1, keys, keyAllowed := false }

/-- The comma between entries of a flow collection. -/
private def flowEntry (l : Lexer) : Except Fault Lexer := do
  let l ← l.dropKey
  .ok { (l.emit .flowEntry).skip 1 with keyAllowed := true }

/-- The dash of an item; the first one opens the block sequence at its column. -/
private def blockEntry (l : Lexer) : Except Fault Lexer := do
  if l.flow = 0 && !l.keyAllowed then l.fail .entryNotAllowed
  else
    let l := l.openBlock l.cursor.column l.tokens.size .blockSequenceStart
    let l ← l.dropKey
    .ok { (l.emit .blockEntry).skip 1 with keyAllowed := true }

/-- The question mark of a key; the first one opens the block mapping at its column. -/
private def explicitKey (l : Lexer) : Except Fault Lexer := do
  if l.flow = 0 && !l.keyAllowed then l.fail .keyNotAllowed
  else
    let l := l.openBlock l.cursor.column l.tokens.size .blockMappingStart
    let l ← l.dropKey
    .ok { (l.emit .key).skip 1 with keyAllowed := l.flow = 0 }

/-- The colon of a value. Where a key may have begun, the key, and in a block the mapping too,
are put in front of it after the fact; otherwise the key was left out or was explicit. -/
private def value (l : Lexer) : Except Fault Lexer := do
  match ← l.liveKey? with
  | some k =>
    let l := { l with tokens := l.tokens.insertIdxIfInBounds k.position .key }
    let l := l.openBlock k.place.column k.position .blockMappingStart
    .ok { (l.emit .value).skip 1 with keys := none :: l.keys.drop 1, keyAllowed := false }
  | none =>
    if l.flow = 0 && !l.keyAllowed then l.fail .valueNotAllowed
    else
      let l := l.openBlock l.cursor.column l.tokens.size .blockMappingStart
      .ok { (l.emit .value).skip 1 with
        keys := none :: l.keys.drop 1, keyAllowed := l.flow = 0 }

-- ============================================================ properties

/-- An alias or anchor from its indicator on. -/
private def reference (l : Lexer) (token : String → Token) : Except Fault Lexer := do
  let l ← l.noteKey
  let (name, c) := (l.cursor.skip 1).run isWord
  let closes := match c.next with
    | none => true
    | some x => !isInk x || ['?', ':', ',', ']', '}', '%', '@', '\x60'].contains x
  if name.isEmpty || !closes then .error (c.fault .anchorName)
  else .ok { (l.emit (token (String.ofList name))).moveTo c with keyAllowed := false }

/-- A tag in one of its forms: whole in angle brackets, with a handle, or local. -/
private def tagAt (c : Cursor) : Except Fault (Token × Cursor) := do
  if c.ahead 1 == some '<' then
    let (text, c) ← tagText true (c.skip 2)
    if text.isEmpty || !c.isAt '>' then .error (c.fault .tagForm)
    else .ok (.tag "" (String.ofList text), c.skip 1)
  else
    let (handle, c) ← tagHandle false c
    if handle.length > 1 && handle.getLast? == some '!' then
      let (suffix, c) ← tagText false c
      if suffix.isEmpty then .error (c.fault .tagForm)
      else .ok (.tag (String.ofList handle) (String.ofList suffix), c)
    else
      let (suffix, c) ← tagText false c
      let suffix := handle.drop 1 ++ suffix
      if suffix.isEmpty then .ok (.tag "" "!", c)
      else .ok (.tag "!" (String.ofList suffix), c)

/-- A tag, which has to be separated from what follows. -/
private def tag (l : Lexer) : Except Fault Lexer := do
  let l ← l.noteKey
  let (t, c) ← tagAt l.cursor
  if c.separates 0 || (l.flow ≠ 0 && c.isAt ',') then
    .ok { (l.emit t).moveTo c with keyAllowed := false }
  else .error (c.fault .tagForm)

-- =============================================================== scalars

/-- A quoted scalar; it may be a key. -/
private def quotedScalar (l : Lexer) (single : Bool) : Except Fault Lexer := do
  let l ← l.noteKey
  let (text, c) ← quoted single l.cursor
  .ok { (l.emit (.scalar (String.ofList text) false)).moveTo c with keyAllowed := false }

/-- A literal or a folded scalar; it is never a key, and a key may begin behind it. -/
private def blockScalar (l : Lexer) (literal : Bool) : Except Fault Lexer := do
  let l ← l.dropKey
  let (text, c) ← block literal l.indent l.cursor
  .ok { (l.emit (.scalar (String.ofList text) false)).moveTo c with keyAllowed := true }

/-- A plain scalar; it may be a key, and a key may begin behind it where it ends with its line. -/
def plainScalar (l : Lexer) : Except Fault Lexer := do
  let l ← l.noteKey
  let (text, broken, c) ← plain (l.flow ≠ 0) (l.indent + 1) l.cursor
  .ok { (l.emit (.scalar (String.ofList text) true)).moveTo c with keyAllowed := broken }

-- ============================================================ the lexer

/-- Whether a plain scalar can start with `x` where `separated` says whether a gap
follows. -/
def startsPlain (inFlow : Bool) (x : Char) (next : Option Char) : Bool :=
  let separated := match next with
    | none => true
    | some y => !isInk y
  let blankNext := next.any isBlank
  (isInk x && !("-?:,[]#&*!|>'\"%@\x60".toList.contains x) && x != '{' && x != '}')
    || (x == '-' && !blankNext)
    || (!inFlow && (x == '?' || x == ':') && !separated)

/-- The next token at its place. -/
def token (l : Lexer) (x : Char) : Except Fault Lexer :=
  let c := l.cursor
  let indicates := l.flow ≠ 0 || c.separates 1
  if c.column = 0 && x == '%' then do
    let l ← leaveBlocks l
    let (t, c) ← directive c
    .ok ((l.emit t).moveTo c)
  else if c.atMarker '-' then do
    let l ← leaveBlocks l
    .ok ((l.emit .documentStart).skip 3)
  else if c.atMarker '.' then do
    let l ← leaveBlocks l
    .ok ((l.emit .documentEnd).skip 3)
  else if x == '[' then openFlow l .flowSequenceStart
  else if x == '{' then openFlow l .flowMappingStart
  else if x == ']' then closeFlow l .flowSequenceEnd
  else if x == '}' then closeFlow l .flowMappingEnd
  else if x == ',' then flowEntry l
  else if x == '-' && c.separates 1 then blockEntry l
  else if x == '?' && indicates then explicitKey l
  else if x == ':' && indicates then value l
  else if x == '*' then reference l .alias
  else if x == '&' then reference l .anchor
  else if x == '!' then tag l
  else if x == '|' && l.flow = 0 then blockScalar l true
  else if x == '>' && l.flow = 0 then blockScalar l false
  else if x == '\'' then quotedScalar l true
  else if x == '"' then quotedScalar l false
  else if startsPlain (l.flow ≠ 0) x (c.ahead 1) then plainScalar l
  else l.fail .strayCharacter

/-- The tokens from a state on. -/
def finish : (fuel : Nat) → Lexer → Except Fault (List Token)
  | 0, l => l.fail .endless
  | fuel + 1, l => do
    let l := toToken (l.cursor.rest.length + 1) l
    let l := l.closeBlocks l.cursor.column
    match l.cursor.next with
    | none =>
      let l ← leaveBlocks l
      .ok (l.emit .streamEnd).tokens.toList
    | some x => do
      let l ← token l x
      finish fuel l

end Lexer

/-- The line of the first character that no document may contain. -/
private def firstForbidden? : Cursor → (fuel : Nat) → Option Nat
  | _, 0 => none
  | c, fuel + 1 => match c.break? with
    | some (_, after) => firstForbidden? after fuel
    | none => match c.next with
      | none => none
      | some x => if isPermitted x then firstForbidden? (c.skip 1) fuel else some c.line

/-- The tokens of a text. Every token but the last takes at least one character. -/
def Token.ofText (cs : List Char) : Except Fault (List Token) :=
  match firstForbidden? (.ofText cs) (cs.length + 1) with
  | some line => .error ⟨.controlCharacter, some line⟩
  | none => Lexer.finish (cs.length + 2) { cursor := .ofText cs }

end EventScript.Yaml
