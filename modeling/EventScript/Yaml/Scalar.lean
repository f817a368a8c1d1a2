/-
The text of scalars: plain, quoted and block. Each reader starts at the first character
that belongs to the scalar and gives back its text, the place after it, and for a plain
scalar whether it ended by a line break. Breaks between two lines of text fold to a blank;
what several breaks become is `Gap.text`.
-/
import EventScript.Yaml.Cursor
import EventScript.Text.Numeral

namespace EventScript.Yaml

-- ================================================================= gaps

/-- The blanks and breaks between two stretches of text. -/
structure Gap where
  /-- Whether a line was left, by a break or by an escaped one. -/
  broken : Bool := false
  /-- Blanks, while no line was left. -/
  blanks : List Char := []
  /-- The first break, which folds. -/
  first : Option Char := none
  /-- The further breaks. -/
  more : List Char := []

/-- What a gap puts between its two stretches. -/
def Gap.text (g : Gap) : List Char :=
  if !g.broken then g.blanks
  else match g.first with
    | some '\n' => if g.more.isEmpty then [' '] else g.more
    | some x => x :: g.more
    | none => g.more

/-- The gap at a place, continuing one already begun. A tab that stands for indentation
left of `indent` is refused. -/
def Gap.scan (indent : Int) : (fuel : Nat) → Gap → Cursor → Except Fault (Gap × Cursor)
  | 0, g, c => .ok (g, c)
  | fuel + 1, g, c => match c.next with
    | none => .ok (g, c)
    | some x =>
      if isBlank x then
        if g.broken && (c.column : Int) < indent && x == '\t' then
          .error (c.fault .tabInIndentation)
        else
          let g := if g.broken then g else { g with blanks := g.blanks ++ [x] }
          Gap.scan indent fuel g (c.skip 1)
      else match c.break? with
        | none => .ok (g, c)
        | some (b, c) =>
          let g : Gap :=
            if g.broken then { g with more := g.more ++ [b] }
            else { broken := true, first := some b }
          Gap.scan indent fuel g c

-- ======================================================== plain scalars

/-- How many characters of a plain scalar follow without a gap; `none` at a colon that
stands before a flow indicator. -/
def plainRun? (inFlow : Bool) : List Char → Option Nat
  | [] => some 0
  | x :: rest =>
    let beforeMark := match rest with
      | y :: _ => isFlowMark y || y == '?'
      | [] => false
    let beforeGap := match rest with
      | y :: _ => !isInk y
      | [] => true
    if !isInk x then some 0
    else if inFlow && x == ':' && beforeMark then none
    else if (x == ':' && beforeGap) || (inFlow && isFlowMark x) then some 0
    else (plainRun? inFlow rest).map (· + 1)

/-- A plain scalar from its text so far, last character first, and the gap after it. -/
def plainFrom (inFlow : Bool) (indent : Int) :
    (fuel : Nat) → List Char → Gap → Cursor → Except Fault (List Char × Bool × Cursor)
  | 0, _, _, c => .error (c.fault .endless)
  | fuel + 1, sofar, gap, c =>
    if c.atDocumentMarker || c.isAt '#' then .ok (sofar, gap.broken, c)
    else match plainRun? inFlow c.rest with
      | none => .error (c.fault .colonInFlow)
      | some n =>
        let (sofar, gap) :=
          if n = 0 then (sofar, gap)
          else ((c.rest.take n).reverse ++ gap.text.reverse ++ sofar, {})
        let c := c.skip n
        if c.atEnd || !c.separates 0 then .ok (sofar, gap.broken, c)
        else do
          let (gap, c) ← Gap.scan indent (c.rest.length + 1) gap c
          if !inFlow && (c.column : Int) < indent then .ok (sofar, gap.broken, c)
          else plainFrom inFlow indent fuel sofar gap c

/-- A plain scalar: its text, whether a line was left behind it, and the place after. -/
def plain (inFlow : Bool) (indent : Int) (c : Cursor) :
    Except Fault (List Char × Bool × Cursor) := do
  let (sofar, broken, c) ← plainFrom inFlow indent (c.rest.length + 1) [] {} c
  .ok (sofar.reverse, broken, c)

-- ======================================================= quoted scalars

/-- What an escape stands for, or how many hexadecimal digits its code has. -/
def escape? : Char → Option (Char ⊕ Nat)
  | '0' => some (.inl '\x00')
  | 'a' => some (.inl '\x07')
  | 'b' => some (.inl '\x08')
  | 't' => some (.inl '\t')
  | '\t' => some (.inl '\t')
  | 'n' => some (.inl '\n')
  | 'v' => some (.inl '\x0B')
  | 'f' => some (.inl '\x0C')
  | 'r' => some (.inl '\r')
  | 'e' => some (.inl '\x1B')
  | ' ' => some (.inl ' ')
  | '"' => some (.inl '"')
  | '/' => some (.inl '/')
  | '\\' => some (.inl '\\')
  | 'N' => some (.inl '\u0085')
  | '_' => some (.inl '\u00A0')
  | 'L' => some (.inl '\u2028')
  | 'P' => some (.inl '\u2029')
  | 'x' => some (.inr 2)
  | 'u' => some (.inr 4)
  | 'U' => some (.inr 8)
  | _ => none

/-- The character an escape at a backslash stands for, and the place after it. -/
def escaped (c : Cursor) : Except Fault (Char × Cursor) :=
  match (c.ahead 1).bind escape? with
  | none => .error (c.fault .unknownEscape)
  | some (.inl x) => .ok (x, c.skip 2)
  | some (.inr width) =>
    let digits := (c.rest.drop 2).take width
    if digits.length < width then .error (c.fault .escapeDigits)
    else match Text.natural? 16 digits with
      | none => .error (c.fault .escapeDigits)
      | some n =>
        if n.isValidChar then .ok (Char.ofNat n, c.skip (2 + width))
        else .error (c.fault .escapeCode)

/-- The characters of a quoted scalar up to a gap or its closing quote, last one first, and
whether an escaped break ended them. -/
def quotedRun (single : Bool) :
    (fuel : Nat) → List Char → Cursor → Except Fault (List Char × Bool × Cursor)
  | 0, _, c => .error (c.fault .endless)
  | fuel + 1, sofar, c =>
    if c.separates 0 then .ok (sofar, false, c)
    else match c.rest with
      | [] => .ok (sofar, false, c)
      | x :: _ =>
        if single && x == '\'' then
          if c.ahead 1 == some '\'' then quotedRun single fuel ('\'' :: sofar) (c.skip 2)
          else .ok (sofar, false, c)
        else if !single && x == '"' then .ok (sofar, false, c)
        else if !single && x == '\\' then
          match (c.skip 1).break? with
          | some (_, after) => .ok (sofar, true, after)
          | none => do
            let (e, c) ← escaped c
            quotedRun single fuel (e :: sofar) c
        else quotedRun single fuel (x :: sofar) (c.skip 1)

/-- The characters up to the closing quote, last first, and the place after it: runs on a line
and the gaps between them, line breaks folded. -/
def quotedFrom (single : Bool) :
    (fuel : Nat) → List Char → Cursor → Except Fault (List Char × Cursor)
  | 0, _, c => .error (c.fault .endless)
  | fuel + 1, sofar, c =>
    if c.atDocumentMarker then .error (c.fault .documentMarkerInQuotes)
    else if c.atEnd then .error (c.fault .unclosedQuote)
    else do
      let (sofar, escapedBreak, c) ← quotedRun single (c.rest.length + 1) sofar c
      if !escapedBreak && c.isAt (if single then '\'' else '"') then .ok (sofar, c.skip 1)
      else
        let (gap, c) ← Gap.scan 0 (c.rest.length + 1) { broken := escapedBreak } c
        quotedFrom single fuel (gap.text.reverse ++ sofar) c

/-- A quoted scalar from its opening quote on. -/
def quoted (single : Bool) (c : Cursor) : Except Fault (List Char × Cursor) := do
  let (sofar, c) ← quotedFrom single (c.rest.length + 1) [] (c.skip 1)
  .ok (sofar.reverse, c)

-- ======================================================== block scalars

/-- What happens to the breaks at the end of a block scalar. -/
inductive Chomping where
  | strip
  | clip
  | keep
deriving DecidableEq

/-- The header of a block scalar after its indicator: chomping and the indentation
relative to the parent, zero when it is to be detected. -/
def blockHeader (c : Cursor) : Except Fault (Chomping × Nat × Cursor) := do
  let chomping? (c : Cursor) : Option Chomping := match c.next with
    | some '+' => some .keep
    | some '-' => some .strip
    | _ => none
  let digit? (c : Cursor) : Option Nat := c.next.bind fun x =>
    if x.isDigit then some (x.toNat - 0x30) else none
  let checked (n : Nat) (c : Cursor) : Except Fault (Nat × Cursor) :=
    if n = 0 then .error (c.fault .blockHeader) else .ok (n, c.skip 1)
  match chomping? c with
  | some chomping =>
    let c := c.skip 1
    match digit? c with
    | some n => do
      let (n, c) ← checked n c
      .ok (chomping, n, c)
    | none => .ok (chomping, 0, c)
  | none => match digit? c with
    | some n => do
      let (n, c) ← checked n c
      match chomping? c with
      | some chomping => .ok (chomping, n, c.skip 1)
      | none => .ok (.clip, n, c)
    | none => .ok (.clip, 0, c)

/-- The empty lines at a place: their breaks, the widest indentation met, and the place of
the first character beyond. While `indent` is zero every leading blank is indentation. -/
def blockBreaks (indent : Nat) :
    (fuel : Nat) → List Char → (widest : Nat) → Cursor → Except Fault (List Char × Nat × Cursor)
  | 0, _, _, c => .error (c.fault .endless)
  | fuel + 1, breaks, widest, c =>
    let spaces := (c.rest.takeWhile (· == ' ')).length
    let c := c.skip (if indent = 0 then spaces else min spaces (indent - c.column))
    let widest := max widest c.column
    if (indent = 0 || c.column < indent) && c.isAt '\t' then
      .error (c.fault .tabInIndentation)
    else match c.break? with
      | some (b, c) => blockBreaks indent fuel (breaks ++ [b]) widest c
      | none => .ok (breaks, widest, c)

/-- What was read of a block scalar: its text, last character first, the break of its last
line, and whether that line began with a blank. -/
structure BlockLines where
  sofar : List Char := []
  lastBreak : Option Char := none
  indented : Bool := false

/-- The lines of a block scalar. `breaks` are the empty lines before the place. -/
def blockLines (literal : Bool) (indent : Nat) :
    (fuel : Nat) → BlockLines → (breaks : List Char) → Cursor →
      Except Fault (BlockLines × List Char × Cursor)
  | 0, _, _, c => .error (c.fault .endless)
  | fuel + 1, ls, breaks, c =>
    if c.column ≠ indent || c.atEnd then .ok (ls, breaks, c)
    else
      let indented := (c.next.map isBlank).getD false
      let folds := !literal && ls.lastBreak == some '\n' && !ls.indented && !indented
      let joint :=
        if folds then (if breaks.isEmpty then [' '] else []) else ls.lastBreak.toList
      let (text, c) := c.run fun x => !isBreak x
      let sofar := text.reverse ++ breaks.reverse ++ joint.reverse ++ ls.sofar
      let (lastBreak, c) := match c.break? with
        | some (b, c) => (some b, c)
        | none => (none, c)
      do
        let (breaks, _, c) ← blockBreaks indent (c.rest.length + 1) [] 0 c
        blockLines literal indent fuel ⟨sofar, lastBreak, indented⟩ breaks c

/-- A block scalar from its indicator on, inside a parent at column `parent`. -/
def block (literal : Bool) (parent : Int) (c : Cursor) : Except Fault (List Char × Cursor) := do
  let (chomping, increment, c) ← blockHeader (c.skip 1)
  let c := c.skipBlanks
  let c := if c.isAt '#' then c.skipLine else c
  let c ← match c.break? with
    | some (_, c) => .ok c
    | none => if c.atEnd then .ok c else .error (c.fault .blockHeader)
  let given : Nat := if increment = 0 then 0 else (max parent 0).toNat + increment
  let (breaks, widest, c) ← blockBreaks given (c.rest.length + 1) [] 0 c
  let indent := if given = 0 then max (max widest (parent + 1).toNat) 1 else given
  let (ls, breaks, c) ← blockLines literal indent (c.rest.length + 1) {} breaks c
  let tail := match chomping with
    | .strip => []
    | .clip => ls.lastBreak.toList
    | .keep => ls.lastBreak.toList ++ breaks
  .ok (ls.sofar.reverse ++ tail, c)

end EventScript.Yaml
