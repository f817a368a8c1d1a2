/-
The nodes of a YAML document and how they are read off its tokens. Anchored nodes are
numbered as they are met, an alias keeps the number its name had at that moment. The
number is the count of different names so far, so a name used again takes the number that
the next new name will also get; the node met last under a number is the one meant.
-/
import EventScript.Yaml.Token

namespace EventScript.Yaml

/-- What stands before a node. -/
structure Properties where
  anchor : Option Nat := none
  tag : Option String := none

/-- A node. -/
inductive Node where
  | scalar (properties : Properties) (text : String) (plain : Bool)
  | sequence (properties : Properties) (items : List Node)
  | mapping (properties : Properties) (entries : List (Node × Node))
  | alias (anchor : Nat)

namespace Node

/-- The empty plain scalar, which stands where a node is left out. -/
def missing : Node := .scalar {} "" true

/-- The state of reading: the tokens left, the tag shorthands of the document, and the
anchors by name. -/
structure Reading where
  tokens : List Token
  shorthands : List (String × String)
  anchors : List (String × Nat) := []

/-- A step of reading. -/
abbrev Step := StateT Reading (Except Fault)

/-- A fault that is on no line. -/
private def fail {α : Type} (p : Problem) : Step α := throw { problem := p }

/-- The next token. -/
private def peek : Step Token := do
  return ((← get).tokens.head?).getD .streamEnd

/-- Passes a token. -/
private def drop : Step Unit := modify fun r => { r with tokens := r.tokens.drop 1 }

/-- The next token, passed. -/
private def take : Step Token := do
  let t ← peek
  drop
  return t

-- =========================================================== properties

/-- The number of a name that is anchored here. -/
private def anchorNumber (name : String) : Step Nat := do
  let r ← get
  let n := r.anchors.length
  let anchors := (name, n) :: r.anchors.filter fun a => a.1 ≠ name
  set { r with anchors }
  return n

/-- A tag without shorthand. -/
private def fullTag (handle suffix : String) : Step String := do
  if handle == "" then return suffix
  else match (← get).shorthands.find? fun s => s.1 == handle with
    | some (_, lead) => return lead ++ suffix
    | none => fail .undefinedTagHandle

/-- Anchor and tag in either order, each at most once. -/
private def properties : Step Properties := do
  match ← peek with
  | .anchor name =>
    drop
    let n ← anchorNumber name
    match ← peek with
    | .tag handle suffix =>
      drop
      return ⟨some n, some (← fullTag handle suffix)⟩
    | _ => return ⟨some n, none⟩
  | .tag handle suffix =>
    drop
    match ← peek with
    | .anchor name =>
      drop
      let tag ← fullTag handle suffix
      return ⟨some (← anchorNumber name), some tag⟩
    | _ => return ⟨none, some (← fullTag handle suffix)⟩
  | _ => return {}

/-- What stands where the item of a block sequence was left out. -/
private def endsBlockItem : Token → Bool
  | .blockEntry | .blockEnd => true
  | _ => false

/-- What stands where the item of a sequence without indentation was left out; the mapping around
it may go on. -/
private def endsIndentlessItem : Token → Bool
  | .blockEntry | .key | .value | .blockEnd => true
  | _ => false

/-- What stands where the key or the value of a block mapping was left out. -/
private def endsBlockPart : Token → Bool
  | .key | .value | .blockEnd => true
  | _ => false

/-- What stands where the key of a pair in a flow sequence was left out. -/
private def endsPairKey : Token → Bool
  | .value | .flowEntry | .flowSequenceEnd => true
  | _ => false

/-- What stands where the value of a pair in a flow sequence was left out. -/
private def endsPairValue : Token → Bool
  | .flowEntry | .flowSequenceEnd => true
  | _ => false

/-- What stands where the key of a flow mapping was left out. -/
private def endsFlowKey : Token → Bool
  | .value | .flowEntry | .flowMappingEnd => true
  | _ => false

/-- What stands where the value of a flow mapping was left out. -/
private def endsFlowValue : Token → Bool
  | .flowEntry | .flowMappingEnd => true
  | _ => false

-- ================================================================ nodes

/-- Properties alone make an empty scalar; nothing at all is no node. -/
private def emptyOr (ps : Properties) : Step Node :=
  if ps.anchor.isSome || ps.tag.isSome then return .scalar ps "" true
  else fail .expectedNode

mutual
/-- A node. `block` says whether block collections may start here, `indentless` whether a
sequence may stand at the column of its key. -/
def read (fuel : Nat) (block indentless : Bool) : Step Node :=
  match fuel with
  | 0 => fail .endless
  | fuel + 1 => do
    match ← peek with
    | .alias name =>
      drop
      match (← get).anchors.find? fun a => a.1 == name with
      | some (_, n) => return .alias n
      | none => fail .unknownAnchor
    | _ =>
      let ps ← properties
      match ← peek with
      | .blockEntry =>
        if indentless then return .sequence ps (← indentlessItems fuel)
        else emptyOr ps
      | .scalar text plain =>
        drop
        return .scalar ps text plain
      | .flowSequenceStart =>
        drop
        return .sequence ps (← flowItems fuel true)
      | .flowMappingStart =>
        drop
        return .mapping ps (← flowEntries fuel true)
      | .blockSequenceStart =>
        if block then
          drop
          return .sequence ps (← blockItems fuel)
        else emptyOr ps
      | .blockMappingStart =>
        if block then
          drop
          return .mapping ps (← blockEntries fuel)
        else emptyOr ps
      | _ => emptyOr ps

/-- A node, or the missing one where a token says that none follows. -/
private def readUnless (fuel : Nat) (ends : Token → Bool) (block indentless : Bool) : Step Node :=
  match fuel with
  | 0 => fail .endless
  | fuel + 1 => do
    if ends (← peek) then return missing else read fuel block indentless

/-- The items of a block sequence and its end. -/
private def blockItems (fuel : Nat) : Step (List Node) :=
  match fuel with
  | 0 => fail .endless
  | fuel + 1 => do
    match ← take with
    | .blockEntry =>
      let item ← readUnless fuel endsBlockItem true false
      return item :: (← blockItems fuel)
    | .blockEnd => return []
    | _ => fail .expectedEntry

/-- The items of a sequence at the column of its key. -/
private def indentlessItems (fuel : Nat) : Step (List Node) :=
  match fuel with
  | 0 => fail .endless
  | fuel + 1 => do
    match ← peek with
    | .blockEntry =>
      drop
      let item ← readUnless fuel endsIndentlessItem true false
      return item :: (← indentlessItems fuel)
    | _ => return []

/-- The entries of a block mapping and its end. -/
private def blockEntries (fuel : Nat) : Step (List (Node × Node)) :=
  match fuel with
  | 0 => fail .endless
  | fuel + 1 => do
    match ← peek with
    | .key =>
      drop
      let k ← readUnless fuel endsBlockPart true true
      let v ← blockValue fuel
      return (k, v) :: (← blockEntries fuel)
    | .blockEnd =>
      drop
      return []
    | _ => fail .expectedKey

/-- The value after a key of a block mapping. -/
private def blockValue (fuel : Nat) : Step Node :=
  match fuel with
  | 0 => fail .endless
  | fuel + 1 => do
    match ← peek with
    | .value =>
      drop
      readUnless fuel endsBlockPart true true
    | _ => return missing

/-- The items of a flow sequence after its bracket, or after an item. An item with a key
is a mapping of its own. -/
private def flowItems (fuel : Nat) (first : Bool) : Step (List Node) :=
  match fuel with
  | 0 => fail .endless
  | fuel + 1 => do
    match ← peek with
    | .flowSequenceEnd =>
      drop
      return []
    | t =>
      if !first then
        match t with
        | .flowEntry => drop
        | _ => fail .expectedSequenceEnd
      match ← peek with
      | .flowSequenceEnd =>
        drop
        return []
      | .key =>
        drop
        let k ← pairKey fuel
        let v ← pairValue fuel
        return .mapping {} [(k, v)] :: (← flowItems fuel false)
      | _ =>
        let item ← read fuel false false
        return item :: (← flowItems fuel false)

/-- The key of a single pair in a flow sequence. A key left out takes the token behind it
along. -/
private def pairKey (fuel : Nat) : Step Node :=
  match fuel with
  | 0 => fail .endless
  | fuel + 1 => do
    if endsPairKey (← peek) then
      drop
      return missing
    else read fuel false false

/-- The value of a pair in a flow sequence, missing where there is no colon. -/
private def pairValue (fuel : Nat) : Step Node :=
  match fuel with
  | 0 => fail .endless
  | fuel + 1 => do
    match ← peek with
    | .value =>
      drop
      readUnless fuel endsPairValue false false
    | _ => return missing

/-- The entries of a flow mapping after its brace, or after an entry. -/
private def flowEntries (fuel : Nat) (first : Bool) : Step (List (Node × Node)) :=
  match fuel with
  | 0 => fail .endless
  | fuel + 1 => do
    match ← peek with
    | .flowMappingEnd =>
      drop
      return []
    | t =>
      if !first then
        match t with
        | .flowEntry => drop
        | _ => fail .expectedMappingEnd
      match ← peek with
      | .flowMappingEnd =>
        drop
        return []
      | .key =>
        drop
        let k ← readUnless fuel endsFlowKey false false
        let v ← flowValue fuel
        return (k, v) :: (← flowEntries fuel false)
      | _ =>
        let k ← read fuel false false
        return (k, missing) :: (← flowEntries fuel false)

/-- The value of an entry in a flow mapping, missing where there is no colon. -/
private def flowValue (fuel : Nat) : Step Node :=
  match fuel with
  | 0 => fail .endless
  | fuel + 1 => do
    match ← peek with
    | .value =>
      drop
      readUnless fuel endsFlowValue false false
    | _ => return missing
end

-- ============================================================ documents

/-- The shorthands every document starts with. -/
def defaultShorthands : List (String × String) := [("!", "!"), ("!!", "tag:yaml.org,2002:")]

/-- The directives before a document: the version at most once, and one of those known;
each shorthand handle at most once. -/
private def directives (version : Bool) (declared : List (String × String)) :
    List Token → Except Fault (Bool × List (String × String) × List Token)
  | .version major minor :: rest =>
    if version || major ≠ 1 || !(minor = 1 || minor = 2) then .error { problem := .directive }
    else directives true declared rest
  | .tagShorthand handle lead :: rest =>
    if declared.any fun d => d.1 == handle then .error { problem := .directive }
    else directives version (declared ++ [(handle, lead)]) rest
  | rest => .ok (version, declared, rest)

/-- The tokens behind the ends of documents in front. -/
private def withoutMarkers : List Token → List Token
  | .documentEnd :: rest => withoutMarkers rest
  | ts => ts

/-- Whether a token ends a document that has no content. -/
private def endsDocument : Token → Bool
  | .version .. | .tagShorthand .. | .documentStart | .documentEnd | .streamEnd => true
  | _ => false

/-- The document of a text with at most one; `none` when there is none. -/
def document? (tokens : List Token) : Except Fault (Option Node) := do
  let fuel := 8 * tokens.length + 8
  let first := tokens.head?.getD .streamEnd
  let bare := !endsDocument first || first == .documentEnd
  if first == .streamEnd then .ok none
  else
    let (shorthands, body) ←
      if bare then .ok (defaultShorthands, tokens)
      else do
        let (_, declared, rest) ← directives false [] tokens
        match rest with
        | .documentStart :: rest =>
          let defaults := defaultShorthands.filter fun s => !(declared.any fun d => d.1 == s.1)
          .ok (declared ++ defaults, rest)
        | _ => .error { problem := .expectedDocumentStart }
    let (node, state) ←
      if !bare && endsDocument (body.head?.getD .streamEnd) then
        .ok (missing, { tokens := body, shorthands : Reading })
      else (read fuel true false).run { tokens := body, shorthands }
    match withoutMarkers state.tokens with
    | [.streamEnd] => .ok (some node)
    | .streamEnd :: _ => .ok (some node)
    | _ =>
      .error { problem := .severalDocuments }

/-- The number of starts and ends in a node, each scalar and alias counting as one. -/
def size : Node → Nat
  | .scalar .. => 1
  | .alias _ => 1
  | .sequence _ items => sizeItems items + 2
  | .mapping _ entries => sizeEntries entries + 2
where
  sizeItems : List Node → Nat
    | [] => 0
    | n :: rest => size n + sizeItems rest
  sizeEntries : List (Node × Node) → Nat
    | [] => 0
    | (k, v) :: rest => size k + size v + sizeEntries rest

/-- The anchored nodes by number, those met last first. -/
def anchored (found : List (Nat × Node)) : Node → List (Nat × Node)
  | n@(.scalar ps _ _) => note ps n found
  | .alias _ => found
  | n@(.sequence ps items) => inItems (note ps n found) items
  | n@(.mapping ps entries) => inEntries (note ps n found) entries
where
  note (ps : Properties) (n : Node) (found : List (Nat × Node)) : List (Nat × Node) :=
    match ps.anchor with
    | some k => (k, n) :: found
    | none => found
  inItems (found : List (Nat × Node)) : List Node → List (Nat × Node)
    | [] => found
    | n :: rest => inItems (anchored found n) rest
  inEntries (found : List (Nat × Node)) : List (Node × Node) → List (Nat × Node)
    | [] => found
    | (k, v) :: rest => inEntries (anchored (anchored found k) v) rest

end Node
end EventScript.Yaml
