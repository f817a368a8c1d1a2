/-
Grammars of command lines. A command has options, places for words, and subcommands; a
line is scanned word by word, and the name of a subcommand hands the rest of the line to
it. A value that is still to be judged is judged as soon as anything else is met, so of two
things to say about a line the first one counts: a question for help, or a mistake.
-/
import EventScript.Text.Split

namespace EventScript.CommandLine

/-- What becomes of a line that starts nothing. -/
inductive Ending where
  /-- Help or the version is asked for. -/
  | told
  /-- The line is not in the grammar. -/
  | refused
deriving DecidableEq, Repr

/-- The status the process ends with. -/
def Ending.exitCode : Ending → Nat
  | told => 0
  | refused => 2

/-- What an option does. -/
inductive OptionKind where
  | switch
  /-- Takes a value, which may not fit. -/
  | value (fits : String → Bool)
  /-- Asks for help or the version. -/
  | question

/-- An option, long with two dashes or short with one. -/
structure OptionSpec where
  name : String
  short : Option Char := none
  kind : OptionKind
  required : Bool := false

/-- A command: its options, the words it needs, and the subcommands of which it needs one
if it has any. -/
inductive Grammar where
  | command (name : String) (options : List OptionSpec) (places : List String)
    (subcommands : List Grammar)

/-- What one command of a line was given. -/
structure Level where
  command : String
  switches : List String := []
  values : List (String × String) := []
  words : List String := []
deriving DecidableEq, Repr

namespace Grammar

/-- The word that calls the command. -/
def name : Grammar → String
  | command name .. => name

/-- The options that may stand on its level. -/
def options : Grammar → List OptionSpec
  | command _ options .. => options

/-- The words it needs, by what they are for. -/
def places : Grammar → List String
  | command _ _ places _ => places

/-- The commands below it. -/
def subcommands : Grammar → List Grammar
  | command _ _ _ subcommands => subcommands

/-- The subcommand of a name. -/
def subcommand? (g : Grammar) (name : String) : Option Grammar :=
  g.subcommands.find? fun s => s.name == name

/-- Whether names lead from a command to one below it; where there are subcommands, `help`
is one. -/
def leads (g : Grammar) : List String → Bool
  | [] => true
  | name :: rest => match g.subcommand? name with
    | some s => s.leads rest
    | none => name == "help" && !g.subcommands.isEmpty && rest.isEmpty

end Grammar

-- ============================================================== scanning

/-- The scan of one command's part of a line. -/
structure Scan where
  level : Level
  /-- The option met last, with the value it was given; not judged yet. -/
  pending : Option (OptionSpec × Option String) := none
  /-- Whether only words are left. -/
  wordsOnly : Bool := false

namespace Scan

/-- Whether an option waits for its value. -/
def waits (s : Scan) : Bool :=
  match s.pending with
  | some (_, none) => true
  | _ => false

/-- A value for an option, if it fits and is the only one. -/
def assign (s : Scan) (o : OptionSpec) (value : String) : Except Ending Scan :=
  match o.kind with
  | .value fits =>
    if fits value && (s.level.values.lookup o.name).isNone then
      .ok { s with level.values := s.level.values ++ [(o.name, value)] }
    else .error .refused
  | _ => .error .refused

/-- The scan after the pending value has been judged. -/
def settle (s : Scan) : Except Ending Scan :=
  match s.pending with
  | none => .ok s
  | some (_, none) => .error .refused
  | some (o, some value) => { s with pending := none }.assign o value

/-- An option that stands alone or has a value attached. -/
def meet (s : Scan) (o : OptionSpec) (attached : Option String) : Except Ending Scan :=
  match o.kind, attached with
  | .value _, some value => do (← s.settle).assign o value
  | .value _, none => do return { ← s.settle with pending := some (o, none) }
  | _, some _ => .error .refused
  | .question, none => do
    let _ ← s.settle
    .error .told
  | .switch, none => do
    let s ← s.settle
    if s.level.switches.contains o.name then .error .refused
    else return { s with level.switches := s.level.switches ++ [o.name] }

/-- An option with two dashes; a value may follow an equals sign. -/
def long (g : Grammar) (s : Scan) (text : String) : Except Ending Scan :=
  let name := (text.takeWhile (· != '=')).toString
  let attached := if name.length < text.length then
      some (text.drop (name.length + 1)).toString
    else none
  match g.options.find? fun o => o.name == name with
  | some o => s.meet o attached
  | none => .error .refused

/-- Options with one dash, one behind the other; the first that takes a value takes what is
left, perhaps behind an equals sign. -/
def short (g : Grammar) (s : Scan) : List Char → Except Ending Scan
  | [] => .ok s
  | c :: rest => match g.options.find? fun o => o.short == some c with
    | none => .error .refused
    | some o => match o.kind with
      | .value _ => match rest with
        | [] => s.meet o none
        | '=' :: value => s.meet o (some (String.ofList value))
        | value => s.meet o (some (String.ofList value))
      | _ => do short g (← s.meet o none) rest

/-- A word, put in the next free place. -/
def word (g : Grammar) (s : Scan) (text : String) : Except Ending Scan := do
  let s ← s.settle
  if s.level.words.length < g.places.length then
    return { s with level.words := s.level.words ++ [text] }
  else .error .refused

/-- What is not the name of a subcommand. -/
def step (g : Grammar) (s : Scan) (text : String) : Except Ending Scan :=
  if s.wordsOnly then s.word g text
  else match text.toList with
    | ['-', '-'] => .ok { s with wordsOnly := true }
    | '-' :: '-' :: rest => s.long g (String.ofList rest)
    | '-' :: c :: rest => s.short g (c :: rest)
    | _ => match s.pending with
      | some (o, none) => .ok { s with pending := some (o, some text) }
      | _ => s.word g text

/-- The level of a command whose part of the line is over. -/
def close (g : Grammar) (s : Scan) (nested : Bool) : Except Ending Level := do
  let s ← s.settle
  let complete := (nested || g.subcommands.isEmpty)
    && s.level.words.length == g.places.length
    && g.options.all fun o => !o.required || (s.level.values.lookup o.name).isSome
  if complete then return s.level else .error .refused

end Scan

namespace Grammar

/-- The levels of a line, from the outermost command to the innermost. -/
def scan (g : Grammar) (s : Scan) : List String → Except Ending (List Level)
  | [] => do return [← s.close g false]
  | text :: rest =>
    if s.wordsOnly || s.waits then
      match s.step g text with
      | .error e => .error e
      | .ok s => g.scan s rest
    else match g.subcommand? text with
      | some sub => do
        let levels ← sub.scan { level := { command := sub.name } } rest
        return (← s.close g true) :: levels
      | none =>
        if text == "help" && !g.subcommands.isEmpty then
          .error (if g.leads rest then .told else .refused)
        else match s.step g text with
          | .error e => .error e
          | .ok s => g.scan s rest

/-- The levels of a whole line. -/
def levels (g : Grammar) (line : List String) : Except Ending (List Level) :=
  g.scan { level := { command := g.name } } line

end Grammar
end EventScript.CommandLine
