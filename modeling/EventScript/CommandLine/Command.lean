/-
The commands of this program: what can be asked of it, the grammar of the lines that ask,
and the reading of a line.
-/
import EventScript.CommandLine.Grammar
import EventScript.Cast
import EventScript.Event

namespace EventScript.CommandLine

/-- What a line says about a cast. -/
structure CastFlags where
  id : Option String := none
  address : Option String := none
  chainId : Option Nat := none
deriving DecidableEq, Repr

namespace CastFlags

/-- Whether nothing is said. -/
def isEmpty (f : CastFlags) : Bool :=
  f.id.isNone && f.address.isNone && f.chainId.isNone

/-- The cast that is described; one without an id has the default one. -/
def cast (f : CastFlags) (defaultId : String) : Cast :=
  { id := f.id.getD defaultId, address := f.address, chainId := f.chainId }

/-- The cast of a program that had one: the former where nothing is said, else a new one. -/
def castOver (f : CastFlags) (defaultId : String) (former : Cast) : Cast :=
  if f.isEmpty then former else f.cast defaultId

end CastFlags

/-- What can be asked of a store of programs. -/
inductive StoreCommand where
  | create (id file : String) (cast : CastFlags)
  | update (id file : String) (cast : CastFlags)
  | delete (id : String)
  | list
  | trigger (id : String) (event : Option String)
  | dispatch (address : String) (event : Option String)
deriving DecidableEq, Repr

/-- What can be asked. -/
inductive Command where
  | check (file : String)
  | run (file : String) (event : Option String) (cast : CastFlags)
  | instructions
  /-- Something about the store in a folder. -/
  | program (store : String) (command : StoreCommand)
deriving DecidableEq, Repr

/-- The files a command about a store reads. -/
def StoreCommand.files : StoreCommand → List String
  | .create _ file _ => [file]
  | .update _ file _ => [file]
  | .delete _ => []
  | .list => []
  | .trigger _ event => event.toList
  | .dispatch _ event => event.toList

namespace Command

/-- The files a command reads, those of a store apart. -/
def files : Command → List String
  | check file => [file]
  | run file event _ => file :: event.toList
  | instructions => []
  | program _ command => command.files

/-- The folder of the store a command is about. -/
def store? : Command → Option String
  | program store _ => some store
  | _ => none

end Command

/-- A line as it was read. -/
structure Invocation where
  /-- Whether the log is to be written in full. -/
  verbose : Bool
  format : Option OutputFormat
  branchLimit : Option Nat
  command : Command
deriving DecidableEq, Repr

-- =============================================================== grammar

/-- An unsigned number of 64 bits. -/
def word64? (s : String) : Option Nat := Text.unsignedBelow? 0x10000000000000000 s.toList

/-- The format of a name as options spell it. -/
def format? : String → Option OutputFormat
  | "pretty" => some .pretty
  | "json" => some .json
  | _ => none

/-- The options every command has. -/
def commonOptions : List OptionSpec := [
  { name := "verbose", short := some 'v', kind := .switch },
  { name := "log-format", kind := .value fun s => (format? s).isSome },
  { name := "max-branch-depth", kind := .value fun s => (word64? s).isSome },
  { name := "help", short := some 'h', kind := .question }]

/-- The options that describe a cast. -/
def castOptions : List OptionSpec := [
  { name := "cast-id", kind := .value fun _ => true },
  { name := "address", kind := .value fun _ => true },
  { name := "chain-id", kind := .value fun s => (word64? s).isSome }]

/-- The file of an event. -/
def eventOption : OptionSpec :=
  { name := "event", short := some 'e', kind := .value fun _ => true }

/-- A command without subcommands. -/
def simple (name : String) (places : List String) (options : List OptionSpec) : Grammar :=
  .command name (options ++ commonOptions) places []

/-- The lines this program understands. -/
def grammar : Grammar :=
  .command "cast-vm" ({ name := "version", short := some 'V', kind := .question } :: commonOptions)
    [] [
    simple "check" ["FILE"] [],
    simple "run" ["FILE"] (eventOption :: castOptions),
    simple "instructions" [] [],
    .command "program" ({ name := "store", kind := .value fun _ => true } :: commonOptions) [] [
      simple "create" ["ID", "FILE"] castOptions,
      simple "update" ["ID", "FILE"] castOptions,
      simple "delete" ["ID"] [],
      simple "list" [] [],
      simple "trigger" ["ID"] [eventOption],
      simple "dispatch" []
        [{ name := "address", kind := .value fun _ => true, required := true }, eventOption]]]

/-- The commands of a grammar, one a line. -/
def usage : String :=
  let line (words : List String) : String := "  " ++ Text.join " " words
  let commands := grammar.subcommands.flatMap fun c =>
    if c.subcommands.isEmpty then [line (grammar.name :: c.name :: c.places)]
    else c.subcommands.map fun s => line (grammar.name :: c.name :: s.name :: s.places)
  "Usage:\n" ++ Text.join "\n" commands

-- =============================================================== reading

namespace Level

/-- The value that an option was given on this level. -/
def value? (l : Level) (name : String) : Option String := l.values.lookup name

/-- What the options of a level say about a cast. Other options have been judged when the line
was scanned, so that a chain that is written is a word. -/
def castFlags (l : Level) : CastFlags where
  id := l.value? "cast-id"
  address := l.value? "address"
  chainId := (l.value? "chain-id").bind word64?

end Level

/-- Where programs are stored unless a line says otherwise. -/
def defaultStore : String := ".cast-vm"

/-- The command about a store that a level is. -/
def StoreCommand.ofLevel? (l : Level) : Option StoreCommand :=
  match l.command, l.words with
  | "create", [id, file] => some (.create id file l.castFlags)
  | "update", [id, file] => some (.update id file l.castFlags)
  | "delete", [id] => some (.delete id)
  | "list", [] => some .list
  | "trigger", [id] => some (.trigger id (l.value? "event"))
  | "dispatch", [] => (l.value? "address").map fun a => .dispatch a (l.value? "event")
  | _, _ => none

/-- The command of the levels below the outermost. -/
def Command.ofLevels? : List Level → Option Command
  | [l] => match l.command, l.words with
    | "check", [file] => some (.check file)
    | "run", [file] => some (.run file (l.value? "event") l.castFlags)
    | "instructions", [] => some .instructions
    | _, _ => none
  | [l, below] =>
    if l.command = "program" then
      (StoreCommand.ofLevel? below).map (.program ((l.value? "store").getD defaultStore))
    else none
  | _ => none

/-- The value of an option every command has: the innermost counts. -/
def commonValue? (levels : List Level) (name : String) : Option String :=
  levels.reverse.findSome? fun l => l.value? name

/-- The invocation a line stands for. -/
def Invocation.ofLine (line : List String) : Except Ending Invocation :=
  match grammar.levels line with
  | .error e => .error e
  | .ok levels => match Command.ofLevels? (levels.drop 1) with
    | none => .error .refused
    | some command => .ok
      { verbose := levels.any fun l => l.switches.contains "verbose"
        format := (commonValue? levels "log-format").bind format?
        branchLimit := (commonValue? levels "max-branch-depth").bind word64?
        command }

end EventScript.CommandLine
