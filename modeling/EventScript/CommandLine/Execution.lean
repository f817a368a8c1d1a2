/-
Carrying out a command: what it prints, what it leaves in the files and in the world, and
why it fails. A program is checked or run from a file; stored programs are the concern of a
host over the store in a folder.
-/
import EventScript.CommandLine.Command
import EventScript.Host
import EventScript.Store.File

namespace EventScript.CommandLine

/-- Why a command fails. -/
inductive Failure where
  | program (error : ProgramError)
  | host (error : HostError)
  | store (error : StoreError)
  | settings (fault : Settings.Fault)
  | file (fault : FileSystem.Fault)
  /-- A file is no JSON document. -/
  | json
  | other (text : String)

/-- The failure as it is reported: of programs and hosts in their own words, else behind the name
of its kind. -/
def Failure.message : Failure → String
  | program e => e.message
  | host e => e.message
  | store e => "Storage error: " ++ e.message
  | settings f => "Configuration error: " ++ f.message
  | file f => "IO error: " ++ f.message
  | json => "JSON error: the text is no JSON document"
  | other text => text

/-- What a command finds. -/
structure Context where
  files : FileSystem
  settings : Settings
  world : World := {}
  /-- Whether colours are shown. -/
  colours : Bool := false

/-- What a command comes to. -/
structure Outcome where
  result : Except Failure Unit := .ok ()
  /-- The lines of its answer. -/
  printed : List String := []
  /-- The lines about mistakes in a program. -/
  complaints : List String := []
  files : FileSystem
  world : World

namespace Context

/-- A command that comes to nothing but its lines, or its failure. -/
def conclude (c : Context) (printed : List String) (result : Except Failure Unit) : Outcome :=
  { result, printed, files := c.files, world := c.world }

/-- A command that does nothing but fail. -/
def fail (c : Context) (f : Failure) : Outcome := c.conclude [] (.error f)

/-- The text of a file that a line names. -/
def read (c : Context) (path : String) : Except Failure String :=
  match c.files.node? path with
  | none => .error (.other ("File not found: " ++ path))
  | some _ => (c.files.read path).mapError .file

/-- The event in the file that a line may name. -/
def readEvent (c : Context) : Option String → Except Failure (Option Json)
  | none => .ok none
  | some path => match c.read path with
    | .error f => .error f
    | .ok text => match Json.parse? text with
      | none => .error .json
      | some v => .ok (some v)

/-- The instructions that a program can name, branches nested as deep as the settings allow. -/
def registry (c : Context) : Registry := .builtin c.settings.branchLimit

/-- The text in a style, where colours are shown. -/
def paint (c : Context) (style : Style) (s : String) : String := style.paint c.colours s

-- =============================================================== reports

/-- The lines about a program that is none. -/
def complaints (c : Context) (e : ProgramError) : List String :=
  let line (text : String) : String := c.paint .boldRed "error:" ++ " " ++ text
  match e with
  | .parse problems => problems.map fun p => line p.display
  | .compile e => [line e.message]

/-- The style in which the end of a run is shown. -/
def statusStyle : Status → Style
  | .completed => .green
  | .halted => .yellow
  | _ => .red

/-- The lines of a report. -/
def report (c : Context) (r : Report) : List String :=
  match c.settings.format with
  | .json => [(Json.object r.members).indented]
  | .pretty =>
    [c.paint .bold "Program" ++ " " ++ r.programId ++ ": "
        ++ c.paint (statusStyle r.status) r.status.name]
      ++ (r.error.map fun e => c.paint .red "Error:" ++ " " ++ e.message).toList
      ++ r.events.map (Event.render c.colours .pretty)
      ++ [c.paint .bold "Globals:", r.globals.indented]

-- ======================================================= single programs

/-- A position, right-aligned in three columns. -/
def column (n : Nat) : String :=
  let digits := toString n
  "".pushn ' ' (3 - digits.length) ++ digits

/-- Compiles a program and lists its instructions. -/
def check (c : Context) (path : String) : Outcome :=
  match c.read path with
  | .error f => c.fail f
  | .ok source => match Program.ofSource c.registry source with
    | .error e =>
      { c.fail (.other (path ++ " was rejected")) with complaints := c.complaints e }
    | .ok (d, p) =>
      let head := c.paint .boldGreen "ok" ++ " " ++ d.name.getD path ++ " (version "
        ++ d.version ++ ", " ++ toString p.size ++ " instructions)"
      let rows := p.calls.zipIdx.map fun (call, i) => "  " ++ column i ++ "  " ++ call.name
      c.conclude (head :: rows) (.ok ())

/-- Compiles a program and runs it once. -/
def run (c : Context) (path : String) (event : Option String) (flags : CastFlags) : Outcome :=
  match c.read path with
  | .error f => c.fail f
  | .ok source => match c.readEvent event with
    | .error f => c.fail f
    | .ok event => match Program.ofSource c.registry source with
      | .error e => { c.fail (.program e) with complaints := c.complaints e }
      | .ok (_, p) =>
        let cast := flags.cast "local"
        let m := ((Machine.new c.settings c.world).load p cast).log
          (Log.debug ("Running " ++ path ++ " for cast '" ++ cast.id ++ "'"))
        let (result, m) := m.execute event
        let outcome := match result with
          | .ok _ => .ok ()
          | .error e => .error (.other ("execution failed: " ++ e.message))
        { c.conclude (c.report (.ofRun path result m)) outcome with world := m.world }

/-- Lists the instructions with their schemas. -/
def instructions (c : Context) : Outcome :=
  c.conclude [c.registry.listing.indented] (.ok ())

-- ======================================================= stored programs

/-- The lines of a command about a store or why it fails, and the host afterwards. -/
abbrev Effect := Except Failure (List String) × Host FileStore

/-- The line that tells of a change to a program. -/
def told (c : Context) (style : Style) (done : String)
    (result : Except HostError Store.Record × Host FileStore) : Effect :=
  match result with
  | (.error e, h) => (.error (.host e), h)
  | (.ok r, h) => (.ok [c.paint style done ++ " program '" ++ r.id ++ "'"], h)

/-- Carries out a command about a store. -/
def apply (c : Context) (h : Host FileStore) : StoreCommand → Effect
  | .create id file flags => match c.read file with
    | .error f => (.error f, h)
    | .ok source => c.told .green "Created" (h.create id source (flags.cast id))
  | .update id file flags => match c.read file with
    | .error f => (.error f, h)
    | .ok source => match h.get id with
      | .error e => (.error (.host e), h)
      | .ok former =>
        c.told .green "Updated" (h.update id source (flags.castOver id former.cast))
  | .delete id => c.told .yellow "Deleted" (h.delete id)
  | .list => (h.list.mapError .host, h)
  | .trigger id event => match c.readEvent event with
    | .error f => (.error f, h)
    | .ok event => match h.handleEvent id (event.getD .null) with
      | (.error e, h) => (.error (.host e), h)
      | (.ok r, h) => (.ok (c.report r), h)
  | .dispatch address event => match c.readEvent event with
    | .error f => (.error f, h)
    | .ok event => match h.dispatch address (event.getD .null) with
      | (.error e, h) => (.error (.host e), h)
      | (.ok [], h) => (.ok ["No programs listen to " ++ address], h)
      | (.ok reports, h) => (.ok (reports.flatMap c.report), h)

/-- Opens the store in a folder and carries out a command about it. -/
def program (c : Context) (root : String) (command : StoreCommand) : Outcome :=
  match FileStore.prepare c.files root with
  | .error e => c.fail (.store e)
  | .ok (files, place) =>
    let c := { c with files }
    let (result, h) := c.apply (.new (FileStore.load files root place) c.settings c.world) command
    let (printed, result) := match result with
      | .ok lines => (lines, .ok ())
      | .error f => ([], .error f)
    { c.conclude printed result with files := h.store.save files place, world := h.world }

/-- Carries out a command. -/
def execute (c : Context) : Command → Outcome
  | .check file => c.check file
  | .run file event flags => c.run file event flags
  | .instructions => c.instructions
  | .program store command => c.program store command

end Context

-- ============================================================ invocations

/-- The settings with what a line says about them. -/
def Invocation.override (i : Invocation) (s : Settings) : Settings :=
  { s with
    format := i.format.getD s.format
    branchLimit := i.branchLimit.getD s.branchLimit }

/-- Carries out a line in an environment. -/
def Invocation.execute (i : Invocation) (environment : Settings.Environment)
    (files : FileSystem) (world : World) (colours : Bool) : Outcome :=
  match Settings.ofEnvironment environment with
  | .error f => { result := .error (.settings f), files, world }
  | .ok s => Context.execute { files, settings := i.override s, world, colours } i.command

/-- Lines as a text. -/
def lines (ls : List String) : String := String.join (ls.map (· ++ "\n"))

/-- What a process shows and says in the end. -/
structure Exit where
  code : Nat
  stdout : String
  stderr : String
deriving DecidableEq, Repr

/-- What a process makes of an outcome: with the lines about mistakes it writes the log as
far as it is asked for, and in the end the failure. -/
def Outcome.exit (o : Outcome) (filter : Log.Filter) (colours : Bool) : Exit :=
  let log := (o.world.log.filter filter.shows).map fun r =>
    "[" ++ r.level.name ++ "] " ++ r.text
  let failure := match o.result with
    | .ok () => []
    | .error f => [Style.boldRed.paint colours "Error:" ++ " " ++ f.message]
  { code := match o.result with
      | .ok () => 0
      | .error _ => 1
    stdout := lines o.printed
    stderr := lines (o.complaints ++ log ++ failure) }

end EventScript.CommandLine
