/-
A host: a store of programs, the instructions they may call, and the world they run in.
A source is compiled before it is stored, so the store holds no program the registry
rejects unless something else put it there. Every event runs on a machine of its own;
what one run leaves to the next is the world alone.
-/
import EventScript.Machine.Walk
import EventScript.Program.Compile
import EventScript.Store.Basic

namespace EventScript

open Store (Record)

/-- Why a host does not do what it is asked. -/
inductive HostError where
  /-- The source is no program. -/
  | program (error : ProgramError)
  | store (error : StoreError)

/-- The error in words; those of the store are left as they are. -/
def HostError.message : HostError → String
  | program e => "Program rejected: " ++ e.message
  | store e => e.message

/-- How one program ran on one event. -/
structure Report where
  programId : String
  status : Status
  /-- What ended the run before its end. -/
  error : Option RunError
  events : List Event
  /-- The variables as the run left them. -/
  globals : Json

namespace Report

/-- The members in the order of declaration; an error only where there is one. -/
def members (r : Report) : List (String × Json) :=
  [("programId", .string r.programId), ("status", .string r.status.name)]
    ++ (r.error.map fun e => ("error", .string e.message)).toList
    ++ [("events", .array (r.events.map Event.toJson)), ("globals", r.globals)]

/-- The report of a run that left a machine like this. -/
def ofRun (programId : String) (result : Except RunError Status) (m : Machine) : Report where
  programId
  status := m.status
  error := match result with
    | .ok _ => none
    | .error e => some e
  events := m.events
  globals := m.globals.root

end Report

/-- A host over a kind of store. -/
structure Host (σ : Type) where
  store : σ
  registry : Registry
  settings : Settings
  world : World

namespace Host

variable {σ : Type} [Store σ]

/-- A host of the built-in instructions, nesting limited as on its machines. -/
def new (store : σ) (settings : Settings) (world : World) : Host σ :=
  { store, registry := .builtin settings.branchLimit, settings, world }

/-- Adds a record to the log. -/
def log (h : Host σ) (record : Log.Record) : Host σ :=
  { h with world := { h.world with log := h.world.log ++ [record] } }

/-- The program of a source. -/
def compile (h : Host σ) (source : String) : Except ProgramError Program :=
  (Program.ofSource h.registry source).map Prod.snd

-- ============================================================== programs

/-- The record of a new program, if its id is free and its source compiles. -/
def accept (h : Host σ) (id source : String) (cast : Cast) : Except HostError Record :=
  match Store.checkId id with
  | .error e => .error (.store e)
  | .ok () => match Store.contains h.store id with
    | .error e => .error (.store e)
    | .ok true => .error (.store (.alreadyExists id))
    | .ok false => match h.compile source with
      | .error e => .error (.program e)
      | .ok _ => .ok ⟨id, source, cast, h.world.now⟩

/-- The record that takes the place of a program's, if its source compiles. -/
def amend (h : Host σ) (id source : String) (cast : Cast) : Except HostError Record :=
  match Store.get h.store id with
  | .error e => .error (.store e)
  | .ok _ => match h.compile source with
    | .error e => .error (.program e)
    | .ok _ => .ok ⟨id, source, cast, h.world.now⟩

/-- Puts a record into the store; `done` says in the log what happened to the program. -/
def keep (h : Host σ) (done : String) (r : Record) : Except HostError Record × Host σ :=
  match Store.put h.store r with
  | .error e => (.error (.store e), h)
  | .ok store =>
    let h := { h with store }
    let h := match Store.place? h.store r.id with
      | some place => h.log (Log.debug ("Stored program '" ++ r.id ++ "' at " ++ place))
      | none => h
    (.ok r, h.log (Log.info (done ++ " program '" ++ r.id ++ "'")))

/-- Stores a new program. -/
def create (h : Host σ) (id source : String) (cast : Cast) :
    Except HostError Record × Host σ :=
  match h.accept id source cast with
  | .error e => (.error e, h)
  | .ok r => h.keep "Created" r

/-- Replaces the source and the cast of a program. -/
def update (h : Host σ) (id source : String) (cast : Cast) :
    Except HostError Record × Host σ :=
  match h.amend id source cast with
  | .error e => (.error e, h)
  | .ok r => h.keep "Updated" r

/-- Removes a program. -/
def delete (h : Host σ) (id : String) : Except HostError Record × Host σ :=
  match Store.delete h.store id with
  | .error e => (.error (.store e), h)
  | .ok (r, store) =>
    (.ok r, { h with store }.log (Log.info ("Deleted program '" ++ id ++ "'")))

/-- The record under an id. -/
def get (h : Host σ) (id : String) : Except HostError Record :=
  (Store.get h.store id).mapError .store

/-- The ids of all records. -/
def list (h : Host σ) : Except HostError (List String) :=
  (Store.list h.store).mapError .store

-- ================================================================ events

/-- Runs a program for a record's cast, on a machine of its own. -/
def run (h : Host σ) (r : Record) (p : Program) (event : Json) : Report × Host σ :=
  let (result, m) := ((Machine.new h.settings h.world).load p r.cast).execute (some event)
  let entry := match result with
    | .ok status => Log.info ("Program '" ++ r.id ++ "' finished: " ++ status.name)
    | .error e => Log.warn ("Program '" ++ r.id ++ "' errored: " ++ e.message)
  (.ofRun r.id result m, { h with world := m.world }.log entry)

/-- Runs one program on an event. -/
def handleEvent (h : Host σ) (id : String) (event : Json) :
    Except HostError Report × Host σ :=
  match Store.get h.store id with
  | .error e => (.error (.store e), h)
  | .ok r => match h.compile r.source with
    | .error e => (.error (.program e), h)
    | .ok p =>
      let (report, h) := h.run r p event
      (.ok report, h)

/-- Whether a program listens to an address. -/
def listens (r : Record) (address : String) : Bool :=
  r.cast.address.any fun a => Text.equalIgnoringAsciiCase a address

/-- Runs those of some programs that listen to an address, one after another. A program
that does not compile is passed over; a record that cannot be read ends it all. -/
def dispatchTo (address : String) (event : Json) :
    List String → Host σ → Except HostError (List Report) × Host σ
  | [], h => (.ok [], h)
  | id :: rest, h => match Store.get h.store id with
    | .error e => (.error (.store e), h)
    | .ok r =>
      if listens r address then
        match h.compile r.source with
        | .error e => dispatchTo address event rest
            (h.log (Log.warn ("Skipping program '" ++ id ++ "': " ++ e.message)))
        | .ok p =>
          let (report, h) := h.run r p event
          let (reports, h) := dispatchTo address event rest h
          (reports.map (report :: ·), h)
      else dispatchTo address event rest h

/-- Runs every program that listens to an address, in the order of their ids. -/
def dispatch (h : Host σ) (address : String) (event : Json) :
    Except HostError (List Report) × Host σ :=
  match Store.list h.store with
  | .error e => (.error (.store e), h)
  | .ok ids => dispatchTo address event ids h

end Host
end EventScript
