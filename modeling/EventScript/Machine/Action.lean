/-
What actions do to a machine. Transforms change the variables, reports record events,
deliveries do something outside and record an event about it; each failure on the way is
logged, and none of the built-in actions ends a run.
-/
import EventScript.Machine.Basic

namespace EventScript

namespace Machine

/-- Takes over the outcome of a transform. -/
def transform (m : Machine) (o : Instruction.Outcome) : Machine :=
  { m with globals := o.globals }.logAll o.log

/-- Reports the values of variables. -/
def inspect (m : Machine) (i : Instruction.VariableReport) : Machine :=
  (i.messages m.globals).foldl
    (fun m text => (m.log (Log.info ("debug: " ++ text))).emit "debug" text) m

/-- Writes a message to the log. -/
def note (m : Machine) (i : Instruction.LogNote) : Machine :=
  let text := i.text m.globals
  (m.log ⟨i.level, text⟩).emit "log" text

/-- Offers a job to the queue. -/
def enqueue (m : Machine) (i : Instruction.JobOrder) : Machine :=
  let (answer, queue) := m.world.queue.offer (i.job m.globals)
  let m := { m with world := { m.world with queue } }
  match answer with
  | .ok id =>
    let record :=
      Log.info ("queue: enqueued '" ++ i.jobName ++ "' on '" ++ i.queue ++ "' as " ++ id)
    (m.log record).emit "queue" (i.queue ++ ":" ++ i.jobName ++ " -> " ++ id)
  | .error refusal => m.log (Log.warn
      ("queue: cannot enqueue '" ++ i.jobName ++ "' on '" ++ i.queue ++ "': " ++ refusal.message))

/-- Delivers a request: the last reply, and the machine after the attempts and the waits
between them. -/
def deliver (m : Machine) (r : Http.Request) : Http.Reply × Machine :=
  let policy := m.settings.retryPolicy
  let (d, network) := m.world.network.deliver policy r
  let now := (d.waits policy).foldl Timestamp.addMillis m.world.now
  (d.last, { m with world := { m.world with network, now } }.logAll
    (Http.Delivery.logFrom policy r.url 1 d.retried))

/-- Delivers what may have become a request: the status of the answer, or what went
wrong. -/
def attempt (m : Machine) (request : Except Http.Request.Fault Http.Request) :
    Except String Nat × Machine :=
  match request with
  | .error fault => (.error fault.message, m)
  | .ok r => match m.deliver r with
    | (.status code, m) => (.ok code, m)
    | (reply, m) => (.error (reply.failure r.url), m)

/-- Whether a status tells of success. -/
def isSuccess (code : Nat) : Bool := 200 ≤ code && code < 300

/-- Sends the value of a variable; every attempt to send is told by one event. -/
def notify (m : Machine) (i : Instruction.Webhook) : Machine :=
  match i.payload? m.globals with
  | none => m.log (Log.warn
      ("webhook: variable '" ++ i.variableName ++ "' is empty, nothing sent"))
  | some payload =>
    match m.attempt (i.request payload) with
    | (.ok code, m) =>
      let record :=
        if isSuccess code then
          Log.info ("webhook: " ++ i.line ++ " -> " ++ Http.statusText code)
        else Log.warn ("webhook: " ++ i.line ++ " answered " ++ Http.statusText code)
      (m.log record).emit "webhook" (i.line ++ " -> " ++ toString code)
    | (.error failure, m) =>
      (m.log (Log.warn ("webhook: " ++ i.line ++ " failed: " ++ failure))).emit "webhook"
        (i.line ++ " failed")

/-- Appends a row; success is told by an event. -/
def appendRow (m : Machine) (i : Instruction.SheetRow) : Machine :=
  let base := m.settings.sheetsBase
  match i.appendUrl? base with
  | none => m.log (Log.warn ("spreadsheet: invalid API base '" ++ base ++ "'"))
  | some url =>
    match m.attempt (i.request m.globals url) with
    | (.ok code, m) =>
      if isSuccess code then
        (m.log (Log.info ("spreadsheet: appended row to " ++ i.spreadsheetId))).emit
          "spreadsheet"
          ("appended " ++ toString i.paths.length ++ " cells to " ++ i.spreadsheetId ++ "!"
            ++ i.range)
      else m.log (Log.warn ("spreadsheet: append to " ++ i.spreadsheetId ++ " answered "
        ++ Http.statusText code))
    | (.error failure, m) =>
      m.log (Log.warn ("spreadsheet: append to " ++ i.spreadsheetId ++ " failed: " ++ failure))

/-- Lets an instruction from outside react. -/
def react (m : Machine) (hook : Hook) : Machine × Option RunError :=
  let r := hook m.globals m.stack
  let m := { m with globals := r.globals, halted := m.halted || r.halts }
  (r.events.foldl (fun m (category, message) => m.emit category message) m, r.error)

end Machine

/-- What an action does: the machine afterwards, and the error it ends the run with. -/
def Action.perform (a : Action) (m : Machine) : Machine × Option RunError :=
  match a with
  | array i => (m.transform (i.run m.globals), none)
  | object i => (m.transform (i.run m.globals), none)
  | number i => (m.transform (i.run m.globals), none)
  | string i => (m.transform (i.run m.globals), none)
  | template i => (m.transform (i.run m.globals), none)
  | set i => (m.transform (i.run m.globals), none)
  | debug i => (m.inspect i, none)
  | log i => (m.note i, none)
  | queue i => (m.enqueue i, none)
  | webhook i => (m.notify i, none)
  | spreadsheet i => (m.appendRow i, none)
  | hook run => m.react run

end EventScript
