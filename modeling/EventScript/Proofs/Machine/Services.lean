/-
What actions ask for, and what they tell. A built-in action asks the queue to take a job, or
the network to carry a request, or for neither, and which job or request it is can be read off
the variables as they stand when the action begins. Each service is used for that and for
nothing else, and the events an action records are of its own category.

All of this is one law, `Action.perform_asks`, put together from one for each operation.
-/
import EventScript.Proofs.Http.Delivery
import EventScript.Proofs.Machine.Effects

namespace EventScript

open Instruction (VariableReport LogNote JobOrder Webhook SheetRow)

-- ====================================================== what is asked for

/-- There is no value to send where the path of the variable resolves to nothing or to null. -/
theorem Instruction.Webhook.payload?_eq_none_iff {i : Webhook} {g : Globals} :
    i.payload? g = none
      ↔ g.getPath? i.variableName = none ∨ g.getPath? i.variableName = some .null := by
  unfold Webhook.payload?
  cases g.getPath? i.variableName with
  | none => simp
  | some v => cases v <;> simp [Json.isNull]

/-- The value to send is what the path of the variable resolves to, unless that is null. -/
theorem Instruction.Webhook.payload?_eq_some_iff {i : Webhook} {g : Globals} {payload : Json} :
    i.payload? g = some payload ↔ g.getPath? i.variableName = some payload ∧ payload ≠ .null := by
  unfold Webhook.payload?
  rw [Option.filter_eq_some_iff]
  refine and_congr_right fun _ => ?_
  cases payload <;> simp [Json.isNull]

/-- The request for the value of a variable, when there is one and it can be built. -/
def Instruction.Webhook.request? (i : Webhook) (g : Globals) : Option Http.Request :=
  (i.payload? g).bind fun payload => (i.request payload).toOption

/-- The request for a row, when it can be built. -/
def Instruction.SheetRow.request? (i : SheetRow) (base : String) (g : Globals) :
    Option Http.Request :=
  (i.appendUrl? base).bind fun url => (i.request g url).toOption

/-- The request for a value has the value for its body. -/
theorem Instruction.Webhook.request_body {i : Webhook} {payload : Json} {r : Http.Request}
    (h : (i.request payload).toOption = some r) : r.body = payload := by
  have hr : i.request payload = .ok r := Except.toOption_eq_some.mp h
  unfold Webhook.request at hr
  split at hr
  · cases hr
  · exact Http.Request.build_body hr

/-- The request for a row has the row for its body. -/
theorem Instruction.SheetRow.request?_body {i : SheetRow} {base : String} {g : Globals}
    {r : Http.Request} (h : i.request? base g = some r) : r.body = i.body g := by
  obtain ⟨url, -, hr⟩ := Option.bind_eq_some_iff.mp h
  exact Http.Request.build_body (Except.toOption_eq_some.mp hr)

/-- What is told about a job that was taken. -/
def Instruction.JobOrder.message (i : JobOrder) (id : String) : String :=
  i.queue ++ ":" ++ i.jobName ++ " -> " ++ id

/-- What is told about a job that was answered: its id, if it was taken. -/
def Instruction.JobOrder.told (i : JobOrder) : Except JobQueue.Refusal String → List String
  | .ok id => [i.message id]
  | .error _ => []

namespace Action

/-- The request that an action asks for. -/
def request? (a : Action) (s : Settings) (g : Globals) : Option Http.Request :=
  match a with
  | webhook i => i.request? g
  | spreadsheet i => i.request? s.sheetsBase g
  | _ => none

/-- The order that an action places with the queue. -/
def order? : Action → Option JobOrder
  | queue i => some i
  | _ => none

/-- The job that an action asks for. -/
def job? (a : Action) (g : Globals) : Option Job := a.order?.map fun i => i.job g

/-- The category of the events that a built-in action records, if it records any. -/
def category? : Action → Option String
  | debug _ => some "debug"
  | log _ => some "log"
  | queue _ => some "queue"
  | webhook _ => some "webhook"
  | spreadsheet _ => some "spreadsheet"
  | _ => none

end Action

/-- The queue after a job was offered, when there is one. -/
def JobQueue.receive (q : JobQueue) : Option Job → JobQueue
  | none => q
  | some job => (q.offer job).2

namespace Machine

variable {m : Machine}

/-- Whether the last attempt for a request is answered with success. -/
def succeeds (m : Machine) (request : Option Http.Request) : Bool :=
  match m.world.network.outcome? m.settings.retryPolicy request with
  | some (.status code) => isSuccess code
  | _ => false

/-- From one machine to the next a job was offered, a request carried and events recorded, and
the variables were left alone. -/
structure Asks (m m' : Machine) (job : Option Job) (request : Option Http.Request)
    (told : List Event) : Prop where
  globals : m'.globals = m.globals
  queue : m'.world.queue = m.world.queue.receive job
  network : m'.world.network = m.world.network.carry m.settings.retryPolicy request
  events : m'.events = m.events ++ told

namespace Asks

variable {m' : Machine} {job : Option Job} {request : Option Http.Request} {told : List Event}

theorem nothing (m : Machine) : Asks m m none none [] :=
  ⟨rfl, rfl, rfl, (List.append_nil _).symm⟩

theorem log (h : Asks m m' job request told) (record : Log.Record) :
    Asks m (m'.log record) job request told :=
  ⟨h.globals, h.queue, h.network, h.events⟩

/-- Recording an event asks for nothing more, and tells that event. -/
theorem emit (h : Asks m m' job request told) (category message : String) :
    Asks m (m'.emit category message) job request
      (told ++ [⟨category, message, m'.world.now⟩]) := by
  refine ⟨h.globals, h.queue, h.network, ?_⟩
  rw [← List.append_assoc, ← h.events]
  rfl

end Asks

-- ======================================================== the operations

/-- A report asks for nothing, and tells of variables. -/
theorem inspect_asks (i : VariableReport) :
    ∃ told, Asks m (m.inspect i) none none told ∧ ∀ e ∈ told, e.category = "debug" := by
  unfold inspect
  refine List.foldlRecOn (motive := fun m' => ∃ told, Asks m m' none none told
    ∧ ∀ e ∈ told, e.category = "debug") _ _ ⟨[], .nothing m, List.forall_mem_nil _⟩ ?_
  rintro m' ⟨told, hasks, htold⟩ text -
  refine ⟨_, (hasks.log _).emit "debug" text, ?_⟩
  rintro e he
  rcases List.mem_append.mp he with he | he
  · exact htold e he
  · rw [List.mem_singleton.mp he]

theorem note_asks (i : LogNote) :
    ∃ e, Asks m (m.note i) none none [e] ∧ e.category = "log" :=
  ⟨_, ((Asks.nothing m).log _).emit "log" _, rfl⟩

/-- A job that is taken is told with its id. -/
theorem enqueue_asks (i : JobOrder) :
    Asks m (m.enqueue i) (some (i.job m.globals)) none
      ((i.told (m.world.queue.offer (i.job m.globals)).1).map
        fun message => ⟨"queue", message, m.world.now⟩) := by
  have hoffer : Asks m
      { m with world := { m.world with queue := (m.world.queue.offer (i.job m.globals)).2 } }
      (some (i.job m.globals)) none [] := ⟨rfl, rfl, rfl, (List.append_nil _).symm⟩
  unfold enqueue
  revert hoffer
  rcases m.world.queue.offer (i.job m.globals) with ⟨answer, queue⟩
  intro hoffer
  cases answer with
  | ok id => exact (hoffer.log _).emit "queue" _
  | error refusal => exact hoffer.log _

/-- An attempt carries the request, if there is one. -/
theorem attempt_asks (request : Except Http.Request.Fault Http.Request) :
    Asks m (m.attempt request).2 none request.toOption [] := by
  cases request with
  | error fault => exact .nothing m
  | ok r =>
      have hdeliver : (m.attempt (.ok r)).2 = (m.deliver r).2 := by
        unfold attempt
        dsimp only
        rcases m.deliver r with ⟨reply, after⟩
        cases reply <;> rfl
      rw [hdeliver]
      exact ⟨rfl, rfl, rfl, (List.append_nil _).symm⟩

/-- An attempt is a success if its last reply is. -/
theorem attempt_succeeds (request : Except Http.Request.Fault Http.Request) :
    m.succeeds request.toOption = match (m.attempt request).1 with
      | .ok code => isSuccess code
      | .error _ => false := by
  cases request with
  | error fault => rfl
  | ok r =>
      have hreply : m.world.network.outcome? m.settings.retryPolicy (some r)
          = some (m.deliver r).1 := rfl
      unfold attempt succeeds Except.toOption
      dsimp only
      rw [hreply]
      rcases m.deliver r with ⟨reply, after⟩
      cases reply <;> rfl

/-- A value that is there is told to have been sent, whatever came of it. -/
theorem notify_asks (i : Webhook) : ∃ told, Asks m (m.notify i) none (i.request? m.globals) told
    ∧ (i.payload? m.globals = none → told = [])
    ∧ (i.payload? m.globals ≠ none → ∃ e, told = [e] ∧ e.category = "webhook") := by
  unfold notify Webhook.request?
  cases i.payload? m.globals with
  | none => exact ⟨[], (Asks.nothing m).log _, fun _ => rfl, fun h => absurd rfl h⟩
  | some payload =>
      have hafter := attempt_asks (m := m) (i.request payload)
      revert hafter
      dsimp only [Option.bind_some]
      rcases m.attempt (i.request payload) with ⟨answer, after⟩
      intro hafter
      cases answer with
      | ok code => exact ⟨_, (hafter.log _).emit "webhook" _, nofun, fun _ => ⟨_, rfl, rfl⟩⟩
      | error failure =>
          exact ⟨_, (hafter.log _).emit "webhook" _, nofun, fun _ => ⟨_, rfl, rfl⟩⟩

/-- A row is told to have been appended when that was a success. -/
theorem appendRow_asks (i : SheetRow) :
    ∃ told, Asks m (m.appendRow i) none (i.request? m.settings.sheetsBase m.globals) told
      ∧ (m.succeeds (i.request? m.settings.sheetsBase m.globals) = false → told = [])
      ∧ (m.succeeds (i.request? m.settings.sheetsBase m.globals) = true →
        ∃ e, told = [e] ∧ e.category = "spreadsheet") := by
  unfold appendRow SheetRow.request?
  dsimp only
  cases i.appendUrl? m.settings.sheetsBase with
  | none => exact ⟨[], (Asks.nothing m).log _, fun _ => rfl, nofun⟩
  | some url =>
      have hafter := attempt_asks (m := m) (i.request m.globals url)
      have hsuccess := attempt_succeeds (m := m) (i.request m.globals url)
      revert hafter hsuccess
      dsimp only [Option.bind_some]
      rcases m.attempt (i.request m.globals url) with ⟨answer, after⟩
      intro hafter hsuccess
      rw [hsuccess]
      cases answer with
      | ok code =>
          dsimp only
          cases isSuccess code with
          | true => exact ⟨_, (hafter.log _).emit "spreadsheet" _, nofun, fun _ => ⟨_, rfl, rfl⟩⟩
          | false => exact ⟨[], hafter.log _, fun _ => rfl, nofun⟩
      | error failure => exact ⟨[], hafter.log _, fun _ => rfl, nofun⟩

end Machine

-- =========================================================== the actions

namespace Action

open Machine

/-- An action asks the services for what can be read off the variables, and adds its events to
those there are; a built-in one that records any leaves the variables alone. -/
structure Asked (a : Action) (m m' : Machine) (told : List Event) : Prop where
  queue : m'.world.queue = m.world.queue.receive (a.job? m.globals)
  network : m'.world.network
    = m.world.network.carry m.settings.retryPolicy (a.request? m.settings m.globals)
  events : m'.events = m.events ++ told
  category : a.isBuiltin = true → ∀ e ∈ told, a.category? = some e.category
  globals : a.category? ≠ none → m'.globals = m.globals

/-- An action has asked for what it was to ask for, where what is told is of its category. -/
theorem Asked.of_asks {a : Action} {m m' : Machine} {told : List Event}
    (h : Machine.Asks m m' (a.job? m.globals) (a.request? m.settings m.globals) told)
    (htold : ∀ e ∈ told, a.category? = some e.category) : a.Asked m m' told :=
  ⟨h.queue, h.network, h.events, fun _ => htold, fun _ => h.globals⟩

/-- A transform asks for nothing and tells nothing. -/
theorem Asked.transform {a : Action} {m : Machine} {o : Instruction.Outcome}
    (hjob : a.job? m.globals = none) (hrequest : a.request? m.settings m.globals = none)
    (hcategory : a.category? = none) : a.Asked m (m.transform o) [] where
  queue := by rw [hjob]; rfl
  network := by rw [hrequest]; rfl
  events := (List.append_nil _).symm
  category _ := List.forall_mem_nil _
  globals h := absurd hcategory h

/-- A built-in action asks for its job or its request and tells of nothing else; one from outside
asks for neither. -/
theorem perform_asks (a : Action) (m : Machine) : ∃ told, a.Asked m (a.perform m).1 told := by
  cases a with
  | array i => exact ⟨[], .transform rfl rfl rfl⟩
  | object i => exact ⟨[], .transform rfl rfl rfl⟩
  | number i => exact ⟨[], .transform rfl rfl rfl⟩
  | string i => exact ⟨[], .transform rfl rfl rfl⟩
  | template i => exact ⟨[], .transform rfl rfl rfl⟩
  | set i => exact ⟨[], .transform rfl rfl rfl⟩
  | debug i =>
      obtain ⟨told, hasks, htold⟩ := inspect_asks (m := m) i
      exact ⟨told, .of_asks hasks fun e he => congrArg some (htold e he).symm⟩
  | log i =>
      obtain ⟨e, hasks, he⟩ := note_asks (m := m) i
      exact ⟨[e], .of_asks hasks (List.forall_mem_singleton.mpr (congrArg some he.symm))⟩
  | queue i =>
      refine ⟨_, .of_asks (enqueue_asks i) ?_⟩
      intro e he
      obtain ⟨_, -, rfl⟩ := List.mem_map.mp he
      rfl
  | webhook i =>
      obtain ⟨told, hasks, hnone, hsome⟩ := notify_asks (m := m) i
      refine ⟨told, .of_asks hasks ?_⟩
      by_cases hpayload : i.payload? m.globals = none
      · rw [hnone hpayload]
        exact nofun
      · obtain ⟨e, rfl, he⟩ := hsome hpayload
        exact List.forall_mem_singleton.mpr (congrArg some he.symm)
  | spreadsheet i =>
      obtain ⟨told, hasks, hfails, hsucceeds⟩ := appendRow_asks (m := m) i
      refine ⟨told, .of_asks hasks ?_⟩
      cases hs : m.succeeds (i.request? m.settings.sheetsBase m.globals) with
      | false =>
          rw [hfails hs]
          exact List.forall_mem_nil _
      | true =>
          obtain ⟨e, rfl, he⟩ := hsucceeds hs
          exact List.forall_mem_singleton.mpr (congrArg some he.symm)
  | hook run =>
      obtain ⟨told, hevents⟩ : ∃ told, (m.react run).1.events = m.events ++ told := by
        rw [react_eq]
        exact ⟨_, rfl⟩
      have hbuiltin : (hook run).isBuiltin ≠ true := Bool.false_ne_true
      refine ⟨told, ?_, ?_, hevents, fun h => absurd h hbuiltin, fun h => absurd rfl h⟩
      · show (m.react run).1.world.queue = m.world.queue
        rw [react_eq]
      · show (m.react run).1.world.network = m.world.network
        rw [react_eq]

end Action

end EventScript
