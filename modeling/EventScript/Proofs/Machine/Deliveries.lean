/-
What a run sends, accounted for. A step that is executed asks for one request at most, which is
made of the variables as they stand when the step begins. The requests that a run attempts are
those of its executions, one block after another: no request without an execution that asks for
it, no block lost, split or moved. And each event of a run belongs to an execution, so that what
is told about a request is told by the step that asked for it.

How the attempts end decides how long the blocks are and what is told, and nothing else: a run
ends in the same way, with the same variables, whatever the network answers.
-/
import EventScript.Proofs.Machine.Services
import EventScript.Proofs.Machine.Simulation
import EventScript.Proofs.Machine.WrittenOrder

namespace EventScript

open Http (Reply Request Delivery Network)
open Instruction (Webhook SheetRow)

-- ========================================================== one execution

namespace Execution

/-- The request that the step asks for. -/
def request? (x : Execution) : Option Request :=
  match x.step with
  | .action _ a => a.request? x.machine.settings x.machine.globals
  | .branch .. => none

/-- The requests that the step attempts. -/
def sends (x : Execution) : List Request :=
  x.machine.world.network.attempts x.machine.settings.retryPolicy x.request?

/-- The events that the step itself records. -/
def records (x : Execution) : List Event := x.leaves.events.drop x.machine.events.length

/-- The last attempt was answered with a status of success. -/
def Accepted (replies : Nat → Reply) (x : Execution) : Prop :=
  x.sends ≠ [] ∧ ∃ code, 200 ≤ code ∧ code < 300
    ∧ replies (x.machine.world.network.sent.length + x.sends.length - 1) = .status code

/-- What the step asks for it sends, as often as the replies let it; what it tells depends on
what it is; and nothing else comes of it for the run. -/
structure Accounted (retries : Nat) (replies : Nat → Reply) (x : Execution) : Prop where
  block : ∀ r, x.request? = some r →
    Delivery.Made replies retries x.machine.world.network.sent.length r x.sends
  unasked : x.request? = none → x.sends = []
  /-- A webhook whose variable has no value, or null, sends nothing and tells nothing. -/
  webhook_empty : ∀ call i, x.step = .action call (.webhook i) →
    x.machine.globals.getPath? i.variableName = none
      ∨ x.machine.globals.getPath? i.variableName = some .null →
        x.sends = [] ∧ x.records = []
  /-- Any other webhook tells of it, once, whether or not a request could be built; the body of
  the request is the value. -/
  webhook : ∀ call i payload, x.step = .action call (.webhook i) →
    x.machine.globals.getPath? i.variableName = some payload → payload ≠ .null →
      x.request? = (i.request payload).toOption ∧ (∀ r, x.request? = some r → r.body = payload)
        ∧ ∃ e, x.records = [e] ∧ e.category = "webhook"
  /-- A row is told of, once, if it was accepted; the body of the request is the row. -/
  spreadsheet : ∀ call i, x.step = .action call (.spreadsheet i) →
    (∀ r, x.request? = some r → r.body = i.body x.machine.globals)
      ∧ (x.Accepted replies → ∃ e, x.records = [e] ∧ e.category = "spreadsheet")
      ∧ (¬ x.Accepted replies → x.records = [])
  /-- A step that may send leaves the run as it is. -/
  harmless : ∀ call a, x.step = .action call a →
    (∃ i, a = .webhook i) ∨ (∃ i, a = .spreadsheet i) →
      (a.perform x.machine).2 = none ∧ (a.perform x.machine).1.globals = x.machine.globals
        ∧ (a.perform x.machine).1.halted = x.machine.halted
        ∧ (a.perform x.machine).1.error = x.machine.error

variable {x : Execution} {call : Call} {a : Action}

/-- An action leaves what it does. -/
theorem leaves_action (h : x.step = .action call a) :
    x.leaves = (a.perform x.machine).1.deeds := by
  unfold leaves
  rw [h]

theorem leaves_branch {condition : Instruction.Condition} {zero one : Option (List Step)}
    (h : x.step = .branch call condition zero one) : x.leaves = x.machine.deeds := by
  unfold leaves
  rw [h]

theorem request?_action (h : x.step = .action call a) :
    x.request? = a.request? x.machine.settings x.machine.globals := by
  unfold request?
  rw [h]

/-- A webhook asks for the request that its value makes, if it has one. -/
theorem request?_webhook {i : Instruction.Webhook} (h : x.step = .action call (.webhook i)) :
    x.request? = (i.payload? x.machine.globals).bind fun payload =>
      (i.request payload).toOption := by
  rw [request?_action h]
  rfl

/-- What is told by an action is what its step records. -/
theorem records_eq {told : List Event} (h : x.step = .action call a)
    (htold : (a.perform x.machine).1.events = x.machine.events ++ told) : x.records = told := by
  unfold records
  rw [leaves_action h]
  show (a.perform x.machine).1.events.drop x.machine.events.length = told
  rw [htold, List.drop_left]

/-- What a step leaves of the network and the events: the requests it attempts are added to
those there are, and so are the events it records. -/
theorem leaves_adds (x : Execution) :
    x.leaves.world.network.replies = x.machine.deeds.world.network.replies
      ∧ x.leaves.world.network.sent = x.machine.deeds.world.network.sent ++ x.sends
      ∧ x.leaves.events = x.machine.deeds.events ++ x.records := by
  cases hx : x.step with
  | action call a =>
      obtain ⟨told, hasked⟩ := a.perform_asks x.machine
      have hnetwork : x.leaves.world.network = x.machine.world.network.carry
          x.machine.settings.retryPolicy x.request? := by
        rw [leaves_action hx, request?_action hx]
        exact hasked.network
      have hevents : x.leaves.events = x.machine.events ++ told := by
        rw [leaves_action hx]
        exact hasked.events
      refine ⟨?_, ?_, ?_⟩
      · rw [hnetwork]
        exact Network.carry_replies _ _ _
      · rw [hnetwork]
        exact Network.carry_sent _ _ _
      · rw [records_eq hx hasked.events, leaves_action hx]
        exact hasked.events
  | branch call condition zero one =>
      have hsends : x.sends = [] := by
        unfold sends request?
        rw [hx]
        rfl
      have hrecords : x.records = [] := by
        unfold records
        rw [leaves_branch hx]
        exact List.drop_length
      rw [leaves_branch hx, hsends, hrecords, List.append_nil, List.append_nil]
      exact ⟨rfl, rfl, rfl⟩

/-- The last attempt was accepted if the outcome of the request is a success. -/
theorem accepted_iff (x : Execution) :
    x.Accepted x.machine.world.network.replies ↔ x.machine.succeeds x.request? = true := by
  unfold Accepted Machine.succeeds sends
  cases x.request? with
  | none => exact ⟨fun h => absurd rfl h.1, nofun⟩
  | some r =>
      have hmade := x.machine.world.network.attempts_made x.machine.settings.retryPolicy r
      rw [Network.outcome?_some]
      constructor
      · rintro ⟨-, code, hlow, hhigh, hreply⟩
        rw [hreply]
        simp [Machine.isSuccess, hlow, hhigh]
      · intro h
        refine ⟨hmade.attempted, ?_⟩
        split at h
        · next code hreply =>
          simp only [Machine.isSuccess, Bool.and_eq_true, decide_eq_true_iff] at h
          exact ⟨code, h.1, h.2, Option.some.inj hreply⟩
        · cases h

/-- Every execution is accounted for, by the settings and the network that it finds. -/
theorem accounted (x : Execution) :
    x.Accounted x.machine.settings.retries x.machine.world.network.replies where
  block r hr := by
    unfold sends
    rw [hr]
    exact x.machine.world.network.attempts_made x.machine.settings.retryPolicy r
  unasked hr := by
    unfold sends
    rw [hr]
    rfl
  webhook_empty := by
    intro call i hx hvalue
    have hpayload := i.payload?_eq_none_iff.mpr hvalue
    obtain ⟨told, hasks, hnone, -⟩ := x.machine.notify_asks i
    have hrequest : x.request? = none := by
      rw [request?_webhook hx, hpayload, Option.bind_none]
    refine ⟨?_, ?_⟩
    · unfold sends
      rw [hrequest]
      rfl
    · rw [records_eq hx hasks.events]
      exact hnone hpayload
  webhook := by
    intro call i payload hx hvalue hnull
    have hpayload := i.payload?_eq_some_iff.mpr ⟨hvalue, hnull⟩
    obtain ⟨told, hasks, -, hsome⟩ := x.machine.notify_asks i
    have hrequest : x.request? = (i.request payload).toOption := by
      rw [request?_webhook hx, hpayload, Option.bind_some]
    refine ⟨hrequest, ?_, ?_⟩
    · intro r hr
      rw [hrequest] at hr
      exact i.request_body hr
    · rw [records_eq hx hasks.events]
      exact hsome (by rw [hpayload]; exact nofun)
  spreadsheet := by
    intro call i hx
    obtain ⟨told, hasks, hfails, hsucceeds⟩ := x.machine.appendRow_asks i
    have hrequest : x.request? = i.request? x.machine.settings.sheetsBase x.machine.globals :=
      request?_action hx
    rw [← hrequest] at hfails hsucceeds
    rw [records_eq hx hasks.events, accepted_iff]
    refine ⟨?_, hsucceeds, fun h => hfails (eq_false_of_ne_true h)⟩
    intro r hr
    rw [hrequest] at hr
    exact i.request?_body hr
  harmless := by
    intro call a hx ha
    have hbuiltin : a.isBuiltin = true := by
      rcases ha with ⟨i, rfl⟩ | ⟨i, rfl⟩ <;> rfl
    have hcategory : a.category? ≠ none := by
      rcases ha with ⟨i, rfl⟩ | ⟨i, rfl⟩ <;> exact nofun
    obtain ⟨told, hasked⟩ := a.perform_asks x.machine
    have hframe := Action.perform_eq (m := x.machine) hbuiltin
    refine ⟨by rw [hframe], hasked.globals hcategory, ?_, ?_⟩
    · rw [hframe]
      rfl
    · rw [hframe]
      rfl

end Execution

-- ============================================================== all of them

namespace Execution.Lead

variable {α : Type} {f : Effects → List α} {g : Execution → List α} {fx fx' : Effects}
  {xs later : List Execution} {x : Execution}

/-- What each execution adds adds up. -/
theorem collect (hadds : ∀ x, f x.leaves = f x.machine.deeds ++ g x) (h : Lead fx xs fx') :
    f fx' = f fx ++ xs.flatMap g := by
  induction h with
  | nil => exact (List.append_nil _).symm
  | @cons x _ _ _ ih => rw [ih, hadds, List.append_assoc, List.flatMap_cons]

/-- What each execution keeps is kept. -/
theorem keeps {β : Type} {f : Effects → β}
    (hkeeps : ∀ x : Execution, f x.leaves = f x.machine.deeds)
    (h : Lead fx xs fx') : f fx' = f fx := by
  induction h with
  | nil => rfl
  | @cons x _ _ _ ih => rw [ih, hkeeps]

/-- The executions before one lead to where it begins. -/
theorem until_begin (h : Lead fx (xs ++ x :: later) fx') : Lead fx xs x.machine.deeds := by
  induction xs generalizing fx with
  | nil =>
      cases h
      exact .nil
  | cons y xs ih =>
      cases h with
      | cons h => exact .cons (ih h)

end Execution.Lead

mutual

/-- All steps of a walk begin under the settings of its machine. -/
theorem Step.executions_settings : ∀ (s : Step) (m : Machine),
    ∀ x ∈ s.executions m, x.machine.settings = m.settings
  | .action _ _, m => List.forall_mem_singleton.mpr rfl
  | .branch call condition zero one, m => by
      have hzero := Step.enterExecutions_settings zero (m.decide condition).2
      have hone := Step.enterExecutions_settings one (m.decide condition).2
      exact Step.executions_branch_cases
        (P := fun xs _ _ => ∀ x ∈ xs, x.machine.settings = m.settings)
        (List.forall_mem_singleton.mpr rfl)
        (List.forall_mem_cons.mpr ⟨rfl, List.forall_mem_map.mpr hzero⟩)
        (List.forall_mem_cons.mpr ⟨rfl, List.forall_mem_map.mpr hone⟩)

theorem Step.enterExecutions_settings : ∀ (branch : Option (List Step)) (m : Machine),
    ∀ x ∈ Step.enterExecutions branch m, x.machine.settings = m.settings
  | none, _ => List.forall_mem_nil _
  | some steps, m => by
      have hwalk := Step.walkExecutions_settings 0 steps { m with depth := m.depth + 1 }
      unfold Step.enterExecutions
      split
      · exact List.forall_mem_nil _
      · exact hwalk

theorem Step.walkExecutions_settings (n : Nat) : ∀ (steps : List Step) (m : Machine),
    ∀ x ∈ Step.walkExecutions n steps m, x.machine.settings = m.settings
  | [], _ => List.forall_mem_nil _
  | step :: rest, m => by
      have hstep := Step.executions_settings step (m.begin step.call)
      have hrest := Step.walkExecutions_settings (n + 1) rest (m.after step)
      rw [Step.walkExecutions]
      refine List.forall_mem_append.mpr ⟨List.forall_mem_map.mpr hstep, ?_⟩
      split
      · exact List.forall_mem_nil _
      · rw [(m.after_sameFrame step).settings] at hrest
        exact hrest

end

-- ============================================================== the outcomes

/-- Built-in actions do the same to the variables wherever these are the same. -/
theorem Action.perform_globals_congr {a : Action} (ha : a.isBuiltin = true) {k m : Machine}
    (h : k.globals = m.globals) : (a.perform k).1.globals = (a.perform m).1.globals := by
  by_cases hcategory : a.category? = none
  · cases a with
    | hook run => cases ha
    | debug i => cases hcategory
    | log i => cases hcategory
    | queue i => cases hcategory
    | webhook i => cases hcategory
    | spreadsheet i => cases hcategory
    | _ =>
        simp only [Action.perform, h]
        rfl
  · obtain ⟨_, hk⟩ := a.perform_asks k
    obtain ⟨_, hm⟩ := a.perform_asks m
    rw [hk.globals hcategory, hm.globals hcategory, h]

namespace Machine

/-- The network is hidden, and whatever tells of it. -/
def hiddenNetwork : Veil where
  events _ := []
  world w := { w with network := .unreachable, log := [], now := .epoch }

/-- With the network hidden, what is done looks alike where the machines do. -/
theorem hiddenNetwork_steady : hiddenNetwork.Steady where
  log _ _ := rfl
  perform := by
    intro a k m h
    have hglobals : k.globals = m.globals := eq_of_view Machine.globals h fun _ => rfl
    have hqueue : k.world.queue = m.world.queue :=
      eq_of_view (fun m => m.world.queue) h fun _ => rfl
    cases hb : a.isBuiltin with
    | true =>
        obtain ⟨_, hk⟩ := a.perform_asks k
        obtain ⟨_, hm⟩ := a.perform_asks m
        have hafter : (a.perform k).1.world.queue = (a.perform m).1.world.queue := by
          rw [hk.queue, hm.queue, hqueue, hglobals]
        have hseen : ∀ b : Machine, (a.perform b).1.seen hiddenNetwork
            = { b.seen hiddenNetwork with
                globals := (a.perform b).1.globals
                world := { (b.seen hiddenNetwork).world with
                  queue := (a.perform b).1.world.queue } } := by
          intro b
          rw [Action.perform_eq (m := b) hb]
          rfl
        refine ⟨?_, ?_⟩
        · rw [hseen, hseen, h, Action.perform_globals_congr hb hglobals, hafter]
        · rw [Action.perform_eq (m := k) hb, Action.perform_eq (m := m) hb]
    | false =>
        cases a with
        | hook run =>
            have hstack : k.stack = m.stack := eq_of_view Machine.stack h fun _ => rfl
            have hreaction : run k.globals k.stack = run m.globals m.stack := by
              rw [hglobals, hstack]
            show hiddenNetwork.Alike (k.react run) (m.react run)
            rw [react_eq, react_eq, hreaction]
            exact ⟨congrArg (fun b : Machine => { b with
              globals := (run m.globals m.stack).globals
              halted := b.halted || (run m.globals m.stack).halts }) h, rfl⟩
        | _ => cases hb

variable {m : Machine}

/-- What is executed in a run leads from the machine as it was to what the run leaves, and
begins under its settings. -/
theorem executions_lead (m : Machine) (event : Option Json) :
    ∃ fx, fx.world = { m.world with log := [] } ∧ fx.events = m.events
      ∧ Execution.Lead fx (m.executions event) (m.execute event).2.deeds
      ∧ ∀ x ∈ m.executions event, x.machine.settings = m.settings := by
  by_cases hidle : m.status ≠ .idle
  · refine ⟨m.deeds, rfl, rfl, ?_⟩
    unfold executions execute
    rw [if_pos hidle, if_pos hidle]
    exact ⟨.nil, List.forall_mem_nil _⟩
  · cases hp : m.program with
    | none =>
        refine ⟨m.deeds, rfl, rfl, ?_⟩
        unfold executions execute
        rw [if_neg hidle, if_neg hidle, hp]
        exact ⟨.nil, List.forall_mem_nil _⟩
    | some p =>
        rcases executions_cases hp event with ⟨-, -, hspent⟩ | ⟨hruns, -, hends⟩
        · exact absurd hspent hidle
        · have hsettings := Step.enterExecutions_settings (some p.steps) (m.start p event)
          have hlead := Step.enterExecutions_lead (some p.steps) (m.start p event)
          rw [hruns, hends, ending_snd, conclude_deeds]
          refine ⟨(m.start p event).deeds, ?_, ?_, hlead, ?_⟩
          · cases event <;> rfl
          · cases event <;> rfl
          · intro x hx
            rw [hsettings x hx]
            cases event <;> rfl

/-- The requests that a run attempts are those of its executions, one block after another, and
so are the events it records; of each execution the block and the events are accounted for. And
in all else the run is the same, whatever the network is. -/
theorem deliveries_accounted (m : Machine) (event : Option Json) :
    (m.execute event).2.world.network.sent
        = m.world.network.sent ++ (m.executions event).flatMap Execution.sends
      ∧ (m.execute event).2.events
        = m.events ++ (m.executions event).flatMap Execution.records
      ∧ (∀ before x after, m.executions event = before ++ x :: after →
        x.machine.world.network.sent = m.world.network.sent ++ before.flatMap Execution.sends)
      ∧ (∀ x ∈ m.executions event,
        x.Accounted m.settings.retries m.world.network.replies)
      ∧ ∀ network, let k := { m with world := { m.world with network } }
        (k.execute event).1 = (m.execute event).1
          ∧ (k.execute event).2.globals = (m.execute event).2.globals
          ∧ (k.execute event).2.halted = (m.execute event).2.halted
          ∧ (k.execute event).2.error = (m.execute event).2.error
          ∧ (k.execute event).2.status = (m.execute event).2.status := by
  obtain ⟨fx, hworld, hevents, hlead, hsettings⟩ := m.executions_lead event
  have hsent : fx.world.network.sent = m.world.network.sent := by rw [hworld]
  have hbegins : ∀ before x after, m.executions event = before ++ x :: after →
      Execution.Lead fx before x.machine.deeds := by
    intro before x after hsplit
    rw [hsplit] at hlead
    exact hlead.until_begin
  refine ⟨?_, ?_, ?_, ?_, ?_⟩
  · rw [← hsent]
    exact hlead.collect (f := fun fx => fx.world.network.sent) fun x => x.leaves_adds.2.1
  · rw [← hevents]
    exact hlead.collect (f := Effects.events) fun x => x.leaves_adds.2.2
  · intro before x after hsplit
    rw [← hsent]
    exact (hbegins before x after hsplit).collect (f := fun fx => fx.world.network.sent)
      fun x => x.leaves_adds.2.1
  · intro x hx
    obtain ⟨before, after, hsplit⟩ := List.append_of_mem hx
    have hreplies : x.machine.world.network.replies = m.world.network.replies := by
      have hkept := (hbegins before x after hsplit).keeps
        (f := fun fx => fx.world.network.replies) fun x => x.leaves_adds.1
      rw [hworld] at hkept
      exact hkept
    have haccounted := x.accounted
    rw [hsettings x hx, hreplies] at haccounted
    exact haccounted
  · intro network k
    obtain ⟨hanswer, hafter⟩ := execute_seen hiddenNetwork_steady (k := k) (m := m) rfl event
    exact ⟨hanswer, eq_of_view Machine.globals hafter fun _ => rfl,
      eq_of_view Machine.halted hafter fun _ => rfl,
      eq_of_view Machine.error hafter fun _ => rfl,
      eq_of_view Machine.status hafter fun _ => rfl⟩

/-- A receiver that is too busy once is asked twice, and told of once. -/
example :
    let busyOnce : Network := { replies := fun n => .status (if n = 0 then 503 else 200) }
    let call : Step := .action ⟨"webhook", none⟩ (.webhook
      { url := "http://h/", method := .post, token := none, headers := [], variableName := "cast" })
    let m := ((new {} { network := busyOnce }).load ⟨[call]⟩ { id := "1" }).execute none
    m.2.world.network.sent.length = 2 ∧ m.2.events.map Event.message = ["POST http://h/ -> 200"] := by
  decide +kernel

end Machine

end EventScript
