/-
What actions do not see. A view of machines hides some of a machine, the log in any case,
and shows at least what actions go by: the variables, the settings, the queue and the
network. An action then does the same, as far as the view shows it, on any two machines that
look the same; what else the two differ in has no part in what it does.

The laws of a view are about single operations on a machine, and each is an equation that
holds by definition, or nearly; that all actions are blind to what a view hides is proved from them
here, once for all views.
-/
import EventScript.Proofs.Machine.Effects

namespace EventScript.Machine

/-- A view that hides the log at least, and through which the operations of actions show
alike on machines that look alike. -/
structure Blind (view : Machine → Machine) : Prop where
  globals : ∀ m, (view m).globals = m.globals
  settings : ∀ m, (view m).settings = m.settings
  queue : ∀ m, (view m).world.queue = m.world.queue
  network : ∀ m, (view m).world.network = m.world.network
  logAll : ∀ m records, view (m.logAll records) = view m
  emit : ∀ m category message,
    view ((view m).emit category message) = view (m.emit category message)
  write : ∀ m g, view { view m with globals := g } = view { m with globals := g }
  react : ∀ m g halts, view { view m with globals := g, halted := (view m).halted || halts }
    = view { m with globals := g, halted := m.halted || halts }
  offer : ∀ m q, view { view m with world := { (view m).world with queue := q } }
    = view { m with world := { m.world with queue := q } }
  deliver : ∀ m n (wait : Timestamp → Timestamp),
    view { view m with world := { (view m).world with
      network := n, now := wait (view m).world.now } }
    = view { m with world := { m.world with network := n, now := wait m.world.now } }

/-- What a view shows is the same of machines that look alike. -/
theorem eq_of_view {view : Machine → Machine} {k m : Machine} {α : Type} (f : Machine → α)
    (h : view k = view m) (hf : ∀ m, f (view m) = f m) : f k = f m := by
  rw [← hf k, h, hf m]

/-- A stretch of operations that show alike shows alike. -/
theorem view_foldl (view : Machine → Machine) {α : Type} {f : Machine → α → Machine}
    (hf : ∀ a {k m}, view k = view m → view (f k a) = view (f m a)) (l : List α)
    {k m : Machine} (h : view k = view m) : view (l.foldl f k) = view (l.foldl f m) := by
  induction l generalizing k m with
  | nil => exact h
  | cons a l ih => exact ih (hf a h)

namespace Blind

variable {view : Machine → Machine} (blind : Blind view) {k m : Machine}

include blind

/-- Machines that look alike have the same variables. -/
theorem globals_eq (h : view k = view m) : k.globals = m.globals :=
  eq_of_view Machine.globals h blind.globals

theorem settings_eq (h : view k = view m) : k.settings = m.settings :=
  eq_of_view Machine.settings h blind.settings

theorem queue_eq (h : view k = view m) : k.world.queue = m.world.queue :=
  eq_of_view (fun m => m.world.queue) h blind.queue

theorem network_eq (h : view k = view m) : k.world.network = m.world.network :=
  eq_of_view (fun m => m.world.network) h blind.network

/-- Records are added to the log unseen. -/
theorem view_logAll (h : view k = view m) (records records' : List Log.Record) :
    view (k.logAll records) = view (m.logAll records') := by
  rw [blind.logAll, h, blind.logAll]

theorem view_log (h : view k = view m) (record record' : Log.Record) :
    view (k.log record) = view (m.log record') :=
  blind.view_logAll h [record] [record']

/-- An event looks alike where the machines do. -/
theorem view_emit (h : view k = view m) (category message : String) :
    view (k.emit category message) = view (m.emit category message) := by
  rw [← blind.emit, h, blind.emit]

-- ======================================================= the operations

/-- What a transform leaves looks alike. -/
theorem view_transform (h : view k = view m) (o : Instruction.Outcome) :
    view (k.transform o) = view (m.transform o) := by
  refine blind.view_logAll ?_ _ _
  rw [← blind.write, h, blind.write]

theorem view_inspect (h : view k = view m) (i : Instruction.VariableReport) :
    view (k.inspect i) = view (m.inspect i) := by
  unfold inspect
  rw [blind.globals_eq h]
  exact view_foldl view (fun text _ _ h => blind.view_emit (blind.view_log h _ _) _ text) _ h

theorem view_note (h : view k = view m) (i : Instruction.LogNote) :
    view (k.note i) = view (m.note i) := by
  unfold note
  rw [blind.globals_eq h]
  exact blind.view_emit (blind.view_log h _ _) _ _

/-- What an order leaves looks alike, since the queues are the same. -/
theorem view_enqueue (h : view k = view m) (i : Instruction.JobOrder) :
    view (k.enqueue i) = view (m.enqueue i) := by
  have hjob : i.job k.globals = i.job m.globals := congrArg i.job (blind.globals_eq h)
  unfold enqueue
  rw [hjob, blind.queue_eq h]
  rcases m.world.queue.offer (i.job m.globals) with ⟨answer, queue⟩
  have hoffer : view { k with world := { k.world with queue } }
      = view { m with world := { m.world with queue } } := by
    rw [← blind.offer, h, blind.offer]
  dsimp only
  cases answer with
  | ok id => exact blind.view_emit (blind.view_log hoffer _ _) _ _
  | error refusal => exact blind.view_log hoffer _ _

/-- A request is answered alike, and what it leaves looks alike. -/
theorem view_deliver (h : view k = view m) (r : Http.Request) :
    (k.deliver r).1 = (m.deliver r).1 ∧ view (k.deliver r).2 = view (m.deliver r).2 := by
  unfold Machine.deliver
  rw [blind.settings_eq h, blind.network_eq h]
  refine ⟨rfl, blind.view_logAll ?_ _ _⟩
  have hdeliver := fun m => blind.deliver m
    (m.world.network.deliver m.settings.retryPolicy r).2
    fun now => (((m.world.network.deliver m.settings.retryPolicy r).1).waits
      m.settings.retryPolicy).foldl Timestamp.addMillis now
  have hk := hdeliver k
  rw [h, blind.settings_eq h, blind.network_eq h, hdeliver m] at hk
  exact hk.symm

/-- So is a request that may not have been built. -/
theorem view_attempt (h : view k = view m)
    (request : Except Http.Request.Fault Http.Request) :
    (k.attempt request).1 = (m.attempt request).1
      ∧ view (k.attempt request).2 = view (m.attempt request).2 := by
  cases request with
  | error fault => exact ⟨rfl, h⟩
  | ok r =>
      obtain ⟨hreply, hafter⟩ := blind.view_deliver h r
      unfold attempt
      dsimp only
      rcases hk : k.deliver r with ⟨reply, k'⟩
      rcases hm : m.deliver r with ⟨reply', m'⟩
      rw [hk, hm] at hreply hafter
      cases hreply
      cases reply <;> exact ⟨rfl, hafter⟩

theorem view_notify (h : view k = view m) (i : Instruction.Webhook) :
    view (k.notify i) = view (m.notify i) := by
  unfold notify
  rw [blind.globals_eq h]
  cases i.payload? m.globals with
  | none => exact blind.view_log h _ _
  | some payload =>
      obtain ⟨hanswer, hafter⟩ := blind.view_attempt h (i.request payload)
      dsimp only
      rcases hk : k.attempt (i.request payload) with ⟨answer, k'⟩
      rcases hm : m.attempt (i.request payload) with ⟨answer', m'⟩
      rw [hk, hm] at hanswer hafter
      cases hanswer
      cases answer with
      | ok code => exact blind.view_emit (blind.view_log hafter _ _) _ _
      | error failure => exact blind.view_emit (blind.view_log hafter _ _) _ _

theorem view_appendRow (h : view k = view m) (i : Instruction.SheetRow) :
    view (k.appendRow i) = view (m.appendRow i) := by
  unfold appendRow
  rw [blind.globals_eq h, blind.settings_eq h]
  dsimp only
  cases i.appendUrl? m.settings.sheetsBase with
  | none => exact blind.view_log h _ _
  | some url =>
      obtain ⟨hanswer, hafter⟩ := blind.view_attempt h (i.request m.globals url)
      dsimp only
      rcases hk : k.attempt (i.request m.globals url) with ⟨answer, k'⟩
      rcases hm : m.attempt (i.request m.globals url) with ⟨answer', m'⟩
      rw [hk, hm] at hanswer hafter
      cases hanswer
      cases answer with
      | ok code =>
          dsimp only
          cases isSuccess code with
          | true => exact blind.view_emit (blind.view_log hafter _ _) _ _
          | false => exact blind.view_log hafter _ _
      | error failure => exact blind.view_log hafter _ _

/-- An instruction from outside reads the variables and the stack, and nothing else. -/
theorem view_react (h : view k = view m) (hstack : k.stack = m.stack) (run : Hook) :
    view (k.react run).1 = view (m.react run).1 ∧ (k.react run).2 = (m.react run).2 := by
  have hreads : run k.globals k.stack = run m.globals m.stack := by
    rw [blind.globals_eq h, hstack]
  unfold Machine.react
  rw [hreads]
  refine ⟨view_foldl view (fun x _ _ h => blind.view_emit h x.1 x.2) _ ?_, rfl⟩
  rw [← blind.react, h, blind.react]

/-- A built-in action shows alike on machines that look alike. -/
theorem view_perform (h : view k = view m) {a : Action} (ha : a.isBuiltin = true) :
    view (a.perform k).1 = view (a.perform m).1 := by
  have hglobals := blind.globals_eq h
  cases a with
  | debug i => exact blind.view_inspect h i
  | log i => exact blind.view_note h i
  | queue i => exact blind.view_enqueue h i
  | webhook i => exact blind.view_notify h i
  | spreadsheet i => exact blind.view_appendRow h i
  | hook run => cases ha
  | _ =>
      simp only [Action.perform, hglobals]
      exact blind.view_transform h _

end Blind

end EventScript.Machine
