/-
How far an action reaches. A built-in action reads the variables, the events and the world
of its machine and the settings for deliveries, and writes the first three; how the run
stands, where it is and how deep it may go, it neither sees nor touches. So an action
performed on another machine with the same effects does the same there.

That is one law for each operation (`_withEffects`), and `Action.perform_withEffects` puts
them together. What a run may change in the frame around an action is read off it: setting
the frame to the machine's own gives that nothing changes, and setting it to the same
frame with another limit gives that the limit does not matter.
-/
import EventScript.Machine.Walk
import EventScript.Proofs.Program.Builtin

namespace EventScript

/-- What a run leaves behind: the variables, the events and the world. -/
structure Effects where
  globals : Globals
  events : List Event
  world : World

namespace Machine

variable {k m : Machine}

/-- What the machine has done so far, and the variables as they stand. -/
def effects (m : Machine) : Effects := ⟨m.globals, m.events, m.world⟩

/-- The machine with other effects, in the same frame. -/
def withEffects (k : Machine) (fx : Effects) : Machine :=
  { k with globals := fx.globals, events := fx.events, world := fx.world }

@[simp] theorem withEffects_effects (m : Machine) : m.withEffects m.effects = m := rfl

@[simp] theorem withEffects_globals (k m : Machine) :
    (k.withEffects m.effects).globals = m.globals := rfl

@[simp] theorem withEffects_world (k m : Machine) :
    (k.withEffects m.effects).world = m.world := rfl

@[simp] theorem withEffects_settings (k m : Machine) :
    (k.withEffects m.effects).settings = k.settings := rfl

/-- The two machines deliver requests alike. -/
structure SameDelivery (k m : Machine) : Prop where
  retryPolicy : k.settings.retryPolicy = m.settings.retryPolicy
  sheetsBase : k.settings.sheetsBase = m.settings.sheetsBase

-- ======================================================= the operations

/-- A stretch of operations that keep to the effects keeps to them. -/
theorem foldl_withEffects {α : Type} {f : Machine → α → Machine}
    (h : ∀ m a, f (k.withEffects m.effects) a = k.withEffects (f m a).effects) :
    ∀ (l : List α) (m : Machine),
      l.foldl f (k.withEffects m.effects) = k.withEffects (l.foldl f m).effects := by
  intro l
  induction l with
  | nil => intro m; rfl
  | cons a l ih =>
      intro m
      rw [List.foldl_cons, h, ih]
      rfl

/-- A transform keeps to the effects. -/
theorem transform_withEffects (o : Instruction.Outcome) :
    (k.withEffects m.effects).transform o = k.withEffects (m.transform o).effects := rfl

theorem inspect_withEffects (i : Instruction.VariableReport) :
    (k.withEffects m.effects).inspect i = k.withEffects (m.inspect i).effects :=
  foldl_withEffects (fun _ _ => rfl) _ m

theorem note_withEffects (i : Instruction.LogNote) :
    (k.withEffects m.effects).note i = k.withEffects (m.note i).effects := rfl

/-- What is enqueued depends on the effects alone. -/
theorem enqueue_withEffects (i : Instruction.JobOrder) :
    (k.withEffects m.effects).enqueue i = k.withEffects (m.enqueue i).effects := by
  unfold enqueue
  simp only [withEffects_globals, withEffects_world]
  rcases m.world.queue.offer (i.job m.globals) with ⟨answer, queue⟩
  cases answer with
  | ok id => rfl
  | error refusal => rfl

/-- A request keeps to the effects and is answered alike, where the machines deliver alike. -/
theorem deliver_withEffects (hs : SameDelivery k m) (r : Http.Request) :
    (k.withEffects m.effects).deliver r
      = ((m.deliver r).1, k.withEffects (m.deliver r).2.effects) := by
  unfold deliver
  simp only [withEffects_world, withEffects_settings, hs.retryPolicy]
  rfl

/-- So does a request that may not have been built. -/
theorem attempt_withEffects (hs : SameDelivery k m)
    (request : Except Http.Request.Fault Http.Request) :
    (k.withEffects m.effects).attempt request
      = ((m.attempt request).1, k.withEffects (m.attempt request).2.effects) := by
  cases request with
  | error fault => rfl
  | ok r =>
      unfold attempt
      simp only [deliver_withEffects hs]
      rcases m.deliver r with ⟨reply, after⟩
      cases reply <;> rfl

/-- What is delivered depends on the effects, and on how deliveries are made. -/
theorem notify_withEffects (hs : SameDelivery k m) (i : Instruction.Webhook) :
    (k.withEffects m.effects).notify i = k.withEffects (m.notify i).effects := by
  unfold notify
  simp only [withEffects_globals]
  cases i.payload? m.globals with
  | none => rfl
  | some payload =>
      simp only [attempt_withEffects hs]
      rcases m.attempt (i.request payload) with ⟨answer, after⟩
      cases answer <;> rfl

/-- A row depends on the effects, and on how deliveries are made. -/
theorem appendRow_withEffects (hs : SameDelivery k m) (i : Instruction.SheetRow) :
    (k.withEffects m.effects).appendRow i = k.withEffects (m.appendRow i).effects := by
  unfold appendRow
  simp only [withEffects_globals, withEffects_settings, hs.sheetsBase]
  cases i.appendUrl? m.settings.sheetsBase with
  | none => rfl
  | some url =>
      simp only [attempt_withEffects hs]
      rcases m.attempt (i.request m.globals url) with ⟨answer, after⟩
      cases answer with
      | ok code =>
          dsimp only
          cases isSuccess code <;> rfl
      | error failure => rfl

/-- Events recorded one after another are recorded at one time. -/
theorem foldl_emit (l : List (String × String)) (m : Machine) :
    l.foldl (fun m (category, message) => m.emit category message) m
      = { m with events :=
          m.events ++ l.map fun (category, message) => ⟨category, message, m.world.now⟩ } := by
  induction l generalizing m with
  | nil => simp
  | cons x l ih =>
      rw [List.foldl_cons, ih]
      simp [emit]

/-- What an instruction from outside does: it reads the variables and the stack, and changes
the variables, the events and the halt flag. -/
theorem react_eq (m : Machine) (run : Hook) :
    m.react run
      = ({ m with
            globals := (run m.globals m.stack).globals
            halted := m.halted || (run m.globals m.stack).halts
            events := m.events ++ (run m.globals m.stack).events.map
              fun (category, message) => ⟨category, message, m.world.now⟩ },
          (run m.globals m.stack).error) :=
  Prod.ext (foldl_emit _ _) rfl

end Machine

-- ============================================================ the actions

open Machine in
/-- A built-in action performed in another frame does the same to the effects, and ends no
run. -/
theorem Action.perform_withEffects {k m : Machine} {a : Action} (ha : a.isBuiltin = true)
    (hs : SameDelivery k m) :
    a.perform (k.withEffects m.effects) = (k.withEffects (a.perform m).1.effects, none) := by
  cases a with
  | array i => exact Prod.ext (transform_withEffects _) rfl
  | object i => exact Prod.ext (transform_withEffects _) rfl
  | number i => exact Prod.ext (transform_withEffects _) rfl
  | string i => exact Prod.ext (transform_withEffects _) rfl
  | template i => exact Prod.ext (transform_withEffects _) rfl
  | set i => exact Prod.ext (transform_withEffects _) rfl
  | debug i => exact Prod.ext (inspect_withEffects i) rfl
  | log i => exact Prod.ext (note_withEffects i) rfl
  | queue i => exact Prod.ext (enqueue_withEffects i) rfl
  | webhook i => exact Prod.ext (notify_withEffects hs i) rfl
  | spreadsheet i => exact Prod.ext (appendRow_withEffects hs i) rfl
  | hook run => cases ha

/-- A built-in action changes the effects alone, and ends no run. -/
theorem Action.perform_eq {m : Machine} {a : Action} (ha : a.isBuiltin = true) :
    a.perform m = (m.withEffects (a.perform m).1.effects, none) :=
  Action.perform_withEffects (k := m) ha ⟨rfl, rfl⟩

end EventScript
