/-
A run told moment by moment. Walking a program is one function from machine to machine;
what lies between is told here: the moment at which each step begins, and the moment at
which a program is about to be walked, the outermost or a branch that a condition has
fired towards. A moment keeps the machine as it stood. The moments follow the recursion of
the walk and ask the walk itself how each step ended, so they tell this run and no other.

The frame of a run is what a stretch of it leaves as it was: the stack and the depth come
back at the end of every step and every walk, whichever way it ended.
-/
import EventScript.Proofs.Machine.Effects

namespace EventScript

open Instruction (Condition)

/-- A moment of a run, and the machine as it stood. -/
inductive Moment where
  /-- A step begins; its call is on top of the stack. -/
  | step (m : Machine)
  /-- A program is about to be walked; so many programs enclose it as the depth says. -/
  | enter (m : Machine)

/-- The machine at the moment. -/
def Moment.machine : Moment → Machine
  | step m => m
  | enter m => m

/-- The machine after a step. -/
def Machine.after (m : Machine) (step : Step) : Machine :=
  (step.perform (m.begin step.call)).1.finish step.call (step.perform (m.begin step.call)).2

mutual

/-- The moments of one step: it begins, and where a condition fires a branch, those of the branch
follow. -/
def Step.moments : Step → Machine → List Moment
  | .action _ _, m => [.step m]
  | .branch _ condition zero one, m =>
    .step m :: match m.decide condition with
      | (none, _) => []
      | (some .halt, _) => []
      | (some .goto0, m) => Step.enterMoments zero m
      | (some .goto1, m) => Step.enterMoments one m

/-- The moments of a branch, from the one at which it is entered on. -/
def Step.enterMoments : Option (List Step) → Machine → List Moment
  | none, _ => []
  | some steps, m =>
    .enter m :: if m.atLimit then [] else Step.walkMoments steps { m with depth := m.depth + 1 }

/-- The moments of steps one after another, up to the one that stops the walk. -/
def Step.walkMoments : List Step → Machine → List Moment
  | [], _ => []
  | step :: rest, m =>
    Step.moments step (m.begin step.call)
      ++ if (m.after step).stopped then [] else Step.walkMoments rest (m.after step)

end

/-- The moments of a run on an event; there are none when nothing runs. -/
def Machine.moments (m : Machine) (event : Option Json) : List Moment :=
  if m.status ≠ .idle then []
  else match m.program with
    | none => []
    | some p => Step.enterMoments (some p.steps) (m.start p event)

-- ============================================================= equations

/-- The branch that a directive leads to. -/
def Step.selected (directive : Option Condition.Directive) (zero one : Option (List Step)) :
    Option (List Step) :=
  match directive with
  | some .goto0 => zero
  | some .goto1 => one
  | _ => none

/-- What holds of an absent branch and of both branches holds of the selected one. -/
theorem Step.selected_cases {P : Option (List Step) → Prop} {zero one : Option (List Step)}
    (directive : Option Condition.Directive) (absent : P none) (atZero : P zero) (atOne : P one) :
    P (Step.selected directive zero one) := by
  unfold Step.selected
  split
  · exact atZero
  · exact atOne
  · exact absent

variable {call : Call} {condition : Condition} {zero one : Option (List Step)} {m : Machine}

/-- A condition halts the machine, or enters the branch selected. -/
theorem Step.perform_branch :
    Step.perform (.branch call condition zero one) m
      = if (m.decide condition).1 = some .halt then
          (((m.decide condition).2.log (Log.info "condition: halting program")).halt true, none)
        else
          Step.enter? (Step.selected (m.decide condition).1 zero one) (m.decide condition).2 := by
  unfold Step.perform
  rcases m.decide condition with ⟨directive, m'⟩
  cases directive with
  | none => rfl
  | some d => cases d <;> rfl

/-- After a condition come the moments of the branch that it selects. -/
theorem Step.moments_branch :
    Step.moments (.branch call condition zero one) m
      = .step m :: Step.enterMoments (Step.selected (m.decide condition).1 zero one)
          (m.decide condition).2 := by
  unfold Step.moments
  rcases m.decide condition with ⟨directive, m'⟩
  cases directive with
  | none => rfl
  | some d => cases d <;> rfl

/-- The rest of a list is walked unless the machine is stopped behind the first step. -/
theorem Step.walk_cons {step : Step} {rest : List Step} :
    Step.walk (step :: rest) m
      = if (m.after step).stopped then m.after step else Step.walk rest (m.after step) := rfl

-- ============================================================= the frame

namespace Machine

/-- The second machine stands where the first one stood. -/
structure SameFrame (m m' : Machine) : Prop where
  settings : m'.settings = m.settings
  program : m'.program = m.program
  stack : m'.stack = m.stack
  depth : m'.depth = m.depth
  status : m'.status = m.status

theorem SameFrame.refl (m : Machine) : m.SameFrame m := ⟨rfl, rfl, rfl, rfl, rfl⟩

theorem SameFrame.trans {a b c : Machine} (hab : a.SameFrame b) (hbc : b.SameFrame c) :
    a.SameFrame c where
  settings := hbc.settings.trans hab.settings
  program := hbc.program.trans hab.program
  stack := hbc.stack.trans hab.stack
  depth := hbc.depth.trans hab.depth
  status := hbc.status.trans hab.status

theorem decide_sameFrame (m : Machine) (c : Condition) : m.SameFrame (m.decide c).2 :=
  ⟨rfl, rfl, rfl, rfl, rfl⟩

/-- Ending a step takes its call off the stack again. -/
theorem finish_sameFrame {call : Call} {r : Machine × Option RunError}
    (h : (m.begin call).SameFrame r.1) : m.SameFrame (r.1.finish call r.2) := by
  have hstack : r.1.stack.pop = m.stack := by
    rw [h.stack]
    exact CallStack.pop_push m.stack call
  rcases r with ⟨m', error⟩
  cases error with
  | none => exact ⟨h.settings, h.program, hstack, h.depth, h.status⟩
  | some e => exact ⟨h.settings, h.program, hstack, h.depth, h.status⟩

end Machine

/-- An action, also one from outside, leaves the frame. -/
theorem Action.perform_sameFrame (a : Action) (m : Machine) :
    m.SameFrame (a.perform m).1 := by
  cases hb : a.isBuiltin with
  | true =>
      rw [Action.perform_eq hb]
      exact ⟨rfl, rfl, rfl, rfl, rfl⟩
  | false =>
      cases a with
      | hook run =>
          show m.SameFrame (m.react run).1
          rw [Machine.react_eq]
          exact ⟨rfl, rfl, rfl, rfl, rfl⟩
      | _ => cases hb

mutual

/-- A step keeps the frame: its branches give back the depth and the stack they take. -/
theorem Step.perform_sameFrame : ∀ (s : Step) (m : Machine), m.SameFrame (s.perform m).1
  | .action _ a, m => a.perform_sameFrame m
  | .branch call condition zero one, m => by
      have hzero := Step.enter?_sameFrame zero (m.decide condition).2
      have hone := Step.enter?_sameFrame one (m.decide condition).2
      rw [Step.perform_branch]
      split
      · exact ⟨rfl, rfl, rfl, rfl, rfl⟩
      · exact (m.decide_sameFrame condition).trans
          (Step.selected_cases (P := fun b =>
            (m.decide condition).2.SameFrame (Step.enter? b (m.decide condition).2).1)
            (m.decide condition).1 (.refl _) hzero hone)

theorem Step.enter?_sameFrame :
    ∀ (branch : Option (List Step)) (m : Machine), m.SameFrame (Step.enter? branch m).1
  | none, m => .refl m
  | some steps, m => by
      have hwalk := Step.walk_sameFrame steps { m with depth := m.depth + 1 }
      unfold Step.enter?
      split
      · exact .refl m
      · refine ⟨hwalk.settings, hwalk.program, hwalk.stack, ?_, hwalk.status⟩
        show (Step.walk steps { m with depth := m.depth + 1 }).depth - 1 = m.depth
        rw [hwalk.depth]
        rfl

/-- A list of steps leaves the settings, the program, the stack, the depth and the status as they
were. -/
theorem Step.walk_sameFrame : ∀ (steps : List Step) (m : Machine), m.SameFrame (Step.walk steps m)
  | [], m => .refl m
  | step :: rest, m => by
      have hafter : m.SameFrame (m.after step) :=
        Machine.finish_sameFrame (Step.perform_sameFrame step (m.begin step.call))
      have hrest := Step.walk_sameFrame rest (m.after step)
      rw [Step.walk_cons]
      split
      · exact hafter
      · exact hafter.trans hrest

end

/-- The frame is the same behind a step, with its call on the stack no more. -/
theorem Machine.after_sameFrame (m : Machine) (step : Step) : m.SameFrame (m.after step) :=
  Machine.finish_sameFrame (Step.perform_sameFrame step (m.begin step.call))

-- ======================================================= runs from a load

namespace Machine

/-- The machine as the run on a program just loaded begins. -/
def opening (m : Machine) (p : Program) (cast : Cast) (event : Option Json) : Machine :=
  (m.load p cast).start p event

/-- What a run answers when its outermost walk is over. -/
def ending (r : Machine × Option RunError) : Except RunError Status × Machine :=
  match (r.1.conclude r.2).error with
  | some e => (.error e, r.1.conclude r.2)
  | none => (.ok (r.1.conclude r.2).status, r.1.conclude r.2)

variable {m : Machine} {p : Program} {cast : Cast} {event : Option Json}

/-- A machine that was just loaded runs the program as a branch of nothing. -/
theorem execute_load :
    (m.load p cast).execute event
      = ending (Step.enter? (some p.steps) (m.opening p cast event)) := rfl

theorem moments_load :
    (m.load p cast).moments event
      = Step.enterMoments (some p.steps) (m.opening p cast event) := rfl

/-- What a run leaves is the machine concluded. -/
theorem ending_snd (r : Machine × Option RunError) : (ending r).2 = r.1.conclude r.2 := by
  unfold ending
  split <;> rfl

/-- The error that is left is the one answered, or else the one recorded. -/
theorem conclude_error (m : Machine) (error : Option RunError) :
    (m.conclude error).error = error.or m.error := by
  cases error <;> rfl

/-- The status that a run ends with: an error counts before a halt. -/
theorem conclude_status (m : Machine) (error : Option RunError) :
    (m.conclude error).status
      = if (error.or m.error).isSome then .errored
        else if m.halted then .halted else .completed := by
  cases error <;> rfl

/-- A run that met an error answers it, records it and ends with it. -/
theorem ending_of_error {r : Machine × Option RunError} {e : RunError}
    (h : r.2.or r.1.error = some e) :
    (ending r).1 = .error e ∧ (ending r).2.error = some e ∧ (ending r).2.status = .errored := by
  have hstatus := conclude_status r.1 r.2
  rw [h] at hstatus
  unfold ending
  rw [conclude_error, h]
  exact ⟨rfl, (conclude_error r.1 r.2).trans h, hstatus⟩

/-- A run that knows no error ends by a halt or at the end of its program. -/
theorem ending_of_no_error {r : Machine × Option RunError} (h : r.2.or r.1.error = none) :
    ((ending r).1 = .ok .halted ∨ (ending r).1 = .ok .completed)
      ∧ (ending r).2.error = none := by
  have hstatus := conclude_status r.1 r.2
  rw [h] at hstatus
  unfold ending
  rw [conclude_error, h]
  dsimp only
  rw [hstatus]
  refine ⟨?_, (conclude_error r.1 r.2).trans h⟩
  cases r.1.halted with
  | true => exact Or.inl rfl
  | false => exact Or.inr rfl

/-- The conclusion leaves stack and depth as they are. -/
theorem conclude_frame (m : Machine) (error : Option RunError) :
    (m.conclude error).stack = m.stack ∧ (m.conclude error).depth = m.depth := by
  cases error <;> exact ⟨rfl, rfl⟩

@[simp] theorem opening_stack : (m.opening p cast event).stack = .empty := by
  cases event <;> rfl

@[simp] theorem opening_depth : (m.opening p cast event).depth = 0 := by
  cases event <;> rfl

@[simp] theorem opening_settings : (m.opening p cast event).settings = m.settings := by
  cases event <;> rfl

@[simp] theorem opening_error : (m.opening p cast event).error = none := by
  cases event <;> rfl

/-- However a run ends, no call is left on the stack and no walk is open. -/
theorem execute_load_frame (m : Machine) (p : Program) (cast : Cast) (event : Option Json) :
    ((m.load p cast).execute event).2.stack = .empty
      ∧ ((m.load p cast).execute event).2.depth = 0 := by
  have hframe := Step.enter?_sameFrame (some p.steps) (m.opening p cast event)
  rw [execute_load, ending_snd, (conclude_frame _ _).1, (conclude_frame _ _).2, hframe.stack,
    hframe.depth]
  exact ⟨opening_stack, opening_depth⟩

end Machine

end EventScript
