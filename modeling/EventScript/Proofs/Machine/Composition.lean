/-
Walks one after another. A program cut in two runs as its halves do: the second half is
walked from where the first one ended, and not at all when the machine was halted or an
error was recorded there. This is exact, down to the log, and asks nothing of the
instructions, since no step is told what comes after it.

An error is raised in one of two places: an instruction answers with it, or a branch is
refused for its depth. `raised` tells these errors in the order in which they come up. The
first of them is the one the machine ends with, wherever in the nesting it came up and by
whichever of the two ways it travelled outwards.
-/
import EventScript.Proofs.Machine.Moments

namespace EventScript

open Instruction (Condition)

-- ========================================================= errors raised

mutual

/-- The errors raised while a step is performed, in order. -/
def Step.raised : Step → Machine → List RunError
  | .action _ a, m => (a.perform m).2.toList
  | .branch _ condition zero one, m =>
    match m.decide condition with
      | (none, _) => []
      | (some .halt, _) => []
      | (some .goto0, m) => Step.enterRaised zero m
      | (some .goto1, m) => Step.enterRaised one m

/-- The errors raised by entering a branch, its refusal included. -/
def Step.enterRaised : Option (List Step) → Machine → List RunError
  | none, _ => []
  | some steps, m =>
    if m.atLimit then [.tooDeep m.settings.branchLimit]
    else Step.walkRaised steps { m with depth := m.depth + 1 }

/-- The errors raised while steps are walked. -/
def Step.walkRaised : List Step → Machine → List RunError
  | [], _ => []
  | step :: rest, m =>
    Step.raised step (m.begin step.call)
      ++ if (m.after step).stopped then [] else Step.walkRaised rest (m.after step)

end

/-- The errors raised while a program is walked on the machine as it is. -/
def Machine.raised (m : Machine) (steps : List Step) : List RunError :=
  Step.enterRaised (some steps) m

variable {m : Machine}

/-- A condition raises what its branch raises. -/
theorem Step.raised_branch {call : Call} {condition : Condition}
    {zero one : Option (List Step)} :
    Step.raised (.branch call condition zero one) m
      = Step.enterRaised (Step.selected (m.decide condition).1 zero one)
          (m.decide condition).2 := by
  unfold Step.raised
  rcases m.decide condition with ⟨directive, m'⟩
  cases directive with
  | none => rfl
  | some d => cases d <;> rfl

-- =================================================== the first one stays

/-- A machine goes on while it has neither halted nor met an error. -/
theorem Machine.stopped_eq_false_iff : m.stopped = false ↔ m.halted = false ∧ m.error = none := by
  unfold Machine.stopped
  rw [Bool.or_eq_false_iff, Option.isSome_eq_false_iff, Option.isNone_iff_eq_none]

/-- The error an action answers with is not recorded by the action itself. -/
theorem Action.perform_error (a : Action) (m : Machine) : (a.perform m).1.error = m.error := by
  cases hb : a.isBuiltin with
  | true => rw [Action.perform_eq hb]; rfl
  | false =>
      cases a with
      | hook run => exact congrArg (fun r => r.1.error) (m.react_eq run)
      | _ => cases hb

/-- The error recorded at the end of a step is the one it answers, or else the one that was
recorded inside it. -/
theorem Machine.after_error (m : Machine) (step : Step) :
    (m.after step).error
      = (step.perform (m.begin step.call)).2.or (step.perform (m.begin step.call)).1.error := by
  unfold Machine.after
  rcases step.perform (m.begin step.call) with ⟨m', error⟩
  cases error <;> rfl

mutual

/-- A step answers with the first error raised in it, or leaves it recorded. -/
theorem Step.perform_error : ∀ (s : Step) (m : Machine), m.error = none →
    (s.perform m).2.or (s.perform m).1.error = (s.raised m).head?
  | .action call a, m, hm => by
      show (a.perform m).2.or (a.perform m).1.error = (a.perform m).2.toList.head?
      rw [a.perform_error, hm]
      cases (a.perform m).2 <;> rfl
  | .branch call condition zero one, m, hm => by
      have hzero := Step.enter?_error zero (m.decide condition).2 hm
      have hone := Step.enter?_error one (m.decide condition).2 hm
      rw [Step.perform_branch, Step.raised_branch]
      by_cases hhalt : (m.decide condition).1 = some .halt
      · rw [if_pos hhalt, hhalt]
        exact hm
      · rw [if_neg hhalt]
        exact Step.selected_cases (P := fun b =>
          (Step.enter? b (m.decide condition).2).2.or (Step.enter? b (m.decide condition).2).1.error
            = (Step.enterRaised b (m.decide condition).2).head?)
          (m.decide condition).1 hm hzero hone

/-- The error of a branch, answered or recorded, is the first that was raised in it. -/
theorem Step.enter?_error : ∀ (branch : Option (List Step)) (m : Machine), m.error = none →
    (Step.enter? branch m).2.or (Step.enter? branch m).1.error
      = (Step.enterRaised branch m).head?
  | none, m, hm => hm
  | some steps, m, hm => by
      have hwalk := Step.walk_error steps { m with depth := m.depth + 1 } hm
      unfold Step.enter? Step.enterRaised
      cases m.atLimit with
      | true => rfl
      | false => exact hwalk

theorem Step.walk_error : ∀ (steps : List Step) (m : Machine), m.error = none →
    (Step.walk steps m).error = (Step.walkRaised steps m).head?
  | [], m, hm => hm
  | step :: rest, m, hm => by
      have hstep := Step.perform_error step (m.begin step.call) hm
      rw [← m.after_error] at hstep
      have hrest := Step.walk_error rest (m.after step)
      rw [Step.walk_cons, Step.walkRaised]
      cases hstop : (m.after step).stopped with
      | true => simp only [if_true, List.append_nil, hstep]
      | false =>
          -- the walk goes on, so nothing has been raised yet
          have hnone : (m.after step).error = none := (Machine.stopped_eq_false_iff.mp hstop).2
          have hfirst : (Step.raised step (m.begin step.call)).head? = none := by
            rw [← hstep, hnone]
          simp only [Bool.false_eq_true, if_false, List.head?_append, hfirst, Option.none_or]
          exact hrest hnone

end

-- ======================================================= one after another

/-- Steps are walked in two stretches, the second unless the first has stopped. -/
theorem Step.walk_append {m : Machine} (hgo : m.stopped = false) (p q : List Step) :
    Step.walk (p ++ q) m
      = if (Step.walk p m).stopped then Step.walk p m else Step.walk q (Step.walk p m) := by
  induction p generalizing m with
  | nil =>
      show Step.walk q m = if m.stopped then m else Step.walk q m
      rw [hgo]
      rfl
  | cons step p ih =>
      rw [List.cons_append, Step.walk_cons, Step.walk_cons]
      cases hstop : (m.after step).stopped with
      | true => simp only [if_true, hstop]
      | false => exact ih hstop

namespace Machine

theorem SameFrame.atLimit {m m' : Machine} (h : m.SameFrame m') : m'.atLimit = m.atLimit := by
  unfold Machine.atLimit
  rw [h.settings, h.depth]

theorem with_depth_eq {depth : Nat} (h : m.depth = depth) : { m with depth } = m := by
  subst h
  rfl

/-- A program the limit allows is walked one level deeper, and answers with no error. -/
theorem runSteps_eq (hroom : m.atLimit = false) (steps : List Step) :
    m.runSteps steps
      = ({ Step.walk steps { m with depth := m.depth + 1 } with depth := m.depth }, none) := by
  have hdepth : (Step.walk steps { m with depth := m.depth + 1 }).depth - 1 = m.depth := by
    rw [(Step.walk_sameFrame steps _).depth]
    rfl
  unfold runSteps Step.enter?
  rw [hroom]
  refine Prod.ext ?_ rfl
  show ({ Step.walk steps { m with depth := m.depth + 1 } with
    depth := (Step.walk steps { m with depth := m.depth + 1 }).depth - 1 } : Machine) = _
  rw [hdepth]

/-- Walking `p ++ q` is walking `p` and then, unless that has halted the machine or recorded
an error, walking `q`: the machine in the end is the same, with all that it has done to the
variables, the events and the world. Every walk leaves the stack and the depth as they were
and answers with no error of its own; the error recorded is the first one raised. -/
theorem runSteps_in_sequence (hgo : m.stopped = false) (hroom : m.atLimit = false)
    (p q : List Step) :
    (m.runSteps (p ++ q)
        = if (m.runSteps p).1.stopped then m.runSteps p else (m.runSteps p).1.runSteps q)
      ∧ ∀ steps, (m.runSteps steps).1.stack = m.stack
        ∧ (m.runSteps steps).1.depth = m.depth
        ∧ (m.runSteps steps).2 = none
        ∧ (m.runSteps steps).1.error = (m.raised steps).head? := by
  constructor
  · have hroom' : (m.runSteps p).1.atLimit = false :=
      (Step.enter?_sameFrame (some p) m).atLimit.trans hroom
    have hdepth : (Step.walk p { m with depth := m.depth + 1 }).depth = m.depth + 1 :=
      (Step.walk_sameFrame p _).depth
    rw [runSteps_eq hroom] at hroom'
    rw [runSteps_eq hroom, runSteps_eq hroom, runSteps_eq hroom',
      Step.walk_append (m := { m with depth := m.depth + 1 }) hgo p q]
    -- leaving the first walk and entering the second cancel: the halves meet
    have hmeet : ({ Step.walk p { m with depth := m.depth + 1 } with depth := m.depth + 1 }
        : Machine) = Step.walk p { m with depth := m.depth + 1 } := with_depth_eq hdepth
    show _ = if (Step.walk p { m with depth := m.depth + 1 }).stopped then _ else
      (({ Step.walk q { Step.walk p { m with depth := m.depth + 1 } with depth := m.depth + 1 }
          with depth := m.depth } : Machine), none)
    rw [hmeet]
    split <;> rfl
  · intro steps
    have hframe := Step.enter?_sameFrame (some steps) m
    have hsilent : (Step.enter? (some steps) m).2 = none :=
      congrArg Prod.snd (runSteps_eq hroom steps)
    have herror := Step.enter?_error (some steps) m (stopped_eq_false_iff.mp hgo).2
    rw [hsilent] at herror
    exact ⟨hframe.stack, hframe.depth, hsilent, herror⟩

end Machine

/-- An instruction from outside that answers with an error. -/
def Step.failing (name : String) (e : RunError) : Step :=
  .action ⟨name, none⟩ (.hook fun g _ => { globals := g, error := some e })

/-- Of two failing instructions one after the other, the first one's error is kept and the
second does not run. -/
theorem failing_in_sequence :
    let m := Machine.new {} {}
    let p := [Step.failing "first" .noProgram]
    let q := [Step.failing "second" (.tooDeep 0)]
    m.stopped = false ∧ m.atLimit = false ∧ m.runSteps (p ++ q) = m.runSteps p
      ∧ (m.runSteps (p ++ q)).1.error = some .noProgram := by
  intro m p q
  obtain ⟨hcut, hevery⟩ := Machine.runSteps_in_sequence (m := m) rfl rfl p q
  refine ⟨rfl, rfl, ?_, (hevery (p ++ q)).2.2.2⟩
  rw [hcut]
  rfl

end EventScript
