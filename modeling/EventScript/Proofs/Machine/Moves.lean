/-
A run that can be left and taken up again. The walk of a program is one function, and others
cannot come in between; here the same walk is a process that moves one instruction at a time,
and keeps in plain sight what the recursion keeps to itself: the steps ahead of it, and the
conditions whose branches enclose it with the steps behind them.

A move executes an action, or enters the branch that a condition selects, or leaves a branch at
its end. Moves that follow each other without anything in between are the walk, from wherever
they begin, which is what `moves_walk` says.
-/
import EventScript.Proofs.Machine.LifeCycle
import Mathlib.Logic.Function.Iterate

namespace EventScript

open Instruction (Condition)

-- ================================================================ the moves

/-- The branch that a step walks when it is executed, and the machine that begins to walk
it. -/
def Step.inside? (s : Step) (m : Machine) : Option (List Step × Machine) :=
  match s with
  | .action .. => none
  | .branch call condition zero one =>
    let (directive, m) := (m.begin call).decide condition
    match Step.selected directive zero one with
    | none => none
    | some steps => if m.atLimit then none else some (steps, { m with depth := m.depth + 1 })

/-- A run under way. -/
structure Process where
  machine : Machine
  /-- What is left of the innermost program being walked. -/
  ahead : List Step
  /-- The conditions whose branches are being walked, the innermost first, each with what is
  left behind it. -/
  enclosing : List (Call × List Step) := []

namespace Process

/-- A step has ended; the rest is still ahead, unless the walk has to stop. -/
def goOn (m : Machine) (rest : List Step) (enclosing : List (Call × List Step)) : Process :=
  ⟨m, if m.stopped then [] else rest, enclosing⟩

/-- The process after one move; one that is over stays as it is. -/
def move (p : Process) : Process :=
  match p.ahead, p.enclosing with
  | [], [] => p
  | [], (call, rest) :: outer =>
    goOn (({ p.machine with depth := p.machine.depth - 1 } : Machine).finish call none) rest outer
  | step :: rest, _ =>
    match step.inside? p.machine with
    | some (steps, m) => ⟨m, steps, (step.call, rest) :: p.enclosing⟩
    | none => goOn (p.machine.after step) rest p.enclosing

/-- Nothing is left to do. -/
def isOver (p : Process) : Bool := p.ahead.isEmpty && p.enclosing.isEmpty

/-- Some number of moves leads from one process to another. -/
def Moves (p q : Process) : Prop := ∃ n, move^[n] p = q

theorem Moves.refl (p : Process) : p.Moves p := ⟨0, rfl⟩

theorem Moves.trans {p q r : Process} (h : p.Moves q) (h' : q.Moves r) : p.Moves r := by
  obtain ⟨n, rfl⟩ := h
  obtain ⟨k, rfl⟩ := h'
  exact ⟨k + n, Function.iterate_add_apply move k n p⟩

theorem Moves.of_move {p q : Process} (h : p.move.Moves q) : p.Moves q :=
  Moves.trans ⟨1, rfl⟩ h

end Process

-- ============================================== without anything in between

variable {m m' : Machine} {steps : List Step}

/-- A condition walks the branch that its directive leads to, unless that is too deep. -/
theorem Step.inside?_branch {call : Call} {condition : Condition} {zero one : Option (List Step)} :
    (Step.branch call condition zero one).inside? m = some (steps, m')
      ↔ Step.selected ((m.begin call).decide condition).1 zero one = some steps
        ∧ ((m.begin call).decide condition).2.atLimit = false
        ∧ m' = { ((m.begin call).decide condition).2 with
          depth := ((m.begin call).decide condition).2.depth + 1 } := by
  unfold Step.inside?
  dsimp only
  cases Step.selected ((m.begin call).decide condition).1 zero one with
  | none => simp
  | some selected =>
      cases ((m.begin call).decide condition).2.atLimit with
      | true => simp
      | false =>
          simp only [Bool.false_eq_true, if_false, Option.some.injEq, Prod.mk.injEq, true_and]
          exact and_congr_right fun _ => eq_comm

/-- A step that walks a branch has ended when the branch has been walked. -/
theorem Machine.after_of_inside {s : Step} (h : s.inside? m = some (steps, m')) :
    m.after s = ({ Step.walk steps m' with
      depth := (Step.walk steps m').depth - 1 } : Machine).finish s.call none := by
  cases s with
  | action call a => cases h
  | branch call condition zero one =>
      obtain ⟨hselected, hlimit, rfl⟩ := Step.inside?_branch.mp h
      have hhalt : ((m.begin call).decide condition).1 ≠ some .halt := by
        intro hhalt
        rw [hhalt] at hselected
        cases hselected
      have hperform : Step.perform (.branch call condition zero one) (m.begin call) = _ :=
        Step.perform_branch
      rw [if_neg hhalt, hselected] at hperform
      unfold Step.enter? at hperform
      rw [if_neg (by rw [hlimit]; exact Bool.false_ne_true)] at hperform
      unfold Machine.after Step.call
      dsimp only
      rw [hperform]

namespace Process

/-- The rest of a walk is walked when one step of it has ended. -/
theorem moves_rest {step : Step} {rest : List Step} {enclosing : List (Call × List Step)}
    (hrest : Moves ⟨m.after step, rest, enclosing⟩ ⟨Step.walk rest (m.after step), [], enclosing⟩) :
    (goOn (m.after step) rest enclosing).Moves ⟨Step.walk (step :: rest) m, [], enclosing⟩ := by
  unfold goOn
  rw [Step.walk_cons]
  cases (m.after step).stopped with
  | true => exact .refl _
  | false => exact hrest

end Process

open Process

mutual

/-- From inside a branch that a step fires, moves lead to the end of the walk of it. -/
theorem Step.moves_inside : ∀ (s : Step) {m m' : Machine} {steps : List Step}
    (enclosing : List (Call × List Step)), s.inside? m = some (steps, m') →
      Moves ⟨m', steps, enclosing⟩ ⟨Step.walk steps m', [], enclosing⟩
  | .action _ _, _, _, _, _, h => by cases h
  | .branch call condition zero one, m, m', steps, enclosing, h => by
      have hzero := fun (h : zero = some steps) => Step.moves_branch zero h m' enclosing
      have hone := fun (h : one = some steps) => Step.moves_branch one h m' enclosing
      obtain ⟨hselected, -, -⟩ := Step.inside?_branch.mp h
      exact Step.selected_cases (P := fun b => b = some steps →
          Moves ⟨m', steps, enclosing⟩ ⟨Step.walk steps m', [], enclosing⟩)
        ((m.begin call).decide condition).1 (by intro h; cases h) hzero hone hselected

theorem Step.moves_branch : ∀ (branch : Option (List Step)) {steps : List Step},
    branch = some steps → ∀ (m : Machine) (enclosing : List (Call × List Step)),
      Moves ⟨m, steps, enclosing⟩ ⟨Step.walk steps m, [], enclosing⟩
  | none, _, h, _, _ => by cases h
  | some steps, _, h, m, enclosing => by
      have hwalk := Step.moves_walk steps m enclosing
      cases h
      exact hwalk

/-- Steps that are moved through without anything in between are walked. -/
theorem Step.moves_walk : ∀ (steps : List Step) (m : Machine)
    (enclosing : List (Call × List Step)),
      Moves ⟨m, steps, enclosing⟩ ⟨Step.walk steps m, [], enclosing⟩
  | [], _, _ => .refl _
  | step :: rest, m, enclosing => by
      have hrest := moves_rest (Step.moves_walk rest (m.after step) enclosing)
      cases hinside : step.inside? m with
      | none =>
          have hmove : Process.move ⟨m, step :: rest, enclosing⟩
              = goOn (m.after step) rest enclosing := by
            unfold Process.move
            dsimp only
            rw [hinside]
          refine Moves.of_move ?_
          rw [hmove]
          exact hrest
      -- in, through the branch and out again, then on with the rest
      | some inner =>
          obtain ⟨steps, m'⟩ := inner
          have hinner := Step.moves_inside step ((step.call, rest) :: enclosing) hinside
          have hmove : Process.move ⟨m, step :: rest, enclosing⟩
              = ⟨m', steps, (step.call, rest) :: enclosing⟩ := by
            unfold Process.move
            dsimp only
            rw [hinside]
          have hleave : Process.move ⟨Step.walk steps m', [], (step.call, rest) :: enclosing⟩
              = goOn (m.after step) rest enclosing := by
            unfold Process.move
            dsimp only
            rw [Machine.after_of_inside hinside]
          refine Moves.of_move ?_
          rw [hmove]
          refine hinner.trans (Moves.of_move ?_)
          rw [hleave]
          exact hrest

end

-- ================================================================= a whole run

/-- The run of a program on an event as it begins. -/
def Machine.begins (m : Machine) (p : Program) (event : Option Json) : Process :=
  ⟨{ m.start p event with depth := m.depth + 1 }, p.steps, []⟩

/-- The machine when a process is over and its run is concluded. -/
def Process.result (p : Process) : Machine :=
  ({ p.machine with depth := p.machine.depth - 1 } : Machine).conclude none

/-- A process that is left to itself comes to its end, with what the run leaves. -/
theorem Machine.AtRest.begins_moves {p : Program} (h : m.AtRest) (hidle : m.status = .idle)
    (hp : m.program = some p) (event : Option Json) :
    ∃ q, (m.begins p event).Moves q ∧ q.isOver = true ∧ q.result = (m.execute event).2 := by
  refine ⟨_, Step.moves_walk p.steps _ [], rfl, ?_⟩
  have hdepth := (Step.walk_sameFrame p.steps
    { m.start p event with depth := m.depth + 1 }).depth
  rw [h.execute_eq_walk hidle hp event]
  unfold Process.result
  dsimp only
  rw [hdepth]
  rfl

end EventScript
