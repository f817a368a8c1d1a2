/-
What the call stack shows. While a program is walked some of its steps are under way: one
of the program itself, one of the branch that this one has fired, and so on inwards to the
step that has just begun. `UnderWay` says when a walk comes to such a chain, by the ways a
walk takes, and knows neither stack nor depth. That it misses no moment is
`step_mem_walkMoments`: whenever a step begins, a chain that ends with it is under way.

Along a chain the stack and the depth are then read off: every step that begins puts its
call on the stack and nothing is taken off until it ends, and a branch is entered one level
deeper and below one more call, so that stack and depth grow together.
-/
import EventScript.Proofs.Machine.Operation
import Mathlib.Data.List.Chain

namespace EventScript

open Instruction (Condition)

/-- A step under way, and the machine on which it began, its call on top of the stack. -/
structure Opening where
  step : Step
  machine : Machine

namespace Opening

/-- The call of the condition. -/
def call (o : Opening) : Call := o.step.call

/-- The first is a condition, and the second a step of the branch that it fired. -/
def Fires (f g : Opening) : Prop :=
  ∃ call condition zero one steps, f.step = .branch call condition zero one
    ∧ Step.selected (f.machine.decide condition).1 zero one = some steps ∧ g.step ∈ steps

end Opening

/-- Walking steps from a machine comes to where the steps of a chain are under way, the
outermost first. -/
inductive Step.UnderWay : List Step → Machine → List Opening → Prop
  /-- The first step begins. -/
  | begins {step : Step} {rest : List Step} {m : Machine} :
      UnderWay (step :: rest) m [⟨step, m.begin step.call⟩]
  /-- The first step is a condition, and the branch it fires is being walked. -/
  | inside {call : Call} {condition : Condition} {zero one : Option (List Step)}
      {rest steps : List Step} {m : Machine} {chain : List Opening}
      (fired : Step.selected ((m.begin call).decide condition).1 zero one = some steps)
      (entered : ((m.begin call).decide condition).2.atLimit = false)
      (deeper : UnderWay steps
        { ((m.begin call).decide condition).2 with depth := m.depth + 1 } chain) :
      UnderWay (.branch call condition zero one :: rest) m
        (⟨.branch call condition zero one, m.begin call⟩ :: chain)
  /-- The first step has ended, and the walk goes on. -/
  | later {step : Step} {rest : List Step} {m : Machine} {chain : List Opening}
      (goes : (m.after step).stopped = false) (further : UnderWay rest (m.after step) chain) :
      UnderWay (step :: rest) m chain

-- ======================================================= no moment is missed

variable {m : Machine} {steps : List Step} {chain : List Opening}

mutual

/-- A step that begins in a walk of steps is under way behind a chain of conditions. -/
theorem Step.step_mem_moments {x : Machine} : ∀ (s : Step) (m : Machine) (rest : List Step),
    Moment.step x ∈ s.moments (m.begin s.call) →
    ∃ outer last, Step.UnderWay (s :: rest) m (outer ++ [⟨last, x⟩])
  | .action call a, m, rest, hx => by
      cases List.mem_singleton.mp hx
      exact ⟨[], _, .begins⟩
  | .branch call condition zero one, m, rest, hx => by
      rw [Step.moments_branch] at hx
      cases hx with
      | head => exact ⟨[], _, .begins⟩
      | tail _ hx =>
          have hzero := Step.step_mem_enterMoments (x := x) zero
            ((m.begin call).decide condition).2
          have hone := Step.step_mem_enterMoments (x := x) one
            ((m.begin call).decide condition).2
          obtain ⟨steps, outer, last, hfired, hlimit, hinner⟩ := Step.selected_cases
            (P := fun b => Moment.step x ∈ Step.enterMoments b ((m.begin call).decide condition).2
              → ∃ steps outer last, b = some steps
                ∧ ((m.begin call).decide condition).2.atLimit = false
                ∧ Step.UnderWay steps { ((m.begin call).decide condition).2 with
                    depth := ((m.begin call).decide condition).2.depth + 1 }
                    (outer ++ [⟨last, x⟩]))
            ((m.begin call).decide condition).1 (by intro h; cases h) hzero hone hx
          exact ⟨_ :: outer, last, .inside hfired hlimit hinner⟩

theorem Step.step_mem_enterMoments {x : Machine} : ∀ (branch : Option (List Step)) (m : Machine),
    Moment.step x ∈ Step.enterMoments branch m →
    ∃ steps outer last, branch = some steps ∧ m.atLimit = false
      ∧ Step.UnderWay steps { m with depth := m.depth + 1 } (outer ++ [⟨last, x⟩])
  | none, m, hx => by cases hx
  | some steps, m, hx => by
      unfold Step.enterMoments at hx
      cases hlimit : m.atLimit with
      | true =>
          rw [hlimit] at hx
          simp at hx
      | false =>
          rw [hlimit] at hx
          cases hx with
          | tail _ hx =>
              obtain ⟨outer, last, hchain⟩ := Step.step_mem_walkMoments steps _ hx
              exact ⟨steps, outer, last, rfl, rfl, hchain⟩

/-- Whenever a step begins in a walk, a chain that ends with it is under way. -/
theorem Step.step_mem_walkMoments {x : Machine} : ∀ (steps : List Step) (m : Machine),
    Moment.step x ∈ Step.walkMoments steps m →
    ∃ outer last, Step.UnderWay steps m (outer ++ [⟨last, x⟩])
  | [], m, hx => by cases hx
  | step :: rest, m, hx => by
      rw [Step.walkMoments] at hx
      cases List.mem_append.mp hx with
      | inl hx => exact Step.step_mem_moments step m rest hx
      | inr hx =>
          cases hstop : (m.after step).stopped with
          | true =>
              rw [if_pos hstop] at hx
              cases hx
          | false =>
              rw [hstop] at hx
              obtain ⟨outer, last, hchain⟩ := Step.step_mem_walkMoments rest _ hx
              exact ⟨outer, last, .later hstop hchain⟩

end

-- =============================================== what the stack shows of it

/-- The machine shows this chain, which begins in these steps and ends with its own step:
one step after the other is fired by the one before, the calls of all are on the stack in
this order, and there are as many walks under way. -/
structure Machine.Shows (x : Machine) (steps : List Step) (chain : List Opening) : Prop where
  innermost : chain.getLast?.map Opening.machine = some x
  outermost : ∀ o ∈ chain.head?, o.step ∈ steps
  fired : chain.IsChain Opening.Fires
  stack : x.stack.toList = chain.map Opening.call
  depth : x.depth = x.stack.size

namespace Step.UnderWay

theorem ne_nil (h : Step.UnderWay steps m chain) : chain ≠ [] := by
  induction h with
  | begins => exact List.cons_ne_nil _ _
  | inside => exact List.cons_ne_nil _ _
  | later goes further ih => exact ih

/-- The outermost step of a chain is one of the steps that are walked. -/
theorem outermost (h : Step.UnderWay steps m chain) : ∀ o ∈ chain.head?, o.step ∈ steps := by
  induction h with
  | begins =>
      intro o ho
      cases ho
      exact List.mem_cons_self ..
  | inside =>
      intro o ho
      cases ho
      exact List.mem_cons_self ..
  | later goes further ih =>
      intro o ho
      exact List.mem_cons_of_mem _ (ih o ho)

/-- Each step of a chain but the last is a condition that fired the branch of the next. -/
theorem fired (h : Step.UnderWay steps m chain) : chain.IsChain Opening.Fires := by
  induction h with
  | begins => exact .singleton _
  | inside fired entered deeper ih =>
      refine List.isChain_cons.mpr ⟨?_, ih⟩
      intro o ho
      exact ⟨_, _, _, _, _, rfl, fired, deeper.outermost o ho⟩
  | later goes further ih => exact ih

/-- The last step of a chain begins with the calls of the chain above what was on the stack,
and as many walks deeper, its own excepted. -/
theorem last_machine (h : Step.UnderWay steps m chain) : ∀ o ∈ chain.getLast?,
    o.machine.stack.toList = m.stack.toList ++ chain.map Opening.call
      ∧ o.machine.depth + 1 = m.depth + chain.length := by
  induction h with
  | begins =>
      intro o ho
      cases ho
      exact ⟨CallStack.toList_push .., rfl⟩
  | @inside call condition zero one rest steps m chain fired entered deeper ih =>
      intro o ho
      rw [List.getLast?_cons_of_ne_nil deeper.ne_nil] at ho
      obtain ⟨hstack, hdepth⟩ := ih o ho
      refine ⟨?_, ?_⟩
      · calc o.machine.stack.toList
            = (m.stack.push call).toList ++ chain.map Opening.call := hstack
          _ = m.stack.toList ++ call :: chain.map Opening.call := by
              rw [CallStack.toList_push, List.append_assoc, List.singleton_append]
      · rw [hdepth, List.length_cons]
        show m.depth + 1 + chain.length = m.depth + (chain.length + 1)
        omega
  | @later step rest m chain goes further ih =>
      intro o ho
      obtain ⟨hstack, hdepth⟩ := ih o ho
      rw [(m.after_sameFrame step).stack] at hstack
      rw [(m.after_sameFrame step).depth] at hdepth
      exact ⟨hstack, hdepth⟩

/-- A chain under way in a walk that no other encloses is shown by the machine on which its
last step begins. -/
theorem shows {o : Opening} (h : Step.UnderWay steps m chain) (ho : chain.getLast? = some o)
    (hstack : m.stack = .empty) (hdepth : m.depth = 1) : o.machine.Shows steps chain := by
  obtain ⟨hcalls, hwalks⟩ := h.last_machine o (Option.mem_def.mpr ho)
  have hstack' : o.machine.stack.toList = chain.map Opening.call := by
    rw [hcalls, hstack]
    rfl
  refine ⟨by rw [ho]; rfl, h.outermost, h.fired, hstack', ?_⟩
  rw [CallStack.size_eq_length, hstack', List.length_map]
  omega

end Step.UnderWay

-- ================================================================ the runs

namespace Machine

/-- Whatever a machine has been used for, there is no call on its stack and no walk open
before a run and after it, whichever way the run ends. Whenever a step begins during the
run, the chain of steps under way leads from a step of the program to this one, each the
step of a branch that the condition before it fired when it began; and the stack shows the
calls of this chain, from the bottom to the top, as many as there are walks. -/
theorem stack_shows_chain (settings : Settings) (world : World) (past : List Operation)
    (event : Option Json) :
    let m := (new settings world).serveAll past
    m.stack.toList = [] ∧ m.depth = 0
      ∧ (m.execute event).2.stack.toList = [] ∧ (m.execute event).2.depth = 0
      ∧ ∀ x, Moment.step x ∈ m.moments event → ∃ p chain, m.program = some p
        ∧ Step.UnderWay p.steps { m.start p event with depth := 1 } chain
        ∧ x.Shows p.steps chain := by
  intro m
  have hrest : m.AtRest := (new_atRest settings world).serveAll past
  have hafter := hrest.execute event
  refine ⟨congrArg CallStack.toList hrest.stack, hrest.depth,
    congrArg CallStack.toList hafter.stack, hafter.depth, ?_⟩
  intro x hx
  rcases m.execute_cases event with ⟨-, hnone⟩ | ⟨p, hp, -, hmoments⟩
  · rw [hnone] at hx
    cases hx
  · rw [hmoments] at hx
    obtain ⟨steps, outer, last, hsteps, -, hchain⟩ := Step.step_mem_enterMoments _ _ hx
    cases hsteps
    have hstart := hrest.start p event
    rw [hstart.depth] at hchain
    exact ⟨p, _, hp, hchain, hchain.shows List.getLast?_concat hstart.stack rfl⟩

end Machine

/-- A condition that goes to its branch, where an instruction from outside watches. -/
def Program.watchedBranch : Program :=
  let away : Condition := { all := none, any := none, onTrue := none, onFalse := some .goto0 }
  ⟨[.branch ⟨Condition.name, none⟩ away
    (some [.action ⟨"watch", none⟩ (.hook fun g _ => { globals := g })]) none]⟩

/-- When the watching instruction begins, the condition's call is on the stack below its
own. -/
theorem watchedBranch_shows_chain :
    let m := (Machine.new {} {}).serveAll [.load Program.watchedBranch { id := "1" }]
    ∃ x chain, Moment.step x ∈ m.moments none ∧ x.Shows Program.watchedBranch.steps chain
      ∧ x.stack.toList.map Call.name = [Condition.name, "watch"] ∧ x.depth = 2 := by
  intro m
  obtain ⟨x, hx, hnames, hdepth⟩ : ∃ x, (m.moments none).getLast? = some (Moment.step x)
      ∧ x.stack.toList.map Call.name = [Condition.name, "watch"] ∧ x.depth = 2 :=
    ⟨_, rfl, rfl, rfl⟩
  have hmem : Moment.step x ∈ m.moments none := List.mem_of_getLast? hx
  obtain ⟨-, -, -, -, hshows⟩ := Machine.stack_shows_chain {} {}
    [.load Program.watchedBranch { id := "1" }] none
  obtain ⟨p, chain, hp, -, hchain⟩ := hshows x hmem
  cases hp
  exact ⟨x, chain, hmem, hchain, hnames, hdepth⟩

end EventScript
