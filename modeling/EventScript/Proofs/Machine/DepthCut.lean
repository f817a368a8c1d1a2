/-
What the limit of a machine changes. Two runs of one program are set side by side: a free
one, whose limit the program keeps, and a tight one, alike but for its limit. They go
together, moment by moment, until the free run enters a branch that lies one level deeper
than the tight limit allows; there the tight run ends, and its machine stays as it stood.

The refusal travels outwards in two ways: the condition that is refused answers with the
error, and the walk around it records the error and answers with nothing, so that every
walk further out finds it in the machine. `Follows` keeps the two together as one: the
error answered, or else the error recorded.
-/
import EventScript.Proofs.Machine.Success

namespace EventScript

open Instruction (Condition)

-- ====================================================== another limit

namespace Machine

/-- The machine under another limit. -/
def withLimit (limit : Nat) (m : Machine) : Machine :=
  { m with settings := { m.settings with branchLimit := limit } }

variable {limit : Nat} {m : Machine}

/-- A condition decides alike under another limit. -/
theorem decide_withLimit (c : Condition) :
    (m.withLimit limit).decide c = ((m.decide c).1, (m.decide c).2.withLimit limit) := rfl

theorem begin_withLimit (call : Call) :
    (m.withLimit limit).begin call = (m.begin call).withLimit limit := rfl

/-- A step ends the same way under any limit. -/
theorem finish_withLimit (call : Call) (error : Option RunError) :
    (m.withLimit limit).finish call error = (m.finish call error).withLimit limit := by
  cases error <;> rfl

theorem conclude_withLimit (error : Option RunError) :
    (m.withLimit limit).conclude error = (m.conclude error).withLimit limit := by
  cases error <;> rfl

/-- A machine opens its run the same way under any limit. -/
theorem opening_withLimit (p : Program) (cast : Cast) (event : Option Json) :
    (m.withLimit limit).opening p cast event = (m.opening p cast event).withLimit limit := by
  cases event <;> rfl

/-- The answer of a run does not show the limit. -/
theorem ending_withLimit (r : Machine × Option RunError) :
    ending (r.1.withLimit limit, r.2) = ((ending r).1, (ending r).2.withLimit limit) := by
  have hconclude : (r.1.withLimit limit).conclude r.2 = (r.1.conclude r.2).withLimit limit :=
    conclude_withLimit r.2
  have herror : ((r.1.conclude r.2).withLimit limit).error = (r.1.conclude r.2).error := rfl
  unfold ending
  rw [hconclude, herror]
  cases (r.1.conclude r.2).error with
  | none => rfl
  | some e => rfl

/-- What an instruction from outside does does not depend on the limit. -/
theorem react_withLimit (run : Hook) :
    (m.withLimit limit).react run = ((m.react run).1.withLimit limit, (m.react run).2) := by
  rw [react_eq, react_eq]
  rfl

end Machine

open Machine

/-- No action depends on the limit, be it built in or from outside. -/
theorem Action.perform_withLimit (a : Action) (limit : Nat) (m : Machine) :
    a.perform (m.withLimit limit) = ((a.perform m).1.withLimit limit, (a.perform m).2) := by
  cases hb : a.isBuiltin with
  | true =>
      have htight := Action.perform_withEffects (k := m.withLimit limit) (m := m) hb ⟨rfl, rfl⟩
      rw [Action.perform_eq (m := m) hb]
      exact htight
  | false =>
      cases a with
      | hook run => exact react_withLimit run
      | _ => cases hb

-- ===================================================== the moment of the cut

namespace Moment

/-- The moment under another limit. -/
def withLimit (limit : Nat) : Moment → Moment
  | step m => step (m.withLimit limit)
  | enter m => enter (m.withLimit limit)

/-- Whether a branch is about to be entered one level deeper than the limit allows. -/
def crosses (limit : Nat) : Moment → Bool
  | step _ => false
  | enter m => m.depth == limit + 1

/-- None of the moments crosses the limit. -/
def AllWithin (limit : Nat) (told : List Moment) : Prop := ∀ x ∈ told, x.crosses limit = false

variable {limit : Nat}

theorem AllWithin.nil : AllWithin limit [] := by
  intro x hx
  cases hx

theorem AllWithin.singleton {x : Moment} (h : x.crosses limit = false) :
    AllWithin limit [x] := by
  intro y hy
  rw [List.mem_singleton.mp hy]
  exact h

/-- Two stretches within the limit are within it together. -/
theorem AllWithin.append {early late : List Moment} (he : AllWithin limit early)
    (hl : AllWithin limit late) : AllWithin limit (early ++ late) := by
  intro x hx
  cases List.mem_append.mp hx with
  | inl hx => exact he x hx
  | inr hx => exact hl x hx

end Moment

/-- The same variables, events, jobs, requests and time; the logs may differ. -/
structure Machine.SameWork (m m' : Machine) : Prop where
  globals : m'.globals = m.globals
  events : m'.events = m.events
  queue : m'.world.queue = m.world.queue
  network : m'.world.network = m.world.network
  now : m'.world.now = m.world.now

/-- Work that is the same on the way is the same at the end. -/
theorem Machine.SameWork.trans {a b c : Machine} (hab : a.SameWork b) (hbc : b.SameWork c) :
    a.SameWork c where
  globals := hbc.globals.trans hab.globals
  events := hbc.events.trans hab.events
  queue := hbc.queue.trans hab.queue
  network := hbc.network.trans hab.network
  now := hbc.now.trans hab.now

namespace Machine

/-- The error recorded at the end of a step is the one it answers, or else the one that was
recorded before. -/
theorem finish_error (m : Machine) (call : Call) (error : Option RunError) :
    (m.finish call error).error = error.or m.error := by
  cases error <;> rfl

/-- Ending a step adds nothing to the work done. -/
theorem finish_sameWork (m : Machine) (call : Call) (error : Option RunError) :
    m.SameWork (m.finish call error) := by
  cases error <;> exact ⟨rfl, rfl, rfl, rfl, rfl⟩

/-- Ending a run adds nothing to the work done. -/
theorem conclude_sameWork (m : Machine) (error : Option RunError) :
    m.SameWork (m.conclude error) := by
  cases error <;> exact ⟨rfl, rfl, rfl, rfl, rfl⟩

end Machine

/-- How a tight stretch of a run follows the free one: `told` are the moments of the free
stretch, `seen` those of the tight one. -/
inductive Follows (limit : Nat) (free tight : Machine × Option RunError)
    (told seen : List Moment) : Prop where
  /-- The limit is never met, and the two differ in it alone. -/
  | whole (within : Moment.AllWithin limit told)
      (seen_eq : seen = told.map (Moment.withLimit limit))
      (result : tight = (free.1.withLimit limit, free.2))
  /-- The tight stretch ends at the first moment that crosses the limit. -/
  | cut (before rest : List Moment) (e : Machine)
      (told_eq : told = before ++ Moment.enter e :: rest)
      (within : Moment.AllWithin limit before) (deeper : e.depth = limit + 1)
      (seen_eq : seen = (before ++ [Moment.enter e]).map (Moment.withLimit limit))
      (error : tight.2.or tight.1.error = some (.tooDeep limit))
      (work : e.SameWork tight.1)

/-- Moments that do not cross the limit may come first. -/
theorem Follows.prepend {limit : Nat} {free tight : Machine × Option RunError}
    {told seen early : List Moment} (hearly : Moment.AllWithin limit early)
    (h : Follows limit free tight told seen) :
    Follows limit free tight (early ++ told)
      (early.map (Moment.withLimit limit) ++ seen) := by
  cases h with
  | whole within seen_eq result =>
      refine .whole (hearly.append within) ?_ result
      rw [seen_eq, List.map_append]
  | cut before rest e told_eq within deeper seen_eq error work =>
      refine .cut (early ++ before) rest e ?_ (hearly.append within) deeper ?_ error work
      · rw [told_eq, List.append_assoc]
      · rw [seen_eq, ← List.map_append, List.append_assoc]

-- ====================================================== the simulation

variable {limit : Nat}

mutual

/-- A step of the tight run follows that of the free one. -/
theorem Step.perform_follows : ∀ (s : Step) (m : Machine), m.HasRoom s.nesting →
    m.depth ≤ limit + 1 →
    Follows limit (s.perform m) (s.perform (m.withLimit limit))
      (s.moments m) (s.moments (m.withLimit limit))
  | .action call a, m, _, _ => by
      exact .whole (.singleton rfl) rfl (a.perform_withLimit limit m)
  | .branch call condition zero one, m, hroom, hdepth => by
      have hframe := m.decide_sameFrame condition
      have hzero := Step.enter?_follows zero (m.decide condition).2
        ((hroom.mono (Nat.le_max_left ..)).of_sameFrame hframe) hdepth
      have hone := Step.enter?_follows one (m.decide condition).2
        ((hroom.mono (Nat.le_max_right ..)).of_sameFrame hframe) hdepth
      have hbegins : Moment.AllWithin limit [.step m] := .singleton rfl
      rw [Step.perform_branch, Step.moments_branch, Step.perform_branch, Step.moments_branch,
        decide_withLimit]
      by_cases hhalt : (m.decide condition).1 = some .halt
      · rw [if_pos hhalt, if_pos hhalt, hhalt]
        exact .whole hbegins rfl rfl
      · rw [if_neg hhalt, if_neg hhalt]
        have hselected := Step.selected_cases (P := fun b =>
            Follows limit (Step.enter? b (m.decide condition).2)
              (Step.enter? b ((m.decide condition).2.withLimit limit))
              (Step.enterMoments b (m.decide condition).2)
              (Step.enterMoments b ((m.decide condition).2.withLimit limit)))
          (m.decide condition).1 (.whole .nil rfl rfl) hzero hone
        exact hselected.prepend hbegins

/-- Entering a branch is where the two may part. -/
theorem Step.enter?_follows : ∀ (branch : Option (List Step)) (m : Machine),
    m.HasRoom (Step.branchNesting branch) → m.depth ≤ limit + 1 →
    Follows limit (Step.enter? branch m) (Step.enter? branch (m.withLimit limit))
      (Step.enterMoments branch m) (Step.enterMoments branch (m.withLimit limit))
  | none, m, _, _ => .whole .nil rfl rfl
  | some steps, m, hroom, hdepth => by
      obtain ⟨hfree, hinner⟩ := hroom.enter
      unfold Step.enter? Step.enterMoments
      by_cases hdeeper : m.depth = limit + 1
      · -- the free run goes on, the tight one is refused
        have htight : (m.withLimit limit).atLimit = true := by
          show decide (limit < m.depth) = true
          rw [decide_eq_true_iff, hdeeper]
          exact Nat.lt_succ_self limit
        simp only [htight, if_true]
        exact .cut [] _ m rfl .nil hdeeper rfl rfl ⟨rfl, rfl, rfl, rfl, rfl⟩
      · have htight : (m.withLimit limit).atLimit = false := by
          show decide (limit < m.depth) = false
          rw [decide_eq_false_iff_not]
          omega
        have hwalk := Step.walk_follows steps { m with depth := m.depth + 1 } hinner
          (Nat.succ_le_of_lt (Nat.lt_of_le_of_ne hdepth hdeeper))
        have hbegins : Moment.AllWithin limit [.enter m] :=
          .singleton (beq_eq_false_iff_ne.mpr hdeeper)
        simp only [htight, hfree, Bool.false_eq_true, if_false]
        refine Follows.prepend hbegins ?_
        cases hwalk with
        | whole within seen_eq result =>
            exact .whole within seen_eq (Prod.ext (congrArg
              (fun r => { r.1 with depth := r.1.depth - 1 }) result) rfl)
        | cut before rest e told_eq within deeper seen_eq error work =>
            exact .cut before rest e told_eq within deeper seen_eq error
              ⟨work.globals, work.events, work.queue, work.network, work.now⟩

/-- A walk that is cut stops at the step that was, as each walk around it does in turn. -/
theorem Step.walk_follows : ∀ (steps : List Step) (m : Machine),
    m.HasRoom (Step.listNesting steps) → m.depth ≤ limit + 1 →
    Follows limit (Step.walk steps m, none) (Step.walk steps (m.withLimit limit), none)
      (Step.walkMoments steps m) (Step.walkMoments steps (m.withLimit limit))
  | [], m, _, _ => .whole .nil rfl rfl
  | step :: rest, m, hroom, hdepth => by
      have hstep := Step.perform_follows step (m.begin step.call)
        (hroom.mono (Nat.le_max_left ..)) hdepth
      have hframe := m.after_sameFrame step
      have hrest := Step.walk_follows rest (m.after step)
        ((hroom.mono (Nat.le_max_right ..)).of_sameFrame hframe)
        (by rw [hframe.depth]; exact hdepth)
      rw [Step.walk_cons, Step.walk_cons, Step.walkMoments, Step.walkMoments,
        begin_withLimit]
      cases hstep with
      | whole within seen_eq result =>
          have hafter : (m.withLimit limit).after step = (m.after step).withLimit limit := by
            unfold Machine.after
            rw [begin_withLimit, result]
            exact finish_withLimit step.call _
          -- whether a machine stops is not a matter of its limit
          have hstopped : ((m.after step).withLimit limit).stopped = (m.after step).stopped := rfl
          rw [hafter, hstopped, seen_eq]
          cases (m.after step).stopped with
          | true => exact Follows.prepend within (.whole .nil rfl rfl)
          | false => exact hrest.prepend within
      | cut before skipped e told_eq within deeper seen_eq error work =>
          have herror : ((m.withLimit limit).after step).error = some (.tooDeep limit) := by
            unfold Machine.after
            rw [finish_error]
            exact error
          have hwork : e.SameWork ((m.withLimit limit).after step) :=
            work.trans (finish_sameWork _ step.call _)
          -- the cut is an error, so the narrow run goes no further
          have hstopped : ((m.withLimit limit).after step).stopped = true := by
            unfold stopped
            rw [herror]
            exact Bool.or_true _
          rw [hstopped, if_pos rfl, if_pos rfl, List.append_nil, told_eq, List.append_assoc]
          exact .cut before _ e rfl within deeper seen_eq herror hwork

end

-- ============================================================== the runs

/-- Runs of one program from one state, one on a machine whose limit the program keeps, as
it keeps the limit it was compiled for, and one under any limit. Either the first never
enters a branch that lies one level deeper than the second allows, and then the two differ
in the limit alone, at every moment and at the end. Or the second is cut where the first
does so: up to there the moments are the same, no step begins from there on, the run ends
with the error of its limit, which the machine remembers, and what the run has done is what
it had done then. -/
theorem execute_cut_by_limit (p : Program) (cast : Cast) (event : Option Json) (m : Machine)
    (limit wide : Nat) (hwide : p.nesting ≤ wide) :
    let free := (m.withLimit wide).load p cast
    let tight := (m.withLimit limit).load p cast
    (Moment.AllWithin limit (free.moments event)
      ∧ tight.moments event = (free.moments event).map (Moment.withLimit limit)
      ∧ tight.execute event = ((free.execute event).1, (free.execute event).2.withLimit limit))
    ∨ ∃ before rest e, free.moments event = before ++ Moment.enter e :: rest
      ∧ Moment.AllWithin limit before ∧ e.depth = limit + 1
      ∧ tight.moments event = (before ++ [Moment.enter e]).map (Moment.withLimit limit)
      ∧ (tight.execute event).1 = .error (.tooDeep limit)
      ∧ (tight.execute event).2.error = some (.tooDeep limit)
      ∧ (tight.execute event).2.status = .errored
      ∧ e.SameWork (tight.execute event).2
      ∧ (tight.execute event).2.stack.toList = []
      ∧ (tight.execute event).2.depth = 0 := by
  intro free tight
  have hroom : ((m.withLimit wide).opening p cast event).HasRoom
      (Step.branchNesting (some p.steps)) := opening_hasRoom hwide cast event
  have hdepth : ((m.withLimit wide).opening p cast event).depth ≤ limit + 1 := by
    rw [opening_depth]
    exact Nat.zero_le _
  have hopening : (m.withLimit limit).opening p cast event
      = ((m.withLimit wide).opening p cast event).withLimit limit := by
    rw [opening_withLimit, opening_withLimit]
    rfl
  obtain ⟨hstack, hdepth'⟩ := (m.withLimit limit).execute_load_frame p cast event
  have hfollows := Step.enter?_follows (some p.steps) _ hroom hdepth
  rw [← hopening, ← moments_load, ← moments_load] at hfollows
  cases hfollows with
  | whole within seen_eq result =>
      refine Or.inl ⟨within, seen_eq, ?_⟩
      rw [execute_load, result]
      exact ending_withLimit _
  | cut before rest e told_eq within deeper seen_eq error work =>
      obtain ⟨hanswer, herror, hstatus⟩ := ending_of_error error
      rw [← execute_load] at hanswer herror hstatus
      refine Or.inr ⟨before, rest, e, told_eq, within, deeper, seen_eq, hanswer, herror,
        hstatus, ?_, ?_, hdepth'⟩
      · rw [execute_load, ending_snd]
        exact work.trans (conclude_sameWork _ _)
      · rw [hstack]
        rfl

/-- A condition inside a branch of a condition, both of which always go to their first
branch. -/
def Program.nestedTwice : Program :=
  let away : Condition := { all := none, any := none, onTrue := none, onFalse := some .goto0 }
  let call : Call := ⟨Condition.name, none⟩
  ⟨[.branch call away (some [.branch call away (some []) none]) none]⟩

/-- Under a limit of one, that program is cut before its inner branch. -/
theorem nestedTwice_cut :
    Program.nestedTwice.nesting ≤ 2
    ∧ ∃ before rest e,
      (((Machine.new {} {}).withLimit 2).load Program.nestedTwice { id := "1" }).moments none
          = before ++ Moment.enter e :: rest
        ∧ e.depth = 2
        ∧ ((((Machine.new {} {}).withLimit 1).load Program.nestedTwice { id := "1" }).execute
            none).1 = .error (.tooDeep 1) := by
  have hfits : Program.nestedTwice.nesting ≤ 2 := by decide
  refine ⟨hfits, ?_⟩
  rcases execute_cut_by_limit Program.nestedTwice { id := "1" } none (Machine.new {} {}) 1 2
    hfits with ⟨hwithin, -, -⟩ | ⟨before, rest, e, htold, -, hdepth, -, hanswer, -⟩
  · -- the free run does enter the inner branch
    have hcrosses : ((((Machine.new {} {}).withLimit 2).load Program.nestedTwice
        { id := "1" }).moments none).any (Moment.crosses 1) = true := rfl
    obtain ⟨x, hx, hcross⟩ := List.any_eq_true.mp hcrosses
    rw [hwithin x hx] at hcross
    cases hcross
  · exact ⟨before, rest, e, htold, hdepth, hanswer⟩

end EventScript
