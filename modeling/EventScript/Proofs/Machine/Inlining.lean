/-
Branches behave as if they were written out in place of their condition. A branch runs one
level deeper, below the call of its condition on the stack, and the log of the machine is a
few lines longer by then. No built-in action sees any of that. So two machines that differ
in the log and in the place they have reached, and in nothing else, stay so while they walk
the same built-in steps, as long as neither reaches its limit.

What follows a condition is walked from the same place either way, the stack and the depth
being those before the condition again. Only the log still tells the two runs apart, and no
instruction reads it, not even one from outside. `Indifferent` says both at once, so that
one simulation serves the branch and what follows it.
-/
import EventScript.Proofs.Machine.Blindness
import EventScript.Proofs.Machine.Composition
import EventScript.Proofs.Machine.Success

namespace EventScript

open Instruction (Condition)

-- ==================================================== the log is not read

namespace Machine

variable {k m : Machine}

/-- The machine with nothing logged. -/
def quiet (m : Machine) : Machine := { m with world := { m.world with log := [] } }

/-- The machine with nothing logged, at no place in particular. -/
def bare (m : Machine) : Machine := { m.quiet with stack := .empty, depth := 0 }

/-- Bare machines that are the same, at the same place, are the same but for the log. -/
theorem quiet_eq_of_bare (h : k.bare = m.bare) (hstack : k.stack = m.stack)
    (hdepth : k.depth = m.depth) : k.quiet = m.quiet := by
  have hk : k.quiet = { k.bare with stack := k.stack, depth := k.depth } := rfl
  rw [hk, h, hstack, hdepth]
  rfl

/-- Actions do not go by the log, nor by the place. -/
theorem bare_blind : Blind bare where
  globals _ := rfl
  settings _ := rfl
  queue _ := rfl
  network _ := rfl
  logAll _ _ := rfl
  emit _ _ _ := rfl
  write _ _ := rfl
  react _ _ _ := rfl
  offer _ _ := rfl
  deliver _ _ _ := rfl

-- ========================================================= the simulation

/-- Steps of this kind and nesting do not tell the two machines apart by where they stand:
either it is the same place, or the steps are built in and both machines have room. -/
def Indifferent (builtin : Bool) (nesting : Nat) (k m : Machine) : Prop :=
  (k.stack = m.stack ∧ k.depth = m.depth)
    ∨ (builtin = true ∧ k.HasRoom nesting ∧ m.HasRoom nesting)

variable {b b' : Bool} {n n' : Nat}

/-- What does not matter to more does not matter to less. -/
theorem Indifferent.mono (h : Indifferent b n k m) (hb : b = true → b' = true) (hn : n' ≤ n) :
    Indifferent b' n' k m :=
  h.imp id fun ⟨hbuiltin, hk, hm⟩ => ⟨hb hbuiltin, hk.mono hn, hm.mono hn⟩

theorem Indifferent.of_sameFrame {k' m' : Machine} (h : Indifferent b n k m)
    (hk : k.SameFrame k') (hm : m.SameFrame m') : Indifferent b n k' m' := by
  refine h.imp ?_ ?_
  · intro hplace
    rw [hk.stack, hm.stack, hk.depth, hm.depth]
    exact hplace
  · intro hroom
    exact ⟨hroom.1, hroom.2.1.of_sameFrame hk, hroom.2.2.of_sameFrame hm⟩

theorem Indifferent.begin (h : Indifferent b n k m) (call : Call) :
    Indifferent b n (k.begin call) (m.begin call) := by
  refine h.imp ?_ id
  intro hplace
  exact ⟨congrArg (CallStack.push · call) hplace.1, hplace.2⟩

/-- Two such machines are refused a branch together, or have room inside it together. -/
theorem Indifferent.enter {steps : List Step} (hbare : k.bare = m.bare)
    (h : Indifferent b (Step.branchNesting (some steps)) k m) :
    k.atLimit = m.atLimit ∧ Indifferent b (Step.listNesting steps)
      { k with depth := k.depth + 1 } { m with depth := m.depth + 1 } := by
  have hsettings : k.settings = m.settings := eq_of_view Machine.settings hbare fun _ => rfl
  rcases h with ⟨hstack, hdepth⟩ | ⟨hb, hk, hm⟩
  · refine ⟨?_, Or.inl ⟨hstack, congrArg (· + 1) hdepth⟩⟩
    unfold atLimit
    rw [hsettings, hdepth]
  · exact ⟨hk.enter.1.trans hm.enter.1.symm, Or.inr ⟨hb, hk.enter.2, hm.enter.2⟩⟩

/-- A step ends alike but for the log and the place. -/
theorem finish_bare {r r' : Machine × Option RunError} (h : r.1.bare = r'.1.bare)
    (herror : r.2 = r'.2) (call : Call) :
    (r.1.finish call r.2).bare = (r'.1.finish call r'.2).bare := by
  rw [herror]
  cases r'.2 with
  | none => exact h
  | some e => exact congrArg (fun b : Machine => b.setError e) h

/-- The two outcomes answer alike and leave machines alike, but for the log and the place. -/
structure Alike (r r' : Machine × Option RunError) : Prop where
  bare : r.1.bare = r'.1.bare
  answer : r.2 = r'.2

end Machine

open Machine

/-- Built-in actions do not go by the place, and others are run at the same place. -/
theorem Action.perform_alike (a : Action) {k m : Machine} (hbare : k.bare = m.bare)
    (h : Indifferent a.isBuiltin 0 k m) : Alike (a.perform k) (a.perform m) := by
  cases hb : a.isBuiltin with
  | true =>
      refine ⟨?_, ?_⟩
      · exact bare_blind.view_perform hbare hb
      · rw [Action.perform_eq (m := k) hb, Action.perform_eq (m := m) hb]
  | false =>
      -- from outside, so at the same place
      rw [hb] at h
      have hstack : k.stack = m.stack := (h.resolve_right fun h => Bool.noConfusion h.1).1
      cases a with
      | hook run =>
          obtain ⟨hafter, hanswer⟩ := bare_blind.view_react hbare hstack run
          exact ⟨hafter, hanswer⟩
      | _ => cases hb

mutual

/-- A step does the same at both places. -/
theorem Step.perform_alike : ∀ (s : Step) {k m : Machine}, k.bare = m.bare →
    Indifferent s.isBuiltin s.nesting k m → Alike (s.perform k) (s.perform m)
  | .action call a, k, m, hbare, h => a.perform_alike hbare h
  | .branch call condition zero one, k, m, hbare, h => by
      have hdirective : (k.decide condition).1 = (m.decide condition).1 :=
        eq_of_view (fun m => (m.decide condition).1) hbare fun _ => rfl
      have hk := k.decide_sameFrame condition
      have hm := m.decide_sameFrame condition
      have hbare' : (k.decide condition).2.bare = (m.decide condition).2.bare := hbare
      have hzero := Step.enter?_alike zero hbare' ((h.mono
        (fun hb => (Bool.and_eq_true_iff.mp hb).1) (Nat.le_max_left ..)).of_sameFrame hk hm)
      have hone := Step.enter?_alike one hbare' ((h.mono
        (fun hb => (Bool.and_eq_true_iff.mp hb).2) (Nat.le_max_right ..)).of_sameFrame hk hm)
      rw [Step.perform_branch, Step.perform_branch, hdirective]
      by_cases hhalt : (m.decide condition).1 = some .halt
      · rw [if_pos hhalt, if_pos hhalt]
        exact ⟨congrArg (fun b : Machine => b.halt true) hbare, rfl⟩
      · rw [if_neg hhalt, if_neg hhalt]
        exact Step.selected_cases (P := fun b =>
          Alike (Step.enter? b (k.decide condition).2) (Step.enter? b (m.decide condition).2))
          (m.decide condition).1 ⟨hbare', rfl⟩ hzero hone

theorem Step.enter?_alike : ∀ (branch : Option (List Step)) {k m : Machine}, k.bare = m.bare →
    Indifferent (Step.branchBuiltin branch) (Step.branchNesting branch) k m →
    Alike (Step.enter? branch k) (Step.enter? branch m)
  | none, k, m, hbare, _ => ⟨hbare, rfl⟩
  | some steps, k, m, hbare, h => by
      obtain ⟨hlimit, hinner⟩ := h.enter hbare
      have hwalk := Step.walk_alike steps (k := { k with depth := k.depth + 1 })
        (m := { m with depth := m.depth + 1 }) hbare hinner
      have hlimit' : k.settings.branchLimit = m.settings.branchLimit :=
        eq_of_view (fun m => m.settings.branchLimit) hbare fun _ => rfl
      unfold Step.enter?
      rw [hlimit]
      cases m.atLimit with
      | true => exact ⟨hbare, congrArg (fun n => some (RunError.tooDeep n)) hlimit'⟩
      | false => exact ⟨hwalk, rfl⟩

theorem Step.walk_alike : ∀ (steps : List Step) {k m : Machine}, k.bare = m.bare →
    Indifferent (Step.listBuiltin steps) (Step.listNesting steps) k m →
    (Step.walk steps k).bare = (Step.walk steps m).bare
  | [], k, m, hbare, _ => hbare
  | step :: rest, k, m, hbare, h => by
      have hstep := Step.perform_alike step (k := k.begin step.call) (m := m.begin step.call)
        hbare ((h.mono (fun hb => (Bool.and_eq_true_iff.mp hb).1)
          (Nat.le_max_left ..)).begin step.call)
      have hafter : (k.after step).bare = (m.after step).bare :=
        finish_bare hstep.bare hstep.answer step.call
      have hrest := Step.walk_alike rest hafter ((h.mono
        (fun hb => (Bool.and_eq_true_iff.mp hb).2) (Nat.le_max_right ..)).of_sameFrame
          (k.after_sameFrame step) (m.after_sameFrame step))
      have hstopped : (k.after step).stopped = (m.after step).stopped :=
        eq_of_view stopped hafter fun _ => rfl
      rw [Step.walk_cons, Step.walk_cons, hstopped]
      split
      · exact hafter
      · exact hrest

end

-- ================================================== in the branch's place

namespace Machine

/-- The two runs answer alike and end on the same machine, but for the log. -/
structure SameButLog (r r' : Machine × Option RunError) : Prop where
  machine : r.1.quiet = r'.1.quiet
  answer : r.2 = r'.2

variable {m : Machine}

/-- What follows a step is walked alike from any machine that agrees with the one the step
leaves, but for the log, and stands where the walk stands. -/
theorem walk_cons_quiet {x : Machine} {step : Step} (hbare : (m.after step).bare = x.bare)
    (hf : m.SameFrame x) (rest : List Step) :
    (Step.walk (step :: rest) m).quiet = (if x.stopped then x else Step.walk rest x).quiet := by
  have hafter := m.after_sameFrame step
  have hstack : (m.after step).stack = x.stack := hafter.stack.trans hf.stack.symm
  have hdepth : (m.after step).depth = x.depth := hafter.depth.trans hf.depth.symm
  have hrest := Step.walk_alike rest hbare (Or.inl ⟨hstack, hdepth⟩)
  have hstopped : (m.after step).stopped = x.stopped := eq_of_view stopped hbare fun _ => rfl
  rw [Step.walk_cons, hstopped]
  split
  · exact quiet_eq_of_bare hbare hstack hdepth
  · have hl := Step.walk_sameFrame rest (m.after step)
    have hr := Step.walk_sameFrame rest x
    refine quiet_eq_of_bare hrest ?_ ?_
    · rw [hl.stack, hr.stack, hstack]
    · rw [hl.depth, hr.depth, hdepth]

/-- Nothing is walked after a step that stops the walk. -/
theorem walk_cons_of_stopped {step : Step} (h : (m.after step).stopped = true)
    (rest : List Step) :
    Step.walk (step :: rest) m = m.after step
      ∧ Step.walkMoments (step :: rest) m = Step.moments step (m.begin step.call) := by
  refine ⟨if_pos h, ?_⟩
  rw [Step.walkMoments, if_pos h, List.append_nil]

/-- Runs are the same but for the log when the walks are that the limit allows. -/
theorem sameButLog_runSteps {p q : List Step} (h : m.atLimit = false →
    (Step.walk p { m with depth := m.depth + 1 }).quiet
      = (Step.walk q { m with depth := m.depth + 1 }).quiet) :
    SameButLog (m.runSteps p) (m.runSteps q) := by
  cases hlimit : m.atLimit with
  | true =>
      unfold runSteps Step.enter?
      rw [hlimit]
      exact ⟨rfl, rfl⟩
  | false =>
      rw [runSteps_eq hlimit, runSteps_eq hlimit]
      exact ⟨congrArg (fun b : Machine => { b with depth := m.depth }) (h hlimit), rfl⟩

section Condition

variable {call : Call} {condition : Condition} {zero one : Option (List Step)}

/-- After a condition that does not halt: its call comes off the stack again once the branch
selected, if any, has been entered and left. -/
theorem after_branch (hhalt : (m.decide condition).1 ≠ some .halt) :
    m.after (.branch call condition zero one)
      = (Step.enter? (Step.selected (m.decide condition).1 zero one)
            ((m.begin call).decide condition).2).1.finish call
          (Step.enter? (Step.selected (m.decide condition).1 zero one)
            ((m.begin call).decide condition).2).2 := by
  have hfired : ((m.begin call).decide condition).1 = (m.decide condition).1 := rfl
  simp only [Machine.after, Step.call]
  rw [Step.perform_branch, hfired, if_neg hhalt]

/-- A condition that does not halt and has no branch to enter changes nothing but the log. -/
theorem after_branch_none (hhalt : (m.decide condition).1 ≠ some .halt)
    (habsent : Step.selected (m.decide condition).1 zero one = none) :
    (m.after (.branch call condition zero one)).bare = m.bare := by
  rw [after_branch hhalt, habsent]
  rfl

/-- A condition with a branch to enter leaves what the branch leaves, walked in its place. -/
theorem after_branch_some {steps : List Step} (hb : Step.listBuiltin steps = true)
    (hroom : m.HasRoom (Step.branchNesting (some steps)))
    (hfired : Step.selected (m.decide condition).1 zero one = some steps) :
    (m.after (.branch call condition zero one)).bare = (Step.walk steps m).bare := by
  have hhalt : (m.decide condition).1 ≠ some .halt := by
    intro h
    rw [h] at hfired
    cases hfired
  obtain ⟨hlimit, hinner⟩ := hroom.enter
  have hlimit' : ((m.begin call).decide condition).2.atLimit = false := hlimit
  have hinside := Step.walk_alike steps (m := m)
    (k := { ((m.begin call).decide condition).2 with depth := m.depth + 1 }) rfl
    (Or.inr ⟨hb, hinner, hroom.mono (Nat.le_succ _)⟩)
  rw [after_branch hhalt, hfired]
  unfold Step.enter?
  rw [hlimit']
  exact hinside

/-- A condition that halts does that and no more. -/
theorem after_branch_halt (call : Call) (zero one : Option (List Step))
    (hhalt : (m.decide condition).1 = some .halt) :
    (m.after (.branch call condition zero one)).quiet = (m.halt true).quiet
      ∧ (m.after (.branch call condition zero one)).stopped = true := by
  have hfired : ((m.begin call).decide condition).1 = (m.decide condition).1 := rfl
  simp only [Machine.after, Step.call]
  rw [Step.perform_branch, hfired, if_pos hhalt]
  exact ⟨rfl, rfl⟩

/-- A condition and what follows it run as if the branch it fires stood in its place: the
same variables, events, halt flag and error, the same jobs and requests, the same place
afterwards; only the log is another. The branch has to be built in, as it is entered one
level deeper and below one more call, and to keep the limit from where the condition stands;
what follows may be anything. A condition that fires no branch might as well not be there,
and after one that halts nothing runs. -/
theorem branch_runs_in_place (call : Call) (condition : Condition)
    (zero one : Option (List Step)) (hgo : m.stopped = false)
    (hb : (Step.branch call condition zero one).isBuiltin = true) (rest : List Step) :
    (∀ steps, Step.selected (m.decide condition).1 zero one = some steps →
      m.depth + (Step.branch call condition zero one).nesting ≤ m.settings.branchLimit →
      SameButLog (m.runSteps (.branch call condition zero one :: rest))
        (m.runSteps (steps ++ rest)))
    ∧ ((m.decide condition).1 ≠ some .halt →
      Step.selected (m.decide condition).1 zero one = none →
      SameButLog (m.runSteps (.branch call condition zero one :: rest)) (m.runSteps rest))
    ∧ ((m.decide condition).1 = some .halt →
      m.runSteps (.branch call condition zero one :: rest)
        = m.runSteps [.branch call condition zero one]
      ∧ Step.enterMoments (some (.branch call condition zero one :: rest)) m
        = Step.enterMoments (some [.branch call condition zero one]) m
      ∧ (m.atLimit = false →
        (m.runSteps (.branch call condition zero one :: rest)).1.quiet = (m.halt true).quiet)) := by
  have hselected : Step.branchBuiltin (Step.selected (m.decide condition).1 zero one) = true
      ∧ Step.branchNesting (Step.selected (m.decide condition).1 zero one)
        ≤ (Step.branch call condition zero one).nesting := by
    obtain ⟨hzero, hone⟩ := Bool.and_eq_true_iff.mp hb
    exact Step.selected_cases (P := fun b => Step.branchBuiltin b = true
        ∧ Step.branchNesting b ≤ (Step.branch call condition zero one).nesting)
      (m.decide condition).1 ⟨rfl, Nat.zero_le _⟩ ⟨hzero, Nat.le_max_left ..⟩
      ⟨hone, Nat.le_max_right ..⟩
  refine ⟨?_, ?_, ?_⟩
  -- the branch's steps run one level further down, which only the log can tell
  · intro steps hfired hdepth
    rw [hfired] at hselected
    refine sameButLog_runSteps fun _ => ?_
    have hroom : ({ m with depth := m.depth + 1 } : Machine).HasRoom
        (Step.branchNesting (some steps)) := by
      have hle := hselected.2
      show m.depth + 1 + _ ≤ m.settings.branchLimit + 1
      omega
    rw [Step.walk_append (m := { m with depth := m.depth + 1 }) hgo]
    exact walk_cons_quiet (after_branch_some hselected.1 hroom hfired)
      (Step.walk_sameFrame steps _) rest
  -- nothing fires: the condition leaves all but the log as it was
  · intro hhalt habsent
    refine sameButLog_runSteps fun _ => ?_
    have hafter : ({ m with depth := m.depth + 1 }.after (.branch call condition zero one)).bare
        = ({ m with depth := m.depth + 1 } : Machine).bare := after_branch_none hhalt habsent
    have hwalk := walk_cons_quiet hafter (.refl _) rest
    rw [show ({ m with depth := m.depth + 1 } : Machine).stopped = false from hgo] at hwalk
    exact hwalk
  -- the halt: neither list goes past the condition
  · intro hhalt
    have hhalted : (({ m with depth := m.depth + 1 } : Machine).decide condition).1
        = some .halt := hhalt
    obtain ⟨hafter, hstops⟩ := after_branch_halt call zero one hhalted
    have hrest := walk_cons_of_stopped hstops rest
    have halone := walk_cons_of_stopped hstops []
    refine ⟨?_, ?_, ?_⟩
    · unfold runSteps Step.enter?
      rw [hrest.1, halone.1]
    · unfold Step.enterMoments
      rw [hrest.2, halone.2]
    · intro hlimit
      rw [runSteps_eq hlimit, hrest.1]
      exact congrArg (fun b : Machine => { b with depth := m.depth }) hafter

end Condition

end Machine

/-- A condition without comparisons, which does not hold: all it has is a directive for
that. -/
def Instruction.Condition.otherwise (d : Condition.Directive) : Condition :=
  { all := none, any := none, onTrue := none, onFalse := some d }

open Machine in
/-- On a new machine: a condition that fires its branch, one that fires a branch it does not
have, and one that halts, each before a note. -/
theorem branch_runs_in_place_of_new :
    let m := Machine.new {} {}
    let note (text : String) : Step := .action ⟨"log", none⟩ (.log ⟨text, .info⟩)
    let c (d : Condition.Directive) : Step :=
      .branch ⟨Condition.name, none⟩ (.otherwise d) (some [note "inside"]) none
    m.stopped = false ∧ (c .goto0).isBuiltin = true
      ∧ m.depth + (c .goto0).nesting ≤ m.settings.branchLimit
      ∧ SameButLog (m.runSteps [c .goto0, note "after"])
          (m.runSteps [note "inside", note "after"])
      ∧ SameButLog (m.runSteps [c .goto1, note "after"]) (m.runSteps [note "after"])
      ∧ m.runSteps [c .halt, note "after"] = m.runSteps [c .halt]
      ∧ (m.runSteps [c .halt, note "after"]).1.quiet = (m.halt true).quiet := by
  intro m note c
  have hgoto0 := branch_runs_in_place (m := m) ⟨Condition.name, none⟩ (.otherwise .goto0)
    (some [note "inside"]) none rfl rfl [note "after"]
  have hgoto1 := branch_runs_in_place (m := m) ⟨Condition.name, none⟩ (.otherwise .goto1)
    (some [note "inside"]) none rfl rfl [note "after"]
  have hhalt := branch_runs_in_place (m := m) ⟨Condition.name, none⟩ (.otherwise .halt)
    (some [note "inside"]) none rfl rfl [note "after"]
  have hroom : m.depth + (c .goto0).nesting ≤ m.settings.branchLimit := by decide
  have hinside : SameButLog (m.runSteps [c .goto0, note "after"])
      (m.runSteps [note "inside", note "after"]) := hgoto0.1 [note "inside"] rfl hroom
  have habsent : SameButLog (m.runSteps [c .goto1, note "after"]) (m.runSteps [note "after"]) :=
    hgoto1.2.1 (by decide) rfl
  obtain ⟨hstops, -, hend⟩ := hhalt.2.2 rfl
  refine ⟨rfl, rfl, hroom, hinside, habsent, hstops, ?_⟩
  exact hend rfl

end EventScript
