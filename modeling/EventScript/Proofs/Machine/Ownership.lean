/-
What each instruction may touch. A call to any built-in instruction but `condition` owns one
of two things: it writes variables, or it tells of them, by events, jobs and requests. The
other of the two it leaves alone, whatever the services answer, and how the run stands is not
its business at all.

From this one law about a bound call two things follow about every run. The events there are
stay, so what was recorded when one step began is a prefix of what is recorded later. And the
machine is halted at the end only if it was before, or if a `condition` that was executed
decided to halt. For the second, `Realizes` tells that a step with a decision in it comes from
a call to `condition`.
-/
import EventScript.Proofs.Machine.Deliveries
import EventScript.Proofs.Machine.LifeCycle
import EventScript.Proofs.Machine.Success
import EventScript.Proofs.Program.Acceptance

namespace EventScript

open Instruction

-- ========================================================= what is owned

/-- The instructions that write variables. -/
def InstructionSpec.transforms : List String :=
  [Assignment.name, ArrayAccess.name, Calculation.name, ObjectAccess.name, TextTransform.name,
    TemplateText.name]

/-- The instructions that tell of variables, here or elsewhere. -/
def InstructionSpec.reports : List String :=
  [VariableReport.name, LogNote.name, Webhook.name, SheetRow.name, JobOrder.name]

/-- From one machine to the next the instruction of this name has touched what it owns. -/
structure Machine.TouchesOwn (m m' : Machine) (name : String) : Prop where
  halted : m'.halted = m.halted
  error : m'.error = m.error
  /-- Status, stack, depth and program are as they were. -/
  frame : m.SameFrame m'
  report : name ∈ InstructionSpec.reports → m'.globals = m.globals
  transform : name ∈ InstructionSpec.transforms → m'.events = m.events
    ∧ m'.world.queue = m.world.queue ∧ m'.world.network = m.world.network
  events : m.events <+: m'.events

/-- What a built-in call does is told by its name: a report records events of a category of
its own, and a transform records none. -/
theorem InstructionSpec.draft_owns {spec : InstructionSpec} (hs : spec ∈ builtins)
    {args : Option Json.Object} {a : Action} (h : spec.draft args = .ok (.action a)) :
    (spec.name ∈ reports ↔ a.category? ≠ none) ∧ (spec.name ∈ transforms ↔ a.category? = none) := by
  simp only [builtins, List.mem_cons, List.not_mem_nil, or_false] at hs
  rcases hs with rfl | rfl | rfl | rfl | rfl | rfl | rfl | rfl | rfl | rfl | rfl | rfl
  case inr.inl =>
    obtain ⟨-, hd, -⟩ := draft_eq_ok_iff.mp h
    obtain ⟨c, -, hc⟩ := Except.map_eq_ok.mp hd
    cases hc
  all_goals
    obtain ⟨i, hi⟩ := ofAction_draft h
    cases hi
    simp only [ofAction, Action.category?]
    decide

-- ====================================================== one bound call

/-- An action that records no events asks the services for nothing. -/
theorem Action.asks_nothing {a : Action} (ha : a.category? = none) (s : Settings) (g : Globals) :
    a.job? g = none ∧ a.request? s g = none := by
  cases a with
  | debug i => cases ha
  | log i => cases ha
  | queue i => cases ha
  | webhook i => cases ha
  | spreadsheet i => cases ha
  | _ => exact ⟨rfl, rfl⟩

/-- A built-in action without events leaves events, queue and network as they are. -/
theorem Action.perform_transform {a : Action} {m : Machine} (hb : a.isBuiltin = true)
    (ha : a.category? = none) : (a.perform m).1.events = m.events
      ∧ (a.perform m).1.world.queue = m.world.queue
      ∧ (a.perform m).1.world.network = m.world.network := by
  obtain ⟨told, hasked⟩ := a.perform_asks m
  obtain ⟨hjob, hrequest⟩ := a.asks_nothing ha m.settings m.globals
  have htold : told = [] := by
    apply List.eq_nil_iff_forall_not_mem.mpr
    intro e he
    have hcategory := hasked.category hb e he
    rw [ha] at hcategory
    cases hcategory
  refine ⟨?_, ?_, ?_⟩
  · rw [hasked.events, htold, List.append_nil]
  · rw [hasked.queue, hjob]
    rfl
  · rw [hasked.network, hrequest]
    rfl

/-- What a built-in call drafts ends no run, and touches what the call owns. -/
theorem InstructionSpec.draft_touchesOwn {spec : InstructionSpec} (hs : spec ∈ builtins)
    {args : Option Json.Object} {a : Action} (hdraft : spec.draft args = .ok (.action a))
    (m : Machine) : (a.perform m).2 = none ∧ m.TouchesOwn (a.perform m).1 spec.name := by
  have hb : a.isBuiltin = true := by
    rcases builtins_draft hs hdraft with ⟨-, a', ha, hb⟩ | ⟨-, c, hc, -⟩
    · cases ha
      exact hb
    · cases hc
  obtain ⟨hreport, htransform⟩ := draft_owns hs hdraft
  obtain ⟨told, hasked⟩ := a.perform_asks m
  have heq := Action.perform_eq (m := m) hb
  refine ⟨congrArg Prod.snd heq, ?_⟩
  exact {
    halted := congrArg (fun r => r.1.halted) heq
    error := congrArg (fun r => r.1.error) heq
    frame := a.perform_sameFrame m
    report := fun hname => hasked.globals (hreport.mp hname)
    transform := fun hname => Action.perform_transform hb (htransform.mp hname)
    events := hasked.events ▸ List.prefix_append m.events told }

/-- A bound call to anything but `condition` ends no run, and touches what it owns. -/
theorem Program.bind_touchesOwn {compile : BranchCompiler} {spec : InstructionSpec} {call : Call}
    {step : Step} (hs : spec ∈ InstructionSpec.builtins) (hname : spec.name ≠ Condition.name)
    (hbind : bind compile spec call = .ok step) (m : Machine) :
    (step.perform m).2 = none ∧ m.TouchesOwn (step.perform m).1 spec.name := by
  unfold bind at hbind
  split at hbind
  · cases hbind
  · next d hdraft =>
    rcases InstructionSpec.builtins_draft hs hdraft with ⟨-, a, rfl, -⟩ | ⟨hcondition, -⟩
    · cases hbind
      exact InstructionSpec.draft_touchesOwn hs hdraft m
    · exact absurd hcondition hname

-- ========================================================= along a run

/-- What was recorded when one step began is a prefix of what is recorded later. -/
theorem Execution.Lead.events_grow {fx fx' : Effects} {xs : List Execution}
    (h : Execution.Lead fx xs fx') :
    (fx.events :: xs.map (fun x => x.machine.events) ++ [fx'.events]).Pairwise (· <+: ·) := by
  induction h with
  | nil => simp
  | @cons x later fx' _ ih =>
      have hleaves : x.machine.events <+: x.leaves.events := by
        rw [x.leaves_adds.2.2]
        exact List.prefix_append _ _
      obtain ⟨hfirst, hrest⟩ := List.pairwise_cons.mp ih
      have hlater : ∀ events ∈ later.map (fun x => x.machine.events) ++ [fx'.events],
          x.machine.events <+: events := fun events he => hleaves.trans (hfirst events he)
      refine List.pairwise_cons.mpr ⟨?_, List.pairwise_cons.mpr ⟨hlater, hrest⟩⟩
      rintro events (_ | ⟨_, he⟩)
      · exact List.prefix_rfl
      · exact hlater events he

/-- Along a run events are only added, whatever its program does. -/
theorem Machine.events_grow (m : Machine) (event : Option Json) :
    (m.events :: (m.executions event).map (fun x => x.machine.events)
      ++ [(m.execute event).2.events]).Pairwise (· <+: ·) := by
  obtain ⟨fx, -, hevents, hlead, -⟩ := m.executions_lead event
  rw [← hevents]
  exact hlead.events_grow

/-- The step is a condition, and it decides to halt. -/
def Execution.Halts (x : Execution) : Prop :=
  ∃ call condition zero one, x.step = .branch call condition zero one
    ∧ (x.machine.decide condition).1 = some .halt

@[simp] theorem Execution.halts_behind {turn : Turn} {x : Execution} :
    (x.behind turn).Halts ↔ x.Halts := Iff.rfl

/-- Whether it has halted behind a step is up to the step. -/
theorem Machine.after_halted (m : Machine) (step : Step) :
    (m.after step).halted = (step.perform (m.begin step.call)).1.halted := by
  unfold Machine.after
  rcases step.perform (m.begin step.call) with ⟨m', error⟩
  cases error <;> rfl

mutual

/-- A step halts the machine where a condition executed in it halts. -/
theorem Step.perform_halted_iff : ∀ {s : Step} {m : Machine}, s.isBuiltin = true →
    ((s.perform m).1.halted = true ↔ m.halted = true ∨ ∃ x ∈ s.executions m, x.Halts)
  | .action call a, m, hb => by
      have hhalted : (a.perform m).1.halted = m.halted :=
        congrArg (fun r => r.1.halted) (Action.perform_eq (m := m) hb)
      show (a.perform m).1.halted = true ↔ _
      rw [hhalted]
      refine (or_iff_left ?_).symm
      rintro ⟨x, hx, _, _, _, _, hstep, -⟩
      rw [List.mem_singleton.mp hx] at hstep
      cases hstep
  | .branch call condition zero one, m, hb => by
      obtain ⟨hbz, hbo⟩ := Bool.and_eq_true_iff.mp hb
      have hzero := Step.enter?_halted_iff (m := (m.decide condition).2) hbz
      have hone := Step.enter?_halted_iff (m := (m.decide condition).2) hbo
      have hdecided : (m.decide condition).2.halted = m.halted := rfl
      -- a condition halts by its own directive, else by what its branch runs
      have hown : Execution.Halts ⟨⟨[], .branch call condition zero one⟩, m⟩
          ↔ (m.decide condition).1 = some .halt := by
        constructor
        · rintro ⟨_, _, _, _, hstep, hhalt⟩
          cases hstep
          exact hhalt
        · exact fun hhalt => ⟨_, _, _, _, rfl, hhalt⟩
      rw [hdecided] at hzero hone
      unfold Step.perform Step.executions
      rw [List.exists_mem_cons_iff, hown]
      revert hdecided hzero hone
      rcases m.decide condition with ⟨directive, m'⟩
      intro hzero hone hdecided
      cases directive with
      | none => simpa using hdecided
      | some d =>
          cases d with
          | goto0 => simpa using hzero
          | goto1 => simpa using hone
          | halt => simp [Machine.halt]

theorem Step.enter?_halted_iff : ∀ {branch : Option (List Step)} {m : Machine},
    Step.branchBuiltin branch = true →
    ((Step.enter? branch m).1.halted = true
      ↔ m.halted = true ∨ ∃ x ∈ Step.enterExecutions branch m, x.Halts)
  | none, m, _ => by simp [Step.enter?, Step.enterExecutions]
  | some steps, m, hb => by
      have hwalk := Step.walk_halted_iff 0 (m := { m with depth := m.depth + 1 }) hb
      unfold Step.enter? Step.enterExecutions
      cases m.atLimit with
      | true => simp
      | false => exact hwalk

theorem Step.walk_halted_iff (n : Nat) : ∀ {steps : List Step} {m : Machine},
    Step.listBuiltin steps = true →
    ((Step.walk steps m).halted = true
      ↔ m.halted = true ∨ ∃ x ∈ Step.walkExecutions n steps m, x.Halts)
  | [], m, _ => by simp [Step.walk, Step.walkExecutions]
  | step :: rest, m, hb => by
      obtain ⟨hbs, hbr⟩ := Bool.and_eq_true_iff.mp hb
      have hstep := Step.perform_halted_iff (m := m.begin step.call) hbs
      have hrest := Step.walk_halted_iff (n + 1) (m := m.after step) hbr
      rw [← m.after_halted] at hstep
      have hbegin : (m.begin step.call).halted = m.halted := rfl
      rw [hbegin] at hstep
      rw [Step.walk_cons, Step.walkExecutions]
      cases (m.after step).stopped with
      | true => simpa using hstep
      | false => simpa [or_and_right, exists_or, ← or_assoc, ← hstep] using hrest

end

-- ================================================== runs of built-in programs

namespace Program

mutual

/-- Every step listed of one that realizes a call realizes a call. -/
theorem Realizes.listing {specs : List InstructionSpec} {call : Call} : ∀ {step : Step},
    Realizes specs call step → ∀ o ∈ step.listing, ∃ c, Realizes specs c o.step
  | .action _ _, h => List.forall_mem_singleton.mpr ⟨call, h⟩
  | .branch _ _ _ _, h => by
      refine List.forall_mem_cons.mpr ⟨⟨call, h⟩, ?_⟩
      cases h with
      | branch drafts inZero inOne =>
          exact List.forall_mem_append.mpr
            ⟨List.forall_mem_map.mpr inZero.listing, List.forall_mem_map.mpr inOne.listing⟩

/-- What is listed of a branch realizes calls. -/
theorem RealizesBranch.listing {specs : List InstructionSpec} {entries : Option (List Json)} :
    ∀ {branch : Option (List Step)}, RealizesBranch specs entries branch →
      ∀ o ∈ Step.branchListing branch, ∃ c, Realizes specs c o.step
  | none, _ => List.forall_mem_nil _
  | some _, h => by
      cases h with
      | present written inside => exact inside.listing 0

theorem RealizesAll.listing {specs : List InstructionSpec} {calls : List Call} (n : Nat) :
    ∀ {steps : List Step}, RealizesAll specs calls steps →
      ∀ o ∈ Step.listListing n steps, ∃ c, Realizes specs c o.step
  | [], _ => List.forall_mem_nil _
  | _ :: _, h => by
      cases h with
      | cons head tail =>
          exact List.forall_mem_append.mpr
            ⟨List.forall_mem_map.mpr head.listing, tail.listing (n + 1)⟩

end

/-- A step with branches comes from a call to `condition`. -/
theorem Realizes.branch_name {c call : Call} {condition : Condition}
    {zero one : Option (List Step)}
    (h : Realizes InstructionSpec.builtins c (.branch call condition zero one)) :
    call.name = Condition.name := by
  cases h with
  | branch drafts =>
      obtain ⟨spec, hfind, hdraft⟩ := drafts
      have hname : spec.name = c.name := by simpa using List.find?_some hfind
      rcases InstructionSpec.builtins_draft (List.mem_of_find?_eq_some hfind) hdraft with
        ⟨-, _, ha, -⟩ | ⟨hcondition, -⟩
      · cases ha
      · exact hname ▸ hcondition

/-- A step that comes from a call to anything else touches what the call owns. -/
theorem Realizes.touchesOwn {c : Call} {step : Step}
    (h : Realizes InstructionSpec.builtins c step) (hname : step.call.name ≠ Condition.name)
    (m : Machine) : (step.perform m).2 = none ∧ m.TouchesOwn (step.perform m).1 step.call.name := by
  cases step with
  | action call a =>
      cases h with
      | action drafts =>
          obtain ⟨spec, hfind, hdraft⟩ := drafts
          have hspec : spec.name = c.name := by simpa using List.find?_some hfind
          have htouches :=
            InstructionSpec.draft_touchesOwn (List.mem_of_find?_eq_some hfind) hdraft m
          rw [hspec] at htouches
          exact htouches
  | branch call condition zero one => exact absurd h.branch_name hname

/-- Every step executed in a run of a compiled program realizes a call. -/
theorem executions_realize {limit : Nat} {d : Document} {p : Program}
    (hcompile : compile (.builtin limit) d = .ok p) {m : Machine} (hp : m.program = some p)
    (event : Option Json) :
    ∀ x ∈ m.executions event, ∃ c, Realizes InstructionSpec.builtins c x.step := by
  obtain ⟨steps, hsteps, rfl⟩ := Except.map_eq_ok.mp hcompile
  obtain ⟨hreal, -⟩ := compileCalls_eq_ok_iff.mp hsteps
  intro x hx
  have hlisted := (Machine.executions_sublist_listing hp event).subset
    (List.mem_map_of_mem (f := Execution.occurrence) hx)
  exact hreal.listing 0 x.occurrence hlisted

end Program

/-- A run halts where a condition executed in it halts. -/
theorem Machine.execute_halted_iff {m : Machine} {p : Program} (hp : m.program = some p)
    (hb : Step.listBuiltin p.steps = true) (event : Option Json) :
    (m.execute event).2.halted = true
      ↔ m.halted = true ∨ ∃ x ∈ m.executions event, x.Halts := by
  rcases executions_cases hp event with ⟨hnone, -, hspent⟩ | ⟨hruns, -, hends⟩
  · rw [hnone, execute_of_not_idle hspent]
    simp
  · have hstart : (m.start p event).halted = m.halted := by cases event <;> rfl
    have hconclude : ∀ (k : Machine) error, (k.conclude error).halted = k.halted := by
      intro k error
      cases error <;> rfl
    have hbranch : Step.branchBuiltin (some p.steps) = true := hb
    rw [hruns, hends, ending_snd, hconclude, ← hstart]
    exact Step.enter?_halted_iff hbranch

/-- A bound call to a built-in instruction other than `condition` ends no run, whatever the
machine, its world and its settings are, and touches what its name says it owns. Along every
run events are only added: those recorded when one step begins are a prefix of those recorded
when a later one does, and at the end. In a run of a program of built-in instructions each
executed step but a condition touches what it owns, and the run ends halted exactly if it
began so or if a condition that was executed decided to halt. -/
theorem Program.instructions_touch_own :
    (∀ compile spec call step, spec ∈ InstructionSpec.builtins → spec.name ≠ Condition.name →
      bind compile spec call = .ok step → ∀ m : Machine,
        (step.perform m).2 = none ∧ m.TouchesOwn (step.perform m).1 spec.name)
    ∧ (∀ (m : Machine) event,
      (m.events :: (m.executions event).map (fun x => x.machine.events)
        ++ [(m.execute event).2.events]).Pairwise (· <+: ·))
    ∧ ∀ limit d p, compile (.builtin limit) d = .ok p → ∀ (m : Machine) event,
      m.program = some p →
        (∀ x ∈ m.executions event, x.step.call.name ≠ Condition.name →
          (x.step.perform x.machine).2 = none
            ∧ x.machine.TouchesOwn (x.step.perform x.machine).1 x.step.call.name)
        ∧ ((m.execute event).2.halted = true ↔ m.halted = true
          ∨ ∃ x ∈ m.executions event, x.step.call.name = Condition.name ∧ x.Halts) := by
  refine ⟨?_, fun m event => m.events_grow event, ?_⟩
  · intro compile spec call step hs hname hbind m
    exact bind_touchesOwn hs hname hbind m
  · intro limit d p hcompile m event hp
    have hreal := executions_realize hcompile hp event
    have hb : Step.listBuiltin p.steps = true := by
      obtain ⟨steps, hsteps, rfl⟩ := Except.map_eq_ok.mp hcompile
      exact (compileCalls_eq_ok_iff.mp hsteps).1.isBuiltin
    constructor
    · intro x hx hname
      obtain ⟨c, hc⟩ := hreal x hx
      exact hc.touchesOwn hname x.machine
    · rw [Machine.execute_halted_iff hp hb]
      refine or_congr_right (exists_congr fun x => and_congr_right fun hx => ?_)
      refine (and_iff_right_of_imp ?_).symm
      rintro ⟨call, condition, zero, one, hstep, -⟩
      obtain ⟨c, hc⟩ := hreal x hx
      rw [hstep] at hc ⊢
      exact hc.branch_name

/-- The value of `x` as a row. -/
def Call.oneCell : Call :=
  ⟨SheetRow.name, some [("spreadsheetId", .string "s"), ("range", .string "A"),
    ("token", .string "t"), ("variables", .array [.string "x"])]⟩

/-- A condition that halts between two notes. -/
def Document.haltedBetween : Document :=
  let note (message : String) : Call := ⟨LogNote.name, some [("message", .string message)]⟩
  let test : Json := .object [("variable", .string "x"), ("operator", .string "="),
    ("compareTo", .bool true)]
  { version := "1"
    program := [note "before",
      ⟨Condition.name, some [("OR", .array [test]), ("onFalse", .string "halt")]⟩, note "behind"] }

/-- The bound row keeps the variables of every machine. The run with the condition ends halted,
so the condition decided it; the note before keeps the variables. -/
theorem haltedBetween_touches_own :
    (∃ spec ∈ InstructionSpec.builtins, ∃ step,
      Program.bind (fun _ _ => .ok []) spec Call.oneCell = .ok step
        ∧ ∀ m : Machine, (step.perform m).2 = none ∧ (step.perform m).1.globals = m.globals)
    ∧ ∃ p, Program.compile (.builtin 1) Document.haltedBetween = .ok p ∧
      let m := (Machine.new {} {}).load p { id := "1" }
      (m.execute none).2.halted = true
        ∧ (∃ x ∈ m.executions none, x.step.call.name = Condition.name ∧ x.Halts)
        ∧ ∀ x ∈ m.executions none, x.step.call.name = LogNote.name →
          (x.step.perform x.machine).1.globals = x.machine.globals := by
  obtain ⟨hbound, -, hruns⟩ := Program.instructions_touch_own
  constructor
  · have hrow : .ofAction SheetRow.name SheetRow.schema SheetRow.decode .spreadsheet
        ∈ InstructionSpec.builtins := by simp [InstructionSpec.builtins]
    obtain ⟨step, hstep⟩ : ∃ step, Program.bind (fun _ _ => .ok [])
        (.ofAction SheetRow.name SheetRow.schema SheetRow.decode .spreadsheet) Call.oneCell
          = .ok step := ⟨_, rfl⟩
    refine ⟨_, hrow, step, hstep, fun m => ?_⟩
    obtain ⟨hnone, howns⟩ := hbound _ _ _ _ hrow (by decide) hstep m
    exact ⟨hnone, howns.report (by decide)⟩
  · refine ⟨_, rfl, ?_⟩
    intro m
    have hhalted : (m.execute none).2.halted = true := rfl
    obtain ⟨htouches, hhalts⟩ := hruns 1 Document.haltedBetween _ rfl m none rfl
    refine ⟨hhalted, ?_, ?_⟩
    · exact (hhalts.mp hhalted).resolve_left Bool.false_ne_true
    · intro x hx hname
      have hne : x.step.call.name ≠ Condition.name := hname ▸ by decide
      refine (htouches x hx hne).2.report ?_
      rw [hname]
      decide

end EventScript
