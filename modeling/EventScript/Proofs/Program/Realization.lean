/-
What compiling does, said without compiling. A step realizes a call when it carries out
the draft of the call's arguments, and the program of each branch realizes the calls
written in that branch. The judgement knows no limit on nesting; how deep the branches of
a program nest is a number of its own.

The main result, `compileFrom_eq_ok_iff`, takes the two together: the compiler yields
exactly the steps that realize the calls and nest no deeper than the levels it may open.
Everything about accepted programs is read off this one equivalence, and nothing later
unfolds the compiler to talk about success.
-/
import EventScript.Program.Compile
import EventScript.Proofs.Except

namespace EventScript

-- ============================================================== nesting

mutual

/-- How deep branches nest inside a step. -/
def Step.nesting : Step → Nat
  | .action _ _ => 0
  | .branch _ _ zero one => max (Step.branchNesting zero) (Step.branchNesting one)

/-- The nesting a branch causes: one more than inside it, and none when it is absent. -/
def Step.branchNesting : Option (List Step) → Nat
  | none => 0
  | some steps => Step.listNesting steps + 1

/-- The deepest nesting among steps. -/
def Step.listNesting : List Step → Nat
  | [] => 0
  | step :: rest => max (Step.nesting step) (Step.listNesting rest)

end

namespace Program

/-- How deep the branches of a program nest; a program without branches does not. -/
def nesting (p : Program) : Nat := Step.listNesting p.steps

end Program

-- ======================================================= the judgement

/-- The call is to an instruction among these, and its arguments stand for the draft. -/
def Call.Drafts (specs : List InstructionSpec) (call : Call) (d : Draft) : Prop :=
  ∃ spec, (specs.find? fun s => s.name == call.name) = some spec
    ∧ spec.draft call.args = .ok d

namespace Program

variable (specs : List InstructionSpec)

mutual

/-- The step carries out what the call says. -/
inductive Realizes : Call → Step → Prop
  | action {call : Call} {a : Action} (drafts : call.Drafts specs (.action a)) :
      Realizes call (.action call a)
  | branch {call : Call} {d : Instruction.Condition.Draft} {zero one : Option (List Step)}
      (drafts : call.Drafts specs (.condition d)) (inZero : RealizesBranch d.branch0 zero)
      (inOne : RealizesBranch d.branch1 one) :
      Realizes call (.branch call d.condition zero one)

/-- A branch is there when it was written, and realizes the calls written in it. -/
inductive RealizesBranch : Option (List Json) → Option (List Step) → Prop
  | absent : RealizesBranch none none
  | present {entries : List Json} {calls : List Call} {steps : List Step}
      (written : Document.entryCalls entries = .ok calls) (inside : RealizesAll calls steps) :
      RealizesBranch (some entries) (some steps)

/-- The steps realize the calls, one each, in order. -/
inductive RealizesAll : List Call → List Step → Prop
  | nil : RealizesAll [] []
  | cons {call : Call} {step : Step} {calls : List Call} {steps : List Step}
      (head : Realizes call step) (tail : RealizesAll calls steps) :
      RealizesAll (call :: calls) (step :: steps)

end

variable {specs}

theorem Realizes.call_eq {call : Call} {step : Step} (h : Realizes specs call step) :
    step.call = call := by
  cases h with
  | action => rfl
  | branch => rfl

/-- The calls of realizing steps are the calls themselves. -/
theorem RealizesAll.map_call {calls : List Call} {steps : List Step}
    (h : RealizesAll specs calls steps) : steps.map Step.call = calls := by
  induction steps generalizing calls with
  | nil => cases h; rfl
  | cons step steps ih =>
      cases h with
      | cons head tail => rw [List.map_cons, head.call_eq, ih tail]

/-- What a branch that is there comes from. -/
theorem realizesBranch_some_iff {entries : Option (List Json)} {steps : List Step} :
    RealizesBranch specs entries (some steps) ↔
      ∃ es calls, entries = some es ∧ Document.entryCalls es = .ok calls
        ∧ RealizesAll specs calls steps := by
  constructor
  · intro h
    cases h with
    | present written inside => exact ⟨_, _, rfl, written, inside⟩
  · intro hyp
    obtain ⟨es, calls, rfl, written, inside⟩ := hyp
    exact .present written inside

-- ============================================= success of the compiler

variable {r : Registry}

/-- A branch is compiled where it is absent, or where its entries are. -/
theorem compileBranch?_eq_ok {compile : BranchCompiler} {branch : String}
    {entries : Option (List Json)} {steps : Option (List Step)} :
    compileBranch? compile branch entries = .ok steps ↔
      (entries = none ∧ steps = none)
        ∨ ∃ es ss, entries = some es ∧ compile branch es = .ok ss ∧ steps = some ss := by
  cases entries with
  | none => simp [compileBranch?, eq_comm]
  | some es =>
      simp only [compileBranch?, Except.map_eq_ok]
      constructor
      · intro hyp
        obtain ⟨ss, hss, rfl⟩ := hyp
        exact Or.inr ⟨es, ss, rfl, hss, rfl⟩
      · intro hyp
        rcases hyp with ⟨h, -⟩ | ⟨es', ss, hes, hss, rfl⟩
        · cases h
        · cases hes
          exact ⟨ss, hss, rfl⟩

/-- Success of a call does not depend on where it stands. -/
theorem compileCall_eq_ok {compile : BranchCompiler} {position : Nat} {call : Call}
    {step : Step} :
    compileCall r compile position call = .ok step ↔
      ∃ d, call.Drafts r.specs d ∧ bindDraft compile call d = .ok step := by
  unfold compileCall Call.Drafts Registry.find?
  cases hf : r.specs.find? fun s => s.name == call.name with
  | none => simp
  | some spec =>
      simp only [Except.mapError_eq_ok, bind, Option.some.injEq, exists_eq_left']
      cases hd : spec.draft call.args with
      | error defect => simp
      | ok d => simp

/-- Calls are compiled one after another. -/
theorem compileFrom_cons_eq_ok {compile : BranchCompiler} {position : Nat} {call : Call}
    {calls : List Call} {steps : List Step} :
    compileFrom r compile position (call :: calls) = .ok steps ↔
      ∃ step rest, compileCall r compile position call = .ok step
        ∧ compileFrom r compile (position + 1) calls = .ok rest ∧ steps = step :: rest := by
  simp only [compileFrom, Except.bind_eq_ok, pure, Except.pure, Except.ok.injEq]
  constructor
  · intro hyp
    obtain ⟨step, hstep, rest, hrest, rfl⟩ := hyp
    exact ⟨step, rest, hstep, hrest, rfl⟩
  · intro hyp
    obtain ⟨step, rest, hstep, hrest, rfl⟩ := hyp
    exact ⟨step, hstep, rest, hrest, rfl⟩

/-- What a compiler of branches has to do: yield the steps that realize the calls written
in a branch, as long as the branch does not nest deeper than the levels it may open. -/
def OpensLevels (r : Registry) (compile : BranchCompiler) (levels : Nat) : Prop :=
  ∀ branch entries steps, compile branch entries = .ok steps ↔
    RealizesBranch r.specs (some entries) (some steps) ∧ Step.branchNesting (some steps) ≤ levels

section Levels

variable {compile : BranchCompiler} {levels : Nat}

theorem OpensLevels.branch_eq_ok (h : OpensLevels r compile levels) {branch : String}
    {entries : Option (List Json)} {steps : Option (List Step)} :
    compileBranch? compile branch entries = .ok steps ↔
      RealizesBranch r.specs entries steps ∧ Step.branchNesting steps ≤ levels := by
  rw [compileBranch?_eq_ok]
  constructor
  · intro hyp
    rcases hyp with ⟨rfl, rfl⟩ | ⟨es, ss, rfl, hss, rfl⟩
    · exact ⟨.absent, Nat.zero_le _⟩
    · exact (h branch es ss).mp hss
  · intro hyp
    obtain ⟨hreal, hle⟩ := hyp
    cases hreal with
    | absent => exact Or.inl ⟨rfl, rfl⟩
    | present written inside =>
        exact Or.inr ⟨_, _, rfl, (h branch _ _).mpr ⟨.present written inside, hle⟩, rfl⟩

/-- A call is compiled to what realizes it within the levels left. -/
theorem OpensLevels.call_eq_ok (h : OpensLevels r compile levels) {position : Nat}
    {call : Call} {step : Step} :
    compileCall r compile position call = .ok step ↔
      Realizes r.specs call step ∧ step.nesting ≤ levels := by
  rw [compileCall_eq_ok]
  constructor
  · intro hyp
    obtain ⟨d, hd, hbind⟩ := hyp
    cases d with
    | action a =>
        simp only [bindDraft, Except.ok.injEq] at hbind
        subst hbind
        exact ⟨.action hd, Nat.zero_le _⟩
    | condition d =>
        simp only [bindDraft, Except.bind_eq_ok, pure, Except.pure, Except.ok.injEq] at hbind
        obtain ⟨zero, hzero, one, hone, rfl⟩ := hbind
        obtain ⟨inZero, leZero⟩ := h.branch_eq_ok.mp hzero
        obtain ⟨inOne, leOne⟩ := h.branch_eq_ok.mp hone
        exact ⟨.branch hd inZero inOne, Nat.max_le.mpr ⟨leZero, leOne⟩⟩
  · intro hyp
    obtain ⟨hreal, hle⟩ := hyp
    cases hreal with
    | action drafts => exact ⟨_, drafts, rfl⟩
    | branch drafts inZero inOne =>
        obtain ⟨leZero, leOne⟩ := Nat.max_le.mp hle
        refine ⟨_, drafts, ?_⟩
        simp only [bindDraft, Except.bind_eq_ok, pure, Except.pure, Except.ok.injEq]
        exact ⟨_, h.branch_eq_ok.mpr ⟨inZero, leZero⟩, _,
          h.branch_eq_ok.mpr ⟨inOne, leOne⟩, rfl⟩

/-- Calls are compiled to what realizes them within the levels left. -/
theorem OpensLevels.calls_eq_ok (h : OpensLevels r compile levels) {position : Nat}
    {calls : List Call} {steps : List Step} :
    compileFrom r compile position calls = .ok steps ↔
      RealizesAll r.specs calls steps ∧ Step.listNesting steps ≤ levels := by
  induction calls generalizing position steps with
  | nil =>
      simp only [compileFrom, Except.ok.injEq]
      constructor
      · intro hyp
        subst hyp
        exact ⟨.nil, Nat.zero_le _⟩
      · intro hyp
        obtain ⟨hreal, -⟩ := hyp
        cases hreal
        rfl
  | cons call calls ih =>
      rw [compileFrom_cons_eq_ok]
      constructor
      · intro hyp
        obtain ⟨step, rest, hstep, hrest, rfl⟩ := hyp
        obtain ⟨head, leHead⟩ := h.call_eq_ok.mp hstep
        obtain ⟨tail, leTail⟩ := ih.mp hrest
        exact ⟨.cons head tail, Nat.max_le.mpr ⟨leHead, leTail⟩⟩
      · intro hyp
        obtain ⟨hreal, hle⟩ := hyp
        cases hreal with
        | cons head tail =>
            obtain ⟨leHead, leTail⟩ := Nat.max_le.mp hle
            exact ⟨_, _, h.call_eq_ok.mpr ⟨head, leHead⟩, ih.mpr ⟨tail, leTail⟩, rfl⟩

end Levels

/-- The compiler of branches does what it has to, level by level: without a level left it
opens no branch, and with one more it compiles the calls inside with one less. -/
theorem branchCompiler_opensLevels (r : Registry) (levels : Nat) :
    OpensLevels r (branchCompiler r levels) levels := by
  induction levels with
  | zero =>
      intro branch entries steps
      simp [branchCompiler, Step.branchNesting]
  | succ levels ih =>
      intro branch entries steps
      simp only [branchCompiler, Step.branchNesting, Nat.add_le_add_iff_right,
        realizesBranch_some_iff, Option.some.injEq]
      cases hw : Document.entryCalls entries with
      | error problems =>
          constructor
          · intro h
            cases h
          · intro hyp
            obtain ⟨⟨es, calls, rfl, written, -⟩, -⟩ := hyp
            rw [hw] at written
            cases written
      | ok calls =>
          simp only [Except.mapError_eq_ok, ih.calls_eq_ok]
          constructor
          · intro hyp
            obtain ⟨inside, hle⟩ := hyp
            exact ⟨⟨entries, calls, rfl, hw, inside⟩, hle⟩
          · intro hyp
            obtain ⟨⟨es, calls', rfl, written, inside⟩, hle⟩ := hyp
            rw [hw] at written
            cases written
            exact ⟨inside, hle⟩

/-- The compiler yields exactly the steps that realize the calls and nest no deeper than
the levels it may open. -/
theorem compileFrom_eq_ok_iff {levels position : Nat} {calls : List Call}
    {steps : List Step} :
    compileFrom r (branchCompiler r levels) position calls = .ok steps ↔
      RealizesAll r.specs calls steps ∧ Step.listNesting steps ≤ levels :=
  (branchCompiler_opensLevels r levels).calls_eq_ok

/-- At a depth, calls are compiled to what realizes them within the limit. -/
theorem compileCalls_eq_ok_iff {calls : List Call} {depth : Nat} {steps : List Step} :
    compileCalls r calls depth = .ok steps ↔
      RealizesAll r.specs calls steps ∧ Step.listNesting steps ≤ r.branchLimit - depth :=
  compileFrom_eq_ok_iff

/-- A document compiles to the programs that realize it within the limit. -/
theorem compile_eq_ok_iff {d : Document} {p : Program} :
    compile r d = .ok p ↔ RealizesAll r.specs d.program p.steps ∧ p.nesting ≤ r.branchLimit := by
  obtain ⟨steps⟩ := p
  simp only [compile, Except.map_eq_ok, compileCalls_eq_ok_iff, Nat.sub_zero,
    Program.mk.injEq, exists_eq_right, nesting]

/-- The program of a source is that of the document it reads as. -/
theorem ofSource_eq_ok {source : String} {d : Document} {p : Program} :
    ofSource r source = .ok (d, p) ↔ Document.parse source = .ok d ∧ compile r d = .ok p := by
  unfold ofSource
  constructor
  · intro h
    split at h
    · cases h
    · next d' hd =>
      split at h
      · cases h
      · next p' hp =>
        cases h
        exact ⟨hd, hp⟩
  · intro h
    obtain ⟨hd, hp⟩ := h
    rw [hd]
    dsimp only
    rw [hp]

end Program
end EventScript
