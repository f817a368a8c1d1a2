/-
Which programs the compiler accepts. A program compiles exactly when every call in it, at
any nesting, binds inside the branches that enclose it; and what binding asks of a call,
its branches aside, is that its name is known, that its arguments stand for a draft, and
that each branch written in it may be opened and reads as calls (`Call.Sound`). The first
says that acceptance descends into branches, the second that nothing else is looked at.
-/
import EventScript.Proofs.Program.Builtin

namespace EventScript

open Instruction

-- ====================================================== calls at any nesting

/-- The names under which a condition holds its branches, in the order they compile. -/
def Instruction.Condition.branchNames : List String := ["branch_0", "branch_1"]

/-- The calls written in a branch, when they read as calls. -/
def Call.branchCalls? (call : Call) (branch : String) : Option (List Call) :=
  match call.branch? branch with
  | some (.array entries) => (Document.entryCalls entries).toOption
  | _ => none

/-- A call stands among calls inside so many branches. -/
inductive Call.Inside : List Call → Nat → Call → Prop
  | here {calls : List Call} {call : Call} (mem : call ∈ calls) : Inside calls 0 call
  | deeper {calls inner : List Call} {outer call : Call} {branch : String} {k : Nat}
      (mem : outer ∈ calls) (name : branch ∈ Condition.branchNames)
      (written : outer.branchCalls? branch = some inner) (inside : Inside inner k call) :
      Inside calls (k + 1) call

/-- A step stands among steps or in a branch of one of them. -/
inductive Step.Inside : List Step → Step → Prop
  | here {steps : List Step} {step : Step} (mem : step ∈ steps) : Inside steps step
  | zero {steps inner : List Step} {call : Call} {condition : Condition}
      {one : Option (List Step)} {step : Step}
      (mem : .branch call condition (some inner) one ∈ steps) (inside : Inside inner step) :
      Inside steps step
  | one {steps inner : List Step} {call : Call} {condition : Condition}
      {zero : Option (List Step)} {step : Step}
      (mem : .branch call condition zero (some inner) ∈ steps) (inside : Inside inner step) :
      Inside steps step

-- ========================================================== what is asked

/-- The call's name is known, and its arguments bind inside so many branches. -/
def Call.Binds (r : Registry) (depth : Nat) (call : Call) : Prop :=
  ∃ spec, r.find? call.name = some spec ∧ spec.bindError? r call.args depth = none

/-- What the call has to satisfy of its own to bind inside so many branches: nothing is
asked of the calls in its branches but that they read as calls. -/
structure Call.Sound (r : Registry) (depth : Nat) (call : Call) : Prop where
  drafts : ∃ d, call.Drafts r.specs d
  open_lt : ∀ branch ∈ Condition.branchNames, call.branch? branch ≠ none →
    depth < r.branchLimit
  reads : ∀ branch ∈ Condition.branchNames, call.branch? branch ≠ none →
    call.branchCalls? branch ≠ none

/-- A compiled branch has exactly the calls read from what was written. -/
def Step.ReadsFrom : Option (List Step) → Option Json → Prop
  | none, written => written = none
  | some steps, written =>
    ∃ entries, written = some (.array entries)
      ∧ Document.entryCalls entries = .ok (steps.map Step.call)

-- ======================================================== lists of calls

namespace Program

variable {specs : List InstructionSpec} {r : Registry}

/-- Calls have realizing steps within a nesting when each of them has one. -/
theorem exists_realizesAll_iff {calls : List Call} {levels : Nat} :
    (∃ steps, RealizesAll specs calls steps ∧ Step.listNesting steps ≤ levels) ↔
      ∀ call ∈ calls, ∃ step, Realizes specs call step ∧ step.nesting ≤ levels := by
  induction calls with
  | nil =>
      constructor
      · intro _ call hcall
        cases hcall
      · intro _
        exact ⟨[], .nil, Nat.zero_le _⟩
  | cons call calls ih =>
      rw [List.forall_mem_cons, ← ih]
      constructor
      · intro hyp
        obtain ⟨steps, hreal, hle⟩ := hyp
        cases hreal with
        | cons head tail =>
            obtain ⟨leHead, leTail⟩ := Nat.max_le.mp hle
            exact ⟨⟨_, head, leHead⟩, ⟨_, tail, leTail⟩⟩
      · intro hyp
        obtain ⟨⟨step, head, leHead⟩, ⟨steps, tail, leTail⟩⟩ := hyp
        exact ⟨step :: steps, .cons head tail, Nat.max_le.mpr ⟨leHead, leTail⟩⟩

/-- Each of realizing steps realizes one of the calls. -/
theorem RealizesAll.exists_of_mem {calls : List Call} {steps : List Step}
    (h : RealizesAll specs calls steps) {step : Step} (hstep : step ∈ steps) :
    ∃ call, Realizes specs call step := by
  induction steps generalizing calls with
  | nil => cases hstep
  | cons s steps ih =>
      cases h with
      | cons head tail =>
          rcases List.mem_cons.mp hstep with rfl | hrest
          · exact ⟨_, head⟩
          · exact ih tail hrest

/-- What stands in a branch of realizing steps realizes a call too. -/
theorem RealizesAll.exists_of_inside {steps : List Step} {step : Step}
    (hin : Step.Inside steps step) :
    ∀ {calls : List Call}, RealizesAll specs calls steps →
      ∃ call, Realizes specs call step := by
  induction hin with
  | here mem => exact fun h => h.exists_of_mem mem
  | zero mem _ ih =>
      intro calls h
      obtain ⟨call, hcall⟩ := h.exists_of_mem mem
      cases hcall with
      | branch drafts inZero inOne =>
          obtain ⟨_, _, -, -, inside⟩ := realizesBranch_some_iff.mp inZero
          exact ih inside
  | one mem _ ih =>
      intro calls h
      obtain ⟨call, hcall⟩ := h.exists_of_mem mem
      cases hcall with
      | branch drafts inZero inOne =>
          obtain ⟨_, _, -, -, inside⟩ := realizesBranch_some_iff.mp inOne
          exact ih inside

-- =============================================================== binding

/-- An instruction has no error to tell where its call can be bound. -/
theorem bindError?_eq_none {spec : InstructionSpec} {args : Option Json.Object}
    {depth : Nat} :
    spec.bindError? r args depth = none ↔
      ∃ step, bind (branchCompiler r (r.branchLimit - depth)) spec ⟨spec.name, args⟩
        = .ok step := by
  unfold InstructionSpec.bindError?
  split
  · next step hok => simp [hok]
  · next e herr => simp [herr]

/-- A call binds when a step within the levels left realizes it. -/
theorem binds_iff {depth : Nat} {call : Call} :
    call.Binds r depth ↔
      ∃ step, Realizes r.specs call step ∧ step.nesting ≤ r.branchLimit - depth := by
  have hopen := branchCompiler_opensLevels r (r.branchLimit - depth)
  constructor
  · intro hyp
    obtain ⟨spec, hfind, hbind⟩ := hyp
    obtain ⟨step, hstep⟩ := bindError?_eq_none.mp hbind
    have hname : spec.name = call.name := by simpa using List.find?_some hfind
    have hcall : compileCall r (branchCompiler r (r.branchLimit - depth)) 0 call
        = .ok step := by
      unfold compileCall
      rw [hfind]
      rw [hname] at hstep
      exact Except.mapError_eq_ok.mpr hstep
    exact ⟨step, hopen.call_eq_ok.mp hcall⟩
  · intro hyp
    obtain ⟨step, hstep⟩ := hyp
    have hcall : compileCall r (branchCompiler r (r.branchLimit - depth)) 0 call
        = .ok step := hopen.call_eq_ok.mpr hstep
    unfold compileCall at hcall
    split at hcall
    · cases hcall
    · next spec hfind =>
      have hname : spec.name = call.name := by simpa using List.find?_some hfind
      refine ⟨spec, hfind, bindError?_eq_none.mpr ⟨step, ?_⟩⟩
      rw [hname]
      exact Except.mapError_eq_ok.mp hcall

/-- Calls compile when each of them binds. -/
theorem exists_compileCalls_iff {calls : List Call} {depth : Nat} :
    (∃ steps, compileCalls r calls depth = .ok steps) ↔
      ∀ call ∈ calls, call.Binds r depth := by
  simp only [compileCalls_eq_ok_iff, binds_iff]
  exact exists_realizesAll_iff

-- ================================================= one call of a program

/-- A branch that was written is there, and its calls have realizing steps. -/
theorem RealizesBranch.of_written {entries : Option (List Json)}
    {steps : Option (List Step)} {v : Json} (h : RealizesBranch specs entries steps)
    (hv : entries.map Json.array = some v) :
    ∃ es inner ss, v = .array es ∧ Document.entryCalls es = .ok inner
      ∧ RealizesAll specs inner ss ∧ Step.listNesting ss + 1 = Step.branchNesting steps := by
  cases h with
  | absent => cases hv
  | present written inside =>
      cases hv
      exact ⟨_, _, _, rfl, written, inside, rfl⟩

/-- A value under the name of a branch is a sequence of calls with realizing steps, one
level further in. -/
theorem Realizes.of_branch? {call : Call} {step : Step} {branch : String} {v : Json}
    (h : Realizes InstructionSpec.builtins call step)
    (hname : branch ∈ Condition.branchNames) (hv : call.branch? branch = some v) :
    ∃ es inner ss, v = .array es ∧ Document.entryCalls es = .ok inner
      ∧ RealizesAll InstructionSpec.builtins inner ss
      ∧ Step.listNesting ss + 1 ≤ step.nesting := by
  cases h with
  | action drafts =>
      rw [drafts.of_action.2] at hv
      cases hv
  | branch drafts inZero inOne =>
      obtain ⟨hzero, hone⟩ := drafts.of_condition
      simp only [Condition.branchNames, List.mem_cons, List.not_mem_nil, or_false] at hname
      rcases hname with rfl | rfl
      · rw [hzero] at hv
        obtain ⟨es, inner, ss, hes, hw, hin, hn⟩ := inZero.of_written hv
        exact ⟨es, inner, ss, hes, hw, hin, hn ▸ Nat.le_max_left _ _⟩
      · rw [hone] at hv
        obtain ⟨es, inner, ss, hes, hw, hin, hn⟩ := inOne.of_written hv
        exact ⟨es, inner, ss, hes, hw, hin, hn ▸ Nat.le_max_right _ _⟩

/-- The calls of a branch are those that its entries spell. -/
theorem branchCalls?_eq_some {call : Call} {branch : String} {inner : List Call} :
    call.branchCalls? branch = some inner ↔
      ∃ es, call.branch? branch = some (.array es)
        ∧ Document.entryCalls es = .ok inner := by
  unfold Call.branchCalls?
  split
  · next es hes =>
    rw [hes]
    cases hw : Document.entryCalls es with
    | error problems => simp [Except.toOption, hw]
    | ok calls => simp [Except.toOption, hw]
  · next hne =>
    constructor
    · intro h
      cases h
    · intro h
      obtain ⟨es, hes, -⟩ := h
      exact absurd hes (hne es)

variable {limit : Nat}

/-- Calls with realizing steps bind, when the branch they stand in may be opened. -/
theorem binds_of_realizesAll {inner : List Call} {steps : List Step} {depth : Nat}
    (hreal : RealizesAll InstructionSpec.builtins inner steps)
    (hle : Step.listNesting steps + 1 ≤ limit - depth) :
    ∀ c ∈ inner, c.Binds (.builtin limit) (depth + 1) := by
  have hinner : Step.listNesting steps ≤ limit - (depth + 1) := by omega
  intro c hc
  exact binds_iff.mpr (exists_realizesAll_iff.mp ⟨steps, hreal, hinner⟩ c hc)

/-- A branch whose calls bind one level further in has realizing steps. -/
theorem exists_realizesBranch {call : Call} {branch : String} {depth : Nat}
    {entries : Option (List Json)} (hname : branch ∈ Condition.branchNames)
    (hwritten : call.branch? branch = entries.map Json.array)
    (hsound : call.Sound (.builtin limit) depth)
    (hinner : ∀ inner, call.branchCalls? branch = some inner →
      ∀ c ∈ inner, c.Binds (.builtin limit) (depth + 1)) :
    ∃ steps, RealizesBranch InstructionSpec.builtins entries steps
      ∧ Step.branchNesting steps ≤ limit - depth := by
  cases entries with
  | none => exact ⟨none, .absent, Nat.zero_le _⟩
  | some es =>
      have hthere : call.branch? branch ≠ none := by
        rw [hwritten]
        intro h
        cases h
      have hopen : depth < limit := hsound.open_lt branch hname hthere
      obtain ⟨inner, hcalls⟩ := Option.ne_none_iff_exists'.mp
        (hsound.reads branch hname hthere)
      obtain ⟨es', hes', hw⟩ := branchCalls?_eq_some.mp hcalls
      rw [hwritten] at hes'
      cases hes'
      obtain ⟨steps, hreal, hle⟩ := exists_realizesAll_iff.mpr fun c hc =>
        binds_iff.mp (hinner inner hcalls c hc)
      refine ⟨some steps, .present hw hreal, ?_⟩
      have hle' : Step.listNesting steps ≤ limit - (depth + 1) := hle
      show Step.listNesting steps + 1 ≤ limit - depth
      omega

/-- What binding asks of a call: to be sound where it stands, and that the calls in its
branches bind one level further in. -/
theorem binds_iff_sound {depth : Nat} {call : Call} :
    call.Binds (.builtin limit) depth ↔ call.Sound (.builtin limit) depth
      ∧ ∀ branch ∈ Condition.branchNames, ∀ inner, call.branchCalls? branch = some inner →
          ∀ c ∈ inner, c.Binds (.builtin limit) (depth + 1) := by
  constructor
  · intro h
    obtain ⟨step, hreal, hle⟩ := binds_iff.mp h
    have hle' : step.nesting ≤ limit - depth := hle
    refine ⟨⟨?_, ?_, ?_⟩, ?_⟩
    · cases hreal with
      | action drafts => exact ⟨_, drafts⟩
      | branch drafts => exact ⟨_, drafts⟩
    · intro branch hname hthere
      obtain ⟨v, hv⟩ := Option.ne_none_iff_exists'.mp hthere
      obtain ⟨_, _, _, -, -, -, hn⟩ := hreal.of_branch? hname hv
      show depth < limit
      omega
    · intro branch hname hthere
      obtain ⟨v, hv⟩ := Option.ne_none_iff_exists'.mp hthere
      obtain ⟨es, inner, _, rfl, hw, -, -⟩ := hreal.of_branch? hname hv
      rw [branchCalls?_eq_some.mpr ⟨es, hv, hw⟩]
      intro hnone
      cases hnone
    · intro branch hname inner hcalls
      obtain ⟨es, hes, hw⟩ := branchCalls?_eq_some.mp hcalls
      obtain ⟨es', inner', ss, hes', hw', hin, hn⟩ := hreal.of_branch? hname hes
      cases hes'
      rw [hw] at hw'
      cases hw'
      exact binds_of_realizesAll hin (Nat.le_trans hn hle')
  · intro h
    obtain ⟨hsound, hinner⟩ := h
    obtain ⟨d, hd⟩ := hsound.drafts
    cases d with
    | action a => exact binds_iff.mpr ⟨_, .action hd, Nat.zero_le _⟩
    | condition d =>
        have hd' : call.Drafts InstructionSpec.builtins (.condition d) := hd
        obtain ⟨hzero, hone⟩ := hd'.of_condition
        obtain ⟨zero, inZero, leZero⟩ := exists_realizesBranch (by decide) hzero hsound
          (hinner "branch_0" (by decide))
        obtain ⟨one, inOne, leOne⟩ := exists_realizesBranch (by decide) hone hsound
          (hinner "branch_1" (by decide))
        -- the condition nests as deep as the deeper of its branches
        exact binds_iff.mpr ⟨_, .branch hd inZero inOne, Nat.max_le.mpr ⟨leZero, leOne⟩⟩

-- ================================================= the calls of a program

/-- Binding descends: when the calls of a list bind, so does every call inside them. -/
theorem binds_of_inside {calls : List Call} {k : Nat} {call : Call}
    (hin : Call.Inside calls k call) :
    ∀ {depth : Nat}, (∀ c ∈ calls, c.Binds (.builtin limit) depth) →
      call.Binds (.builtin limit) (depth + k) := by
  induction hin with
  | here mem => exact fun h => h _ mem
  | @deeper calls inner outer call branch k mem name written inside ih =>
      intro depth h
      have hbelow := (binds_iff_sound.mp (h outer mem)).2 branch name inner written
      have hcall := ih hbelow
      rw [show depth + (k + 1) = depth + 1 + k from by omega]
      exact hcall

/-- The calls of a list bind when every call inside them is sound where it stands. The
induction is on the levels that are left: a call with a branch needs one. -/
theorem binds_of_sound : ∀ (levels : Nat) {calls : List Call} {depth : Nat},
    limit - depth ≤ levels →
    (∀ k call, Call.Inside calls k call → call.Sound (.builtin limit) (depth + k)) →
    ∀ call ∈ calls, call.Binds (.builtin limit) depth := by
  intro levels
  induction levels with
  | zero =>
      intro calls depth hlevels hsound call hcall
      have hown := hsound 0 call (.here hcall)
      refine binds_iff_sound.mpr ⟨hown, fun branch hname inner hcalls => ?_⟩
      obtain ⟨es, hes, -⟩ := branchCalls?_eq_some.mp hcalls
      have hopen : depth < limit := hown.open_lt branch hname (by rw [hes]; nofun)
      omega
  | succ levels ih =>
      intro calls depth hlevels hsound call hcall
      have hown := hsound 0 call (.here hcall)
      refine binds_iff_sound.mpr ⟨hown, fun branch hname inner hcalls => ?_⟩
      refine ih (by omega) fun k c hc => ?_
      have hdeep := hsound (k + 1) c (.deeper hcall hname hcalls hc)
      rw [show depth + 1 + k = depth + (k + 1) from by omega]
      exact hdeep

/-- Calls compile when every call inside them binds where it stands. -/
theorem exists_compileCalls_iff_binds {calls : List Call} {depth : Nat} :
    (∃ steps, compileCalls (.builtin limit) calls depth = .ok steps) ↔
      ∀ k call, Call.Inside calls k call → call.Binds (.builtin limit) (depth + k) := by
  rw [exists_compileCalls_iff]
  constructor
  · intro h k call hin
    exact binds_of_inside hin h
  · intro h call hcall
    exact h 0 call (.here hcall)

/-- Calls compile when every call inside them is sound where it stands. -/
theorem exists_compileCalls_iff_sound {calls : List Call} {depth : Nat} :
    (∃ steps, compileCalls (.builtin limit) calls depth = .ok steps) ↔
      ∀ k call, Call.Inside calls k call → call.Sound (.builtin limit) (depth + k) := by
  constructor
  · intro h k call hin
    exact (binds_iff_sound.mp (exists_compileCalls_iff_binds.mp h k call hin)).1
  · intro h
    exact exists_compileCalls_iff.mpr (binds_of_sound _ (Nat.le_refl _) h)

-- ============================================== the program of the calls

/-- The branches of a realizing condition have the calls read from what was written. -/
theorem Realizes.readsFrom {c call : Call} {condition : Condition}
    {zero one : Option (List Step)}
    (h : Realizes InstructionSpec.builtins c (.branch call condition zero one)) :
    Step.ReadsFrom zero (call.branch? "branch_0")
      ∧ Step.ReadsFrom one (call.branch? "branch_1") := by
  have key : ∀ {entries : Option (List Json)} {steps : Option (List Step)},
      RealizesBranch InstructionSpec.builtins entries steps →
      Step.ReadsFrom steps (entries.map Json.array) := by
    intro entries steps hb
    cases hb with
    | absent => rfl
    | present written inside => exact ⟨_, rfl, by rw [inside.map_call]; exact written⟩
  cases h with
  | branch drafts inZero inOne =>
      obtain ⟨hzero, hone⟩ := drafts.of_condition
      rw [hzero, hone]
      exact ⟨key inZero, key inOne⟩

/-- The calls of a compiled list are the calls given, and at every nesting the branches of
a condition have the calls read from what was written. -/
theorem compileCalls_readsFrom {calls : List Call} {depth : Nat} {steps : List Step}
    (h : compileCalls (.builtin limit) calls depth = .ok steps) :
    steps.map Step.call = calls ∧ ∀ call condition zero one,
      Step.Inside steps (.branch call condition zero one) →
        Step.ReadsFrom zero (call.branch? "branch_0")
          ∧ Step.ReadsFrom one (call.branch? "branch_1") := by
  obtain ⟨hreal, -⟩ := compileCalls_eq_ok_iff.mp h
  refine ⟨hreal.map_call, fun call condition zero one hin => ?_⟩
  obtain ⟨c, hc⟩ := RealizesAll.exists_of_inside hin hreal
  exact Realizes.readsFrom hc

end Program
end EventScript
