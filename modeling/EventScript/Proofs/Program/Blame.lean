/-
Which call the compiler blames. An error is a way to a call: a position in the list, then
the name of a branch and a position inside it, and so on, down to the reason. `Blames` is
that way spelled out, with what lies beside it: every call before the one at fault binds,
at each level, so the call at the end of the way is the first at fault in the order of
reading, and binding it there fails for exactly the reason reported.
-/
import EventScript.Proofs.Program.Acceptance

namespace EventScript

open Instruction

/-- Whether the reason lies inside a branch. -/
def ArgsError.isNested : ArgsError → Bool
  | .nested .. => true
  | _ => false

namespace Program

/-- The error leads to a call at fault: all calls before it bind, at every level, and the
branch read before the one it enters has only calls that bind. -/
inductive Blames (r : Registry) : Nat → List Call → CompileError → Prop
  | unknown {depth : Nat} {before after : List Call} {call : Call}
      (sound : ∀ c ∈ before, c.Binds r depth) (missing : r.find? call.name = none) :
      Blames r depth (before ++ call :: after) (.unknown before.length call.name)
  | invalid {depth : Nat} {before after : List Call} {call : Call} {spec : InstructionSpec}
      {reason : ArgsError} (sound : ∀ c ∈ before, c.Binds r depth)
      (known : r.find? call.name = some spec)
      (refused : spec.bindError? r call.args depth = some reason)
      (own : reason.isNested = false) :
      Blames r depth (before ++ call :: after) (.invalid before.length call.name reason)
  | nested {depth : Nat} {before after inner : List Call} {call : Call}
      {spec : InstructionSpec} {branch : String} {source : CompileError}
      (sound : ∀ c ∈ before, c.Binds r depth)
      (known : r.find? call.name = some spec)
      (refused : spec.bindError? r call.args depth = some (.nested branch source))
      (name : branch ∈ Condition.branchNames)
      (written : call.branchCalls? branch = some inner)
      (first : branch = "branch_1" → ∀ sibling, call.branchCalls? "branch_0" = some sibling →
        ∀ c ∈ sibling, c.Binds r (depth + 1))
      (inside : Blames r (depth + 1) inner source) :
      Blames r depth (before ++ call :: after)
        (.invalid before.length call.name (.nested branch source))

-- ================================================ errors of the compiler

variable {r : Registry} {compile : BranchCompiler}

/-- A call fails on its name, or on its arguments. -/
theorem compileCall_eq_error {position : Nat} {call : Call} {e : CompileError} :
    compileCall r compile position call = .error e ↔
      (r.find? call.name = none ∧ e = .unknown position call.name)
        ∨ ∃ spec reason, r.find? call.name = some spec
            ∧ bind compile spec call = .error reason
            ∧ e = .invalid position call.name reason := by
  unfold compileCall
  cases hf : r.find? call.name with
  | none => simp [eq_comm]
  | some spec =>
      constructor
      · intro h
        obtain ⟨reason, hreason, rfl⟩ := Except.mapError_eq_error.mp h
        exact Or.inr ⟨spec, reason, rfl, hreason, rfl⟩
      · intro h
        rcases h with ⟨hnone, -⟩ | ⟨spec', reason, hspec, hreason, rfl⟩
        · cases hnone
        · cases hspec
          exact Except.mapError_eq_error.mpr ⟨reason, hreason, rfl⟩

/-- A list fails on one call, after a part whose calls compile; what follows that call is
not looked at. -/
theorem compileFrom_eq_error {position : Nat} {calls : List Call} {e : CompileError} :
    compileFrom r compile position calls = .error e ↔
      ∃ before call after, calls = before ++ call :: after
        ∧ (∃ steps, compileFrom r compile position before = .ok steps)
        ∧ compileCall r compile (position + before.length) call = .error e := by
  induction calls generalizing position with
  | nil =>
      constructor
      · intro h
        cases h
      · intro h
        obtain ⟨before, call, after, h, -⟩ := h
        cases before <;> cases h
  | cons c calls ih =>
      -- a position counts the calls before it, here one more than in the tail
      have hshift : ∀ before : List Call,
          position + (c :: before).length = position + 1 + before.length := by
        intro before
        rw [List.length_cons]
        omega
      simp only [compileFrom, Except.bind_eq_error, pure, Except.pure, reduceCtorEq,
        and_false, exists_false, or_false, ih]
      constructor
      · intro h
        rcases h with hc | ⟨step, hstep, before, call, after, rfl, ⟨steps, hsteps⟩, hcall⟩
        · exact ⟨[], c, calls, rfl, ⟨[], rfl⟩, hc⟩
        · refine ⟨c :: before, call, after, rfl, ⟨step :: steps, ?_⟩, ?_⟩
          · exact compileFrom_cons_eq_ok.mpr ⟨step, steps, hstep, hsteps, rfl⟩
          · rw [hshift]
            exact hcall
      · intro h
        obtain ⟨before, call, after, heq, ⟨steps, hsteps⟩, hcall⟩ := h
        cases before with
        | nil =>
            cases heq
            exact Or.inl hcall
        | cons b before =>
            cases heq
            obtain ⟨step, rest, hstep, hrest, rfl⟩ := compileFrom_cons_eq_ok.mp hsteps
            refine Or.inr ⟨step, hstep, before, call, after, rfl, ⟨rest, hrest⟩, ?_⟩
            rw [hshift] at hcall
            exact hcall

/-- Arguments fail by themselves, or in a branch: the second after the first compiled. -/
theorem bind_eq_error {spec : InstructionSpec} {call : Call} {reason : ArgsError} :
    bind compile spec call = .error reason ↔
      (∃ defect, spec.draft call.args = .error defect ∧ reason = .defect defect)
        ∨ ∃ d, spec.draft call.args = .ok (.condition d)
            ∧ (compileBranch? compile "branch_0" d.branch0 = .error reason
              ∨ ∃ zero, compileBranch? compile "branch_0" d.branch0 = .ok zero
                  ∧ compileBranch? compile "branch_1" d.branch1 = .error reason) := by
  unfold bind
  cases hd : spec.draft call.args with
  | error defect => simp [eq_comm]
  | ok d =>
      cases d with
      | action a => simp [bindDraft]
      | condition d =>
          simp [bindDraft, Except.bind_eq_error, pure, Except.pure]

/-- Arguments that fail do so whatever else the call says. -/
theorem bindError?_eq_some {spec : InstructionSpec} {call : Call} {depth : Nat}
    {reason : ArgsError} :
    spec.bindError? r call.args depth = some reason ↔
      bind (branchCompiler r (r.branchLimit - depth)) spec call = .error reason := by
  have hsame : bind (branchCompiler r (r.branchLimit - depth)) spec ⟨spec.name, call.args⟩
        = .error reason
      ↔ bind (branchCompiler r (r.branchLimit - depth)) spec call = .error reason := by
    rw [bind_eq_error, bind_eq_error]
  rw [← hsame]
  unfold InstructionSpec.bindError?
  split
  · next step hok => simp [hok]
  · next e herr => simp [herr]

theorem compileBranch?_eq_error {branch : String} {entries : Option (List Json)}
    {reason : ArgsError} :
    compileBranch? compile branch entries = .error reason ↔
      ∃ es, entries = some es ∧ compile branch es = .error reason := by
  cases entries with
  | none => simp [compileBranch?]
  | some es => simp [compileBranch?, Except.map_eq_error]

/-- A branch fails for a reason of its own, or inside its calls, one level further in. -/
theorem branchCompiler_eq_error {levels : Nat} {branch : String} {entries : List Json}
    {reason : ArgsError} (h : branchCompiler r levels branch entries = .error reason) :
    reason.isNested = false
      ∨ ∃ fewer inner source, levels = fewer + 1 ∧ Document.entryCalls entries = .ok inner
          ∧ compileFrom r (branchCompiler r fewer) 0 inner = .error source
          ∧ reason = .nested branch source := by
  cases levels with
  | zero =>
      cases h
      exact Or.inl rfl
  | succ fewer =>
      unfold branchCompiler at h
      cases hw : Document.entryCalls entries with
      | error problems =>
          rw [hw] at h
          cases h
          exact Or.inl rfl
      | ok inner =>
          rw [hw] at h
          obtain ⟨source, hsource, rfl⟩ := Except.mapError_eq_error.mp h
          exact Or.inr ⟨fewer, inner, source, rfl, rfl, hsource, rfl⟩

-- ============================================================ the blame

variable {limit depth : Nat} {before after calls : List Call} {call : Call}

/-- The calls of a branch that compiled bind one level further in. -/
theorem binds_of_compileBranch?_eq_ok {branch : String} {entries : Option (List Json)}
    {steps : Option (List Step)} {sibling : List Call}
    (hwritten : call.branch? branch = entries.map Json.array)
    (hok : compileBranch? (branchCompiler (.builtin limit) (limit - depth)) branch entries
      = .ok steps)
    (hcalls : call.branchCalls? branch = some sibling) :
    ∀ c ∈ sibling, c.Binds (.builtin limit) (depth + 1) := by
  obtain ⟨hreal, hle⟩ := (branchCompiler_opensLevels _ _).branch_eq_ok.mp hok
  obtain ⟨es, hes, hw⟩ := branchCalls?_eq_some.mp hcalls
  rw [hwritten] at hes
  obtain ⟨es', inner, ss, hes', hw', hin, hn⟩ := hreal.of_written hes
  cases hes'
  rw [hw] at hw'
  cases hw'
  rw [← hn] at hle
  exact binds_of_realizesAll hin hle

/-- A call whose branch fails is blamed, or leads to the blame inside the branch. -/
theorem blames_of_branch {spec : InstructionSpec} {branch : String}
    {entries : Option (List Json)} {reason : ArgsError}
    (hbefore : ∀ c ∈ before, c.Binds (.builtin limit) depth)
    (hknown : (Registry.builtin limit).find? call.name = some spec)
    (hrefused : spec.bindError? (.builtin limit) call.args depth = some reason)
    (hname : branch ∈ Condition.branchNames)
    (hwritten : call.branch? branch = entries.map Json.array)
    (hfirst : branch = "branch_1" → ∀ sibling,
      call.branchCalls? "branch_0" = some sibling →
      ∀ c ∈ sibling, c.Binds (.builtin limit) (depth + 1))
    (hfail : compileBranch? (branchCompiler (.builtin limit) (limit - depth)) branch entries
      = .error reason)
    (inside : ∀ inner source, depth < limit →
      compileCalls (.builtin limit) inner (depth + 1) = .error source →
      Blames (.builtin limit) (depth + 1) inner source) :
    Blames (.builtin limit) depth (before ++ call :: after)
      (.invalid before.length call.name reason) := by
  obtain ⟨es, rfl, hes⟩ := compileBranch?_eq_error.mp hfail
  rcases branchCompiler_eq_error hes with
    hown | ⟨fewer, inner, source, hlevels, hw, hsource, rfl⟩
  · exact .invalid hbefore hknown hrefused hown
  · have hcalls : call.branchCalls? branch = some inner :=
      branchCalls?_eq_some.mpr ⟨es, hwritten, hw⟩
    have hlt : depth < limit := by omega
    have hfewer : fewer = limit - (depth + 1) := by omega
    subst hfewer
    exact .nested hbefore hknown hrefused hname hcalls hfirst (inside inner source hlt hsource)

/-- An error leads to a call at fault. The induction is on the levels that are left:
every branch the error enters takes one. -/
theorem blames_of_compileCalls {e : CompileError}
    (h : compileCalls (.builtin limit) calls depth = .error e) :
    Blames (.builtin limit) depth calls e := by
  induction hlevels : limit - depth using Nat.strongRecOn generalizing depth calls e with
  | ind levels ih =>
      have inside : ∀ inner source, depth < limit →
          compileCalls (.builtin limit) inner (depth + 1) = .error source →
          Blames (.builtin limit) (depth + 1) inner source :=
        fun inner source hlt hsource => ih (limit - (depth + 1)) (by omega) hsource rfl
      obtain ⟨before, call, after, rfl, hbefore, hcall⟩ := compileFrom_eq_error.mp h
      rw [Nat.zero_add] at hcall
      have hsound : ∀ c ∈ before, c.Binds (.builtin limit) depth :=
        exists_compileCalls_iff.mp hbefore
      rcases compileCall_eq_error.mp hcall with
        ⟨hnone, rfl⟩ | ⟨spec, reason, hknown, hreason, rfl⟩
      · exact .unknown hsound hnone
      · have hrefused : spec.bindError? (.builtin limit) call.args depth = some reason :=
          bindError?_eq_some.mpr hreason
        rcases bind_eq_error.mp hreason with ⟨defect, -, rfl⟩ | ⟨d, hd, hbranch⟩
        · exact .invalid hsound hknown hrefused rfl
        · have hdrafts : call.Drafts InstructionSpec.builtins (.condition d) :=
            ⟨spec, hknown, hd⟩
          obtain ⟨hzero, hone⟩ := hdrafts.of_condition
          rcases hbranch with hfail | ⟨zero, hok, hfail⟩
          · exact blames_of_branch hsound hknown hrefused (by decide) hzero
              (fun hname => absurd hname (by decide)) hfail inside
          · exact blames_of_branch hsound hknown hrefused (by decide) hone
              (fun _ sibling hcalls => binds_of_compileBranch?_eq_ok hzero hok hcalls)
              hfail inside

/-- The error that leads to a call at fault is the one reported. -/
theorem compileCalls_of_blames {e : CompileError} (h : Blames r depth calls e) :
    compileCalls r calls depth = .error e := by
  have blame : ∀ {before after : List Call} {call : Call} {e : CompileError},
      (∀ c ∈ before, c.Binds r depth) →
      compileCall r (branchCompiler r (r.branchLimit - depth)) before.length call
        = .error e →
      compileCalls r (before ++ call :: after) depth = .error e := by
    intro before after call e hsound hcall
    refine compileFrom_eq_error.mpr
      ⟨before, call, after, rfl, exists_compileCalls_iff.mpr hsound, ?_⟩
    rw [Nat.zero_add]
    exact hcall
  cases h with
  | unknown sound missing =>
      exact blame sound (compileCall_eq_error.mpr (Or.inl ⟨missing, rfl⟩))
  | invalid sound known refused =>
      exact blame sound (compileCall_eq_error.mpr
        (Or.inr ⟨_, _, known, bindError?_eq_some.mp refused, rfl⟩))
  | nested sound known refused =>
      exact blame sound (compileCall_eq_error.mpr
        (Or.inr ⟨_, _, known, bindError?_eq_some.mp refused, rfl⟩))

/-- The compiler accepts exactly the valid programs and names the first invalid call.

It accepts when every call, at any nesting, binds where it stands, which is the same as
that every call is sound there by itself. What it yields has the calls given, and in every
branch the calls written there. What it refuses, it refuses with the error that leads to
the first call at fault, and with no other. -/
theorem compileCalls_accepts_or_blames (limit depth : Nat) (calls : List Call) :
    ((∃ steps, compileCalls (.builtin limit) calls depth = .ok steps) ↔
      ∀ k call, Call.Inside calls k call → call.Binds (.builtin limit) (depth + k))
    ∧ ((∃ steps, compileCalls (.builtin limit) calls depth = .ok steps) ↔
      ∀ k call, Call.Inside calls k call → call.Sound (.builtin limit) (depth + k))
    ∧ (∀ steps, compileCalls (.builtin limit) calls depth = .ok steps →
      steps.map Step.call = calls ∧ ∀ call condition zero one,
        Step.Inside steps (.branch call condition zero one) →
          Step.ReadsFrom zero (call.branch? "branch_0")
            ∧ Step.ReadsFrom one (call.branch? "branch_1"))
    ∧ ∀ e, compileCalls (.builtin limit) calls depth = .error e ↔
      Blames (.builtin limit) depth calls e :=
  ⟨exists_compileCalls_iff_binds, exists_compileCalls_iff_sound,
    fun _ => compileCalls_readsFrom,
    fun _ => ⟨blames_of_compileCalls, compileCalls_of_blames⟩⟩

end Program
end EventScript
