/-
Compiled programs do not fail when they run. Two counters keep a program from nesting too
deep. The compiler counts the levels a branch may still open; the machine counts the walks
it is inside. What ties them is an inequality that every step of a walk keeps: the depth of
the machine and the nesting still ahead do not exceed the limit by more than one, the one
being the outermost walk, which the machine counts and the compiler does not.

As long as it holds, no entry is refused, and a built-in action never ends a run; so the
error of the machine stays as it was, from each moment of the run to the next.
-/
import EventScript.Proofs.Host.Operation
import EventScript.Proofs.Machine.Moments

namespace EventScript

-- ====================================================== built-in programs

mutual

/-- Whether every action of the step, also in its branches, is built in. -/
def Step.isBuiltin : Step → Bool
  | .action _ a => a.isBuiltin
  | .branch _ _ zero one => Step.branchBuiltin zero && Step.branchBuiltin one

/-- The steps of a branch, if it is there, are built in. -/
def Step.branchBuiltin : Option (List Step) → Bool
  | none => true
  | some steps => Step.listBuiltin steps

/-- All steps of a list are built in. -/
def Step.listBuiltin : List Step → Bool
  | [] => true
  | step :: rest => Step.isBuiltin step && Step.listBuiltin rest

end

namespace Program

mutual

/-- What realizes a call to a built-in instruction is built in throughout. -/
theorem Realizes.isBuiltin {call : Call} : ∀ {step : Step},
    Realizes InstructionSpec.builtins call step → step.isBuiltin = true
  | .action _ _, h => by
      cases h with
      | action drafts => exact drafts.of_action.1
  | .branch _ _ _ _, h => by
      cases h with
      | branch drafts inZero inOne =>
          exact Bool.and_eq_true_iff.mpr ⟨inZero.isBuiltin, inOne.isBuiltin⟩

/-- What realizes a branch by built-in instructions is built in. -/
theorem RealizesBranch.isBuiltin {entries : Option (List Json)} :
    ∀ {branch : Option (List Step)},
      RealizesBranch InstructionSpec.builtins entries branch → Step.branchBuiltin branch = true
  | none, _ => rfl
  | some _, h => by
      cases h with
      | present written inside => exact inside.isBuiltin

theorem RealizesAll.isBuiltin {calls : List Call} : ∀ {steps : List Step},
    RealizesAll InstructionSpec.builtins calls steps → Step.listBuiltin steps = true
  | [], _ => rfl
  | _ :: _, h => by
      cases h with
      | cons head tail => exact Bool.and_eq_true_iff.mpr ⟨head.isBuiltin, tail.isBuiltin⟩

end

end Program

-- ====================================================== the invariant

namespace Machine

/-- So much nesting may still be entered. -/
def HasRoom (m : Machine) (nesting : Nat) : Prop :=
  m.depth + nesting ≤ m.settings.branchLimit + 1

theorem HasRoom.mono {m : Machine} {n k : Nat} (h : m.HasRoom n) (hk : k ≤ n) :
    m.HasRoom k :=
  Nat.le_trans (Nat.add_le_add_left hk m.depth) h

/-- In the same frame there is as much room. -/
theorem HasRoom.of_sameFrame {m m' : Machine} {n : Nat} (h : m.HasRoom n)
    (hf : m.SameFrame m') : m'.HasRoom n := by
  unfold HasRoom
  rw [hf.depth, hf.settings]
  exact h

/-- A branch that there is room for is not refused, and there is room inside it. -/
theorem HasRoom.enter {m : Machine} {steps : List Step}
    (h : m.HasRoom (Step.branchNesting (some steps))) :
    m.atLimit = false ∧ ({ m with depth := m.depth + 1 } : Machine).HasRoom
      (Step.listNesting steps) := by
  simp only [HasRoom, Step.branchNesting] at h ⊢
  refine ⟨?_, by omega⟩
  unfold atLimit
  rw [decide_eq_false_iff_not]
  omega

/-- The error of a machine and of every moment told is what it was. -/
structure KeepsError (m m' : Machine) (told : List Moment) : Prop where
  after : m'.error = m.error
  between : ∀ x ∈ told, x.machine.error = m.error

end Machine

open Machine

mutual

/-- A built-in step that has room answers no error and records none. -/
theorem Step.perform_keepsError : ∀ {s : Step} {m : Machine}, s.isBuiltin = true →
    m.HasRoom s.nesting →
    (s.perform m).2 = none ∧ m.KeepsError (s.perform m).1 (s.moments m)
  | .action call a, m, hb, hroom => by
      have heq := Action.perform_eq (m := m) (a := a) hb
      show (a.perform m).2 = none ∧ m.KeepsError (a.perform m).1 [.step m]
      rw [heq]
      refine ⟨rfl, rfl, ?_⟩
      intro x hx
      rw [List.mem_singleton.mp hx]
      rfl
  | .branch call condition zero one, m, hb, hroom => by
      obtain ⟨hbz, hbo⟩ := Bool.and_eq_true_iff.mp hb
      have hframe := m.decide_sameFrame condition
      have hzero := Step.enter?_keepsError (m := (m.decide condition).2) hbz
        ((hroom.mono (Nat.le_max_left ..)).of_sameFrame hframe)
      have hone := Step.enter?_keepsError (m := (m.decide condition).2) hbo
        ((hroom.mono (Nat.le_max_right ..)).of_sameFrame hframe)
      obtain ⟨hnone, hafter, hbetween⟩ := Step.selected_cases
        (P := fun b => (Step.enter? b (m.decide condition).2).2 = none
          ∧ (m.decide condition).2.KeepsError (Step.enter? b (m.decide condition).2).1
              (Step.enterMoments b (m.decide condition).2))
        (m.decide condition).1 ⟨rfl, rfl, by intro x hx; cases hx⟩ hzero hone
      rw [Step.perform_branch, Step.moments_branch]
      have htold : ∀ x ∈ Moment.step m :: Step.enterMoments
          (Step.selected (m.decide condition).1 zero one) (m.decide condition).2,
          x.machine.error = m.error := by
        intro x hx
        cases hx with
        | head => rfl
        | tail _ hx => exact hbetween x hx
      split
      · exact ⟨rfl, rfl, htold⟩
      · exact ⟨hnone, hafter, htold⟩

theorem Step.enter?_keepsError : ∀ {branch : Option (List Step)} {m : Machine},
    Step.branchBuiltin branch = true → m.HasRoom (Step.branchNesting branch) →
    (Step.enter? branch m).2 = none
      ∧ m.KeepsError (Step.enter? branch m).1 (Step.enterMoments branch m)
  | none, m, _, _ => ⟨rfl, rfl, by intro x hx; cases hx⟩
  | some steps, m, hb, hroom => by
      obtain ⟨hlimit, hinner⟩ := hroom.enter
      have hwalk := Step.walk_keepsError hb hinner
      unfold Step.enter? Step.enterMoments
      simp only [hlimit, Bool.false_eq_true, if_false]
      refine ⟨trivial, hwalk.after, ?_⟩
      intro x hx
      cases hx with
      | head => rfl
      | tail _ hx => exact hwalk.between x hx

theorem Step.walk_keepsError : ∀ {steps : List Step} {m : Machine},
    Step.listBuiltin steps = true → m.HasRoom (Step.listNesting steps) →
    m.KeepsError (Step.walk steps m) (Step.walkMoments steps m)
  | [], m, _, _ => ⟨rfl, by intro x hx; cases hx⟩
  | step :: rest, m, hb, hroom => by
      obtain ⟨hbs, hbr⟩ := Bool.and_eq_true_iff.mp hb
      have hstep := Step.perform_keepsError (m := m.begin step.call) hbs
        (hroom.mono (Nat.le_max_left ..))
      have hafter : (m.after step).error = m.error := by
        unfold Machine.after
        rw [hstep.1]
        exact hstep.2.after
      have hframe := m.after_sameFrame step
      have hrest := Step.walk_keepsError hbr
        ((hroom.mono (Nat.le_max_right ..)).of_sameFrame hframe)
      rw [Step.walk_cons, Step.walkMoments]
      cases hstop : (m.after step).stopped with
      | true =>
          simp only [if_true, List.append_nil]
          exact ⟨hafter, hstep.2.between⟩
      | false =>
          simp only [Bool.false_eq_true, if_false]
          refine ⟨hrest.after.trans hafter, ?_⟩
          intro x hx
          cases List.mem_append.mp hx with
          | inl hx => exact hstep.2.between x hx
          | inr hx => exact (hrest.between x hx).trans hafter

end

-- ============================================================== the runs

namespace Machine

/-- The run on an event ends as a run is meant to end, with no error on the way, and leaves
no call on the stack and no walk open. -/
structure RunsWell (m : Machine) (event : Option Json) : Prop where
  ends : (m.execute event).1 = .ok .halted ∨ (m.execute event).1 = .ok .completed
  between : ∀ x ∈ m.moments event, x.machine.error = none
  error : (m.execute event).2.error = none
  stack : (m.execute event).2.stack.toList = []
  depth : (m.execute event).2.depth = 0

variable {m : Machine} {p : Program} {cast : Cast}

/-- A machine whose limit the program keeps has room for it as the run begins. -/
theorem opening_hasRoom (hn : p.nesting ≤ m.settings.branchLimit) (cast : Cast)
    (event : Option Json) :
    (m.opening p cast event).HasRoom (Step.branchNesting (some p.steps)) := by
  unfold HasRoom
  rw [opening_depth, opening_settings, Nat.zero_add]
  exact Nat.succ_le_succ hn

/-- A built-in program that nests no deeper than the limit runs well. -/
theorem runsWell_load (hb : Step.branchBuiltin (some p.steps) = true)
    (hn : p.nesting ≤ m.settings.branchLimit) (event : Option Json) :
    (m.load p cast).RunsWell event := by
  obtain ⟨hnone, hafter, hbetween⟩ := Step.enter?_keepsError hb
    (opening_hasRoom hn cast event)
  obtain ⟨hstack, hdepth⟩ := m.execute_load_frame p cast event
  rw [opening_error] at hafter
  have hor : (Step.enter? (some p.steps) (m.opening p cast event)).2.or
      (Step.enter? (some p.steps) (m.opening p cast event)).1.error = none := by
    rw [hnone, hafter]
    rfl
  obtain ⟨hends, herror⟩ := ending_of_no_error hor
  rw [← execute_load] at hends herror
  refine ⟨hends, ?_, herror, ?_, hdepth⟩
  · intro x hx
    rw [moments_load] at hx
    rw [hbetween x hx]
    exact opening_error
  · rw [hstack]
    rfl

end Machine

namespace Program

variable {limit : Nat} {d : Document} {p : Program}

/-- A compiled program runs well on a machine whose limit is no lower than that of its registry. -/
theorem runsWell_of_compile {m : Machine} (h : compile (.builtin limit) d = .ok p)
    (hm : limit ≤ m.settings.branchLimit) (cast : Cast) (event : Option Json) :
    (m.load p cast).RunsWell event := by
  obtain ⟨hreal, hnest⟩ := compile_eq_ok_iff.mp h
  exact runsWell_load hreal.isBuiltin (Nat.le_trans hnest hm) event

end Program

/-- A program compiled for a limit runs well on every machine that allows as much: for every
cast and event, and whatever the queue and the network answer, as both belong to the
machine. A host compiles for the limit of its own machines, however long it has been used,
so what it accepts runs well on them then and later. -/
theorem compiled_programs_run_well :
    (∀ (limit : Nat) (d : Document) (p : Program),
      Program.compile (.builtin limit) d = .ok p →
      ∀ m : Machine, limit ≤ m.settings.branchLimit →
      ∀ cast event, (m.load p cast).RunsWell event)
    ∧ ∀ {σ : Type} [Store σ] (store : σ) (settings : Settings) (world : World)
        (past : List Host.Operation) (id source : String) (cast : Cast) (r : Store.Record)
        (h' : Host σ),
        ((Host.new store settings world).afterAll past).create id source cast = (.ok r, h') →
        ∃ p, ((Host.new store settings world).afterAll past).compile source = .ok p
          ∧ ∀ (later : List Host.Operation) (w : World) cast' event,
            ((Machine.new (h'.afterAll later).settings w).load p cast').RunsWell event := by
  refine ⟨fun limit d p h m hm cast event => Program.runsWell_of_compile h hm cast event, ?_⟩
  intro σ _ store settings world past id source cast r h' hcreate
  obtain ⟨p, hp⟩ := Host.compile_of_create hcreate
  refine ⟨p, hp, ?_⟩
  intro later w cast' event
  have hpast := (Host.new store settings world).afterAll_sameRules past
  have hlater : ((Host.new store settings world).afterAll past).SameRules h' := by
    have h := ((Host.new store settings world).afterAll past).create_sameRules id source cast
    rw [hcreate] at h
    exact h
  have hsettings : (h'.afterAll later).settings = settings :=
    ((hpast.trans hlater).trans (h'.afterAll_sameRules later)).settings
  obtain ⟨d, -, hcompile⟩ := Host.compile_eq_ok.mp hp
  rw [hpast.registry] at hcompile
  have hlimit : settings.branchLimit ≤ (h'.afterAll later).settings.branchLimit :=
    Nat.le_of_eq (congrArg Settings.branchLimit hsettings.symm)
  exact Program.runsWell_of_compile hcompile hlimit cast' event

-- a condition whose branch is one level deep, compiled for a limit of one
example :
    let test : Json := .object [("variable", .string "x"), ("operator", .string "="),
      ("compareTo", .bool true)]
    let entry : Json := .object [("log", .object [("message", .string "none")])]
    let call : Call := ⟨"condition", some [("OR", .array [test]),
      ("onFalse", .string "goto_0"), ("branch_0", .array [entry])]⟩
    ((Program.compile (.builtin 1) { version := "1", program := [call] }).toOption.map
      fun p => (((Machine.new {} {}).load p { id := "1" }).execute none).2.status)
      = some .completed := rfl

end EventScript
