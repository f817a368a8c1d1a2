/-
Integer arithmetic through a variable. Each `number` instruction of a chain reads the
variable, computes and writes it back, so between two of them the amount is a JSON number or
a text, whichever has room for it, and the next one reads it again from that form.

The chain is told in integers, beside the run: what each instruction computes from the one
before, by an operation whose exact result is an integer. The invariant of the run is that the
variables are those it began with, except that the variable holds the integer the chain has
come to. It carries every operand as well: a literal does not change, the variable itself
holds what the chain says, and any other one is where nothing was written.
-/
import EventScript.Proofs.Json.Place
import EventScript.Proofs.Machine.LifeCycle
import EventScript.Proofs.Numeric.Exactness
import EventScript.Proofs.Numeric.Spelling

namespace EventScript

open Instruction (Calculation Outcome)

-- ============================================================== variables

/-- Nothing is below a value that holds an integer. -/
theorem Json.HoldsInt.childless {v : Json} {a : Int} (h : v.HoldsInt a) : v.Childless := by
  intro segment
  cases h <;> rfl

theorem Json.holdsInt_ofInt {a : Int} (h : FitsExact a) : (Json.ofInt a).HoldsInt a :=
  Numeric.ofJson?_eq_int_iff.mp (Numeric.ofJson?_ofInt h)

/-- The second variables are the first, except that the one at the path holds the integer. -/
def Globals.HoldsAt (g : Globals) (path : String) (a : Int) (g' : Globals) : Prop :=
  ∃ v, v.HoldsInt a ∧ g.RewrittenAt path v g'

namespace Instruction.Calculation

/-- The second integer of a calculation, when the variable at the path holds `a` and every
other one what it holds in `g`. -/
inductive Operand (g : Globals) (path : String) (a : Int) (i : Calculation) : Int → Prop
  | literal {v : Json} {b : Int} : i.operand = some v → v.HoldsInt b → Operand g path a i b
  | itself {q : String} : i.operand = none → i.operandVariable = some q →
      g.SamePlace path q → Operand g path a i a
  | other {q : String} {v : Json} {b : Int} : i.operand = none → i.operandVariable = some q →
      ¬ g.SamePlace path q → g.getPath? q = some v → v.HoldsInt b → Operand g path a i b

/-- Calculations that read and write the variable at the path, and the integers they take it
through, from the first to the last. -/
inductive Chain (g : Globals) (path : String) : Int → List Calculation → Int → Prop
  | nil {a : Int} : Chain g path a [] a
  | cons {a b c d : Int} {i : Calculation} {rest : List Calculation} :
      g.SamePlace path i.variableName → g.SamePlace path i.output →
      i.Operand g path a b → FitsExact b → i.operation.Exact a b c → FitsExact c →
      Chain g path c rest d → Chain g path a (i :: rest) d

variable {g g' : Globals} {path : String} {a b c : Int} {i : Calculation} {v : Json}

-- ======================================================== one calculation

/-- The operand is the integer it is said to be, while the variable holds its own. -/
theorem Operand.operandIn_eq (h : i.Operand g path a b) (hb : FitsExact b)
    (hv : g.getPath? path = some v) (hchildless : v.Childless) (hholds : g.HoldsAt path a g') :
    i.operandIn g' = some (.int b hb) := by
  obtain ⟨w, hw, hrewritten⟩ := hholds
  unfold operandIn
  cases h with
  | literal hliteral hx =>
      rw [hliteral]
      exact Numeric.ofJson?_eq_int_iff.mpr hx
  | itself hnone hq hsame =>
      rw [hnone, hq]
      dsimp only
      rw [hrewritten.getPath? hsame, Option.bind_some]
      exact Numeric.ofJson?_eq_int_iff.mpr hw
  | other hnone hq hother hthere hx =>
      rw [hnone, hq]
      dsimp only
      rw [hrewritten.getPath?_of_other hv hchildless hthere hx.childless hother, Option.bind_some]
      exact Numeric.ofJson?_eq_int_iff.mpr hx

/-- One calculation takes the variable to its exact result, and logs nothing. -/
theorem run_exact (hv : g.getPath? path = some v) (hchildless : v.Childless)
    (hholds : g.HoldsAt path a g') (ha : FitsExact a) (hin : g.SamePlace path i.variableName)
    (hout : g.SamePlace path i.output) (hoperand : i.Operand g path a b) (hb : FitsExact b)
    (hexact : i.operation.Exact a b c) (hc : FitsExact c) :
    ∃ g'', i.run g' = ⟨g'', []⟩ ∧ g.HoldsAt path c g'' := by
  have hread := hoperand.operandIn_eq hb hv hchildless hholds
  obtain ⟨w, hw, hrewritten⟩ := hholds
  obtain ⟨g'', hset, hagain⟩ := hrewritten.setPath hout (Json.ofInt c)
  have hop : i.operation ≠ .bigint := by
    intro hop
    rw [hop] at hexact
    cases hexact
  have hcompute : i.compute g' (.int a ha) = .ok (Json.ofInt c) := by
    unfold compute
    rw [if_neg hop, hread]
    dsimp only
    rw [hexact.apply_eq ha hb hc]
    rfl
  -- the variable holds the integer as a number or as its text
  have hinput : Numeric.ofJson? w = some (.int a ha) := Numeric.ofJson?_eq_int_iff.mpr hw
  have hresult : i.result g' = .ok (Json.ofInt c, g') := by
    unfold result
    rw [hrewritten.getPath? hin]
    dsimp only
    rw [hinput]
    dsimp only
    rw [hcompute]
    rfl
  refine ⟨g'', ?_, Json.ofInt c, Json.holdsInt_ofInt hc, hagain⟩
  unfold run
  rw [hresult]
  exact Outcome.write_of_ok hset

/-- With a double for its operand, a calculation has a double for its result, or none. -/
theorem compute_float {y : Decimal.Binary64} {input : Numeric} (hop : i.operation ≠ .bigint)
    (h : i.operandIn g = some (.float y)) :
    (∃ s, i.compute g input = .error s)
      ∨ ∃ x finite, i.compute g input = .ok (.number (.float x finite)) := by
  unfold compute
  rw [if_neg hop, h]
  dsimp only
  rcases Numeric.apply_float i.operation input y with hnone | ⟨x, hx⟩
  · rw [hnone]
    exact Or.inl ⟨_, rfl⟩
  · rw [hx]
    dsimp only
    rcases Numeric.toJson?_float x with hnone | ⟨finite, hkept⟩
    · rw [hnone]
      exact Or.inl ⟨_, rfl⟩
    · rw [hkept]
      exact Or.inr ⟨x, finite, rfl⟩

/-- With a double for its operand, a calculation leaves the variables alone or writes a double
to its output. -/
theorem run_float {y : Decimal.Binary64} (hop : i.operation ≠ .bigint)
    (h : i.operandIn g = some (.float y)) :
    (i.run g).globals = g
      ∨ ∃ x finite, g.setPath i.output (.number (.float x finite)) = .ok (i.run g).globals := by
  unfold run result
  cases hv : g.getPath? i.variableName with
  | none => exact Or.inl rfl
  | some v =>
      dsimp only
      cases hinput : Numeric.ofJson? v with
      | none => exact Or.inl rfl
      | some input =>
          dsimp only
          rcases i.compute_float hop h with ⟨s, hs⟩ | ⟨x, finite, hx⟩
          · rw [hs]
            exact Or.inl rfl
          · rw [hx]
            show (Outcome.write g name i.output _).globals = g ∨ _
            cases hset : g.setPath i.output (.number (.float x finite)) with
            | error e =>
                rw [Outcome.write_of_error hset]
                exact Or.inl rfl
            | ok g' =>
                refine Or.inr ⟨x, finite, ?_⟩
                show _ = Except.ok (Outcome.write g name i.output _).globals
                rw [Outcome.write_of_ok hset, hset]

/-- A chain ends within 128 bits, if it begins there. -/
theorem Chain.fits {calcs : List Calculation} (h : Chain g path a calcs c) (ha : FitsExact a) :
    FitsExact c := by
  induction h with
  | nil => exact ha
  | cons _ _ _ _ _ hc _ ih => exact ih hc

end Instruction.Calculation

-- ================================================================= the run

/-- The program of calculations, each with its call. -/
def Program.ofCalculations (calls : List (Call × Calculation)) : Program :=
  ⟨calls.map fun x => .action x.1 (.number x.2)⟩

/-- A walk over a chain leaves in the variable the integer the chain ends with. The induction
is along the chain; what a calculation leaves is what the next one finds. -/
theorem Step.walk_chain {g : Globals} {path : String} {v : Json}
    (hv : g.getPath? path = some v) (hchildless : v.Childless) {calls : List (Call × Calculation)} :
    ∀ {m : Machine} {a c : Int}, m.stopped = false → FitsExact a → g.HoldsAt path a m.globals →
      Calculation.Chain g path a (calls.map Prod.snd) c →
      (Step.walk (Program.ofCalculations calls).steps m).stopped = false
        ∧ g.HoldsAt path c (Step.walk (Program.ofCalculations calls).steps m).globals := by
  induction calls with
  | nil =>
      intro m a c hgo _ hholds hchain
      cases hchain
      exact ⟨hgo, hholds⟩
  | cons x rest ih =>
      intro m a c hgo ha hholds hchain
      obtain ⟨call, i⟩ := x
      cases hchain with
      | @cons _ b c' _ _ _ hin hout hoperand hb hexact hc hrest =>
          obtain ⟨g'', hrun, hholds''⟩ := i.run_exact hv hchildless hholds ha hin hout hoperand hb
            hexact hc
          have hglobals : (m.after (.action call (.number i))).globals = g'' :=
            congrArg Outcome.globals hrun
          have hstopped : (m.after (.action call (.number i))).stopped = false := hgo
          have hwalk : Step.walk (Program.ofCalculations ((call, i) :: rest)).steps m
              = Step.walk (Program.ofCalculations rest).steps
                (m.after (.action call (.number i))) := by
            show Step.walk (.action call (.number i) :: (Program.ofCalculations rest).steps) m = _
            rw [Step.walk_cons, hstopped]
            rfl
          rw [hwalk]
          exact ih hstopped hc (hglobals ▸ hholds'') hrest

namespace Machine

/-- Integer arithmetic through a variable is exact. The variable holds an integer, as a number
or a text, and calculations read and write it one after another, each by an operation whose
exact result on the integer it finds and its operand is an integer; with all of these within
128 bits, the run completes, and the variable is read as the integer that the chain ends
with. -/
theorem execute_chain {m : Machine} {calls : List (Call × Calculation)} {event : Option Json}
    {path : String} {v : Json} {a c : Int} (hrest : m.AtRest) (hidle : m.status = .idle)
    (hgo : m.stopped = false) (hp : m.program = some (.ofCalculations calls))
    (hv : (m.start (.ofCalculations calls) event).getPath? path = some v) (hholds : v.HoldsInt a)
    (ha : FitsExact a)
    (hchain : Calculation.Chain (m.start (.ofCalculations calls) event).globals path a
      (calls.map Prod.snd) c) :
    (m.execute event).1 = .ok .completed
      ∧ ∃ w fits, (m.execute event).2.getPath? path = some w
        ∧ Numeric.ofJson? w = some (.int c fits) := by
  have hstart : (m.start (.ofCalculations calls) event).stopped = false := by
    rw [← hgo]
    cases event <;> rfl
  obtain ⟨hends, w, hw, hrewritten⟩ := Step.walk_chain hv hholds.childless
    (m := { m.start (.ofCalculations calls) event with depth := m.depth + 1 })
    hstart ha ⟨v, hholds, .of_getPath? hv⟩ hchain
  have hafter := hrest.execute_eq_walk hidle hp event
  obtain ⟨hhalted, herror⟩ := stopped_eq_false_iff.mp hends
  have herror' : (m.execute event).2.error = none := by
    rw [hafter]
    exact herror
  have hhalted' : (m.execute event).2.halted = false := by
    rw [hafter]
    exact hhalted
  obtain ⟨hanswer, hstatus⟩ := (hrest.runsToEnd hidle hp event).answers_status herror'
  refine ⟨?_, w, hchain.fits ha, ?_, Numeric.ofJson?_eq_int_iff.mpr hw⟩
  · rw [hanswer, hstatus, hhalted']
    rfl
  · rw [hafter]
    exact hrewritten.getPath? (.of_getPath? hv)

/-- A calculation on the variable `x`. -/
def onX (operation : Numeric.Operation) (operand : Option Json)
    (operandVariable : Option String) : Call × Calculation :=
  (⟨"number", none⟩, { variableName := "x", operation, operand, operandVariable, output := "x" })

/-- A variable is taken through every form: from a hexadecimal text to a decimal one, back to a
number, and below zero, by a literal, by another variable, by a text, and by itself under
another spelling. -/
def throughForms : List (Call × Calculation) :=
  [onX .add (some (.number (.int 1 (by decide)))) none, onX .subtract none (some "y"),
    onX .divide (some (.string "-5")) none, onX .add none (some ".x")]

/-- The machine that is about to do so. -/
def beforeForms : Machine :=
  (((new {} {}).load (.ofCalculations throughForms) { id := "1" }).set "x"
    (.string "0xffffffffffffffff")).set "y" (.string " +1 ")

/-- The calculations are a chain, through a number, a text and a number again. -/
theorem throughForms_chain :
    Calculation.Chain (beforeForms.start (.ofCalculations throughForms) none).globals "x"
      18446744073709551615 (throughForms.map Prod.snd) (-7378697629483820646) := by
  let g := (beforeForms.start (.ofCalculations throughForms) none).globals
  have hx : g.SamePlace "x" "x" := .of_getPath? rfl
  have hspelled : g.SamePlace "x" ".x" := hx
  have hother : ¬ g.SamePlace "x" "y" := by
    intro h
    cases h with
    | further heq => cases heq
  have hone : Json.HoldsInt (.string " +1 ") 1 :=
    .text (.decimal (Text.signed?_eq_some_iff.mp (by decide +kernel)))
  have hfive : Json.HoldsInt (.string "-5") (-5) :=
    .text (.decimal (Text.signed?_eq_some_iff.mp (by decide +kernel)))
  apply Calculation.Chain.cons hx hx (.literal rfl (.number (by decide))) (by decide)
    (c := 18446744073709551616) (by decide) (by decide)
  apply Calculation.Chain.cons hx hx (.other rfl rfl hother rfl hone) (by decide)
    (c := 18446744073709551615) (by decide) (by decide)
  apply Calculation.Chain.cons hx hx (.literal rfl hfive) (by decide)
    (c := -3689348814741910323) (by decide) (by decide)
  apply Calculation.Chain.cons hx hx (.itself rfl rfl hspelled) (by decide)
    (c := -7378697629483820646) (by decide) (by decide)
  exact .nil

/-- The run of it ends with the integer that the chain ends with. -/
theorem execute_throughForms :
    beforeForms.AtRest ∧ beforeForms.status = .idle ∧ beforeForms.stopped = false
      ∧ beforeForms.program = some (.ofCalculations throughForms)
      ∧ (beforeForms.execute none).1 = .ok .completed
      ∧ ∃ w fits, (beforeForms.execute none).2.getPath? "x" = some w
        ∧ Numeric.ofJson? w = some (.int (-7378697629483820646) fits) := by
  have hrest : beforeForms.AtRest := ⟨rfl, rfl⟩
  have hstart : Json.HoldsInt (.string "0xffffffffffffffff") 18446744073709551615 :=
    .text (.hexadecimal rfl (Or.inl rfl) (Text.signed?_eq_some_iff.mp (by decide +kernel)))
  exact ⟨hrest, rfl, rfl, rfl,
    execute_chain hrest rfl rfl rfl rfl hstart (by decide) throughForms_chain⟩

-- ===================================================== operands beyond 128 bits

/-- A program of one calculation does to the variables what the calculation does. -/
theorem AtRest.execute_calculation {m : Machine} {call : Call} {i : Calculation}
    {event : Option Json} (hrest : m.AtRest) (hidle : m.status = .idle)
    (hp : m.program = some (.ofCalculations [(call, i)])) :
    (m.execute event).2.globals
      = (i.run (m.start (.ofCalculations [(call, i)]) event).globals).globals := by
  have hwalk : ∀ m : Machine, Step.walk (Program.ofCalculations [(call, i)]).steps m
      = m.after (.action call (.number i)) := by
    intro m
    show Step.walk [.action call (.number i)] m = _
    rw [Step.walk_cons]
    split <;> rfl
  rw [hrest.execute_eq_walk hidle hp, hwalk]
  rfl

/-- The least exact integer, less the integer below it. -/
def pastTheLeast : List (Call × Calculation) :=
  [onX .subtract (some (.string "-170141183460469231731687303715884105729")) none]

/-- The machine that is about to do so. -/
def atTheLeast : Machine :=
  ((new {} {}).load (.ofCalculations pastTheLeast) { id := "1" }).set "x"
    (.string "-170141183460469231731687303715884105728")

/-- The difference is one, and the operand is an integer that is given literally, but it is read
as a double, and so is what is left in the variable. -/
theorem pastTheLeast_is_not_exact :
    let a : Int := -170141183460469231731687303715884105728
    let b : Int := -170141183460469231731687303715884105729
    (∃ v, atTheLeast.getPath? "x" = some v ∧ v.HoldsInt a) ∧ FitsExact a
      ∧ Json.HoldsInt (.string "-170141183460469231731687303715884105729") b
      ∧ Numeric.Operation.subtract.Exact a b 1 ∧ FitsExact 1
      ∧ ∀ w, (atTheLeast.execute none).2.getPath? "x" = some w →
        ∀ fits, Numeric.ofJson? w ≠ some (.int 1 fits) := by
  intro a b
  have ha : Json.HoldsInt (.string "-170141183460469231731687303715884105728") a :=
    .text (.decimal (Text.signed?_eq_some_iff.mp (by decide +kernel)))
  have hb : Json.HoldsInt (.string "-170141183460469231731687303715884105729") b :=
    .text (.decimal (Text.signed?_eq_some_iff.mp (by decide +kernel)))
  have hread : Numeric.ofJson? (.string "-170141183460469231731687303715884105729")
      = some (.float ⟨0xC7E0000000000000⟩) := by
    decide +kernel
  refine ⟨⟨_, rfl, ha⟩, by decide, hb, by decide, by decide, ?_⟩
  let g := (atTheLeast.start (.ofCalculations pastTheLeast) none).globals
  let i := (onX .subtract (some (.string "-170141183460469231731687303715884105729")) none).2
  have hglobals : (atTheLeast.execute none).2.globals = (i.run g).globals :=
    AtRest.execute_calculation ⟨rfl, rfl⟩ rfl rfl
  intro w hw fits
  unfold getPath? at hw
  rw [hglobals] at hw
  rcases i.run_float (g := g) (by decide) hread with hsame | ⟨x, finite, hset⟩
  · rw [hsame] at hw
    cases hw
    have hstays : Numeric.ofJson? (.string "-170141183460469231731687303715884105728")
        = some (.int a (by decide)) := Numeric.ofJson?_eq_int_iff.mpr ha
    rw [hstays]
    simp [a]
  · obtain ⟨old, hassign⟩ := Globals.setPath_eq_ok_iff.mp hset
    cases hw.symm.trans (Json.assign_eq_ok hassign).1.get?
    simp [Numeric.ofJson?, Numeric.ofNumber]

end Machine
end EventScript
