/-
A null among the arguments of a call is as good as nothing. Nulls are looked at in three places:
a schema asks whether a field is there, what is given to the reader leaves them out, and what is
found wrong after reading, in the draft and in its branches, sees only what was read. So
arguments may shed nulls, any of them, and bind to the same step or fail with the same error.

The names have to be declared. A name that is not is refused whatever stands under it, a null
too, so shedding that one would mend the call.
-/
import EventScript.Proofs.Instruction.Reading

namespace EventScript

namespace Schema

variable {s : Schema} {args less : Json.Object} {name : String}

/-- The second arguments are the first without some of their nulls, all of names that the
schema declares. -/
inductive Sheds (s : Schema) : Json.Object → Json.Object → Prop
  | done : Sheds s [] []
  | keep (entry : String × Json) {args less : Json.Object} (rest : Sheds s args less) :
      Sheds s (entry :: args) (entry :: less)
  | shed {name : String} {args less : Json.Object} (declared : s.Declares name)
      (rest : Sheds s args less) : Sheds s ((name, .null) :: args) less

namespace Sheds

/-- What is shed leaves the other names in their order. -/
theorem keys_sublist (h : s.Sheds args less) : less.keys.Sublist args.keys := by
  induction h with
  | done => exact .refl _
  | keep entry _ ih => exact ih.cons_cons entry.1
  | shed _ _ ih => exact ih.cons _

/-- What the reader is given is the same. -/
theorem given_eq (h : s.Sheds args less) :
    InstructionSpec.given (some less) = InstructionSpec.given (some args) := by
  have hfilter : less.filter (fun m => !m.2.isNull) = args.filter fun m => !m.2.isNull := by
    induction h with
    | done => rfl
    | keep entry _ ih => rw [List.filter_cons, List.filter_cons, ih]
    | shed _ _ ih => exact ih
  exact hfilter

/-- Under a name there is the same value, or there is no value any more where a null was. -/
theorem get?_cases (h : s.Sheds args less) (hnodup : args.keys.Nodup) (name : String) :
    less.get? name = args.get? name
      ∨ less.get? name = none ∧ args.get? name = some .null := by
  induction h with
  | done => exact Or.inl rfl
  | keep entry _ ih =>
      obtain ⟨k, v⟩ := entry
      have hrest := ih (List.nodup_cons.mp hnodup).2
      by_cases hk : k = name
      · simp [Table.get?, hk]
      · simpa [Table.get?, hk] using hrest
  | @shed k args less _ rest ih =>
      obtain ⟨hnew, hothers⟩ := List.nodup_cons.mp hnodup
      by_cases hk : k = name
      · subst hk
        refine Or.inr ⟨?_, by simp [Table.get?]⟩
        -- the null was the only value of its name
        rw [← Option.not_isSome_iff_eq_none, Table.isSome_get?_iff]
        exact fun hmem => hnew (rest.keys_sublist.subset hmem)
      · simpa [Table.get?, hk] using ih hothers

/-- Each field finds the same fault. -/
theorem fault?_eq (h : s.Sheds args less) (hnodup : args.keys.Nodup) (f : Field) :
    f.fault? (less.get? f.name) = f.fault? (args.get? f.name) := by
  rcases h.get?_cases hnodup f.name with hsame | ⟨hnone, hnull⟩
  · rw [hsame]
  · rw [hnone, hnull]
    rfl

/-- The first name that is not declared is the same, as those that were shed are declared. -/
theorem find?_undeclared (h : s.Sheds args less) :
    less.keys.find? (fun k => !s.declares k) = args.keys.find? fun k => !s.declares k := by
  induction h with
  | done => rfl
  | keep entry _ ih =>
      unfold Table.keys at ih ⊢
      rw [List.map_cons, List.map_cons, List.find?_cons, List.find?_cons, ih]
  | @shed name args less declared _ ih =>
      show _ = List.find? _ (name :: Table.keys args)
      rw [List.find?_cons, declares_iff.mpr declared]
      exact ih

/-- A schema finds the same first fault. -/
theorem check?_eq (h : s.Sheds args less) (hnodup : args.keys.Nodup) :
    s.check? (some less) = s.check? (some args) := by
  unfold check?
  dsimp only
  rw [h.find?_undeclared]
  simp only [h.fault?_eq hnodup]

end Sheds
end Schema

-- ================================================================ binding

/-- The step that another call is bound to as this one is: all but the call as written. -/
def Step.recalled (call : Call) : Step → Step
  | .action _ a => .action call a
  | .branch _ condition zero one => .branch call condition zero one

/-- How a call was written does not matter to what a draft becomes. -/
theorem Program.bindDraft_recalled (compile : BranchCompiler) (call call' : Call) (d : Draft) :
    bindDraft compile call' d = (bindDraft compile call d).map (Step.recalled call') := by
  cases d with
  | action a => rfl
  | condition d =>
      simp only [bindDraft]
      cases compileBranch? compile "branch_0" d.branch0 with
      | error e => rfl
      | ok zero =>
          cases compileBranch? compile "branch_1" d.branch1 with
          | error e => rfl
          | ok one => rfl

namespace InstructionSpec

variable {spec : InstructionSpec} {args less : Json.Object}

/-- A draft does not notice that nulls were shed. -/
theorem draft_of_sheds (h : spec.schema.Sheds args less) (hnodup : args.keys.Nodup) :
    spec.draft (some less) = spec.draft (some args) := by
  unfold draft
  rw [h.check?_eq hnodup, h.given_eq]

/-- Arguments that shed nulls of declared names fit the schema or not as they did, and inside
any number of branches the call is bound as it was: with the same error, or to a step that
differs in nothing but the arguments as written. -/
theorem nulls_count_as_absent (spec : InstructionSpec) (r : Registry) (depth : Nat)
    (name : String) {args less : Json.Object} (hnodup : args.keys.Nodup)
    (h : spec.schema.Sheds args less) :
    Program.bind (Program.branchCompiler r (r.branchLimit - depth)) spec ⟨name, some less⟩
        = (Program.bind (Program.branchCompiler r (r.branchLimit - depth)) spec
            ⟨name, some args⟩).map (Step.recalled ⟨name, some less⟩)
      ∧ spec.accepts (some less) = spec.accepts (some args)
      ∧ spec.schema.check? (some less) = spec.schema.check? (some args) := by
  have hcheck := h.check?_eq hnodup
  refine ⟨?_, ?_, hcheck⟩
  · unfold Program.bind
    dsimp only
    rw [draft_of_sheds h hnodup]
    cases spec.draft (some args) with
    | error defect => rfl
    | ok d => exact Program.bindDraft_recalled _ _ _ d
  · unfold accepts
    rw [hcheck]

open Instruction (Condition)

/-- A condition with a null for everything that it does not say. -/
def sayingNull : Json.Object :=
  [("AND", .array [.object [("compareTo", .null), ("operator", .string "="),
      ("variable", .string "total")]]),
    ("OR", .null),
    ("branch_0", .array [.object [("set", .object [("value", .bool true),
      ("variable", .string "fresh")])]]),
    ("branch_1", .null), ("onFalse", .null), ("onTrue", .string "goto_0")]

/-- The condition without two of the nulls; the null that is compared to is no argument. -/
def sayingLess : Json.Object :=
  sayingNull.filter fun m => m.1 ≠ "OR" ∧ m.1 ≠ "branch_1"

/-- Both are bound three branches deep, with their branch compiled. -/
theorem nulls_count_as_absent_in_condition :
    let spec : InstructionSpec :=
      { name := Condition.name
        schema := Condition.schema
        decode := fun v => (Condition.decode v).map .condition }
    let bound (args : Json.Object) := Program.bind
      (Program.branchCompiler (.builtin 16) (16 - 3)) spec ⟨"condition", some args⟩
    spec ∈ builtins ∧ sayingNull.keys.Nodup ∧ spec.schema.Sheds sayingNull sayingLess
      ∧ (∃ step, bound sayingNull = .ok step)
      ∧ bound sayingLess
        = (bound sayingNull).map (Step.recalled ⟨"condition", some sayingLess⟩) := by
  intro spec bound
  have hnodup : sayingNull.keys.Nodup := by decide
  have hdeclared : ∀ name ∈ ["OR", "branch_1"], spec.schema.Declares name := by
    intro name hname
    refine Schema.declares_iff.mp ?_
    revert hname
    revert name
    decide
  have hsheds : spec.schema.Sheds sayingNull sayingLess := by
    refine .keep _ (.shed (hdeclared _ (by decide)) (.keep _ (.shed (hdeclared _ (by decide)) ?_)))
    exact .keep _ (.keep _ .done)
  refine ⟨by simp [spec, builtins], hnodup, hsheds, ?_, ?_⟩
  · have hbinds : (bound sayingNull).toOption.isSome = true := by decide +kernel
    obtain ⟨step, hstep⟩ := Option.isSome_iff_exists.mp hbinds
    exact ⟨step, Except.toOption_eq_some.mp hstep⟩
  · exact (nulls_count_as_absent spec (.builtin 16) 3 "condition" hnodup hsheds).1

end InstructionSpec
end EventScript
