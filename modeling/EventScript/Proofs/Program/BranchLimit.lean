/-
The limit on nesting, read off a program as it is written. The nesting of a call list is a
number of the document alone: one for every branch that encloses a call, counted whether
or not a directive leads there. A null is no branch.

A compiled program nests exactly as deep as its calls (`RealizesAll.listNesting_eq`), so a
limit accepts a document when no limit would refuse it and the document nests no deeper;
and since a step does not mention the limit, every limit that accepts a document yields
the same program.
-/
import EventScript.Proofs.Program.Builtin

namespace EventScript

open Instruction

-- ====================================================== nesting of calls

mutual

/-- The nesting of an entry of a program: that of the branches of a condition. -/
def Document.entryNesting : Json → Nat
  | .object [(name, .object args)] =>
    if name = Condition.name then
      max (Document.memberNesting "branch_0" args) (Document.memberNesting "branch_1" args)
    else 0
  | _ => 0

/-- The deepest nesting among entries. -/
def Document.entriesNesting : List Json → Nat
  | [] => 0
  | entry :: rest => max (Document.entryNesting entry) (Document.entriesNesting rest)

/-- The nesting that a branch causes: one more than inside it. -/
def Document.branchNesting : Json → Nat
  | .array entries => Document.entriesNesting entries + 1
  | _ => 1

/-- The nesting that the member of a branch's name causes, nulls left aside. -/
def Document.memberNesting (branch : String) : List (String × Json) → Nat
  | [] => 0
  | (_, .null) :: rest => Document.memberNesting branch rest
  | (name, v) :: rest =>
    if name = branch then Document.branchNesting v else Document.memberNesting branch rest

end

/-- How deep the branches written in a call nest. -/
def Call.nesting (call : Call) : Nat :=
  if call.name = Condition.name then
    max (Document.memberNesting "branch_0" (call.args.getD []))
      (Document.memberNesting "branch_1" (call.args.getD []))
  else 0

/-- The deepest nesting among calls. -/
def Call.listNesting (calls : List Call) : Nat := (calls.map Call.nesting).foldr max 0

/-- How deep the branches of a document's program nest. -/
def Document.nesting (d : Document) : Nat := Call.listNesting d.program

-- ============================================== nesting of what is read

/-- The nesting under a name is that of the branch given there, null being none. -/
theorem Document.memberNesting_eq (branch : String) (args : List (String × Json)) :
    Document.memberNesting branch args
      = ((Table.get? branch (args.filter fun m => !m.2.isNull)).map
          Document.branchNesting).getD 0 := by
  induction args with
  | nil => rfl
  | cons e rest ih =>
      obtain ⟨name, v⟩ := e
      by_cases hname : name = branch
      · cases v with
        | null => rw [memberNesting]; exact ih
        | _ => simp [memberNesting, Json.isNull, Table.get?, hname]
      · cases v with
        | null => rw [memberNesting]; exact ih
        | _ => simp [memberNesting, Json.isNull, Table.get?, hname, ih]

/-- The nesting of a call is that of the deeper of its branches. -/
theorem Call.nesting_eq (call : Call) :
    call.nesting = max (((call.branch? "branch_0").map Document.branchNesting).getD 0)
      (((call.branch? "branch_1").map Document.branchNesting).getD 0) := by
  unfold Call.nesting Call.branch? InstructionSpec.given
  by_cases h : call.name = Condition.name
  · rw [if_pos h, if_pos h, if_pos h, Document.memberNesting_eq, Document.memberNesting_eq]
  · rw [if_neg h, if_neg h, if_neg h]
    rfl

/-- An entry and the call it stands for nest alike. -/
theorem Document.entryNesting_eq {position : Nat} {entry : Json} {call : Call}
    (h : Document.entryCall position entry = .ok call) :
    Document.entryNesting entry = call.nesting := by
  unfold entryCall at h
  split at h
  · cases h
    simp [entryNesting, Call.nesting, memberNesting]
  · cases h
    rfl
  · cases h
  · cases h

/-- Entries that are calls are nested as deep as those. -/
theorem Document.entriesNesting_eq {entries : List Json} {calls : List Call}
    (h : Document.entryCalls entries = .ok calls) :
    Document.entriesNesting entries = Call.listNesting calls := by
  suffices general : ∀ (entries : List Json) (position : Nat) (calls : List Call),
      entryCallsFrom position entries = (calls, []) →
      entriesNesting entries = Call.listNesting calls by
    unfold entryCalls at h
    split at h
    · next hfrom =>
      cases h
      exact general entries 0 _ hfrom
    · cases h
  intro entries
  induction entries with
  | nil =>
      intro position calls hfrom
      simp only [entryCallsFrom, Prod.mk.injEq] at hfrom
      rw [← hfrom.1]
      rfl
  | cons entry rest ih =>
      intro position calls hfrom
      simp only [entryCallsFrom] at hfrom
      split at hfrom
      · next call hcall =>
        simp only [Prod.mk.injEq] at hfrom
        have hrest := ih (position + 1) _ (Prod.ext rfl hfrom.2)
        rw [← hfrom.1, entriesNesting, entryNesting_eq hcall, hrest]
        rfl
      · simp at hfrom

namespace Program

-- ============================================ nesting of what is compiled

mutual

/-- A step is nested as deep as the call it realizes. -/
theorem Realizes.nesting_eq {call : Call} {step : Step} :
    Realizes InstructionSpec.builtins call step → step.nesting = call.nesting
  | .action drafts => by
      rw [Call.nesting_eq, drafts.of_action.2, drafts.of_action.2]
      rfl
  | .branch drafts inZero inOne => by
      rw [Call.nesting_eq, drafts.of_condition.1, drafts.of_condition.2,
        ← inZero.nesting_eq, ← inOne.nesting_eq]
      rfl

/-- A branch is nested as deep as it is written. -/
theorem RealizesBranch.nesting_eq {entries : Option (List Json)}
    {steps : Option (List Step)} :
    RealizesBranch InstructionSpec.builtins entries steps →
      Step.branchNesting steps
        = ((entries.map Json.array).map Document.branchNesting).getD 0
  | .absent => rfl
  | .present written inside => by
      show Step.listNesting _ + 1 = Document.entriesNesting _ + 1
      rw [inside.listNesting_eq, Document.entriesNesting_eq written]

/-- A program nests as deep as its calls do where they are written. -/
theorem RealizesAll.listNesting_eq {calls : List Call} {steps : List Step} :
    RealizesAll InstructionSpec.builtins calls steps →
      Step.listNesting steps = Call.listNesting calls
  | .nil => rfl
  | .cons head tail => by
      show max _ _ = max _ (Call.listNesting _)
      rw [head.nesting_eq, tail.listNesting_eq]

end

-- ============================================================= the limit

/-- A limit accepts a document for a program when the program realizes the document's
calls and the document nests no deeper than the limit. -/
theorem compile_builtin_eq_ok_iff {limit : Nat} {d : Document} {p : Program} :
    compile (.builtin limit) d = .ok p ↔
      RealizesAll InstructionSpec.builtins d.program p.steps ∧ d.nesting ≤ limit := by
  rw [compile_eq_ok_iff]
  refine and_congr_right fun hreal => ?_
  rw [nesting, Document.nesting, hreal.listNesting_eq]
  rfl

/-- The limit on nesting is exact: it refuses nothing that a limit out of the document's
reach accepts, except what nests deeper. It is monotone: a larger limit accepts the same
documents for the same programs. -/
theorem compile_ok_iff_nesting_le (d : Document) (limit : Nat) :
    (∀ free, d.nesting ≤ free →
      ((∃ p, compile (.builtin limit) d = .ok p) ↔
        (∃ p, compile (.builtin free) d = .ok p) ∧ d.nesting ≤ limit))
    ∧ ∀ p, compile (.builtin limit) d = .ok p →
      ∀ larger, limit ≤ larger → compile (.builtin larger) d = .ok p := by
  simp only [compile_builtin_eq_ok_iff]
  constructor
  · intro free hfree
    constructor
    · intro hyp
      obtain ⟨p, hreal, hle⟩ := hyp
      exact ⟨⟨p, hreal, hfree⟩, hle⟩
    · intro hyp
      obtain ⟨⟨p, hreal, -⟩, hle⟩ := hyp
      exact ⟨p, hreal, hle⟩
  · intro p hyp larger hlarger
    obtain ⟨hreal, hle⟩ := hyp
    exact ⟨hreal, Nat.le_trans hle hlarger⟩

end Program
end EventScript
