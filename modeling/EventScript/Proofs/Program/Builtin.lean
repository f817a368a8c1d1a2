/-
What the built-in instructions make of their calls. Only `condition` has branches, and the
branches its draft keeps are the ones written under `branch_0` and `branch_1` in its
arguments; every other built-in instruction becomes an action that is not from outside.

These facts hold of the table of built-in instructions as a whole, so a further
instruction is a further case of `builtins_draft` and of nothing else.
-/
import EventScript.Proofs.Program.Realization

namespace EventScript

open Instruction

/-- The value written under a branch's name. Only conditions have branches, and a null is
as good as nothing. -/
def Call.branch? (call : Call) (branch : String) : Option Json :=
  if call.name = Condition.name then Table.get? branch (InstructionSpec.given call.args)
  else none

/-- Whether the action is that of a built-in instruction. -/
def Action.isBuiltin : Action → Bool
  | .hook _ => false
  | _ => true

-- =============================================================== tables

/-- What is found under a name is an entry. -/
theorem Table.mem_of_get? {α : Type} {t : Table α} {name : String} {v : α}
    (h : t.get? name = some v) : (name, v) ∈ t := by
  induction t with
  | nil => cases h
  | cons e rest ih =>
      obtain ⟨k, w⟩ := e
      by_cases hk : k = name
      · subst hk
        have hw : w = v := by simpa [Table.get?] using h
        rw [hw]
        exact List.mem_cons_self ..
      · have hrest : Table.get? name rest = some v := by simpa [Table.get?, hk] using h
        exact List.mem_cons_of_mem _ (ih hrest)

/-- The members that count hold no null. -/
theorem InstructionSpec.get?_given_ne_null (args : Option Json.Object) (name : String) :
    Table.get? name (InstructionSpec.given args) ≠ some .null := by
  intro h
  have hmem := Table.mem_of_get? h
  unfold InstructionSpec.given at hmem
  have hnull := (List.mem_filter.mp hmem).2
  simp [Json.isNull] at hnull

-- ============================================================= decoding

namespace Decode

/-- A record read from an object is what its fields build. -/
theorem record_object_eq_ok {α : Type} {title : String} {slots : List Slot}
    {build : Json.Object → Except Mismatch α} {strict : Bool} {o : Json.Object} {a : α}
    (h : record title slots build strict (.object o) = .ok a) : build o = .ok a := by
  simp only [record] at h
  split at h
  · cases h
  · exact h

theorem listOf_any_eq_ok {v : Json} {items : List Json} :
    listOf any v = .ok items ↔ v = .array items := by
  cases v with
  | array vs =>
      have hpure : vs.mapM any = (.ok vs : Except Mismatch (List Json)) := by
        induction vs with
        | nil => rfl
        | cons w ws ih => rw [List.mapM_cons, ih]; rfl
      simp only [listOf, hpure, Except.ok.injEq, Json.array.injEq]
  | _ => simp [listOf]

/-- A field of entries that may be missing: what is read is what was written. -/
theorem may_entries_eq_ok {o : Json.Object} {field : String} {entries : Option (List Json)}
    (hnull : Table.get? field o ≠ some .null)
    (h : may o field (listOf any) = .ok entries) :
    Table.get? field o = entries.map .array := by
  unfold may at h
  cases hv : Table.get? field o with
  | none =>
      rw [hv] at h
      cases h
      rfl
  | some v =>
      rw [hv] at h hnull
      have hv' : orNull (listOf any) v = .ok entries := h
      unfold orNull at hv'
      split at hv'
      · exact absurd rfl hnull
      · obtain ⟨items, hitems, rfl⟩ := Except.map_eq_ok.mp hv'
        rw [listOf_any_eq_ok.mp hitems]
        rfl

end Decode

/-- The branches a condition's draft keeps are those its members hold. -/
theorem Instruction.Condition.decode_branches {o : Json.Object} {d : Condition.Draft}
    (hnull : ∀ name, Table.get? name o ≠ some .null)
    (h : Condition.decode (.object o) = .ok d) :
    Table.get? "branch_0" o = d.branch0.map .array
      ∧ Table.get? "branch_1" o = d.branch1.map .array := by
  unfold Condition.decode at h
  have hbuild := Decode.record_object_eq_ok h
  simp only [Except.bind_eq_ok, pure, Except.pure, Except.ok.injEq] at hbuild
  obtain ⟨_, -, _, -, _, -, _, -, zero, hzero, one, hone, rfl⟩ := hbuild
  exact ⟨Decode.may_entries_eq_ok (hnull _) hzero, Decode.may_entries_eq_ok (hnull _) hone⟩

-- =========================================================== the drafts

namespace InstructionSpec

/-- A call is drafted where the schema accepts what is given, the reader takes it, and it has no
defect. -/
theorem draft_eq_ok_iff {spec : InstructionSpec} {args : Option Json.Object} {d : Draft} :
    spec.draft args = .ok d ↔ spec.schema.check? args = none
      ∧ spec.decode (.object (given args)) = .ok d ∧ d.defect? = none := by
  unfold draft
  cases hc : spec.schema.check? args with
  | some fault => simp
  | none =>
      cases hd : spec.decode (.object (given args)) with
      | error mismatch => simp
      | ok d' =>
          simp only [Except.ok.injEq, true_and]
          cases hdef : d'.defect? with
          | some defect =>
              simp only [reduceCtorEq, false_iff, not_and]
              intro hyp
              subst hyp
              simp [hdef]
          | none =>
              simp only [Except.ok.injEq]
              constructor
              · intro hyp
                subst hyp
                exact ⟨rfl, hdef⟩
              · exact And.left

/-- The entry of an action drafts that action. -/
theorem ofAction_draft {α : Type} {name : String} {schema : Schema}
    {decode : Decode.Reader α} {action : α → Action} {args : Option Json.Object} {d : Draft}
    (h : (ofAction name schema decode action).draft args = .ok d) :
    ∃ i, d = .action (action i) := by
  obtain ⟨-, hd, -⟩ := draft_eq_ok_iff.mp h
  obtain ⟨i, -, rfl⟩ := Except.map_eq_ok.mp hd
  exact ⟨i, rfl⟩

/-- What built-in instructions draft: `condition` a condition as its members say, every
other an action of its own. -/
theorem builtins_draft {spec : InstructionSpec} (hs : spec ∈ builtins)
    {args : Option Json.Object} {d : Draft} (h : spec.draft args = .ok d) :
    (spec.name ≠ Condition.name ∧ ∃ a : Action, d = .action a ∧ a.isBuiltin = true)
      ∨ (spec.name = Condition.name ∧ ∃ c, d = .condition c
          ∧ Condition.decode (.object (given args)) = .ok c) := by
  simp only [builtins, List.mem_cons, List.not_mem_nil, or_false] at hs
  rcases hs with rfl | rfl | rfl | rfl | rfl | rfl | rfl | rfl | rfl | rfl | rfl | rfl
  case inr.inl =>
    obtain ⟨-, hd, -⟩ := draft_eq_ok_iff.mp h
    obtain ⟨c, hc, rfl⟩ := Except.map_eq_ok.mp hd
    exact Or.inr ⟨rfl, c, rfl, hc⟩
  all_goals
    obtain ⟨i, rfl⟩ := ofAction_draft h
    exact Or.inl ⟨by decide, _, rfl, rfl⟩

end InstructionSpec

-- ========================================================== their calls

variable {call : Call}

/-- A built-in call that drafts an action has no branches, and the action is built in. -/
theorem Call.Drafts.of_action {a : Action}
    (h : call.Drafts InstructionSpec.builtins (.action a)) :
    a.isBuiltin = true ∧ ∀ branch, call.branch? branch = none := by
  obtain ⟨spec, hfind, hd⟩ := h
  have hname : spec.name = call.name := by simpa using List.find?_some hfind
  rcases InstructionSpec.builtins_draft (List.mem_of_find?_eq_some hfind) hd with
    ⟨hne, a', ha, hb⟩ | ⟨-, c, hc, -⟩
  · cases ha
    refine ⟨hb, fun branch => if_neg ?_⟩
    rw [← hname]
    exact hne
  · cases hc

/-- A built-in call that drafts a condition holds the branches of the draft. -/
theorem Call.Drafts.of_condition {d : Condition.Draft}
    (h : call.Drafts InstructionSpec.builtins (.condition d)) :
    call.branch? "branch_0" = d.branch0.map .array
      ∧ call.branch? "branch_1" = d.branch1.map .array := by
  obtain ⟨spec, hfind, hd⟩ := h
  have hname : spec.name = call.name := by simpa using List.find?_some hfind
  rcases InstructionSpec.builtins_draft (List.mem_of_find?_eq_some hfind) hd with
    ⟨-, a, ha, -⟩ | ⟨hc, c, hcond, hdec⟩
  · cases ha
  · cases hcond
    have hif : call.name = Condition.name := by rw [← hname]; exact hc
    unfold Call.branch?
    rw [if_pos hif, if_pos hif]
    exact Condition.decode_branches (InstructionSpec.get?_given_ne_null call.args) hdec

end EventScript
