/-
Taking a value out of the variables. An `array` or `object` instruction can take an item or
a member out of its source and put it at its output, and these are two steps: the source is
already without the value when the output is looked for, so that an output under the source,
or under the value itself, is resolved in what is left.

What is taken is told here by the whole it was in, as what stands before it, the value, and
what stands after it; the rest is both parts without it. When the output then takes the
value, it is there; when it does not, the value is in neither place, and the log says so.
-/
import EventScript.Instruction.ArrayAccess
import EventScript.Instruction.ObjectAccess
import EventScript.Proofs.Globals
import EventScript.Proofs.Table

namespace EventScript.Instruction

variable {g g' : Globals} {part : Json}

-- ============================================================ array items

namespace ArrayAccess

/-- Whether an operation takes the item that stands between these. An index counts from the
front, or from the back when it is negative; an absent one is the first position. -/
def Operation.Picks (index : Option Int) (before after : List Json) : Operation → Prop
  | length => False
  | takeAt => index.getD 0 = before.length ∨ index.getD 0 = -(after.length + 1 : Int)
  | takeLast => after = []
  | takeFirst => before = []

/-- The instruction takes `part` out of the variables and leaves `g'`. -/
def Takes (i : ArrayAccess) (g : Globals) (part : Json) (g' : Globals) : Prop :=
  ∃ before after, g.getPath? i.variableName = some (.array (before ++ part :: after))
    ∧ i.operation.Picks i.index before after
    ∧ g' = g.overwrite i.variableName (.array (before ++ after))

/-- Taking at a position splits the list there. -/
theorem take?_eq_some_iff {items rest : List Json} {k : Nat} :
    take? items k = some (part, rest) ↔
      ∃ before after, items = before ++ part :: after ∧ rest = before ++ after
        ∧ before.length = k := by
  unfold take?
  rw [Option.map_eq_some_iff]
  constructor
  · intro h
    obtain ⟨v, hv, heq⟩ := h
    obtain ⟨rfl, rfl⟩ := Prod.mk.inj heq
    obtain ⟨hlt, hget⟩ := List.getElem?_eq_some_iff.mp hv
    refine ⟨items.take k, items.drop (k + 1), ?_, List.eraseIdx_eq_take_drop_succ .., ?_⟩
    · rw [← hget, List.getElem_cons_drop, List.take_append_drop]
    · rw [List.length_take, Nat.min_eq_left (Nat.le_of_lt hlt)]
  · intro h
    obtain ⟨before, after, rfl, rfl, rfl⟩ := h
    refine ⟨part, ?_, ?_⟩
    · rw [List.getElem?_append_right (Nat.le_refl _), Nat.sub_self, List.getElem?_cons_zero]
    · rw [List.eraseIdx_append_of_length_le (Nat.le_refl _), Nat.sub_self,
        List.eraseIdx_cons_zero]

/-- A position that exists is meant from the front or from behind the end. -/
theorem position?_eq_some_iff {index : Int} {count k : Nat} :
    position? index count = some k ↔ k < count ∧ (index = k ∨ index = (k : Int) - count) := by
  simp only [position?, Option.ite_none_right_eq_some, Option.some.injEq]
  split <;> omega

/-- What an operation that takes an item yields, and what it leaves. -/
theorem apply_eq_some_iff {operation : Operation} (hop : operation ≠ .length)
    {index : Option Int} {items rest : List Json} :
    apply operation index items = some (part, rest) ↔
      ∃ before after, items = before ++ part :: after ∧ rest = before ++ after
        ∧ operation.Picks index before after := by
  cases operation with
  | length => exact absurd rfl hop
  | takeAt =>
      simp only [apply, Option.bind_eq_some_iff, position?_eq_some_iff, take?_eq_some_iff,
        Operation.Picks]
      constructor
      · intro h
        obtain ⟨k, ⟨-, hindex⟩, before, after, rfl, rfl, rfl⟩ := h
        refine ⟨before, after, rfl, rfl, ?_⟩
        rw [List.length_append, List.length_cons] at hindex
        omega
      · intro h
        obtain ⟨before, after, rfl, rfl, hindex⟩ := h
        refine ⟨before.length, ⟨?_, ?_⟩, before, after, rfl, rfl, rfl⟩
        · simp
        · rw [List.length_append, List.length_cons]
          omega
  | takeLast =>
      simp only [apply, take?_eq_some_iff, Operation.Picks]
      constructor
      · intro h
        obtain ⟨before, after, rfl, rfl, hlast⟩ := h
        refine ⟨before, after, rfl, rfl, List.eq_nil_of_length_eq_zero ?_⟩
        rw [List.length_append, List.length_cons] at hlast
        omega
      · intro h
        obtain ⟨before, after, rfl, rfl, rfl⟩ := h
        exact ⟨before, [], rfl, rfl, by simp⟩
  | takeFirst =>
      simp only [apply, take?_eq_some_iff, Operation.Picks, List.length_eq_zero_iff]

/-- An instruction that takes an item has a result when there is that item to take. -/
theorem result_eq_ok_iff {i : ArrayAccess} (hop : i.operation ≠ .length) :
    i.result g = .ok (part, g') ↔ i.Takes g part g' := by
  unfold result Takes
  cases hsource : g.getPath? i.variableName with
  | none => simp
  | some source =>
      cases source with
      | array items =>
          simp only [Option.some.injEq, Json.array.injEq]
          cases happly : apply i.operation i.index items with
          | none =>
              simp only [reduceCtorEq, false_iff]
              rintro ⟨before, after, hitems, hpicks, -⟩
              have hsome := (apply_eq_some_iff hop).mpr ⟨before, after, hitems, rfl, hpicks⟩
              rw [happly] at hsome
              cases hsome
          | some done =>
              obtain ⟨v, rest⟩ := done
              simp only [Except.ok.injEq, Prod.mk.injEq]
              constructor
              · intro h
                obtain ⟨rfl, rfl⟩ := h
                obtain ⟨before, after, hitems, rfl, hpicks⟩ := (apply_eq_some_iff hop).mp happly
                exact ⟨before, after, hitems, hpicks, rfl⟩
              · intro h
                obtain ⟨before, after, hitems, hpicks, rfl⟩ := h
                have hsome := (apply_eq_some_iff hop).mpr ⟨before, after, hitems, rfl, hpicks⟩
                rw [happly] at hsome
                obtain ⟨rfl, rfl⟩ := Prod.mk.inj (Option.some.inj hsome)
                exact ⟨rfl, rfl⟩
      | _ => simp

end ArrayAccess

-- ========================================================= object members

namespace ObjectAccess

/-- The instruction takes `part` out of the variables and leaves `g'`. An absent key is the
empty one. -/
def Takes (i : ObjectAccess) (g : Globals) (part : Json) (g' : Globals) : Prop :=
  ∃ before after : Json.Object,
    g.getPath? i.variableName = some (.object (before ++ (i.key.getD "", part) :: after))
    ∧ i.key.getD "" ∉ before.keys
    ∧ g' = g.overwrite i.variableName (.object (before ++ after))

/-- An instruction that takes a member has a result when there is that member to take. -/
theorem result_eq_ok_iff {i : ObjectAccess} (hop : i.operation = .delete) :
    i.result g = .ok (part, g') ↔ i.Takes g part g' := by
  unfold result Takes apply
  cases hsource : g.getPath? i.variableName with
  | none => simp
  | some source =>
      cases source with
      | object members =>
          simp only [hop, Option.some.injEq, Json.object.injEq]
          cases hget : Table.get? (i.key.getD "") members with
          | none =>
              simp only [Option.map_none, reduceCtorEq, false_iff]
              rintro ⟨before, after, hmembers, hnot, -⟩
              rw [Table.get?_eq_some_iff.mpr ⟨before, after, hmembers, hnot⟩] at hget
              cases hget
          | some v =>
              simp only [Option.map_some, Except.ok.injEq, Prod.mk.injEq]
              constructor
              · intro h
                obtain ⟨rfl, rfl⟩ := h
                obtain ⟨before, after, rfl, hnot⟩ := Table.get?_eq_some_iff.mp hget
                exact ⟨before, after, rfl, hnot, by rw [Table.erase_append_cons hnot]⟩
              · intro h
                obtain ⟨before, after, rfl, hnot, rfl⟩ := h
                rw [Table.get?_eq_some_iff.mpr ⟨before, after, rfl, hnot⟩] at hget
                exact ⟨(Option.some.inj hget).symm, by rw [Table.erase_append_cons hnot]⟩
      | _ => simp

end ObjectAccess

-- ============================================================= the output

/-- The outcome of writing what was taken on the variables that it was taken out of: it
stands at the output, or the output takes nothing there and the variables stay without it. -/
inductive Outcome.Delivers (g' : Globals) (instruction output : String) (part : Json) :
    Outcome → Prop
  | stored {g'' : Globals} : g'.setPath output part = .ok g'' →
      g''.getPath? output = some part → Delivers g' instruction output part ⟨g'', []⟩
  | lost {e : Path.Error} : g'.root.Refuses output e →
      Delivers g' instruction output part ⟨g', [Log.warn
        (instruction ++ ": cannot write output '" ++ output ++ "': " ++ e.message)]⟩

/-- A part that is written to the output is delivered. -/
theorem Outcome.delivers_write (g' : Globals) (instruction output : String) (part : Json) :
    Delivers g' instruction output part (write g' instruction output part) := by
  cases h : g'.setPath output part with
  | ok g'' =>
      rw [write_of_ok h]
      obtain ⟨old, hassign⟩ := Globals.setPath_eq_ok_iff.mp h
      exact .stored h (Json.assign_eq_ok hassign).1.get?
  | error e =>
      rw [write_of_error h]
      exact .lost (Globals.setPath_eq_error_iff.mp h)

/-- A transform whose results are the ways of taking delivers what it takes, and leaves the
variables alone when there is nothing to take. -/
theorem Outcome.ofResult_delivers {instruction variableName output : String}
    {result : Except Shortfall (Json × Globals)} {Takes : Json → Globals → Prop}
    (hresult : ∀ part g', result = .ok (part, g') ↔ Takes part g') :
    (∀ part g', Takes part g' →
      Delivers g' instruction output part (ofResult g instruction variableName output result))
    ∧ ((∀ part g', ¬ Takes part g') →
      (ofResult g instruction variableName output result).globals = g) := by
  constructor
  · intro part g' h
    rw [(hresult part g').mpr h]
    exact delivers_write g' instruction output part
  · intro h
    cases hr : result with
    | error s => rfl
    | ok done =>
        obtain ⟨part, g'⟩ := done
        exact absurd ((hresult part g').mp hr) (h part g')

/-- An instruction that takes a value out of its source and cannot write it at its output
loses the value, and nothing else: the variables are as they were but for the value, and the
log names the output and the reason. Whether the output can be written is decided on what is
left of the variables; if it can, the value stands there. Where there is nothing to take,
the variables are as they were. -/
theorem failed_output_loses_what_was_taken (g : Globals) :
    (∀ i : ArrayAccess, i.operation ≠ .length →
      (∀ part g', i.Takes g part g' →
        Outcome.Delivers g' ArrayAccess.name i.output part (i.run g))
      ∧ ((∀ part g', ¬ i.Takes g part g') → (i.run g).globals = g))
    ∧ ∀ i : ObjectAccess, i.operation = .delete →
      (∀ part g', i.Takes g part g' →
        Outcome.Delivers g' ObjectAccess.name i.output part (i.run g))
      ∧ ((∀ part g', ¬ i.Takes g part g') → (i.run g).globals = g) := by
  refine ⟨?_, ?_⟩
  · intro i hop
    exact Outcome.ofResult_delivers fun part g' => ArrayAccess.result_eq_ok_iff hop
  · intro i hop
    exact Outcome.ofResult_delivers fun part g' => ObjectAccess.result_eq_ok_iff hop

/-- An item that is appended to the list it was taken from, and a member whose output lies
below itself and is gone with it. -/
theorem taken_values_are_delivered :
    let g : Globals := ⟨[("list", .array [.null, .bool true]), ("o", .object [("k", .object [])])]⟩
    let i : ArrayAccess := ⟨"list", .takeAt, some (-2), "list.1"⟩
    let j : ObjectAccess := ⟨"o", .delete, some "k", "o.k.x"⟩
    i.operation ≠ .length ∧ i.Takes g .null (g.overwrite "list" (.array [.bool true]))
      ∧ Outcome.Delivers (g.overwrite "list" (.array [.bool true])) "array" "list.1" .null (i.run g)
      ∧ j.operation = .delete ∧ j.Takes g (.object []) (g.overwrite "o" (.object []))
      ∧ Outcome.Delivers (g.overwrite "o" (.object [])) "object" "o.k.x" (.object [])
        (j.run g) := by
  intro g i j
  have hi : i.Takes g .null (g.overwrite "list" (.array [.bool true])) :=
    ⟨[], [.bool true], by dsimp only [g, i]; rfl, Or.inr rfl, rfl⟩
  have hj : j.Takes g (.object []) (g.overwrite "o" (.object [])) :=
    ⟨[], [], by dsimp only [g, j]; rfl, List.not_mem_nil, rfl⟩
  have hop : i.operation ≠ .length := by decide
  exact ⟨hop, hi, ((failed_output_loses_what_was_taken g).1 i hop).1 _ _ hi,
    rfl, hj, ((failed_output_loses_what_was_taken g).2 j rfl).1 _ _ hj⟩

/-- An output that was refused before and is refused after all the same costs the item: the
last item of a list, meant for a place whose parent is missing. -/
theorem item_without_output_is_lost :
    let g : Globals := ⟨[("list", .array [.bool true])]⟩
    let i : ArrayAccess := ⟨"list", .takeLast, none, "missing.item"⟩
    g.root.Refuses i.output (.missingParent i.output)
      ∧ (i.run g).globals.root.Refuses i.output (.missingParent i.output)
      ∧ (i.run g).globals = ⟨[("list", .array [])]⟩ ∧ (i.run g).globals ≠ g := by
  intro g i
  have hafter : (i.run g).globals = ⟨[("list", .array [])]⟩ := by
    dsimp only [g, i]
    rfl
  have hrefused : ∀ items, (⟨[("list", .array items)]⟩ : Globals).root.Refuses "missing.item"
      (.missingParent "missing.item") := by
    intro items
    have hsegments : Path.ofString "missing.item" = [] ++ "missing" :: ([] ++ ["item"]) := rfl
    exact .missingParent hsegments rfl rfl
  refine ⟨hrefused _, ?_, hafter, ?_⟩
  · rw [hafter]
    exact hrefused []
  · rw [hafter]
    simp [g]

end EventScript.Instruction
