/-
The variables of a run as the root of paths. Their root is an object and stays one whatever
is rewritten in it, so writing variables at a path is assigning in their root, and nothing
is lost on the way back from the root to the variables.
-/
import EventScript.Proofs.Json.Assignment

namespace EventScript

variable {g g' : Globals} {p : String} {v : Json}

/-- An object that is rewritten below itself is an object again. -/
theorem Json.Rewritten.exists_object {members : Json.Object} {path : Path} {root' : Json}
    (h : Rewritten v (.object members) path root') : ∃ members', root' = .object members' := by
  have hedge : ∃ s : String, root'.edge? s = some (.member s) := by
    cases h with
    | @leaf _ _ s hu => exact ⟨s, hu.edge? s⟩
    | @further _ _ _ _ s _ _ _ hu => exact ⟨s, hu.edge? s⟩
  obtain ⟨s, hs⟩ := hedge
  cases root' with
  | object members' => exact ⟨members', rfl⟩
  | array items =>
      obtain ⟨_, -, hi⟩ := Option.map_eq_some_iff.mp hs
      cases hi
  | _ => cases hs

namespace Globals

theorem root_inj (h : g.root = g'.root) : g = g' := by
  cases g
  cases g'
  cases h
  rfl

/-- Variables are written at a path by assigning in their root. -/
theorem setPath_eq_ok_iff :
    g.setPath p v = .ok g' ↔ ∃ old, g.root.assign p v = .ok (old, g'.root) := by
  unfold setPath
  cases h : g.root.assign p v with
  | error e => simp
  | ok done =>
      obtain ⟨old, root'⟩ := done
      obtain ⟨members, rfl⟩ := (Json.assign_eq_ok h).1.exists_object
      simp only [ofRoot?, Option.getD_some, Except.ok.injEq, Prod.mk.injEq, exists_eq_left']
      exact ⟨fun h => h ▸ rfl, fun h => root_inj h⟩

/-- A write is refused exactly where the root refuses the place. -/
theorem setPath_eq_error_iff {e : Path.Error} :
    g.setPath p v = .error e ↔ g.root.Refuses p e := by
  rw [← Json.assign_eq_error_iff (v := v)]
  unfold setPath
  cases g.root.assign p v <;> simp

/-- Exchanging the value at a path rewrites the root there. -/
theorem overwrite_rewritten {c : Json} (h : g.getPath? p = some c) (v : Json) :
    Json.Rewritten v g.root (Path.ofString p) (g.overwrite p v).root := by
  have hpath : Path.ofString p ≠ [] := by
    intro hnil
    unfold getPath? at h
    rw [Json.get?_of_eq_nil hnil] at h
    cases h
  have hdescend : g.root.descend? (Path.ofString p) = some c :=
    (Json.get?_of_ne_nil hpath).symm.trans h
  obtain ⟨root', hroot, hrewritten⟩ := Json.exchange?_rewritten hpath hdescend v
  obtain ⟨members, rfl⟩ := hrewritten.exists_object
  have hoverwrite : g.overwrite p v = ⟨members⟩ := by
    unfold overwrite Json.overwrite?
    split
    · contradiction
    · rw [hroot]
      rfl
  rw [hoverwrite]
  exact hrewritten

end Globals

namespace Instruction.Outcome

variable {instruction output : String}

/-- An output that can be written is, without a word. -/
theorem write_of_ok (h : g.setPath output v = .ok g') :
    write g instruction output v = ⟨g', []⟩ := by
  unfold write
  rw [h]

/-- An output that cannot be written leaves the variables and a warning. -/
theorem write_of_error {e : Path.Error} (h : g.setPath output v = .error e) :
    write g instruction output v = ⟨g, [Log.warn
      (instruction ++ ": cannot write output '" ++ output ++ "': " ++ e.message)]⟩ := by
  unfold write
  rw [h]

end Instruction.Outcome

-- ============================================================== the lens

namespace Json

/-- What an assignment of `v` at the written path `p` has done when it replaced `old` and
made `root'` of `root`. -/
structure Assignment (root : Json) (p : String) (v : Json) (old : Option Json)
    (root' : Json) : Prop where
  /-- The value is read back. -/
  get? : root'.get? p = some v
  /-- What was replaced is what could be read before. -/
  replaced : old = root.get? p
  /-- Below the path stands what is in the value. -/
  below : ∀ q, Path.ofString q ≠ [] → root'.get? (p ++ "." ++ q) = v.get? q
  /-- A path that leaves the way leads where it led, or nowhere as before. -/
  beside : ∀ q, root'.Departs (Path.ofString p) (Path.ofString q) → root'.get? q = root.get? q
  /-- Only what goes through the place can lead somewhere for the first time. -/
  fresh : ∀ q, root.get? q = none → root'.get? q ≠ none →
    root'.Leads (Path.ofString p) (Path.ofString q)
  /-- A new place in an array is the one right behind its last item. -/
  appended : ∀ parents last items, Path.ofString p = parents ++ [last] →
    root.descend? parents = some (array items) → root.get? p = none →
    Path.position? last = some items.length

/-- Assignment through a path is a lens with a frame: what was put is what is got, and
nothing beside it moves. It is refused for want of a segment, of a parent, or of a parent
that takes a value there, and for nothing else; variables stay as they are then. -/
theorem assign_is_lens (root : Json) (p : String) (v : Json) :
    (∀ old root', root.assign p v = .ok (old, root') → root.Assignment p v old root')
    ∧ (∀ e, root.assign p v = .error e ↔ root.Refuses p e)
    ∧ ∀ (g : Globals) (instruction : String) (e : Path.Error), g.root.Refuses p e →
        (Instruction.Outcome.write g instruction p v).globals = g := by
  refine ⟨?_, fun e => assign_eq_error_iff, ?_⟩
  · intro old root' h
    obtain ⟨hrewritten, hold, hend⟩ := assign_eq_ok h
    exact {
      get? := hrewritten.get?
      replaced := hold
      below := fun q hq => hrewritten.get?_append hq
      beside := fun q hq => hrewritten.get?_of_departs hq
      fresh := fun q hbefore hafter => hrewritten.leads_of_get? hbefore hafter
      appended := fun parents last items hp hitems hnone =>
        hend parents last items hp hitems (hold.trans hnone) }
  · intro g instruction e h
    rw [Instruction.Outcome.write_of_error (Globals.setPath_eq_error_iff.mpr h)]

/-- A second spelling of a position, right behind the last item, and a name where a position
is wanted. -/
theorem assign_is_lens_behind_last :
    let root := object [("list", array [null])]
    let root' := object [("list", array [null, bool true])]
    root.assign ".list.+1" (bool true) = .ok (none, root')
      ∧ root.Assignment ".list.+1" (bool true) none root'
      ∧ root.assign "list.x" null = .error (.notAContainer "list.x" "x")
      ∧ root.Refuses "list.x" (.notAContainer "list.x" "x") := by
  intro root root'
  have hok : root.assign ".list.+1" (bool true) = .ok (none, root') := rfl
  have herror : root.assign "list.x" null = .error (.notAContainer "list.x" "x") := rfl
  exact ⟨hok, (assign_is_lens root ".list.+1" (bool true)).1 none root' hok, herror,
    ((assign_is_lens root "list.x" null).2.1 _).mp herror⟩

end Json
end EventScript
