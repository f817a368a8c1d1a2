/-
Assignment through a written path, as a lens with a frame. An assignment that is done
rewrites the root at the segments of the path; one that is refused names the first thing on
the way that does not fit, and since a root is a value, the root there was is still the
root. Exchanging a value that is there is the same rewriting, except that it creates nothing.
-/
import EventScript.Instruction.Outcome
import EventScript.Proofs.Except
import EventScript.Proofs.Json.Rewriting
import EventScript.Proofs.Text.Basic

namespace EventScript

-- ========================================================= written paths

/-- A dot between two written paths puts the one behind the other. -/
theorem Path.ofString_append (p q : String) :
    ofString (p ++ "." ++ q) = ofString p ++ ofString q := by
  have hchars : (p ++ "." ++ q).toList = p.toList ++ '.' :: q.toList := by simp
  unfold ofString
  rw [hchars, Text.piecesAt_append_cons rfl, List.filter_append, List.map_append]

namespace Json

variable {root root' v : Json} {p q : String}

/-- A path with segments is followed from the root. -/
theorem get?_of_ne_nil (h : Path.ofString p ≠ []) :
    root.get? p = root.descend? (Path.ofString p) := by
  unfold get?
  split
  · contradiction
  · rfl

theorem get?_of_eq_nil (h : Path.ofString p = []) : root.get? p = none := by
  unfold get?
  rw [h]

/-- Written paths lead alike where their segments do. -/
theorem get?_congr (h : root'.descend? (Path.ofString p) = root.descend? (Path.ofString p)) :
    root'.get? p = root.get? p := by
  by_cases hp : Path.ofString p = []
  · rw [get?_of_eq_nil hp, get?_of_eq_nil hp]
  · rw [get?_of_ne_nil hp, get?_of_ne_nil hp, h]

namespace Rewritten

variable (h : Rewritten v root (Path.ofString p) root')

include h

/-- Nothing is written at a path without segments. -/
theorem ofString_ne_nil : Path.ofString p ≠ [] := by
  intro hp
  rw [hp] at h
  cases h

/-- The value that was written is read back. -/
theorem get? : root'.get? p = some v := by
  rw [get?_of_ne_nil h.ofString_ne_nil, h.descend?]

/-- Below the path stands what is in the value. -/
theorem get?_append (hq : Path.ofString q ≠ []) : root'.get? (p ++ "." ++ q) = v.get? q := by
  have hpq : Path.ofString (p ++ "." ++ q) ≠ [] := by
    rw [Path.ofString_append]
    exact List.append_ne_nil_of_right_ne_nil _ hq
  rw [get?_of_ne_nil hpq, Path.ofString_append, h.descend?_append, get?_of_ne_nil hq]

/-- Beside the path everything is as it was. -/
theorem get?_of_departs (hq : root'.Departs (Path.ofString p) (Path.ofString q)) :
    root'.get? q = root.get? q :=
  get?_congr (h.descend?_of_departs hq)

/-- Where something is found after a write and nothing was before, the path leads along what was
written. -/
theorem leads_of_get? (hbefore : root.get? q = none) (hafter : root'.get? q ≠ none) :
    root'.Leads (Path.ofString p) (Path.ofString q) := by
  have hq : Path.ofString q ≠ [] := by
    intro hq
    exact hafter (get?_of_eq_nil hq)
  rw [get?_of_ne_nil hq] at hbefore hafter
  exact h.leads_of_fresh hbefore hafter

end Rewritten

-- ============================================================ exchanging

/-- A value is exchanged where there is one, and that is all that is rewritten. -/
theorem exchange?_rewritten {c : Json} {path : Path} (hpath : path ≠ [])
    (h : root.descend? path = some c) (new : Json) :
    ∃ root', root.exchange? new path = some root' ∧ Rewritten new root path root' := by
  induction path generalizing root with
  | nil => contradiction
  | cons s path ih =>
      obtain ⟨d, hd, hrest⟩ := Option.bind_eq_some_iff.mp h
      cases path with
      | nil =>
          refine ⟨root.replaceChild s new, ?_, .leaf (updated_replaceChild hd new)⟩
          simp only [exchange?, hd, Option.bind_some, Option.map_some]
      | cons t path =>
          obtain ⟨d', hd', hbelow⟩ := ih (List.cons_ne_nil t path) hrest
          refine ⟨root.replaceChild s d', ?_, .further hd hbelow (updated_replaceChild hd d')⟩
          rw [exchange?, hd, Option.bind_some, hd', Option.map_some]

-- ============================================================== assigning

variable {old : Option Json}

/-- What an assignment through parents has done: it reached the last of them and assigned
there, so the root is rewritten. -/
theorem assignThrough_eq_ok {path segment : String} {parents : Path}
    (h : root.assignThrough path segment v parents = .ok (old, root')) :
    Rewritten v root (parents ++ [segment]) root'
      ∧ ∃ parent, root.descend? parents = some parent ∧ old = parent.child? segment
        ∧ ∀ items, parent = array items → old = none →
            Path.position? segment = some items.length := by
  induction parents generalizing root root' with
  | nil =>
      unfold assignThrough at h
      cases hassign : root.assignChild? segment v with
      | none =>
          rw [hassign] at h
          cases h
      | some done =>
          rw [hassign] at h
          cases h
          obtain ⟨hu, hold, hend⟩ := updated_assignChild? hassign
          exact ⟨.leaf hu, root, rfl, hold, hend⟩
  | cons s parents ih =>
      unfold assignThrough at h
      cases hs : root.child? s with
      | none =>
          rw [hs] at h
          cases h
      | some c =>
          rw [hs] at h
          dsimp only at h
          cases hbelow : c.assignThrough path segment v parents with
          | error e =>
              rw [hbelow] at h
              cases h
          | ok done =>
              obtain ⟨old', c'⟩ := done
              rw [hbelow] at h
              cases h
              obtain ⟨hrewritten, parent, hparent, hold⟩ := ih hbelow
              refine ⟨.further hs hrewritten (updated_replaceChild hs c'), parent, ?_, hold⟩
              simp only [descend?, hs, Option.bind_some, hparent]

/-- Whether a value can get another one at a segment: an object under every name, and an
array at a position it has or right behind the last. -/
def Takes : Json → String → Prop
  | object _, _ => True
  | array items, segment => ∃ i, Path.position? segment = some i ∧ i ≤ items.length
  | _, _ => False

/-- A value is written below another exactly where that takes the segment. -/
theorem assignChild?_isSome_iff {segment : String} :
    (root.assignChild? segment v).isSome = true ↔ root.Takes segment := by
  cases root with
  | object members => simp [assignChild?, Takes]
  | array items =>
      cases hi : Path.position? segment with
      | none => simp [assignChild?, Takes, hi]
      | some i =>
          simp only [assignChild?, Takes, hi, Option.bind_some, Option.some.injEq]
          by_cases hlt : i < items.length
          · simp [hlt, Nat.le_of_lt hlt]
          · by_cases hend : i = items.length
            · simp [hend]
            · have hpast : ¬ i ≤ items.length := by omega
              simp [hlt, hend, hpast]
  | _ => simp [assignChild?, Takes]

/-- Why an assignment is refused. -/
inductive Refuses (root : Json) (p : String) : Path.Error → Prop
  /-- There is no segment to assign at. -/
  | empty : Path.ofString p = [] → Refuses root p .empty
  /-- A segment before the last leads nowhere. -/
  | missingParent {before after : Path} {segment last : String} {c : Json} :
      Path.ofString p = before ++ segment :: (after ++ [last]) →
      root.descend? before = some c → c.child? segment = none →
      Refuses root p (.missingParent p)
  /-- What the segments before the last lead to takes nothing at the last one. -/
  | notAContainer {parents : Path} {last : String} {parent : Json} :
      Path.ofString p = parents ++ [last] → root.descend? parents = some parent →
      ¬ parent.Takes last → Refuses root p (.notAContainer p last)

/-- Through parents, an assignment is refused when they lead nowhere, or the last of them
takes nothing at the segment. -/
theorem assignThrough_eq_error {path segment : String} {parents : Path} {e : Path.Error} :
    root.assignThrough path segment v parents = .error e ↔
      (root.descend? parents = none ∧ e = .missingParent path)
      ∨ ∃ parent, root.descend? parents = some parent ∧ ¬ parent.Takes segment
          ∧ e = .notAContainer path segment := by
  induction parents generalizing root with
  | nil =>
      have htakes : (root.assignChild? segment v).isSome = true ↔ root.Takes segment :=
        assignChild?_isSome_iff
      unfold assignThrough
      cases hassign : root.assignChild? segment v with
      | none =>
          have hnot : ¬ root.Takes segment := by simp [← htakes, hassign]
          simp [descend?, hnot, eq_comm]
      | some done =>
          have hdoes : root.Takes segment := by simp [← htakes, hassign]
          simp [descend?, hdoes]
  | cons s parents ih =>
      unfold assignThrough
      cases hs : root.child? s with
      | none => simp [descend?, hs, eq_comm]
      | some c =>
          simp only [descend?, hs, Option.bind_some]
          rw [← ih]
          cases c.assignThrough path segment v parents with
          | ok done => simp
          | error e' => simp

/-- An assignment at segments that end with `last` goes through those before. -/
theorem assign_eq {parents : Path} {last : String} (hp : Path.ofString p = parents ++ [last]) :
    root.assign p v = root.assignThrough p last v parents := by
  unfold assign
  rw [hp, List.reverse_append, List.reverse_singleton, List.singleton_append]
  simp only [List.reverse_reverse]

/-- An assignment fails exactly where the root refuses the path, and with that error. -/
theorem assign_eq_error_iff {e : Path.Error} :
    root.assign p v = .error e ↔ root.Refuses p e := by
  rcases List.eq_nil_or_concat (Path.ofString p) with hp | ⟨parents, last, hp⟩
  · have hassign : root.assign p v = .error .empty := by
      unfold assign
      rw [hp]
      rfl
    rw [hassign]
    constructor
    · intro h
      cases h
      exact .empty hp
    · intro h
      cases h with
      | empty => rfl
      | missingParent hpath => simp [hp] at hpath
      | notAContainer hpath => simp [hp] at hpath
  · rw [List.concat_eq_append] at hp
    -- the last segment is assigned below the parent the others lead to
    rw [assign_eq hp, assignThrough_eq_error]
    constructor
    · intro h
      rcases h with ⟨hnone, rfl⟩ | ⟨parent, hparent, htakes, rfl⟩
      · obtain ⟨before, s, after, c, rfl, hc, hs⟩ := descend?_eq_none_iff.mp hnone
        have hpath : Path.ofString p = before ++ s :: (after ++ [last]) := by
          rw [hp, List.append_assoc, List.cons_append]
        exact .missingParent hpath hc hs
      · exact .notAContainer hp hparent htakes
    · intro h
      cases h with
      | empty hpath => simp [hp] at hpath
      | @missingParent before after s last' c hpath hc hs =>
          refine Or.inl ⟨?_, rfl⟩
          rw [hp, ← List.cons_append, ← List.append_assoc] at hpath
          rw [(List.append_inj' hpath rfl).1]
          exact descend?_eq_none_iff.mpr ⟨before, s, after, c, rfl, hc, hs⟩
      | @notAContainer parents' last' parent hpath hparent htakes =>
          rw [hp] at hpath
          obtain ⟨hparents, hlast⟩ := List.append_inj' hpath rfl
          cases hlast
          exact Or.inr ⟨parent, by rw [hparents]; exact hparent, htakes, rfl⟩

/-- An assignment that is done rewrites the root and answers with the value there was. -/
theorem assign_eq_ok (h : root.assign p v = .ok (old, root')) :
    Rewritten v root (Path.ofString p) root' ∧ old = root.get? p
      ∧ ∀ parents last items, Path.ofString p = parents ++ [last] →
          root.descend? parents = some (array items) → old = none →
          Path.position? last = some items.length := by
  rcases List.eq_nil_or_concat (Path.ofString p) with hp | ⟨parents, last, hp⟩
  · unfold assign at h
    rw [hp] at h
    cases h
  · rw [List.concat_eq_append] at hp
    rw [assign_eq hp] at h
    obtain ⟨hrewritten, parent, hparent, hold, hend⟩ := assignThrough_eq_ok h
    rw [← hp] at hrewritten
    refine ⟨hrewritten, ?_, ?_⟩
    · have hnil : Path.ofString p ≠ [] := hrewritten.ofString_ne_nil
      rw [hold, get?_of_ne_nil hnil, hp, Json.descend?_append, hparent]
      simp [descend?]
    · intro parents' last' items hpath hitems hnone
      rw [hp] at hpath
      obtain ⟨rfl, hlast⟩ := List.append_inj' hpath rfl
      cases hlast
      rw [hparent] at hitems
      exact hend items (Option.some.inj hitems) hnone

end Json
end EventScript
