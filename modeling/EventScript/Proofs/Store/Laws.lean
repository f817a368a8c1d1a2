/-
What a host may rely on in a store: that it is a map of records by id. A kind of store keeps
the laws in its sound states and for the records it can hold; which those are depends on
the kind, and the empty store of the kind has to be one of them.
-/
import EventScript.Store.Basic

namespace EventScript.Store

variable {σ : Type} [Store σ]

/-- The record that can be read under an id. -/
def record? (s : σ) (id : String) : Option Record := (get s id).toOption

/-- A record is got where it is there. -/
theorem get_eq_ok_iff {s : σ} {id : String} {r : Record} :
    get s id = .ok r ↔ record? s id = some r := by
  unfold record?
  cases get s id <;> simp [Except.toOption]

theorem get_eq_error_of_record? {s : σ} {id : String} (h : record? s id = none) :
    ∃ e, get s id = .error e := by
  unfold record? at h
  cases hget : get s id with
  | error e => exact ⟨e, rfl⟩
  | ok r =>
      rw [hget] at h
      cases h

theorem checkId_eq_ok_iff {id : String} : checkId id = .ok () ↔ isValidId id = true := by
  unfold checkId
  split <;> simp [*]

/-- The laws of a map, in sound states and for records that can be held. -/
structure Laws (σ : Type) [Store σ] (Sound : σ → Prop) (Holds : Record → Prop) : Prop where
  /-- A usable id without a record is said to be without one. -/
  get_absent : ∀ {s : σ} {id : String}, Sound s → isValidId id = true → record? s id = none →
    get s id = .error (.notFound id)
  /-- A record is put under its id, and nothing else changes. -/
  put : ∀ {s : σ} {r : Record}, Sound s → isValidId r.id = true → Holds r →
    ∃ s', Store.put s r = .ok s' ∧ Sound s'
      ∧ ∀ id, record? s' id = if id = r.id then some r else record? s id
  /-- A record that is there is taken out, and nothing else changes. -/
  delete : ∀ {s : σ} {id : String} {r : Record}, Sound s → record? s id = some r →
    ∃ s', Store.delete s id = .ok (r, s') ∧ Sound s'
      ∧ ∀ other, record? s' other = if other = id then none else record? s other
  delete_absent : ∀ {s : σ} {id : String}, Sound s → record? s id = none →
    ∃ e, Store.delete s id = .error e
  /-- The ids of the records are listed in ascending order, each once. -/
  list : ∀ {s : σ}, Sound s → ∃ ids, Store.list s = .ok ids ∧ ids.Pairwise (· < ·)
    ∧ ∀ id, id ∈ ids ↔ (record? s id).isSome = true

/-- Whether there is a record under a usable id. -/
theorem Laws.contains {Sound : σ → Prop} {Holds : Record → Prop} (laws : Laws σ Sound Holds)
    {s : σ} (hs : Sound s) {id : String} (hid : isValidId id = true) :
    Store.contains s id = .ok (record? s id).isSome := by
  unfold Store.contains
  cases hr : record? s id with
  | none => rw [laws.get_absent hs hid hr, Option.isSome_none]
  | some r => rw [get_eq_ok_iff.mpr hr, Option.isSome_some]

end EventScript.Store
