/-
What looking up, inserting and erasing say of the entries of a table. An entry is found as
the first of its name. Where the names ascend there is one entry a name, so an erased name is
gone; insertion and erasure keep the names ascending.
-/
import EventScript.Table

namespace EventScript.Table

variable {α : Type} {name : String} {value : α} {t : Table α}

/-- The value under a name is that of the first entry of the name, and erasing the name
leaves the other entries. -/
theorem get?_eq_some_iff :
    t.get? name = some value ↔
      ∃ before after, t = before ++ (name, value) :: after ∧ name ∉ keys before := by
  induction t with
  | nil => simp [get?]
  | cons e rest ih =>
      obtain ⟨k, v⟩ := e
      by_cases hk : k = name
      · subst hk
        simp only [get?, if_true, Option.some.injEq]
        constructor
        · intro h
          subst h
          exact ⟨[], rest, rfl, List.not_mem_nil⟩
        · intro h
          obtain ⟨before, after, heq, hnot⟩ := h
          cases before with
          | nil => exact (Prod.mk.inj (List.cons.inj heq).1).2
          | cons b before =>
              rw [← (List.cons.inj heq).1] at hnot
              exact absurd (List.mem_cons_self ..) hnot
      · simp only [get?, if_neg hk]
        rw [ih]
        constructor
        · intro h
          obtain ⟨before, after, rfl, hnot⟩ := h
          refine ⟨(k, v) :: before, after, rfl, ?_⟩
          simp only [keys, List.map_cons, List.mem_cons, not_or]
          exact ⟨Ne.symm hk, hnot⟩
        · intro h
          obtain ⟨before, after, heq, hnot⟩ := h
          cases before with
          | nil => exact absurd (Prod.mk.inj (List.cons.inj heq).1).1 hk
          | cons b before =>
              obtain ⟨rfl, rfl⟩ := List.cons.inj heq
              exact ⟨before, after, rfl, fun hmem => hnot (List.mem_cons_of_mem _ hmem)⟩

/-- An entry is erased from between the others. -/
theorem erase_append_cons {before after : Table α} (h : name ∉ keys before) :
    erase name (before ++ (name, value) :: after) = before ++ after := by
  induction before with
  | nil => simp [erase]
  | cons e before ih =>
      obtain ⟨k, v⟩ := e
      simp only [keys, List.map_cons, List.mem_cons, not_or] at h
      simp only [List.cons_append, erase, if_neg (Ne.symm h.1), ih h.2]

/-- Exchanging a value for itself changes nothing. -/
theorem replace_self (h : t.get? name = some value) : t.replace name value = t := by
  induction t with
  | nil => rfl
  | cons e rest ih =>
      obtain ⟨k, v⟩ := e
      simp only [get?] at h
      simp only [replace]
      split at h
      case isTrue hk =>
        cases h
        rw [if_pos hk]
      case isFalse hk => rw [if_neg hk, ih h]

-- ================================================================= names

/-- Something is found under the names that there are. -/
theorem isSome_get?_iff : (t.get? name).isSome = true ↔ name ∈ t.keys := by
  induction t with
  | nil => simp [get?, keys]
  | cons e rest ih =>
      obtain ⟨k, v⟩ := e
      by_cases hk : k = name
      · simp [get?, keys, hk]
      · simp only [get?, if_neg hk, ih, keys, List.map_cons, List.mem_cons, Ne.symm hk, false_or]

theorem has_iff_mem_keys : t.has name = true ↔ name ∈ t.keys := isSome_get?_iff

/-- Replacing a value leaves the keys as they are, in their order. -/
theorem keys_replace (name : String) (value : α) (t : Table α) :
    (t.replace name value).keys = t.keys := by
  induction t with
  | nil => rfl
  | cons e rest ih =>
      obtain ⟨k, v⟩ := e
      simp only [replace]
      split
      case isTrue hk => simp [keys, hk]
      case isFalse =>
        simp only [keys, List.map_cons] at ih ⊢
        rw [ih]

/-- Placing adds one key. -/
theorem mem_keys_place {k : String} : k ∈ (t.place name value).keys ↔ k = name ∨ k ∈ t.keys := by
  induction t with
  | nil => simp [place, keys]
  | cons e rest ih =>
      obtain ⟨l, v⟩ := e
      simp only [place]
      split
      · simp [keys]
      · simp only [keys, List.map_cons, List.mem_cons] at ih ⊢
        rw [ih]
        exact or_left_comm

theorem length_place (name : String) (value : α) (t : Table α) :
    (t.place name value).length = t.length + 1 := by
  induction t with
  | nil => rfl
  | cons e rest ih =>
      simp only [place]
      split <;> simp [ih]

/-- A new name makes one entry more, and a name that is there none. -/
theorem length_insert (name : String) (value : α) (t : Table α) :
    (t.insert name value).length = if t.has name then t.length else t.length + 1 := by
  unfold insert
  split
  · simpa [keys] using congrArg List.length (keys_replace name value t)
  · exact length_place name value t

/-- Erasing leaves the other names in their order. -/
theorem keys_erase_sublist (name : String) (t : Table α) :
    (t.erase name).keys.Sublist t.keys := by
  induction t with
  | nil => exact List.Sublist.refl _
  | cons e rest ih =>
      obtain ⟨k, v⟩ := e
      simp only [erase]
      split
      · exact List.sublist_cons_self ..
      · exact ih.cons_cons k

-- ================================================================= lists

/-- What is in a table after a replacement was there before, or is the new entry. -/
theorem mem_replace {e : String × α} (h : e ∈ t.replace name value) :
    e = (name, value) ∨ e ∈ t := by
  induction t with
  | nil => cases h
  | cons f rest ih =>
      obtain ⟨k, v⟩ := f
      simp only [replace] at h
      split at h
      case isTrue hk =>
        subst hk
        exact (List.mem_cons.mp h).imp_right (List.mem_cons_of_mem _)
      case isFalse =>
        rcases List.mem_cons.mp h with hhead | htail
        · exact Or.inr (List.mem_cons.mpr (Or.inl hhead))
        · exact (ih htail).imp_right (List.mem_cons_of_mem _)

/-- What is in a table after a placement was there before, or is the new entry. -/
theorem mem_place {e : String × α} (h : e ∈ t.place name value) :
    e = (name, value) ∨ e ∈ t := by
  induction t with
  | nil => exact Or.inl (List.mem_singleton.mp h)
  | cons f rest ih =>
      obtain ⟨k, v⟩ := f
      simp only [place] at h
      split at h
      · exact List.mem_cons.mp h
      · rcases List.mem_cons.mp h with hhead | htail
        · exact Or.inr (List.mem_cons.mpr (Or.inl hhead))
        · exact (ih htail).imp_right (List.mem_cons_of_mem _)

/-- An entry behind an insertion is the new one or was there. -/
theorem mem_insert {e : String × α} (h : e ∈ t.insert name value) :
    e = (name, value) ∨ e ∈ t := by
  unfold insert at h
  split at h
  · exact mem_replace h
  · exact mem_place h

/-- A table of entries has no other entries. -/
theorem mem_of_mem_ofList {entries : List (String × α)} {e : String × α}
    (h : e ∈ ofList entries) : e ∈ entries := by
  have hfold : ∀ (l : List (String × α)) (t : Table α),
      e ∈ l.foldl (fun t e => t.insert e.1 e.2) t → e ∈ l ∨ e ∈ t := by
    intro l
    induction l with
    | nil => exact fun t h => Or.inr h
    | cons f l ih =>
        intro t h
        rcases ih _ h with hl | hinsert
        · exact Or.inl (List.mem_cons_of_mem _ hl)
        · exact (mem_insert hinsert).imp_left fun heq => List.mem_cons.mpr (Or.inl heq)
  exact (hfold entries [] h).resolve_right List.not_mem_nil

/-- In a table of entries that have each a name of its own, the entries are found. -/
theorem get?_ofList {entries : List (String × α)} (h : (entries.map Prod.fst).Nodup) :
    (ofList entries).get? name = Table.get? name entries := by
  have hfold : ∀ (l : List (String × α)) (t : Table α), (l.map Prod.fst).Nodup →
      get? name (l.foldl (fun t e => t.insert e.1 e.2) t) = (get? name l).or (t.get? name) := by
    intro l
    induction l with
    | nil => exact fun t _ => rfl
    | cons f l ih =>
        intro t hnodup
        obtain ⟨k, v⟩ := f
        obtain ⟨hnew, hrest⟩ := List.nodup_cons.mp hnodup
        rw [List.foldl_cons, ih _ hrest, get?_insert]
        by_cases hk : k = name
        · subst hk
          have hnone : get? k l = none := by
            rw [← Option.not_isSome_iff_eq_none, isSome_get?_iff]
            exact hnew
          simp [get?, hnone]
        · simp [get?, hk, Ne.symm hk]
  exact (hfold entries [] h).trans (Option.or_none)

-- ============================================================== ascending

/-- The names stand in order, each once. -/
def Ascending (t : Table α) : Prop := t.keys.Pairwise (· < ·)

theorem ascending_nil : Ascending ([] : Table α) := .nil

/-- Placing a key that is new leaves the keys in order. -/
theorem Ascending.place (h : t.Ascending) (hnew : name ∉ t.keys) :
    (t.place name value).Ascending := by
  induction t with
  | nil => exact List.pairwise_singleton ..
  | cons e rest ih =>
      obtain ⟨k, v⟩ := e
      obtain ⟨hk, hrest⟩ := List.pairwise_cons.mp h
      simp only [keys, List.map_cons, List.mem_cons, not_or] at hnew
      simp only [Table.place]
      split
      case isTrue hlt =>
        refine List.pairwise_cons.mpr ⟨?_, h⟩
        intro l hl
        cases hl with
        | head => exact hlt
        | tail _ hl => exact String.lt_trans hlt (hk l hl)
      case isFalse hge =>
        refine List.pairwise_cons.mpr ⟨?_, ih hrest hnew.2⟩
        intro l hl
        rcases mem_keys_place.mp hl with rfl | hl
        · -- not before `k` and not `k`, so behind it
          refine String.not_le.mp fun hle => hnew.1 ?_
          exact String.le_antisymm hle (String.not_lt.mp hge)
        · exact hk l hl

/-- Inserting keeps the order of the names. -/
theorem Ascending.insert (h : t.Ascending) (name : String) (value : α) :
    (t.insert name value).Ascending := by
  unfold Table.insert
  split
  case isTrue =>
    unfold Ascending
    rw [keys_replace]
    exact h
  case isFalse hnew =>
    exact h.place (fun hmem => hnew (has_iff_mem_keys.mpr hmem))

/-- Taking an entry away leaves the others in order. -/
theorem Ascending.erase (h : t.Ascending) (name : String) : (t.erase name).Ascending :=
  List.Pairwise.sublist (keys_erase_sublist name t) h

/-- What was erased is not found, and all else is. -/
theorem Ascending.get?_erase (h : t.Ascending) (name other : String) :
    (t.erase name).get? other = if other = name then none else t.get? other := by
  split
  case isTrue heq =>
    subst heq
    induction t with
    | nil => rfl
    | cons e rest ih =>
        obtain ⟨k, v⟩ := e
        obtain ⟨hk, hrest⟩ := List.pairwise_cons.mp h
        by_cases heq : k = other
        · subst heq
          simp only [Table.erase, if_true]
          cases hget : Table.get? k rest with
          | none => rfl
          | some w =>
              have hmem : k ∈ keys rest := isSome_get?_iff.mp (by rw [hget]; rfl)
              exact absurd (hk k hmem) (String.lt_irrefl k)
        · simp only [Table.erase, if_neg heq, get?, ih hrest]
  case isFalse hne => exact get?_erase_of_ne t hne

end EventScript.Table
