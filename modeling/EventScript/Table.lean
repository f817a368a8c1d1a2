/-
Tables: values under names, one value a name. A table is the list of its entries.
Insertion keeps the entries in the order of their names by code points, so a table that
was built by insertions lists its names in ascending order; looking up and inserting work
on any list of entries, so their laws need no hypothesis about order.
-/

namespace EventScript

/-- Values under names. -/
abbrev Table (α : Type) := List (String × α)

namespace Table

variable {α : Type}

/-- The value under a name. -/
def get? (name : String) : Table α → Option α
  | [] => none
  | (k, v) :: rest => if k = name then some v else get? name rest

/-- Whether the name has a value. -/
def has (name : String) (t : Table α) : Bool := (t.get? name).isSome

/-- The entries with the value under a present name exchanged. -/
def replace (name : String) (value : α) : Table α → Table α
  | [] => []
  | (k, v) :: rest =>
    if k = name then (k, value) :: rest else (k, v) :: replace name value rest

/-- The entries with an absent name put before the first greater one. -/
def place (name : String) (value : α) : Table α → Table α
  | [] => [(name, value)]
  | (k, v) :: rest =>
    if name < k then (name, value) :: (k, v) :: rest else (k, v) :: place name value rest

/-- The entries with `value` under `name`, in place of any value it had. -/
def insert (name : String) (value : α) (t : Table α) : Table α :=
  if t.has name then t.replace name value else t.place name value

/-- The entries without `name`. -/
def erase (name : String) : Table α → Table α
  | [] => []
  | (k, v) :: rest => if k = name then rest else (k, v) :: erase name rest

/-- The names, in order. -/
def keys (t : Table α) : List String := t.map Prod.fst

/-- The values, in the order of their names. -/
def values (t : Table α) : List α := t.map Prod.snd

/-- The table of a list of entries in any order; of two with one name the later counts. -/
def ofList (entries : List (String × α)) : Table α :=
  entries.foldl (fun t e => t.insert e.1 e.2) []

-- ================================================================== laws

private theorem get?_replace (t : Table α) (name other : String) (value : α)
    (present : t.has name = true) :
    (t.replace name value).get? other = if other = name then some value else t.get? other := by
  induction t with
  | nil => simp [has, get?] at present
  | cons e rest ih =>
    obtain ⟨k, v⟩ := e
    by_cases h : k = name
    · subst h
      by_cases ho : other = k
      · simp [replace, get?, ho]
      · simp [replace, get?, ho, Ne.symm ho]
    · have present' : has name rest = true := by simpa [has, get?, h] using present
      by_cases ho : k = other
      · subst ho; simp [replace, get?, h]
      · simp [replace, get?, h, ho, ih present']

private theorem get?_place (t : Table α) (name other : String) (value : α)
    (absent : t.has name = false) :
    (t.place name value).get? other = if other = name then some value else t.get? other := by
  induction t with
  | nil =>
    by_cases ho : other = name
    · simp [place, get?, ho]
    · simp [place, get?, ho, Ne.symm ho]
  | cons e rest ih =>
    obtain ⟨k, v⟩ := e
    have h : k ≠ name := by
      intro h; simp [has, get?, h] at absent
    have absent' : has name rest = false := by simpa [has, get?, h] using absent
    by_cases hlt : name < k
    · by_cases ho : other = name
      · simp [place, hlt, get?, ho]
      · simp [place, hlt, get?, ho, Ne.symm ho]
    · by_cases ho : k = other
      · subst ho; simp [place, hlt, get?, h]
      · simp [place, hlt, get?, ho, ih absent']

/-- After an insertion the name has the new value, and every other name what it had. -/
theorem get?_insert (t : Table α) (name other : String) (value : α) :
    (t.insert name value).get? other = if other = name then some value else t.get? other := by
  unfold insert
  split
  · next h => exact get?_replace t name other value h
  · next h => exact get?_place t name other value (by simpa using h)

/-- Erasing a name keeps every other name's value. -/
theorem get?_erase_of_ne (t : Table α) {name other : String} (h : other ≠ name) :
    (t.erase name).get? other = t.get? other := by
  induction t with
  | nil => rfl
  | cons e rest ih =>
    obtain ⟨k, v⟩ := e
    by_cases hk : k = name
    · subst hk; simp [erase, get?, Ne.symm h]
    · by_cases ho : k = other
      · subst ho; simp [erase, get?, h]
      · simp [erase, get?, hk, ho, ih]

end Table
end EventScript
