/-
What a schema asks of arguments, said without going through them, and that checking finds
out exactly that. A kind is told by the shapes of its values and a constraint by the ways to
break it, so that it says nothing about a value of another type. Out of these two come what
a field accepts and what is wrong with the value given for it, and from the fields the whole
mapping.

Several things can be wrong at once, and one is reported. `FirstFault` says which: an
undeclared name before any field, the least of those names, and then the first field in the
order of declaration. What is wrong with one field is told by the constructors of `Faulty`,
which exclude each other.
-/
import EventScript.Schema
import EventScript.Proofs.Table

namespace EventScript

namespace Decimal.Binary64

/-- One number lies below another. Nothing lies below or above a NaN. -/
def Below (x y : Binary64) : Prop := x.isNaN = false ∧ y.isNaN = false ∧ x.units < y.units

/-- One double is found less than another where it is below it. -/
theorem compare?_eq_some_lt_iff {x y : Binary64} : x.compare? y = some .lt ↔ x.Below y := by
  unfold compare? Below
  by_cases hx : x.isNaN = true
  · simp [hx]
  · by_cases hy : y.isNaN = true
    · simp [hy]
    · simp [hx, hy, Int.compare_eq_lt]

end Decimal.Binary64

namespace Schema

-- ================================================================= values

/-- The values of each kind. -/
inductive Kind.Of : Kind → Json → Prop
  | string (s : String) : Of .string (.string s)
  | number (n : Json.Number) : Of .number (.number n)
  | integer (i : Int) (fits : Json.FitsWord i) : Of .integer (.number (.int i fits))
  | boolean (b : Bool) : Of .boolean (.bool b)
  | any (v : Json) : Of .any v
  | stringList {items : List Json} (each : ∀ v ∈ items, ∃ s, v = .string s) :
      Of .stringList (.array items)
  | stringMap {members : Json.Object} (each : ∀ m ∈ members, ∃ s, m.2 = .string s) :
      Of .stringMap (.object members)
  | mappingList {items : List Json} (each : ∀ v ∈ items, ∃ members, v = .object members) :
      Of .mappingList (.array items)
  /-- A nested program is a sequence of mappings with one name each. -/
  | program {items : List Json}
      (each : ∀ v ∈ items, ∃ name content, v = .object [(name, content)]) :
      Of .program (.array items)

/-- How a value breaks a constraint. -/
inductive Constraint.Breaks : Constraint → Json → Violation → Prop
  | minLength {n : Nat} {s : String} (short : s.length < n) :
      Breaks (.minLength n) (.string s) (.tooShort n)
  | minItems {n : Nat} {items : List Json} (few : items.length < n) :
      Breaks (.minItems n) (.array items) (.tooFew n)
  | minMembers {n : Nat} {members : Json.Object} (few : members.length < n) :
      Breaks (.minItems n) (.object members) (.tooFew n)
  | oneOf {allowed : List String} {s : String} (other : s ∉ allowed) :
      Breaks (.oneOf allowed) (.string s) (.notOneOf allowed s)
  | below {low high : Decimal.Binary64} {x : Json.Number} (below : x.toBinary64.Below low) :
      Breaks (.range low high) (.number x) (.outOfRange low high)
  | above {low high : Decimal.Binary64} {x : Json.Number} (above : high.Below x.toBinary64) :
      Breaks (.range low high) (.number x) (.outOfRange low high)

/-- The value satisfies the constraint; a value of another type than the constraint is about
always does. -/
def Constraint.Allows : Constraint → Json → Prop
  | minLength n, v => ∀ s, v = .string s → n ≤ s.length
  | minItems n, v => (∀ items, v = .array items → n ≤ items.length)
      ∧ ∀ members, v = .object members → n ≤ members.length
  | oneOf allowed, v => ∀ s, v = .string s → s ∈ allowed
  | range low high, v => ∀ x, v = .number x →
      ¬ x.toBinary64.Below low ∧ ¬ high.Below x.toBinary64

/-- An entry is a mapping with one member. -/
theorem Kind.isEntry_iff {v : Json} :
    Kind.isEntry v = true ↔ ∃ name content, v = .object [(name, content)] := by
  unfold Kind.isEntry
  split
  · next m => exact ⟨fun _ => ⟨m.1, m.2, rfl⟩, fun _ => rfl⟩
  · next hother =>
    constructor
    · intro h
      cases h
    · rintro ⟨name, content, rfl⟩
      exact absurd rfl (hother (name, content))

theorem isString_iff {v : Json} : v.isString = true ↔ ∃ s, v = .string s := by
  cases v <;> simp [Json.isString]

theorem isObject_iff {v : Json} : v.isObject = true ↔ ∃ members, v = .object members := by
  cases v <;> simp [Json.isObject]

/-- A kind accepts the values of that kind. -/
theorem Kind.accepts_iff {k : Kind} {v : Json} : k.accepts v = true ↔ k.Of v := by
  constructor
  · intro h
    unfold Kind.accepts at h
    split at h
    · exact .string _
    · exact .number _
    · next n =>
      cases n with
      | int i fits => exact .integer i fits
      | float x finite => cases h
    · exact .boolean _
    · exact .any _
    · exact .stringList fun v hv => isString_iff.mp (List.all_eq_true.mp h v hv)
    · exact .stringMap fun m hm => isString_iff.mp (List.all_eq_true.mp h m hm)
    · exact .mappingList fun v hv => isObject_iff.mp (List.all_eq_true.mp h v hv)
    · exact .program fun v hv => isEntry_iff.mp (List.all_eq_true.mp h v hv)
    · cases h
  · intro h
    cases h with
    | stringList each => exact List.all_eq_true.mpr fun v hv => isString_iff.mpr (each v hv)
    | stringMap each => exact List.all_eq_true.mpr fun m hm => isString_iff.mpr (each m hm)
    | mappingList each => exact List.all_eq_true.mpr fun v hv => isObject_iff.mpr (each v hv)
    | program each => exact List.all_eq_true.mpr fun v hv => isEntry_iff.mpr (each v hv)
    | _ => rfl

theorem less_iff {x y : Decimal.Binary64} : less x y = true ↔ x.Below y := by
  unfold less
  rw [beq_iff_eq, Decimal.Binary64.compare?_eq_some_lt_iff]

/-- A constraint tells of what breaks it, and of nothing else. -/
theorem Constraint.violation?_eq_some_iff {c : Constraint} {v : Json} {x : Violation} :
    c.violation? v = some x ↔ c.Breaks v x := by
  constructor
  · intro h
    unfold Constraint.violation? at h
    split at h
    · split at h
      case isTrue hshort => cases h; exact .minLength hshort
      case isFalse => cases h
    · split at h
      case isTrue hfew => cases h; exact .minItems hfew
      case isFalse => cases h
    · split at h
      case isTrue hfew => cases h; exact .minMembers hfew
      case isFalse => cases h
    · split at h
      case isTrue => cases h
      case isFalse hother => cases h; exact .oneOf (by simpa using hother)
    · dsimp only at h
      split at h
      case isTrue hout =>
        cases h
        rcases Bool.or_eq_true_iff.mp hout with hlow | hhigh
        · exact .below (less_iff.mp hlow)
        · exact .above (less_iff.mp hhigh)
      case isFalse => cases h
    · cases h
  · intro h
    cases h with
    | minLength short => exact if_pos short
    | minItems few => exact if_pos few
    | minMembers few => exact if_pos few
    | oneOf other => simp [Constraint.violation?, other]
    | below below => simp [Constraint.violation?, less_iff.mpr below]
    | above above => simp [Constraint.violation?, less_iff.mpr above]

/-- A value satisfies a constraint when it does not break it. -/
theorem Constraint.allows_iff {c : Constraint} {v : Json} :
    c.Allows v ↔ ∀ x, ¬ c.Breaks v x := by
  constructor
  · intro hallows x hbreaks
    cases hbreaks with
    | minLength short => exact Nat.not_le.mpr short (hallows _ rfl)
    | minItems few => exact Nat.not_le.mpr few (hallows.1 _ rfl)
    | minMembers few => exact Nat.not_le.mpr few (hallows.2 _ rfl)
    | oneOf other => exact other (hallows _ rfl)
    | below below => exact (hallows _ rfl).1 below
    | above above => exact (hallows _ rfl).2 above
  · intro hbreaks
    cases c with
    | minLength n =>
        rintro s rfl
        exact Nat.not_lt.mp fun short => hbreaks _ (.minLength short)
    | minItems n =>
        constructor
        · rintro items rfl
          exact Nat.not_lt.mp fun few => hbreaks _ (.minItems few)
        · rintro members rfl
          exact Nat.not_lt.mp fun few => hbreaks _ (.minMembers few)
    | oneOf allowed =>
        rintro s rfl
        exact Classical.not_not.mp fun other => hbreaks _ (.oneOf other)
    | range low high =>
        rintro x rfl
        exact ⟨fun below => hbreaks _ (.below below), fun above => hbreaks _ (.above above)⟩

/-- A constraint is silent about what it allows. -/
theorem Constraint.violation?_eq_none_iff {c : Constraint} {v : Json} :
    c.violation? v = none ↔ c.Allows v := by
  rw [Option.eq_none_iff_forall_ne_some, allows_iff]
  exact forall_congr' fun x => not_congr violation?_eq_some_iff

-- ================================================================= fields

/-- What the value given for a field has to be; null is as good as none. -/
structure Field.Accepts (f : Field) (given : Option Json) : Prop where
  there : f.required = true → ∃ v, given = some v ∧ v ≠ .null
  kind : ∀ v, given = some v → v ≠ .null → f.kind.Of v
  constraints : ∀ v, given = some v → v ≠ .null → ∀ c ∈ f.constraints, c.Allows v

/-- What is wrong with the value given for a field: first whether it is there, then its kind,
and then the first constraint it breaks. -/
inductive Field.Faulty (f : Field) : Option Json → Fault → Prop
  | missing {given : Option Json} (required : f.required = true)
      (absent : given = none ∨ given = some .null) : Faulty f given (.missingField f.name)
  | wrongKind {v : Json} (there : v ≠ .null) (other : ¬ f.kind.Of v) :
      Faulty f (some v) (.wrongKind f.name f.kind)
  | violated {v : Json} {before after : List Constraint} {c : Constraint} {x : Violation}
      (there : v ≠ .null) (kind : f.kind.Of v) (listed : f.constraints = before ++ c :: after)
      (sooner : ∀ b ∈ before, b.Allows v) (breaks : c.Breaks v x) :
      Faulty f (some v) (.violated f.name x)

namespace Field

variable {f : Field} {given : Option Json} {v : Json} {fault : Fault}

/-- Without a value there is a fault if the field is required. -/
theorem fault?_absent (h : given = none ∨ given = some .null) :
    f.fault? given = if f.required then some (.missingField f.name) else none := by
  rcases h with rfl | rfl <;> rfl

/-- A value of the wrong kind is a fault; else it is the first constraint that it breaks. -/
theorem fault?_present (h : v ≠ .null) :
    f.fault? (some v) = if f.kind.accepts v then
        (f.constraints.findSome? fun c => c.violation? v).map (.violated f.name)
      else some (.wrongKind f.name f.kind) := by
  unfold fault?
  cases v with
  | null => exact absurd rfl h
  | _ => dsimp only; cases f.kind.accepts _ <;> rfl

/-- What is given is nothing, or null, or a value that counts. -/
theorem absent_or_present (given : Option Json) :
    (given = none ∨ given = some .null) ∨ ∃ v, given = some v ∧ v ≠ .null := by
  cases given with
  | none => exact Or.inl (Or.inl rfl)
  | some v =>
      by_cases hv : v = .null
      · exact Or.inl (Or.inr (congrArg some hv))
      · exact Or.inr ⟨v, rfl, hv⟩

theorem accepts_absent_iff (h : given = none ∨ given = some .null) :
    f.Accepts given ↔ f.required = false := by
  have hnone : ∀ v, given = some v → ¬ v ≠ .null := by
    rintro v hv
    rcases h with rfl | rfl
    · cases hv
    · cases hv
      exact fun hne => hne rfl
  constructor
  · intro haccepts
    cases hrequired : f.required with
    | false => rfl
    | true =>
        obtain ⟨v, hv, hne⟩ := haccepts.there hrequired
        exact absurd hne (hnone v hv)
  · intro hoptional
    refine ⟨fun hrequired => ?_, fun v hv hne => absurd hne (hnone v hv),
      fun v hv hne => absurd hne (hnone v hv)⟩
    rw [hoptional] at hrequired
    cases hrequired

/-- A field accepts a value of its kind that every constraint allows. -/
theorem accepts_present_iff (h : v ≠ .null) :
    f.Accepts (some v) ↔ f.kind.Of v ∧ ∀ c ∈ f.constraints, c.Allows v := by
  constructor
  · intro haccepts
    exact ⟨haccepts.kind v rfl h, haccepts.constraints v rfl h⟩
  · rintro ⟨hkind, hallows⟩
    refine ⟨fun _ => ⟨v, rfl, h⟩, ?_, ?_⟩
    · rintro w ⟨⟩ -
      exact hkind
    · rintro w ⟨⟩ -
      exact hallows

/-- A field is without fault when it accepts what is given for it. -/
theorem fault?_eq_none_iff : f.fault? given = none ↔ f.Accepts given := by
  rcases absent_or_present given with habsent | ⟨v, rfl, hv⟩
  · rw [fault?_absent habsent, accepts_absent_iff habsent]
    cases f.required <;> simp
  · rw [fault?_present hv, accepts_present_iff hv, ← Kind.accepts_iff]
    simp only [← Constraint.violation?_eq_none_iff]
    cases f.kind.accepts v <;> simp [List.findSome?_eq_none_iff]

/-- The fault of a field is what is wrong with the value given for it. -/
theorem fault?_eq_some_iff : f.fault? given = some fault ↔ f.Faulty given fault := by
  constructor
  · intro h
    rcases absent_or_present given with habsent | ⟨v, rfl, hv⟩
    · rw [fault?_absent habsent] at h
      split at h
      case isTrue hrequired => cases h; exact .missing hrequired habsent
      case isFalse => cases h
    · rw [fault?_present hv] at h
      split at h
      case isTrue hkind =>
        obtain ⟨x, hx, rfl⟩ := Option.map_eq_some_iff.mp h
        obtain ⟨before, c, after, hlisted, hbreaks, hsooner⟩ := List.findSome?_eq_some_iff.mp hx
        exact .violated hv (Kind.accepts_iff.mp hkind) hlisted
          (fun b hb => Constraint.violation?_eq_none_iff.mp (hsooner b hb))
          (Constraint.violation?_eq_some_iff.mp hbreaks)
      case isFalse hkind =>
        cases h
        exact .wrongKind hv fun hof => hkind (Kind.accepts_iff.mpr hof)
  · intro h
    cases h with
    | missing required absent => rw [fault?_absent absent, if_pos required]
    | wrongKind there other =>
        rw [fault?_present there, if_neg fun h => other (Kind.accepts_iff.mp h)]
    | violated there kind listed sooner breaks =>
        rw [fault?_present there, if_pos (Kind.accepts_iff.mpr kind)]
        refine Option.map_eq_some_iff.mpr ⟨_, List.findSome?_eq_some_iff.mpr ?_, rfl⟩
        exact ⟨_, _, _, listed, Constraint.violation?_eq_some_iff.mpr breaks,
          fun b hb => Constraint.violation?_eq_none_iff.mpr (sooner b hb)⟩

end Field

-- ================================================================ schemas

/-- The name belongs to a field. -/
def Declares (s : Schema) (name : String) : Prop := ∃ f ∈ s.fields, f.name = name

/-- What a schema asks of arguments, or of their absence. -/
def Accepts (s : Schema) : Option Json.Object → Prop
  | none => ∀ f ∈ s.fields, f.required = false
  | some args => (∀ name ∈ args.keys, s.Declares name)
      ∧ ∀ f ∈ s.fields, f.Accepts (args.get? f.name)

/-- What is reported of arguments that are not accepted. -/
inductive FirstFault (s : Schema) : Option Json.Object → Fault → Prop
  | missingArgs {f : Field} (mem : f ∈ s.fields) (required : f.required = true) :
      FirstFault s none .missingArgs
  /-- Of the names that are not declared the least is reported. -/
  | unexpected {args : Json.Object} {name : String} (mem : name ∈ args.keys)
      (undeclared : ¬ s.Declares name)
      (least : ∀ other ∈ args.keys, ¬ s.Declares other → name ≤ other) :
      FirstFault s (some args) (.unexpectedField name)
  /-- Where every name is declared, the first field with a fault is reported. -/
  | field {args : Json.Object} {before after : List Field} {f : Field} {fault : Fault}
      (declared : ∀ name ∈ args.keys, s.Declares name)
      (listed : s.fields = before ++ f :: after)
      (sooner : ∀ g ∈ before, g.Accepts (args.get? g.name))
      (faulty : f.Faulty (args.get? f.name) fault) : FirstFault s (some args) fault

variable {s : Schema} {args : Json.Object} {fault : Fault}

/-- The code finds the names that are declared. -/
theorem declares_iff {name : String} : s.declares name = true ↔ s.Declares name := by
  unfold declares Declares
  simp

theorem not_declares_iff {name : String} : (!s.declares name) = true ↔ ¬ s.Declares name := by
  rw [← declares_iff]
  simp

/-- The code finds a field that is required. -/
theorem hasRequired_iff : s.hasRequired = true ↔ ∃ f ∈ s.fields, f.required = true := by
  unfold hasRequired
  simp

/-- Without arguments there is one fault, if a field is required. -/
theorem check?_none : s.check? none = if s.hasRequired then some .missingArgs else none := rfl

/-- An undeclared name is reported before any field is looked at. -/
theorem check?_some (s : Schema) (args : Json.Object) :
    (∃ name, args.keys.find? (fun k => !s.declares k) = some name ∧ name ∈ args.keys
        ∧ ¬ s.Declares name ∧ s.check? (some args) = some (.unexpectedField name))
      ∨ (∀ name ∈ args.keys, s.Declares name)
        ∧ s.check? (some args) = s.fields.findSome? fun f => f.fault? (args.get? f.name) := by
  unfold check?
  dsimp only
  cases hfind : args.keys.find? fun k => !s.declares k with
  | some name =>
      have hnot := List.find?_some hfind
      exact Or.inl ⟨name, rfl, List.mem_of_find?_eq_some hfind, not_declares_iff.mp hnot, rfl⟩
  | none =>
      refine Or.inr ⟨fun name hname => ?_, rfl⟩
      have hdeclared := List.find?_eq_none.mp hfind name hname
      exact declares_iff.mp (by simpa using hdeclared)

/-- Of ascending names, the first that is not declared is the least. -/
theorem least_of_find? (h : args.Ascending) {name : String}
    (hfind : args.keys.find? (fun k => !s.declares k) = some name) :
    name ∈ args.keys ∧ ¬ s.Declares name
      ∧ ∀ other ∈ args.keys, ¬ s.Declares other → name ≤ other := by
  obtain ⟨hname, before, after, hkeys, hsooner⟩ := List.find?_eq_some_iff_append.mp hfind
  refine ⟨hkeys ▸ by simp, not_declares_iff.mp hname, ?_⟩
  intro other hother hnot
  unfold Table.Ascending at h
  rw [hkeys] at h hother
  rcases List.mem_append.mp hother with hbefore | hafter
  · have hsooner' := hsooner other hbefore
    rw [not_declares_iff.mpr hnot] at hsooner'
    cases hsooner'
  · rcases List.mem_cons.mp hafter with rfl | hafter
    · exact String.le_refl _
    · have hlt : name < other :=
        (List.pairwise_cons.mp (List.pairwise_append.mp h).2.1).1 other hafter
      exact String.not_lt.mp fun hgt => String.lt_irrefl _ (String.lt_trans hlt hgt)

/-- The least undeclared name is the one found. -/
theorem find?_of_least (h : args.Ascending) {name : String} (hmem : name ∈ args.keys)
    (hnot : ¬ s.Declares name)
    (hleast : ∀ other ∈ args.keys, ¬ s.Declares other → name ≤ other) :
    args.keys.find? (fun k => !s.declares k) = some name := by
  cases hfind : args.keys.find? fun k => !s.declares k with
  | none => exact absurd (not_declares_iff.mpr hnot) (List.find?_eq_none.mp hfind name hmem)
  | some other =>
      obtain ⟨hmem', hnot', hleast'⟩ := least_of_find? h hfind
      have hle : name ≤ other := hleast other hmem' hnot'
      have hge : other ≤ name := hleast' name hmem hnot
      rw [String.le_antisymm hle hge]

/-- Nothing is wrong with arguments exactly when the schema accepts them. -/
theorem check?_eq_none_iff {args : Option Json.Object} :
    s.check? args = none ↔ s.Accepts args := by
  cases args with
  | none =>
      unfold Accepts
      rw [check?_none]
      have hrequired := s.hasRequired_iff
      cases h : s.hasRequired <;> simp_all
  | some args =>
      unfold Accepts
      rcases s.check?_some args with ⟨name, -, hmem, hnot, hcheck⟩ | ⟨hdeclared, hcheck⟩
      · rw [hcheck]
        constructor
        · intro h
          cases h
        · rintro ⟨hdeclared, -⟩
          exact absurd (hdeclared name hmem) hnot
      · rw [hcheck, List.findSome?_eq_none_iff]
        simp only [Field.fault?_eq_none_iff]
        exact (and_iff_right hdeclared).symm

/-- The fault that is found is the first one. -/
theorem firstFault_of_check? {args : Option Json.Object} (hargs : ∀ o ∈ args, o.Ascending)
    (h : s.check? args = some fault) : s.FirstFault args fault := by
  cases args with
  | none =>
      rw [check?_none] at h
      split at h
      case isTrue hrequired =>
        cases h
        obtain ⟨f, hf, hreq⟩ := hasRequired_iff.mp hrequired
        exact .missingArgs hf hreq
      case isFalse => cases h
  | some args =>
      rcases s.check?_some args with ⟨name, hfind, -, -, hcheck⟩ | ⟨hdeclared, hcheck⟩
      · rw [hcheck] at h
        cases h
        obtain ⟨hmem, hnot, hleast⟩ := least_of_find? (hargs args rfl) hfind
        exact .unexpected hmem hnot hleast
      · rw [hcheck] at h
        obtain ⟨before, f, after, hlisted, hfault, hsooner⟩ := List.findSome?_eq_some_iff.mp h
        exact .field hdeclared hlisted (fun g hg => Field.fault?_eq_none_iff.mp (hsooner g hg))
          (Field.fault?_eq_some_iff.mp hfault)

/-- The first fault is found. -/
theorem check?_of_firstFault {args : Option Json.Object} (hargs : ∀ o ∈ args, o.Ascending)
    (h : s.FirstFault args fault) : s.check? args = some fault := by
  cases h with
  | missingArgs mem required =>
      rw [check?_none, if_pos (hasRequired_iff.mpr ⟨_, mem, required⟩)]
  | @unexpected args name mem undeclared least =>
      rcases s.check?_some args with ⟨other, hfind, -, -, hcheck⟩ | ⟨hdeclared, -⟩
      · rw [find?_of_least (hargs args rfl) mem undeclared least] at hfind
        cases hfind
        exact hcheck
      · exact absurd (hdeclared name mem) undeclared
  | @field args before after f fault declared listed sooner faulty =>
      rcases s.check?_some args with ⟨name, -, hmem, hnot, -⟩ | ⟨-, hcheck⟩
      · exact absurd (declared name hmem) hnot
      · rw [hcheck]
        refine List.findSome?_eq_some_iff.mpr ⟨before, f, after, listed, ?_, ?_⟩
        · exact Field.fault?_eq_some_iff.mpr faulty
        · exact fun g hg => Field.fault?_eq_none_iff.mpr (sooner g hg)

/-- Arguments are a mapping, in which a name has one value and names ascend. Checking them
against any schema finds nothing exactly when the schema accepts them, and otherwise the
first fault. -/
theorem check?_finds_first_fault (s : Schema) (args : Option Json.Object)
    (hargs : ∀ o ∈ args, o.Ascending) :
    (s.check? args = none ↔ s.Accepts args)
      ∧ ∀ fault, s.check? args = some fault ↔ s.FirstFault args fault :=
  ⟨check?_eq_none_iff, fun _ => ⟨firstFault_of_check? hargs, check?_of_firstFault hargs⟩⟩

/-- Two names are not declared, and the lesser is reported although a field is missing. -/
theorem check?_note_unexpected :
    check? ⟨[.need "text" .string [.minLength 2], .may "level" .integer]⟩
        (some [("text", .string "x"), ("tone", .null), ("zeal", .null)])
      = some (.unexpectedField "tone") := by
  refine ((check?_finds_first_fault _ _ ?_).2 _).mpr (.unexpected ?_ ?_ ?_)
  · rintro o ⟨⟩
    show List.Pairwise (· < ·) ["text", "tone", "zeal"]
    decide
  · decide
  · simp [Declares, Field.need, Field.may]
  · show ∀ other ∈ ["text", "tone", "zeal"], _
    intro other hother hnot
    simp only [List.mem_cons, List.not_mem_nil, or_false] at hother
    rcases hother with rfl | rfl | rfl
    · exact absurd ⟨_, List.mem_cons_self, rfl⟩ hnot
    · exact String.le_refl _
    · decide

end Schema
end EventScript
