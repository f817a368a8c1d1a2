/-
Every built-in instruction says twice what arguments it takes: its schema checks them, and its
reader makes a configuration of what is given. The two agree, but for two places where the
schema is wider: it lets an index be any integer, of which the reader takes those with a sign
in 64 bits, and it asks of the comparisons of a condition no more than that they are mappings.

`Unread` tells these values and the error of each; that there are no others is shown for one
instruction after another, by going through its fields. What may go wrong with a call is read
off that.
-/
import EventScript.Proofs.Instruction.Reading

namespace EventScript

open Decode Comparison

namespace Instruction

-- =========================================================== expressions

namespace Condition

/-- What may stand under the names of an expression: a variable, an operator by its sign, which
may also be the only member of a mapping with null under it, and anything to compare to. -/
def Expression.Member (name : String) (v : Json) : Prop :=
  name = "variable" ∧ (∃ s, v = .string s)
    ∨ name = "operator" ∧ (∃ o : Operator, v = .string o.sign ∨ v = .object [(o.sign, .null)])
    ∨ name = "compareTo"

/-- The value is an object with the three members of an expression and no other. -/
def IsExpression (v : Json) : Prop :=
  ∃ members : Json.Object, v = .object members ∧ (∀ e ∈ members, Expression.Member e.1 e.2)
    ∧ ∀ name ∈ ["variable", "operator", "compareTo"], name ∈ members.keys

end Condition

end Instruction

namespace Decode

variable {α : Type}

/-- A slot finds no mismatch exactly where its reader succeeds. -/
theorem check_eq_none_iff {name : String} {r : Reader α} {v : Json} :
    (slot name r).check v = none ↔ Succeeds (r v) := by
  unfold slot
  dsimp only
  cases r v <;> simp [Succeeds]

/-- A field that has to be there is there, and is read. -/
theorem succeeds_need {o : Json.Object} {field : String} {r : Reader α} :
    Succeeds (need o field r) ↔ ∃ v, o.get? field = some v ∧ Succeeds (r v) := by
  unfold need
  cases o.get? field <;> simp [Succeeds]

theorem succeeds_text {v : Json} : Succeeds (text v) ↔ ∃ s, v = .string s := by
  cases v <;> simp [text, Succeeds]

/-- Where the second reader succeeds on one condition, whatever the first yields, both succeed if
the first does and on that condition. -/
theorem succeeds_bind {β : Type} {x : Except Mismatch α} {f : α → Except Mismatch β} {p : Prop}
    (h : ∀ a, Succeeds (f a) ↔ p) : Succeeds (x >>= f) ↔ Succeeds x ∧ p := by
  cases x with
  | error m => simp [Succeeds, Bind.bind, Except.bind]
  | ok a => simpa [Succeeds, Bind.bind, Except.bind] using h a

end Decode

namespace Instruction.Condition

/-- An operator is read from its sign, alone or above a null. -/
theorem succeeds_operator {v : Json} :
    Succeeds (operator? v)
      ↔ ∃ o : Operator, v = .string o.sign ∨ v = .object [(o.sign, .null)] := by
  have hall : ∀ o : Operator, o ∈ Operator.all := fun o => by cases o <;> decide
  unfold operator?
  rw [succeeds_choice]
  constructor
  · rintro ⟨name, hname, h⟩
    obtain ⟨o, -, rfl⟩ : ∃ o : Operator, o ∈ Operator.all ∧ o.sign = name := by simpa using hname
    exact ⟨o, h⟩
  · rintro ⟨o, h⟩
    exact ⟨o.sign, by simpa using ⟨o, hall o, rfl⟩, h⟩

/-- The slots of an expression. -/
def Expression.slots : List Slot :=
  [slot "variable" text, slot "operator" operator?, slot "compareTo" Decode.any]

/-- A slot is found for the members of an expression, and for no other. -/
theorem Expression.member_iff {name : String} {v : Json} :
    Member name v ↔ ∃ s, (slots.find? fun s => s.name == name) = some s ∧ s.check v = none := by
  have hname : ∀ {α : Type} (n : String) (r : Reader α), (slot n r).name = n := fun _ _ => rfl
  unfold Member slots
  rw [← succeeds_text, ← succeeds_operator]
  simp only [List.find?_cons, hname]
  by_cases hvariable : name = "variable"
  · subst hvariable
    simp [check_eq_none_iff]
  · by_cases hoperator : name = "operator"
    · subst hoperator
      simp [check_eq_none_iff]
    · by_cases hcompare : name = "compareTo"
      · subst hcompare
        simp [check_eq_none_iff, Succeeds, Decode.any]
      · simp [hvariable, hoperator, hcompare, beq_eq_false_iff_ne.mpr (Ne.symm hvariable),
          beq_eq_false_iff_ne.mpr (Ne.symm hoperator), beq_eq_false_iff_ne.mpr (Ne.symm hcompare)]

variable {members : Json.Object}

/-- No member of an expression is found wrong where each is one that may stand there. -/
theorem Expression.firstMismatch?_eq_none_iff :
    firstMismatch? true slots members = none ↔ ∀ e ∈ members, Member e.1 e.2 := by
  unfold firstMismatch?
  rw [List.findSome?_eq_none_iff]
  refine forall₂_congr fun e _ => ?_
  rw [member_iff]
  dsimp only
  cases slots.find? fun s => s.name == e.1 <;> simp

/-- An object is an expression if each member is one that it may have and the three required ones
are there. -/
theorem isExpression_iff : IsExpression (.object members)
    ↔ (∀ e ∈ members, Expression.Member e.1 e.2) ∧ (∃ v, members.get? "variable" = some v)
      ∧ (∃ v, members.get? "operator" = some v) ∧ ∃ v, members.get? "compareTo" = some v := by
  have hthere : ∀ name, name ∈ members.keys ↔ ∃ v, members.get? name = some v := by
    intro name
    rw [← Table.isSome_get?_iff, Option.isSome_iff_exists]
  simp only [← hthere]
  constructor
  · rintro ⟨_, ⟨⟩, hall, hnames⟩
    exact ⟨hall, hnames _ (by decide), hnames _ (by decide), hnames _ (by decide)⟩
  · rintro ⟨hall, hvariable, hoperator, hcompare⟩
    refine ⟨members, rfl, hall, ?_⟩
    simp only [List.mem_cons, List.not_mem_nil, or_false]
    rintro name (rfl | rfl | rfl)
    · exact hvariable
    · exact hoperator
    · exact hcompare

/-- Among members of an expression one that has to be there is read when it is there. -/
theorem Expression.succeeds_need {α : Type} {name : String} {r : Reader α}
    (hall : ∀ e ∈ members, Member e.1 e.2) (hreads : ∀ v, Member name v → Succeeds (r v)) :
    Succeeds (need members name r) ↔ ∃ v, members.get? name = some v := by
  rw [Decode.succeeds_need]
  refine exists_congr fun v => and_iff_left_of_imp fun hget => ?_
  exact hreads v (hall (name, v) (Table.mem_of_get? hget))

/-- The reader of expressions looks at each member, and at the names that there have to be. -/
theorem succeeds_expression :
    Succeeds (Expression.decode (.object members)) ↔ IsExpression (.object members) := by
  rw [isExpression_iff, ← Expression.firstMismatch?_eq_none_iff]
  refine succeeds_record.trans (and_congr_right fun hfirst => ?_)
  have hall := Expression.firstMismatch?_eq_none_iff.mp hfirst
  have hvariable : ∀ v, Expression.Member "variable" v → Succeeds (text v) :=
    fun v h => succeeds_text.mpr (by simpa [Expression.Member] using h)
  have hoperator : ∀ v, Expression.Member "operator" v → Succeeds (operator? v) :=
    fun v h => succeeds_operator.mpr (by simpa [Expression.Member] using h)
  have hcompare : ∀ v, Expression.Member "compareTo" v → Succeeds (Decode.any v) :=
    fun v _ => ⟨v, rfl⟩
  rw [← Expression.succeeds_need hall hvariable, ← Expression.succeeds_need hall hoperator,
    ← Expression.succeeds_need hall hcompare]
  refine succeeds_bind fun _ => succeeds_bind fun _ => ?_
  exact (succeeds_bind fun _ => iff_true_intro (.pure _)).trans (and_iff_left trivial)

end Instruction.Condition

namespace Instruction

-- ========================================================== the two places

/-- The values that a schema accepts for a field of an instruction and its reader does not
take, with the error. -/
inductive Unread : String → String → Json → Mismatch → Prop
  /-- An index that 64 bits with a sign do not hold. -/
  | index {i : Int} {fits : Json.FitsWord i} (beyond : 0x8000000000000000 ≤ i) :
      Unread ArrayAccess.name "index" (.number (.int i fits))
        (.wrongValue (.number (.int i fits)) "i64")
  /-- A list of comparisons one of which is no expression; the first such one is told. -/
  | junction {field : String} {before after : List Json} {v : Json} {m : Mismatch}
      (named : field ∈ ["AND", "OR"]) (sooner : ∀ b ∈ before, Condition.IsExpression b)
      (other : ¬ Condition.IsExpression v) (told : Condition.Expression.decode v = .error m) :
      Unread Condition.name field (.array (before ++ v :: after)) m

/-- The fields that have such values. -/
def Unread.places : List (String × String) :=
  [(ArrayAccess.name, "index"), (Condition.name, "AND"), (Condition.name, "OR")]

/-- Values are left unread at the places listed, and nowhere else. -/
theorem Unread.mem_places {name field : String} {v : Json} {m : Mismatch}
    (h : Unread name field v m) : (name, field) ∈ places := by
  cases h with
  | index => decide
  | junction named =>
      simp only [List.mem_cons, List.not_mem_nil, or_false] at named
      rcases named with rfl | rfl <;> decide

/-- The index left unread is one beyond the signed words of 64 bits. -/
theorem Unread.of_index {field : String} {v : Json} {m : Mismatch}
    (h : Unread ArrayAccess.name field v m) :
    ∃ i fits, 0x8000000000000000 ≤ i ∧ v = .number (.int i fits)
      ∧ m = .wrongValue (.number (.int i fits)) "i64" := by
  generalize hname : ArrayAccess.name = name at h
  cases h with
  | index beyond => exact ⟨_, _, beyond, rfl, rfl⟩
  | junction => exact absurd hname (by decide)

/-- The list left unread has an entry that is no expression, and the first such one is told. -/
theorem Unread.of_junction {field : String} {v : Json} {m : Mismatch}
    (h : Unread Condition.name field v m) :
    ∃ before b after, v = .array (before ++ b :: after)
      ∧ (∀ c ∈ before, Condition.IsExpression c) ∧ ¬ Condition.IsExpression b
      ∧ Condition.Expression.decode b = .error m := by
  generalize hname : Condition.name = name at h
  cases h with
  | index => exact absurd hname (by decide)
  | junction named sooner other told => exact ⟨_, _, _, rfl, sooner, other, told⟩

end Instruction

-- ============================================================ the fields

namespace Decode.Fits

open Instruction

variable {α : Type} {instruction : String} {f : Schema.Field} {r : Reader α}

/-- A reader that takes all that its field accepts, where nothing is left unread. -/
theorem of_reads (hplace : (instruction, f.name) ∉ Unread.places)
    (hreads : ∀ v, v ≠ .null → f.Accepts (some v) → Succeeds (r v)) :
    Fits (Unread instruction) f r := by
  intro v hv haccepts m
  refine iff_of_false (succeeds_iff.mp (hreads v hv haccepts) m) fun hunread => ?_
  exact hplace hunread.mem_places

/-- A field for a text is read as a text. -/
theorem text (hkind : f.kind = .string) (hplace : (instruction, f.name) ∉ Unread.places) :
    Fits (Unread instruction) f Decode.text := by
  refine of_reads hplace fun v hv haccepts => ?_
  have hof := haccepts.kind v rfl hv
  rw [hkind] at hof
  cases hof
  exact ⟨_, rfl⟩

/-- What is read as it stands is read whatever it is. -/
theorem any (hplace : (instruction, f.name) ∉ Unread.places) :
    Fits (Unread instruction) f Decode.any := of_reads hplace fun v _ _ => ⟨v, rfl⟩

/-- The names a field allows are the options of its reader. -/
theorem choice {options : List (String × α)} (hkind : f.kind = .string)
    (hallowed : .oneOf (options.map Prod.fst) ∈ f.constraints)
    (hplace : (instruction, f.name) ∉ Unread.places) :
    Fits (Unread instruction) f (Decode.choice options) := by
  refine of_reads hplace fun v hv haccepts => ?_
  have hof := haccepts.kind v rfl hv
  rw [hkind] at hof
  cases hof with
  | string s =>
      have hmem : s ∈ options.map Prod.fst := haccepts.constraints _ rfl hv _ hallowed s rfl
      exact succeeds_choice.mpr ⟨s, hmem, Or.inl rfl⟩

theorem texts (hkind : f.kind = .stringList) (hplace : (instruction, f.name) ∉ Unread.places) :
    Fits (Unread instruction) f (listOf Decode.text) := by
  refine of_reads hplace fun v hv haccepts => ?_
  have hof := haccepts.kind v rfl hv
  rw [hkind] at hof
  cases hof with
  | stringList each => exact succeeds_mapM.mpr fun v hv => succeeds_text.mpr (each v hv)

theorem textMap (hkind : f.kind = .stringMap) (hplace : (instruction, f.name) ∉ Unread.places) :
    Fits (Unread instruction) f (mapOf Decode.text) := by
  refine of_reads hplace fun v hv haccepts => ?_
  have hof := haccepts.kind v rfl hv
  rw [hkind] at hof
  cases hof with
  | stringMap each =>
      exact succeeds_mapM.mpr fun m hm => succeeds_map.mpr (succeeds_text.mpr (each m hm))

/-- The entries of a branch are read as they are; what they hold is left to the compiler. -/
theorem entries (hkind : f.kind = .program) (hplace : (instruction, f.name) ∉ Unread.places) :
    Fits (Unread instruction) f (listOf Decode.any) := by
  refine of_reads hplace fun v hv haccepts => ?_
  have hof := haccepts.kind v rfl hv
  rw [hkind] at hof
  cases hof with
  | program each => exact succeeds_mapM.mpr fun v _ => ⟨v, rfl⟩

/-- The index is read as a signed word of 64 bits, which is less than its field accepts. -/
theorem index : Fits (Unread ArrayAccess.name) (.may "index" .integer) integer := by
  intro v hv haccepts m
  have hof : Schema.Kind.integer.Of v := haccepts.kind v rfl hv
  cases hof with
  | integer i fits =>
      show (if i < 0x8000000000000000 then .ok i
        else .error (.wrongValue (.number (.int i fits)) "i64") : Except Mismatch Int) = .error m
          ↔ _
      constructor
      · intro h
        split at h
        case isTrue => cases h
        case isFalse hbeyond =>
          cases h
          exact .index (Int.not_lt.mp hbeyond)
      · intro h
        obtain ⟨j, hj, hbeyond, hv, rfl⟩ := h.of_index
        cases hv
        exact if_neg (Int.not_lt.mpr hbeyond)

/-- A list of comparisons is read as a list of expressions, which is less than its field accepts. -/
theorem junction {field : String} {constraints : List Schema.Constraint}
    (named : field ∈ ["AND", "OR"]) :
    Fits (Unread Condition.name) (.may field .mappingList constraints)
      (listOf Condition.Expression.decode) := by
  intro v hv haccepts m
  have hof : Schema.Kind.mappingList.Of v := haccepts.kind v rfl hv
  cases hof with
  | @mappingList items each =>
      have hexpression : ∀ b ∈ items,
          Succeeds (Condition.Expression.decode b) ↔ Condition.IsExpression b := by
        intro b hb
        obtain ⟨members, rfl⟩ := each b hb
        exact Condition.succeeds_expression
      show items.mapM Condition.Expression.decode = .error m ↔ _
      rw [mapM_eq_error]
      constructor
      · rintro ⟨before, b, after, rfl, hbefore, htold⟩
        refine .junction named (fun c hc => ?_) ?_ htold
        · exact (hexpression c (List.mem_append_left _ hc)).mp (hbefore c hc)
        · intro h
          exact succeeds_iff.mp ((hexpression b (by simp)).mpr h) m htold
      · intro h
        obtain ⟨before, b, after, hitems, hbefore, -, htold⟩ := h.of_junction
        cases hitems
        refine ⟨before, b, after, rfl, fun c hc => ?_, htold⟩
        exact (hexpression c (List.mem_append_left _ hc)).mpr (hbefore c hc)

end Decode.Fits

-- ====================================================== the instructions

namespace Instruction

deriving instance Nonempty for ArrayAccess.Operation, Numeric.Operation, ObjectAccess.Operation,
  TextTransform.Operation, Log.Level, Http.Method

/-- Only an index can be left unread here. -/
theorem ArrayAccess.agrees : Agrees (Unread name) schema decode := by
  refine Fills.agrees ?_
  refine .field (.text rfl (by decide)) (.need rfl) slot_tells fun variableName => ?_
  refine .field (.choice rfl List.mem_cons_self (by decide)) (.need rfl) slot_tells
    fun operation => ?_
  refine .field .index .may slot_orNull_tells fun index => ?_
  refine .field (.text rfl (by decide)) (.need rfl) slot_tells fun output => ?_
  exact .done _

theorem Assignment.agrees : Agrees (Unread name) schema decode := by
  refine Fills.agrees ?_
  refine .field (.text rfl (by decide)) (.need rfl) slot_tells fun variableName => ?_
  refine .field (.any (by decide)) (.need rfl) slot_tells fun value => ?_
  exact .done _

theorem Calculation.agrees : Agrees (Unread name) schema decode := by
  refine Fills.agrees ?_
  refine .field (.text rfl (by decide)) (.need rfl) slot_tells fun variableName => ?_
  refine .field (.choice rfl List.mem_cons_self (by decide)) (.need rfl) slot_tells
    fun operation => ?_
  refine .field (.any (by decide)) .may slot_tells fun operand => ?_
  refine .field (.text rfl (by decide)) .may slot_orNull_tells fun operandVariable => ?_
  refine .field (.text rfl (by decide)) (.need rfl) slot_tells fun output => ?_
  exact .done _

/-- Only the lists of comparisons can be left unread here. -/
theorem Condition.agrees : Agrees (Unread name) schema decode := by
  refine Fills.agrees ?_
  refine .field (.junction (by decide)) .may slot_orNull_tells fun all => ?_
  refine .field (.junction (by decide)) .may slot_orNull_tells fun any => ?_
  refine .field (.choice rfl List.mem_cons_self (by decide)) .may slot_orNull_tells fun onTrue => ?_
  refine .field (.choice rfl List.mem_cons_self (by decide)) .may slot_orNull_tells
    fun onFalse => ?_
  refine .field (.entries rfl (by decide)) .may slot_orNull_tells fun branch0 => ?_
  refine .field (.entries rfl (by decide)) .may slot_orNull_tells fun branch1 => ?_
  exact .done _

theorem JobOrder.agrees : Agrees (Unread name) schema decode := by
  refine Fills.agrees ?_
  refine .field (.text rfl (by decide)) (.need rfl) slot_tells fun queue => ?_
  refine .field (.text rfl (by decide)) (.need rfl) slot_tells fun jobName => ?_
  refine .field (.text rfl (by decide)) (.need rfl) slot_tells fun variableName => ?_
  exact .done _

theorem LogNote.agrees : Agrees (Unread name) schema decode := by
  refine Fills.agrees ?_
  refine .field (.text rfl (by decide)) (.need rfl) slot_tells fun message => ?_
  refine .field (.choice rfl List.mem_cons_self (by decide))
    (.orElse Log.Level.info) spareSlot_tells fun level => ?_
  exact .done _

theorem ObjectAccess.agrees : Agrees (Unread name) schema decode := by
  refine Fills.agrees ?_
  refine .field (.text rfl (by decide)) (.need rfl) slot_tells fun variableName => ?_
  refine .field (.choice rfl List.mem_cons_self (by decide)) (.need rfl) slot_tells
    fun operation => ?_
  refine .field (.text rfl (by decide)) .may slot_orNull_tells fun key => ?_
  refine .field (.text rfl (by decide)) (.need rfl) slot_tells fun output => ?_
  exact .done _

theorem SheetRow.agrees : Agrees (Unread name) schema decode := by
  refine Fills.agrees ?_
  refine .field (.text rfl (by decide)) (.need rfl) slot_tells fun spreadsheetId => ?_
  refine .field (.text rfl (by decide)) (.need rfl) slot_tells fun range => ?_
  refine .field (.text rfl (by decide)) (.need rfl) slot_tells fun token => ?_
  refine .field (.texts rfl (by decide)) (.need rfl) slot_tells fun paths => ?_
  exact .done _

theorem TemplateText.agrees : Agrees (Unread name) schema decode := by
  refine Fills.agrees ?_
  refine .field (.text rfl (by decide)) (.need rfl) slot_tells fun template => ?_
  refine .field (.textMap rfl (by decide)) (.need rfl) slot_tells fun bindings => ?_
  refine .field (.text rfl (by decide)) (.need rfl) slot_tells fun output => ?_
  exact .done _

theorem TextTransform.agrees : Agrees (Unread name) schema decode := by
  refine Fills.agrees ?_
  refine .field (.text rfl (by decide)) (.need rfl) slot_tells fun variableName => ?_
  refine .field (.choice rfl List.mem_cons_self (by decide)) (.need rfl) slot_tells
    fun operation => ?_
  refine .field (.text rfl (by decide)) .may slot_orNull_tells fun separator => ?_
  refine .field (.text rfl (by decide)) (.need rfl) slot_tells fun output => ?_
  exact .done _

theorem VariableReport.agrees : Agrees (Unread name) schema decode := by
  refine Fills.agrees ?_
  refine .field (.texts rfl (by decide)) (.need rfl) slot_tells fun paths => ?_
  exact .done _

theorem Webhook.agrees : Agrees (Unread name) schema decode := by
  refine Fills.agrees ?_
  refine .field (.text rfl (by decide)) (.need rfl) slot_tells fun url => ?_
  refine .field (.choice rfl List.mem_cons_self (by decide))
    (.orElse Http.Method.post) spareSlot_tells fun method => ?_
  refine .field (.text rfl (by decide)) .may slot_orNull_tells fun token => ?_
  refine .field (.textMap rfl (by decide)) (.orElse []) spareSlot_tells fun headers => ?_
  refine .field (.text rfl (by decide)) (.need rfl) slot_tells fun variableName => ?_
  exact .done _

end Instruction

-- =========================================================== their calls

namespace InstructionSpec

open Instruction

/-- The schema and the reader of a built-in instruction agree. -/
theorem agrees {spec : InstructionSpec} (hs : spec ∈ builtins) :
    Agrees (Unread spec.name) spec.schema spec.decode := by
  simp only [builtins, List.mem_cons, List.not_mem_nil, or_false] at hs
  rcases hs with rfl | rfl | rfl | rfl | rfl | rfl | rfl | rfl | rfl | rfl | rfl | rfl
  · exact ArrayAccess.agrees.map _
  · exact Condition.agrees.map _
  · exact VariableReport.agrees.map _
  · exact LogNote.agrees.map _
  · exact Calculation.agrees.map _
  · exact ObjectAccess.agrees.map _
  · exact JobOrder.agrees.map _
  · exact Assignment.agrees.map _
  · exact SheetRow.agrees.map _
  · exact TextTransform.agrees.map _
  · exact TemplateText.agrees.map _
  · exact Webhook.agrees.map _

/-- A draft fails on the first fault that the schema finds, or else on what is not read, or else
on a defect of what was read. -/
theorem draft_eq_error_iff {spec : InstructionSpec} {args : Option Json.Object} {e : Defect} :
    spec.draft args = .error e ↔ (∃ fault, spec.schema.check? args = some fault ∧ e = .schema fault)
      ∨ spec.schema.check? args = none
        ∧ ((∃ m, spec.decode (.object (given args)) = .error m ∧ e = .undecodable m)
          ∨ ∃ d, spec.decode (.object (given args)) = .ok d ∧ d.defect? = some e) := by
  unfold draft
  cases spec.schema.check? args with
  | some fault => simp [eq_comm]
  | none =>
      cases spec.decode (.object (given args)) with
      | error m => simp [eq_comm]
      | ok d => cases hdefect : d.defect? <;> simp [hdefect]

/-- What a schema accepts its reader takes, unless an array is asked for at an index beyond 64
bits with a sign, or a comparison in a condition is no expression; and then the error is that of
such a value. So a call fails to bind for a fault of its schema, for such a value, or for what
is found wrong after reading, be it in the draft or in its branches. -/
theorem schema_and_reader_agree {spec : InstructionSpec} (hs : spec ∈ builtins)
    {args : Option Json.Object} (hargs : ∀ o ∈ args, o.keys.Nodup) :
    (spec.schema.check? args = none →
      ((∃ d, spec.decode (.object (given args)) = .ok d)
          ↔ ∀ field v m, (field, v) ∈ given args → ¬ Unread spec.name field v m)
        ∧ ∀ m, spec.decode (.object (given args)) = .error m →
          ∃ field v, (field, v) ∈ given args ∧ Unread spec.name field v m)
    ∧ ∀ compile name e, Program.bind compile spec ⟨name, args⟩ = .error e →
      (∃ fault, spec.schema.check? args = some fault ∧ e = .defect (.schema fault))
        ∨ spec.schema.check? args = none
          ∧ ((∃ m field v, (field, v) ∈ given args ∧ Unread spec.name field v m
                ∧ e = .defect (.undecodable m))
            ∨ ∃ d, spec.decode (.object (given args)) = .ok d
              ∧ ((∃ defect, d.defect? = some defect ∧ e = .defect defect)
                ∨ d.defect? = none ∧ Program.bindDraft compile ⟨name, args⟩ d = .error e)) := by
  have hagrees := agrees hs args hargs
  refine ⟨hagrees, ?_⟩
  intro compile name e hbind
  unfold Program.bind at hbind
  split at hbind
  · next defect hdraft =>
    cases hbind
    rcases draft_eq_error_iff.mp hdraft with ⟨fault, hcheck, rfl⟩ | ⟨hcheck, hread | hfound⟩
    · exact Or.inl ⟨fault, hcheck, rfl⟩
    · obtain ⟨m, hm, rfl⟩ := hread
      obtain ⟨field, v, hmem, hunread⟩ := (hagrees hcheck).2 m hm
      exact Or.inr ⟨hcheck, Or.inl ⟨m, field, v, hmem, hunread, rfl⟩⟩
    · obtain ⟨d, hd, hdefect⟩ := hfound
      exact Or.inr ⟨hcheck, Or.inr ⟨d, hd, Or.inl ⟨defect, hdefect, rfl⟩⟩⟩
  · next d hdraft =>
    obtain ⟨hcheck, hd, hnone⟩ := draft_eq_ok_iff.mp hdraft
    exact Or.inr ⟨hcheck, Or.inr ⟨d, hd, Or.inr ⟨hnone, hbind⟩⟩⟩

/-- An element asked for at the first index beyond. -/
def farElement : Json.Object :=
  [("index", .number (.int 0x8000000000000000 (by decide))), ("output", .string "o"),
    ("transform", .string "at"), ("variable", .string "x")]

/-- It passes the schema, and still it is not read. -/
theorem farElement_unread :
    ArrayAccess.schema.check? (some farElement) = none
      ∧ ¬ ∃ i, ArrayAccess.decode (.object (given (some farElement))) = .ok i := by
  have hspec :
      ofAction ArrayAccess.name ArrayAccess.schema ArrayAccess.decode .array ∈ builtins := by
    simp [builtins]
  have hnodup : ∀ o ∈ some farElement, o.keys.Nodup := by
    rintro _ ⟨⟩
    decide
  have hcheck : ArrayAccess.schema.check? (some farElement) = none := rfl
  obtain ⟨hreads, -⟩ := (schema_and_reader_agree hspec hnodup).1 hcheck
  refine ⟨hcheck, ?_⟩
  rintro ⟨i, hi⟩
  have hdraft : (ofAction ArrayAccess.name ArrayAccess.schema ArrayAccess.decode .array).decode
      (.object (given (some farElement))) = .ok (.action (.array i)) := by
    unfold ofAction
    dsimp only
    rw [hi]
    rfl
  refine hreads.mp ⟨_, hdraft⟩ "index" _ _ List.mem_cons_self (.index ?_)
  decide

end InstructionSpec

end EventScript
