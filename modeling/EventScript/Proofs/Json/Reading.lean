/-
A document that was written is read back. Written with its lines indented, a value is read
as itself, member by member in the order in which they stand, if it has no double in it and is
nested no deeper than the reader goes. A double is another matter: it is written in as few
digits as tell it from its neighbours, and reading may miss it.

The reader is told how much it may do by the length of the text; every character pays for
two of its calls, and that is enough.
-/
import EventScript.Proofs.Json.Scanning

namespace EventScript.Json

mutual

/-- Whether the value has no doubles and is nested at most so many levels deep. -/
def readable (depth : Nat) : Json → Bool
  | number n => n.isInteger
  | array items => 0 < depth && readableItems (depth - 1) items
  | object members => 0 < depth && readableMembers (depth - 1) members
  | _ => true

/-- Every item is readable at this depth. -/
def readableItems (depth : Nat) : List Json → Bool
  | [] => true
  | v :: rest => readable depth v && readableItems depth rest

/-- The value of every member is readable at this depth. -/
def readableMembers (depth : Nat) : List (String × Json) → Bool
  | [] => true
  | (_, v) :: rest => readable depth v && readableMembers depth rest

end

namespace Reader

-- ================================================================= blanks

/-- Skipping stops in front of a character that is none of the four blanks. -/
theorem skipBlanks_of_not_blank {c : Char} {cs : List Char}
    (h : (c == ' ' || c == '\t' || c == '\n' || c == '\r') = false) :
    skipBlanks (c :: cs) = c :: cs := by
  rw [skipBlanks, h]
  rfl

theorem skipBlanks_replicate (n : Nat) (cs : List Char) :
    skipBlanks (List.replicate n ' ' ++ cs) = skipBlanks cs := by
  induction n with
  | zero => rfl
  | succ n ih => exact ih

theorem toList_newLine (level : Nat) :
    (newLine level).toList = '\n' :: List.replicate (2 * level) ' ' := by
  simp [newLine]

/-- A line end and the indentation behind it are skipped whole. -/
theorem skipBlanks_newLine (level : Nat) (cs : List Char) :
    skipBlanks ((newLine level).toList ++ cs) = skipBlanks cs := by
  rw [toList_newLine]
  exact skipBlanks_replicate _ cs

/-- Behind blanks that were skipped there are none. -/
theorem skipBlanks_skipBlanks (cs : List Char) : skipBlanks (skipBlanks cs) = skipBlanks cs := by
  induction cs with
  | nil => rfl
  | cons c cs ih =>
      cases hc : c == ' ' || c == '\t' || c == '\n' || c == '\r' with
      | true =>
          rw [skipBlanks, hc]
          exact ih
      | false => rw [skipBlanks_of_not_blank hc, skipBlanks_of_not_blank hc]

/-- A number in front of a line end has ended there. -/
theorem endsNumber_newLine (level : Nat) (cs : List Char) :
    EndsNumber ((newLine level).toList ++ cs) := by
  rw [toList_newLine]
  intro c hc
  cases hc
  decide

-- ========================================== blanks before a value are skipped

/-- Blanks before a value do not count. -/
theorem value?_skipBlanks (fuel depth : Nat) (cs : List Char) :
    value? fuel depth (skipBlanks cs) = value? fuel depth cs := by
  cases fuel with
  | zero => rfl
  | succ fuel => rw [value?, value?, skipBlanks_skipBlanks]

/-- Blanks in front of an item are skipped by the reader of items too. -/
theorem items?_skipBlanks (fuel depth : Nat) (cs : List Char) :
    items? fuel depth (skipBlanks cs) = items? fuel depth cs := by
  cases fuel with
  | zero => rfl
  | succ fuel => rw [items?, items?, value?_skipBlanks]

/-- Blanks in front of a name are skipped by the reader of members too. -/
theorem members?_skipBlanks (fuel depth : Nat) (cs : List Char) :
    members? fuel depth (skipBlanks cs) = members? fuel depth cs := by
  cases fuel with
  | zero => rfl
  | succ fuel => rw [members?, members?, skipBlanks_skipBlanks]

theorem value?_blank (fuel depth : Nat) (cs : List Char) :
    value? fuel depth (' ' :: cs) = value? fuel depth cs :=
  (value?_skipBlanks fuel depth (' ' :: cs)).symm.trans (value?_skipBlanks fuel depth cs)

-- ============================================================ first letters

/-- A character that a value may start with. -/
def Opens (c : Char) : Prop :=
  (c == ' ' || c == '\t' || c == '\n' || c == '\r') = false ∧ c ≠ ']'

/-- A value may open with a digit. -/
theorem opens_of_isDigit {c : Char} (h : c.isDigit = true) : Opens c := by
  have hrange := Char.isDigit_iff_toNat.mp h
  have hzero : '0'.toNat = 48 := rfl
  refine ⟨?_, ?_⟩
  · simp only [Bool.or_eq_false_iff, beq_eq_false_iff_ne]
    refine ⟨⟨⟨?_, ?_⟩, ?_⟩, ?_⟩ <;> (rintro rfl; exact absurd h (by decide))
  · rintro rfl
    exact absurd h (by decide)

/-- An integer opens with a digit or a minus. -/
theorem toString_opens (i : Int) : ∃ c cs, (toString i).toList = c :: cs ∧ Opens c
    ∧ (c.isDigit = true ∨ c = '-') := by
  cases h : (toString i).toList with
  | nil =>
      have hread := Text.signed?_toString i
      rw [h] at hread
      cases hread
  | cons c cs =>
      have hc := Text.mem_toString (i := i) (c := c) (by rw [h]; exact List.mem_cons_self ..)
      refine ⟨c, cs, rfl, ?_, hc⟩
      rcases hc with hdigit | rfl
      · exact opens_of_isDigit hdigit
      · exact ⟨by decide, by decide⟩

/-- An array with items is written with each item on a line of its own, one level deeper, and its
bracket on a last line at the old level. -/
theorem toList_array (level : Nat) (v : Json) (rest : List Json) :
    (indentedAt level (array (v :: rest))).toList
      = '[' :: ((indentedItems (level + 1) (v :: rest)).toList
          ++ ((newLine level).toList ++ [']'])) := by
  show ("[" ++ indentedItems (level + 1) (v :: rest) ++ newLine level ++ "]").toList = _
  simp only [String.toList_append, List.append_assoc]
  rfl

/-- An object with members is laid out as an array is, with braces. -/
theorem toList_object (level : Nat) (m : String × Json) (rest : List (String × Json)) :
    (indentedAt level (object (m :: rest))).toList
      = '\x7b' :: ((indentedMembers (level + 1) (m :: rest)).toList
          ++ ((newLine level).toList ++ ['\x7d'])) := by
  show ("\x7b" ++ indentedMembers (level + 1) (m :: rest) ++ newLine level ++ "\x7d").toList = _
  simp only [String.toList_append, List.append_assoc]
  rfl

theorem toList_item (level : Nat) (v : Json) :
    (indentedItems level [v]).toList = (newLine level).toList ++ (indentedAt level v).toList :=
  String.toList_append

theorem toList_items (level : Nat) (v w : Json) (rest : List Json) :
    (indentedItems level (v :: w :: rest)).toList
      = (newLine level).toList ++ ((indentedAt level v).toList
          ++ ',' :: (indentedItems level (w :: rest)).toList) := by
  show (newLine level ++ indentedAt level v ++ "," ++ indentedItems level (w :: rest)).toList = _
  simp only [String.toList_append, List.append_assoc]
  rfl

theorem toList_quoted (s : String) :
    (quoted s).toList = '"' :: (s.toList.flatMap escapeChar ++ ['"']) :=
  String.toList_ofList

/-- A member is its name in quotes, a colon, a blank and its value. -/
theorem toList_member (level : Nat) (k : String) (v : Json) :
    (indentedMembers level [(k, v)]).toList
      = (newLine level).toList ++ '"' :: (k.toList.flatMap escapeChar
          ++ '"' :: ':' :: ' ' :: (indentedAt level v).toList) := by
  show (newLine level ++ quoted k ++ ": " ++ indentedAt level v).toList = _
  simp only [String.toList_append, List.append_assoc, toList_quoted, List.cons_append,
    List.nil_append]
  rfl

/-- Behind a comma the members go on as if the next one were the first. -/
theorem toList_members (level : Nat) (k : String) (v : Json) (m : String × Json)
    (rest : List (String × Json)) :
    (indentedMembers level ((k, v) :: m :: rest)).toList
      = (indentedMembers level [(k, v)]).toList
          ++ ',' :: (indentedMembers level (m :: rest)).toList := by
  show (newLine level ++ quoted k ++ ": " ++ indentedAt level v ++ ","
    ++ indentedMembers level (m :: rest)).toList = _
  rw [String.toList_append, String.toList_append, List.append_assoc]
  rfl

theorem toList_null (level : Nat) : (indentedAt level null).toList = ['n', 'u', 'l', 'l'] := by
  rw [indentedAt]
  rfl

theorem toList_true (level : Nat) :
    (indentedAt level (bool true)).toList = ['t', 'r', 'u', 'e'] := by
  rw [indentedAt]
  rfl

theorem toList_false (level : Nat) :
    (indentedAt level (bool false)).toList = ['f', 'a', 'l', 's', 'e'] := by
  rw [indentedAt]
  rfl

theorem toList_array_nil (level : Nat) : (indentedAt level (array [])).toList = ['[', ']'] := by
  rw [indentedAt]
  rfl

theorem toList_object_nil (level : Nat) :
    (indentedAt level (object [])).toList = ['\x7b', '\x7d'] := by
  rw [indentedAt]
  rfl

/-- The text of a readable value opens as values do. -/
theorem indentedAt_opens {depth : Nat} {v : Json} (h : v.readable depth = true) (level : Nat) :
    ∃ c cs, (indentedAt level v).toList = c :: cs ∧ Opens c := by
  cases v with
  | null => exact ⟨'n', _, toList_null level, by decide, by decide⟩
  | bool b =>
      cases b with
      | true => exact ⟨'t', _, toList_true level, by decide, by decide⟩
      | false => exact ⟨'f', _, toList_false level, by decide, by decide⟩
  | number n =>
      cases n with
      | float x hx => cases h
      | int i hi =>
          obtain ⟨c, cs, hcs, hc, -⟩ := toString_opens i
          exact ⟨c, cs, hcs, hc⟩
  | string s => exact ⟨'"', _, toList_quoted s, by decide, by decide⟩
  | array items =>
      cases items with
      | nil => exact ⟨'[', _, toList_array_nil level, by decide, by decide⟩
      | cons v rest => exact ⟨'[', _, toList_array level v rest, by decide, by decide⟩
  | object members =>
      cases members with
      | nil => exact ⟨'\x7b', _, toList_object_nil level, by decide, by decide⟩
      | cons m rest => exact ⟨'\x7b', _, toList_object level m rest, by decide, by decide⟩

/-- Behind the opening bracket the text of items does not begin with the closing one. -/
theorem indentedItems_opens {depth : Nat} {v : Json} (h : v.readable depth = true) (level : Nat)
    (items : List Json) (closing : List Char) :
    ∃ c tail, skipBlanks ((indentedItems level (v :: items)).toList ++ closing) = c :: tail
      ∧ c ≠ ']' := by
  obtain ⟨c, cs, hcs, hc⟩ := indentedAt_opens h level
  cases items with
  | nil =>
      rw [toList_item, List.append_assoc, skipBlanks_newLine, hcs]
      exact ⟨c, _, skipBlanks_of_not_blank hc.1, hc.2⟩
  | cons w rest =>
      rw [toList_items, List.append_assoc, skipBlanks_newLine, hcs]
      exact ⟨c, _, skipBlanks_of_not_blank hc.1, hc.2⟩

/-- The text of members starts with the first of their names. -/
theorem indentedMembers_opens (level : Nat) (k : String) (v : Json)
    (members : List (String × Json)) (closing : List Char) :
    ∃ behind, skipBlanks ((indentedMembers level ((k, v) :: members)).toList ++ closing)
        = '"' :: (k.toList.flatMap escapeChar ++ '"' :: ':' :: ' '
            :: ((indentedAt level v).toList ++ behind))
      ∧ behind = (match members with
        | [] => closing
        | m :: rest => ',' :: (indentedMembers level (m :: rest)).toList ++ closing) := by
  cases members with
  | nil =>
      refine ⟨closing, ?_, rfl⟩
      rw [toList_member, List.append_assoc, skipBlanks_newLine, List.cons_append,
        skipBlanks_of_not_blank (by decide)]
      simp
  | cons m rest =>
      refine ⟨_, ?_, rfl⟩
      rw [toList_members, toList_member, List.append_assoc, List.append_assoc, skipBlanks_newLine,
        List.cons_append, skipBlanks_of_not_blank (by decide)]
      simp

-- ================================================================== values

/-- What starts like a number is read as a number, whatever else a value may be. -/
theorem value?_of_number {fuel depth : Nat} {c : Char} {cs rest : List Char} {n : Number}
    (hc : c.isDigit = true ∨ c = '-') (h : number? (c :: cs) = some (n, rest)) :
    value? (fuel + 1) depth (c :: cs) = some (.number n, rest) := by
  have hblank : (c == ' ' || c == '\t' || c == '\n' || c == '\r') = false := by
    rcases hc with hdigit | rfl
    · exact (opens_of_isDigit hdigit).1
    · decide
  have hother : ∀ x ∈ ['n', 't', 'f', '"', '[', '\x7b'], c ≠ x := by
    intro x hx heq
    subst heq
    have hnone : ['n', 't', 'f', '"', '[', '\x7b'].all fun x => !(x.isDigit || x == '-') := by
      decide
    obtain ⟨hnot, hne⟩ : c.isDigit = false ∧ c ≠ '-' := by
      simpa using List.all_eq_true.mp hnone c hx
    rcases hc with hdigit | heq
    · rw [hnot] at hdigit
      cases hdigit
    · exact hne heq
  unfold value?
  rw [skipBlanks_of_not_blank hblank]
  split
  · next heq => exact absurd (List.cons.inj heq).1 (hother _ (by decide))
  · next heq => exact absurd (List.cons.inj heq).1 (hother _ (by decide))
  · next heq => exact absurd (List.cons.inj heq).1 (hother _ (by decide))
  · next heq => exact absurd (List.cons.inj heq).1 (hother _ (by decide))
  · next heq => exact absurd (List.cons.inj heq).1 (hother _ (by decide))
  · next heq => exact absurd (List.cons.inj heq).1 (hother _ (by decide))
  · rw [h]
    rfl

/-- A printed integer is read back, where what follows ends it. -/
theorem value?_number {fuel depth : Nat} {i : Int} (h : FitsWord i) {rest : List Char}
    (hrest : EndsNumber rest) :
    value? (fuel + 1) depth ((toString i).toList ++ rest) = some (.number (.int i h), rest) := by
  have hnumber := number?_toString h hrest
  obtain ⟨c, cs, hcs, -, hdigit⟩ := toString_opens i
  rw [hcs, List.cons_append] at hnumber ⊢
  exact value?_of_number hdigit hnumber

/-- A string is read back from its quotes, whatever stands behind them. -/
theorem value?_string {fuel depth : Nat} (s : String) (rest : List Char) :
    value? (fuel + 1) depth ((quoted s).toList ++ rest) = some (.string s, rest) := by
  have hstring := string?_flatMap s rest
  rw [toList_quoted, List.cons_append, List.append_assoc]
  show (string? _).map _ = _
  rw [List.cons_append, List.nil_append, hstring]
  rfl

/-- A list is read where its items are. -/
theorem value?_array {fuel depth : Nat} {cs tail rest : List Char} {c : Char} {items : List Json}
    (hopen : skipBlanks cs = c :: tail) (hc : c ≠ ']')
    (hitems : items? fuel depth cs = some (items, rest)) :
    value? (fuel + 1) (depth + 1) ('[' :: cs) = some (.array items, rest) := by
  rw [← items?_skipBlanks, hopen] at hitems
  have hself : skipBlanks ('[' :: cs) = '[' :: cs := skipBlanks_of_not_blank (by decide)
  simp only [value?, hself, hopen]
  split
  · next heq => exact absurd (List.cons.inj heq).1 hc
  · rw [hitems]
    rfl

/-- An object is read where its members are. -/
theorem value?_object {fuel depth : Nat} {cs tail rest : List Char}
    {members : List (String × Json)} (hopen : skipBlanks cs = '"' :: tail)
    (hmembers : members? fuel depth cs = some (members, rest)) :
    value? (fuel + 1) (depth + 1) ('\x7b' :: cs) = some (.object members, rest) := by
  rw [← members?_skipBlanks, hopen] at hmembers
  have hself : skipBlanks ('\x7b' :: cs) = '\x7b' :: cs := skipBlanks_of_not_blank (by decide)
  simp only [value?, hself, hopen]
  show (members? fuel depth ('"' :: tail)).map _ = _
  rw [hmembers]
  rfl

/-- The last item stands before the closing bracket. -/
theorem items?_last {fuel depth : Nat} {cs behind rest : List Char} {v : Json}
    (hv : value? fuel depth cs = some (v, behind)) (hclosing : skipBlanks behind = ']' :: rest) :
    items? (fuel + 1) depth cs = some ([v], rest) := by
  simp only [items?, hv, hclosing, Option.bind_eq_bind, Option.bind_some]

/-- Behind a comma the reader of items goes on, with one unit of fuel less. -/
theorem items?_more {fuel depth : Nat} {cs behind tail rest : List Char} {v : Json}
    {items : List Json} (hv : value? fuel depth cs = some (v, behind))
    (hcomma : skipBlanks behind = ',' :: tail)
    (hitems : items? fuel depth tail = some (items, rest)) :
    items? (fuel + 1) depth cs = some (v :: items, rest) := by
  simp only [items?, hv, hcomma, hitems, Option.bind_eq_bind, Option.bind_some]

/-- The last member stands before the closing brace. -/
theorem members?_last {fuel depth : Nat} {cs tail behind rest : List Char} {k : String} {v : Json}
    (hname : skipBlanks cs = '"' :: (k.toList.flatMap escapeChar ++ '"' :: ':' :: tail))
    (hv : value? fuel depth tail = some (v, behind))
    (hclosing : skipBlanks behind = '\x7d' :: rest) :
    members? (fuel + 1) depth cs = some ([(k, v)], rest) := by
  have hcolon : skipBlanks (':' :: tail) = ':' :: tail := skipBlanks_of_not_blank (by decide)
  simp only [members?, hname, string?_flatMap, hcolon, hv, hclosing, Option.bind_eq_bind,
    Option.bind_some]

/-- Behind a comma the reader of members goes on, with one unit of fuel less. -/
theorem members?_more {fuel depth : Nat} {cs tail behind next rest : List Char} {k : String}
    {v : Json} {members : List (String × Json)}
    (hname : skipBlanks cs = '"' :: (k.toList.flatMap escapeChar ++ '"' :: ':' :: tail))
    (hv : value? fuel depth tail = some (v, behind)) (hcomma : skipBlanks behind = ',' :: next)
    (hmembers : members? fuel depth next = some (members, rest)) :
    members? (fuel + 1) depth cs = some ((k, v) :: members, rest) := by
  have hcolon : skipBlanks (':' :: tail) = ':' :: tail := skipBlanks_of_not_blank (by decide)
  simp only [members?, hname, string?_flatMap, hcolon, hv, hcomma, hmembers, Option.bind_eq_bind,
    Option.bind_some]

/-- A number in front of a comma has ended there. -/
theorem endsNumber_comma (cs : List Char) : EndsNumber (',' :: cs) := by
  intro c hc
  cases hc
  decide

/-- Two calls a character are at least one. -/
theorem exists_fuel {depth fuel level : Nat} {v : Json} (hv : v.readable depth = true)
    (hfuel : 2 * (indentedAt level v).toList.length ≤ fuel + 1) : ∃ n, fuel = n + 1 := by
  obtain ⟨c, cs, hcs, -⟩ := indentedAt_opens hv level
  rw [hcs, List.length_cons] at hfuel
  exact ⟨fuel - 1, by omega⟩

mutual

/-- A value is read from its text, whatever stands behind it. -/
theorem value?_indentedAt : ∀ (v : Json) (fuel level : Nat) {depth : Nat} {rest : List Char},
    v.readable depth = true → 2 * (indentedAt level v).toList.length ≤ fuel + 1 →
    EndsNumber rest →
    value? fuel depth ((indentedAt level v).toList ++ rest) = some (v, rest)
  | null => by
      intro fuel level _ _ hv hfuel _
      obtain ⟨n, rfl⟩ := exists_fuel hv hfuel
      rw [toList_null]
      rfl
  | bool b => by
      intro fuel level _ _ hv hfuel _
      obtain ⟨n, rfl⟩ := exists_fuel hv hfuel
      cases b with
      | true =>
          rw [toList_true]
          rfl
      | false =>
          rw [toList_false]
          rfl
  | number n => by
      intro fuel _ _ _ hv hfuel hrest
      obtain ⟨_, rfl⟩ := exists_fuel hv hfuel
      cases n with
      | float x hx => cases hv
      | int i h => exact value?_number h hrest
  | string s => by
      intro fuel _ _ rest hv hfuel _
      obtain ⟨n, rfl⟩ := exists_fuel hv hfuel
      exact value?_string s rest
  | array items => by
      intro fuel level depth rest hv hfuel _
      obtain ⟨fuel, rfl⟩ := exists_fuel hv hfuel
      rw [readable, Bool.and_eq_true_iff, decide_eq_true_iff] at hv
      obtain ⟨hdepth, hall⟩ := hv
      obtain ⟨depth, rfl⟩ : ∃ n, depth = n + 1 := ⟨depth - 1, by omega⟩
      cases items with
      | nil =>
          rw [toList_array_nil]
          rfl
      | cons v items =>
          -- what stands behind the last item is blank up to the bracket
          have hclosing : skipBlanks ((newLine level).toList ++ ']' :: rest) = ']' :: rest := by
            rw [skipBlanks_newLine, skipBlanks_of_not_blank (by decide)]
          -- no item begins with a closing bracket, so the array is not read as empty
          obtain ⟨c, tail, hopen, hc⟩ := indentedItems_opens
            (Bool.and_eq_true_iff.mp hall).1 (level + 1) items
            ((newLine level).toList ++ ']' :: rest)
          rw [toList_array, List.length_cons, List.length_append] at hfuel
          rw [toList_array, List.cons_append, List.append_assoc, List.append_assoc]
          exact value?_array hopen hc (items?_indentedItems (v :: items) (List.cons_ne_nil v items)
            fuel (level + 1) hall (by omega) hclosing (endsNumber_newLine level _))
  | object members => by
      intro fuel level depth rest hv hfuel _
      obtain ⟨fuel, rfl⟩ := exists_fuel hv hfuel
      rw [readable, Bool.and_eq_true_iff, decide_eq_true_iff] at hv
      obtain ⟨hdepth, hall⟩ := hv
      obtain ⟨depth, rfl⟩ : ∃ n, depth = n + 1 := ⟨depth - 1, by omega⟩
      cases members with
      | nil =>
          rw [toList_object_nil]
          rfl
      | cons m members =>
          have hclosing : skipBlanks ((newLine level).toList ++ '\x7d' :: rest)
              = '\x7d' :: rest := by
            rw [skipBlanks_newLine, skipBlanks_of_not_blank (by decide)]
          obtain ⟨behind, hopen, -⟩ := indentedMembers_opens (level + 1) m.1 m.2 members
            ((newLine level).toList ++ '\x7d' :: rest)
          rw [toList_object, List.length_cons, List.length_append] at hfuel
          rw [toList_object, List.cons_append, List.append_assoc, List.append_assoc]
          exact value?_object hopen (members?_indentedMembers (m :: members)
            (List.cons_ne_nil m members) fuel (level + 1) hall (by omega) hclosing
            (endsNumber_newLine level _))

/-- Items are read from their text up to the bracket. -/
theorem items?_indentedItems : ∀ (items : List Json), items ≠ [] →
    ∀ (fuel level : Nat) {depth : Nat} {closing rest : List Char},
    readableItems depth items = true →
    2 * (indentedItems level items).toList.length ≤ fuel →
    skipBlanks closing = ']' :: rest → EndsNumber closing →
    items? fuel depth ((indentedItems level items).toList ++ closing) = some (items, rest)
  | [], hne => absurd rfl hne
  | [v], _ => by
      intro fuel level depth closing rest hv hfuel hclosing hend
      have hfirst : v.readable depth = true := (Bool.and_eq_true_iff.mp hv).1
      rw [toList_item, toList_newLine, List.length_append, List.length_cons] at hfuel
      obtain ⟨fuel, rfl⟩ : ∃ n, fuel = n + 1 := ⟨fuel - 1, by omega⟩
      have hv := value?_indentedAt v fuel level hfirst (by omega) hend
      rw [toList_item, List.append_assoc, ← items?_skipBlanks, skipBlanks_newLine,
        items?_skipBlanks]
      exact items?_last hv hclosing
  | v :: w :: items, _ => by
      intro fuel level depth closing rest hv hfuel hclosing hend
      obtain ⟨hfirst, hothers⟩ := Bool.and_eq_true_iff.mp hv
      rw [toList_items, toList_newLine, List.length_append, List.length_append, List.length_cons,
        List.length_cons] at hfuel
      obtain ⟨fuel, rfl⟩ : ∃ n, fuel = n + 1 := ⟨fuel - 1, by omega⟩
      have hv := value?_indentedAt v fuel level hfirst (by omega)
        (endsNumber_comma ((indentedItems level (w :: items)).toList ++ closing))
      have hitems := items?_indentedItems (w :: items) (List.cons_ne_nil w items) fuel
        level hothers (by omega) hclosing hend
      rw [toList_items, List.append_assoc, ← items?_skipBlanks, skipBlanks_newLine,
        items?_skipBlanks, List.append_assoc, List.cons_append]
      exact items?_more hv (skipBlanks_of_not_blank (by decide)) hitems

/-- Members are read from their text up to the brace. -/
theorem members?_indentedMembers : ∀ (members : List (String × Json)), members ≠ [] →
    ∀ (fuel level : Nat) {depth : Nat} {closing rest : List Char},
    readableMembers depth members = true →
    2 * (indentedMembers level members).toList.length ≤ fuel →
    skipBlanks closing = '\x7d' :: rest → EndsNumber closing →
    members? fuel depth ((indentedMembers level members).toList ++ closing)
      = some (members, rest)
  | [], hne => absurd rfl hne
  | [(k, v)], _ => by
      intro fuel level depth closing rest hv hfuel hclosing hend
      have hfirst : v.readable depth = true := (Bool.and_eq_true_iff.mp hv).1
      obtain ⟨_, hname, rfl⟩ := indentedMembers_opens level k v [] closing
      rw [toList_member, toList_newLine] at hfuel
      simp only [List.length_append, List.length_cons] at hfuel
      obtain ⟨fuel, rfl⟩ : ∃ n, fuel = n + 1 := ⟨fuel - 1, by omega⟩
      have hv := value?_indentedAt v fuel level hfirst (by omega) hend
      rw [← value?_blank] at hv
      exact members?_last hname hv hclosing
  | (k, v) :: m :: members, _ => by
      intro fuel level depth closing rest hv hfuel hclosing hend
      obtain ⟨hfirst, hothers⟩ := Bool.and_eq_true_iff.mp hv
      obtain ⟨_, hname, rfl⟩ := indentedMembers_opens level k v (m :: members) closing
      rw [toList_members, toList_member, toList_newLine] at hfuel
      simp only [List.length_append, List.length_cons] at hfuel
      obtain ⟨fuel, rfl⟩ : ∃ n, fuel = n + 1 := ⟨fuel - 1, by omega⟩
      have hv := value?_indentedAt v fuel level hfirst (by omega)
        (endsNumber_comma ((indentedMembers level (m :: members)).toList ++ closing))
      have hmembers := members?_indentedMembers (m :: members) (List.cons_ne_nil m members)
        fuel level hothers (by omega) hclosing hend
      rw [← value?_blank] at hv
      exact members?_more hname hv (skipBlanks_of_not_blank (by decide)) hmembers

end

end Reader

/-- A value without doubles, nested no deeper than the reader goes, is read from its text. -/
theorem written?_indented {v : Json} (h : v.readable Reader.maxDepth = true) :
    written? v.indented = some v := by
  have hend : Reader.EndsNumber [] := fun c hc => by cases hc
  have hread := Reader.value?_indentedAt v (2 * v.indented.toList.length + 2) 0 h
    (by unfold indented; omega) hend
  rw [List.append_nil] at hread
  unfold written?
  show (Reader.value? _ _ v.indented.toList).bind _ = _
  unfold indented at hread ⊢
  rw [hread]
  rfl

end EventScript.Json
