/-
Filling templates in one pass. A placeholder is told by how it is written: blanks, a name and
blanks between double braces. No character of a name is blank and a brace is neither, so at one
place of a text there is at most one placeholder, and the reader needs no second try.

A text is filled from its leftmost placeholder on: what stands before it stays as it is, the value
takes its place, and the text behind it is filled in turn. So the text falls into stretches that
are kept and placeholders that are replaced, and how it falls is settled before any value is
known. A value that looks like a placeholder is never one.
-/
import EventScript.Proofs.Text.Basic
import EventScript.Template

namespace EventScript.Template

-- =========================================================== placeholders

/-- A placeholder as it is written. -/
structure Placeholder where
  before : List Char
  name : List Char
  after : List Char
  before_blank : ∀ c ∈ before, Text.isBlank c = true
  name_ne_nil : name ≠ []
  name_chars : ∀ c ∈ name, isNameChar c = true
  after_blank : ∀ c ∈ after, Text.isBlank c = true

namespace Placeholder

/-- The characters of the placeholder: two braces, the name between blanks, two braces. -/
def chars (m : Placeholder) : List Char :=
  '{' :: '{' :: (m.before ++ (m.name ++ (m.after ++ ['}', '}'])))

/-- The placeholder as it is written. -/
def text (m : Placeholder) : String := String.ofList m.chars

/-- The name that is looked up. -/
def key (m : Placeholder) : String := String.ofList m.name

@[simp] theorem toList_text (m : Placeholder) : m.text.toList = m.chars :=
  String.toList_ofList

theorem chars_append (m : Placeholder) (rest : List Char) :
    m.chars ++ rest = '{' :: '{' :: (m.before ++ (m.name ++ (m.after ++ '}' :: '}' :: rest))) := by
  simp [chars]

theorem chars_append_ne_nil (m : Placeholder) (rest : List Char) : m.chars ++ rest ≠ [] := by
  simp [chars]

/-- A placeholder is not empty, so that the text behind it is shorter. -/
theorem length_text_pos (m : Placeholder) : 0 < m.text.length := by
  rw [text, String.length_ofList]
  exact Nat.zero_lt_succ _

end Placeholder

variable {c : Char} {cs rest : List Char} {m : Placeholder}

/-- A character of a name is not below the dollar sign and not beyond the small letters. -/
theorem toNat_of_isNameChar (h : isNameChar c = true) : 0x24 ≤ c.toNat ∧ c.toNat ≤ 0x7A := by
  have hupper : c.isUpper = true → 0x41 ≤ c.toNat ∧ c.toNat ≤ 0x5A := of_decide_eq_true
  have hlower : c.isLower = true → 0x61 ≤ c.toNat ∧ c.toNat ≤ 0x7A := fun h =>
    (Bool.and_eq_true_iff.mp h).imp of_decide_eq_true of_decide_eq_true
  have hdigit : c.isDigit = true → 0x30 ≤ c.toNat ∧ c.toNat ≤ 0x39 := Char.isDigit_iff_toNat.mp
  change ((((((c.isUpper || c.isLower) || c.isDigit) || c == '_') || c == '$') || c == '.')
    || c == '-') = true at h
  simp only [Bool.or_eq_true, beq_iff_eq] at h
  rcases h with ((((((h | h) | h) | rfl) | rfl) | rfl) | rfl)
  · have := hupper h
    omega
  · have := hlower h
    omega
  · have := hdigit h
    omega
  · decide
  · decide
  · decide
  · decide

/-- A character of a name is no blank. -/
theorem not_isBlank_of_isNameChar (h : isNameChar c = true) : Text.isBlank c = false := by
  have hrange := toNat_of_isNameChar h
  simp only [Text.isBlank, Bool.or_eq_false_iff, Bool.and_eq_false_iff, decide_eq_false_iff_not,
    beq_eq_false_iff_ne]
  omega

theorem not_isNameChar_of_isBlank (h : Text.isBlank c = true) : isNameChar c = false := by
  cases hname : isNameChar c with
  | false => rfl
  | true =>
      rw [not_isBlank_of_isNameChar hname] at h
      cases h

/-- The blanks in front of the name end where the name starts. -/
theorem dropWhile_before (m : Placeholder) (rest : List Char) :
    (m.before ++ (m.name ++ rest)).dropWhile Text.isBlank = m.name ++ rest :=
  Text.dropWhile_blank_append m.before_blank
    (fun c hc => not_isBlank_of_isNameChar (m.name_chars c hc)) m.name_ne_nil

/-- Neither a blank nor a brace goes on with the name. -/
theorem head_not_isNameChar (m : Placeholder) (rest : List Char) :
    ∃ d tail, m.after ++ '}' :: rest = d :: tail ∧ isNameChar d = false := by
  cases hafter : m.after with
  | nil => exact ⟨'}', rest, rfl, by decide⟩
  | cons b after =>
      have hb : b ∈ m.after := by rw [hafter]; exact List.mem_cons_self ..
      exact ⟨b, _, rfl, not_isNameChar_of_isBlank (m.after_blank b hb)⟩

theorem takeWhile_name (m : Placeholder) (rest : List Char) :
    (m.name ++ (m.after ++ '}' :: rest)).takeWhile isNameChar = m.name := by
  obtain ⟨d, tail, htail, hd⟩ := head_not_isNameChar m rest
  rw [List.takeWhile_append_of_pos m.name_chars, htail]
  simp [hd]

/-- Behind the name and its blanks come the braces. -/
theorem dropWhile_name (m : Placeholder) (rest : List Char) :
    ((m.name ++ (m.after ++ '}' :: rest)).dropWhile isNameChar).dropWhile Text.isBlank
      = '}' :: rest := by
  obtain ⟨d, tail, htail, hd⟩ := head_not_isNameChar m rest
  have hname : (m.name ++ (m.after ++ '}' :: rest)).dropWhile isNameChar
      = m.after ++ '}' :: rest := by
    rw [List.dropWhile_append_of_pos m.name_chars, htail]
    simp [hd]
  have hbrace : Text.isBlank '}' = false := by decide
  rw [hname, List.dropWhile_append_of_pos m.after_blank]
  simp [hbrace]

/-- The reader finds the placeholder that stands at the start, and goes on behind it. -/
theorem placeholder?_chars (m : Placeholder) (rest : List Char) :
    placeholder? (m.chars ++ rest) = some (m.name, rest) := by
  rw [m.chars_append]
  unfold placeholder?
  simp only [dropWhile_before, takeWhile_name, dropWhile_name]
  cases hname : m.name with
  | nil => exact absurd hname m.name_ne_nil
  | cons c name => rfl

/-- What the reader takes for a placeholder is written as one. -/
theorem exists_of_placeholder? {name : List Char} (h : placeholder? cs = some (name, rest)) :
    ∃ m : Placeholder, m.name = name ∧ cs = m.chars ++ rest := by
  unfold placeholder? at h
  split at h
  · next inside =>
    dsimp only at h
    split at h
    · next c tail rest' hname hend =>
      cases h
      refine ⟨⟨inside.takeWhile Text.isBlank, c :: tail,
        ((inside.dropWhile Text.isBlank).dropWhile isNameChar).takeWhile Text.isBlank,
        ?_, ?_, ?_, ?_⟩, rfl, ?_⟩
      · exact List.all_eq_true.mp List.all_takeWhile
      · exact List.cons_ne_nil c tail
      · rw [← hname]
        exact List.all_eq_true.mp List.all_takeWhile
      · exact List.all_eq_true.mp List.all_takeWhile
      · rw [Placeholder.chars_append]
        dsimp only
        rw [← hname, ← hend, List.takeWhile_append_dropWhile, List.takeWhile_append_dropWhile,
          List.takeWhile_append_dropWhile]
    · cases h
  · cases h

/-- The reader finds nothing exactly where no placeholder stands. -/
theorem placeholder?_eq_none_iff :
    placeholder? cs = none ↔ ∀ (m : Placeholder) (rest : List Char), cs ≠ m.chars ++ rest := by
  constructor
  · intro h m rest hcs
    rw [hcs, placeholder?_chars] at h
    cases h
  · intro h
    cases hfound : placeholder? cs with
    | none => rfl
    | some found =>
        obtain ⟨m, -, hcs⟩ := exists_of_placeholder? hfound
        exact absurd hcs (h m found.2)

-- ================================================ one place after another

variable {value : String → String}

theorem fillFrom_nil : fillFrom value [] = [] := by
  rw [fillFrom]
  rfl

/-- At a placeholder the value is put in, and filling goes on behind the placeholder. -/
theorem fillFrom_chars (value : String → String) (m : Placeholder) (rest : List Char) :
    fillFrom value (m.chars ++ rest) = (value m.key).toList ++ fillFrom value rest := by
  have hfound := placeholder?_chars m rest
  rw [fillFrom]
  split
  · next h =>
    rw [h] at hfound
    cases hfound
    rfl
  · next h =>
    rw [h] at hfound
    cases hfound

/-- Where no placeholder stands the character is kept. -/
theorem fillFrom_cons (h : placeholder? (c :: cs) = none) :
    fillFrom value (c :: cs) = c :: fillFrom value cs := by
  rw [fillFrom]
  split
  · next hfound =>
    rw [hfound] at h
    cases h
  · rfl

/-- No placeholder starts before `rest` does. -/
def Clear (kept rest : List Char) : Prop :=
  ∀ (skipped ahead : List Char) (m : Placeholder) (after : List Char),
    kept = skipped ++ ahead → ahead ++ rest = m.chars ++ after → ahead = []

theorem clear_nil (rest : List Char) : Clear [] rest := by
  intro skipped ahead m after hkept _
  exact (List.append_eq_nil_iff.mp hkept.symm).2

/-- Characters are clear where no placeholder begins at the first and the others are. -/
theorem clear_cons {kept : List Char} :
    Clear (c :: kept) rest ↔ placeholder? (c :: (kept ++ rest)) = none ∧ Clear kept rest := by
  constructor
  · intro h
    refine ⟨placeholder?_eq_none_iff.mpr fun m after hm => ?_, ?_⟩
    · cases h [] (c :: kept) m after rfl hm
    · intro skipped ahead m after hkept hm
      exact h (c :: skipped) ahead m after (by rw [hkept, List.cons_append]) hm
  · rintro ⟨hnone, hkept⟩ skipped ahead m after hsplit hm
    cases skipped with
    | nil =>
        rw [List.nil_append] at hsplit
        rw [← hsplit] at hm
        exact absurd hm (placeholder?_eq_none_iff.mp hnone m after)
    | cons d skipped =>
        rw [List.cons_append, List.cons.injEq] at hsplit
        exact hkept skipped ahead m after hsplit.2 hm

/-- What no placeholder starts in is kept as it is. -/
theorem fillFrom_of_clear {kept : List Char} (h : Clear kept rest) :
    fillFrom value (kept ++ rest) = kept ++ fillFrom value rest := by
  induction kept with
  | nil => rfl
  | cons c kept ih =>
      rw [clear_cons] at h
      rw [List.cons_append, List.cons_append, fillFrom_cons h.1, ih h.2]

/-- A text is kept whole, or there is a first place where a placeholder starts. -/
theorem clear_or_first (cs : List Char) :
    Clear cs [] ∨ ∃ (kept : List Char) (m : Placeholder) (rest : List Char),
      cs = kept ++ (m.chars ++ rest) ∧ Clear kept (m.chars ++ rest) := by
  induction cs with
  | nil => exact .inl (clear_nil [])
  | cons c cs ih =>
      cases hfound : placeholder? (c :: cs) with
      | some found =>
          obtain ⟨m, -, hcs⟩ := exists_of_placeholder? hfound
          exact .inr ⟨[], m, found.2, hcs, clear_nil _⟩
      | none =>
          rcases ih with hplain | ⟨kept, m, rest, hcs, hclear⟩
          · refine .inl (clear_cons.mpr ⟨?_, hplain⟩)
            rwa [List.append_nil]
          · refine .inr ⟨c :: kept, m, rest, by rw [hcs, List.cons_append], ?_⟩
            exact clear_cons.mpr ⟨hcs ▸ hfound, hclear⟩

-- ====================================================== the leftmost one

variable {t a b : String}

/-- The text holds no placeholder. -/
def Plain (t : String) : Prop :=
  ∀ (a : String) (m : Placeholder) (b : String), t ≠ a ++ m.text ++ b

/-- The text is `a`, the placeholder and `b`, and no placeholder stands further left. -/
structure Leftmost (t a : String) (m : Placeholder) (b : String) : Prop where
  parts : t = a ++ m.text ++ b
  first : ∀ (a' : String) (m' : Placeholder) (b' : String),
    t = a' ++ m'.text ++ b' → a.length ≤ a'.length

theorem toList_parts (a : String) (m : Placeholder) (b : String) :
    (a ++ m.text ++ b).toList = a.toList ++ (m.chars ++ b.toList) := by
  simp

/-- A text is plain where no placeholder begins in it. -/
theorem plain_iff_clear : Plain t ↔ Clear t.toList [] := by
  constructor
  · intro h skipped ahead m after hsplit hm
    refine absurd ?_ (h (String.ofList skipped) m (String.ofList after))
    rw [List.append_nil] at hm
    rw [← String.toList_inj, toList_parts, hsplit, hm]
    simp
  · intro h a m b ht
    rw [ht, toList_parts] at h
    have hnil := h a.toList (m.chars ++ b.toList) m b.toList rfl (List.append_nil _)
    exact m.chars_append_ne_nil _ hnil

/-- A placeholder is the leftmost where none begins in front of it. -/
theorem leftmost_iff_clear :
    Leftmost t a m b
      ↔ t.toList = a.toList ++ (m.chars ++ b.toList) ∧ Clear a.toList (m.chars ++ b.toList) := by
  constructor
  · rintro ⟨hparts, hfirst⟩
    refine ⟨by rw [hparts, toList_parts], fun skipped ahead m' after hsplit hm => ?_⟩
    have hle := hfirst (String.ofList skipped) m' (String.ofList after) (by
      rw [hparts, ← String.toList_inj, toList_parts, toList_parts, hsplit, List.append_assoc, hm]
      simp)
    have hlength := congrArg List.length hsplit
    rw [List.length_append, String.length_toList] at hlength
    rw [String.length_ofList] at hle
    exact List.length_eq_zero_iff.mp (by omega)
  · rintro ⟨hparts, hclear⟩
    refine ⟨by rw [← String.toList_inj, toList_parts, hparts], fun a' m' b' ht => ?_⟩
    rw [ht, toList_parts] at hparts
    have hlength : ∀ s : String, s.length = s.toList.length := fun s => String.length_toList.symm
    rw [hlength, hlength]
    rcases List.append_eq_append_iff.mp hparts with ⟨ahead, hahead, hrest⟩ | ⟨ahead, hahead, -⟩
    · have hnil := hclear a'.toList ahead m' b'.toList hahead hrest.symm
      exact Nat.le_of_eq (by rw [hahead, hnil, List.append_nil])
    · rw [hahead, List.length_append]
      exact Nat.le_add_right ..

/-- A text without a leftmost placeholder holds none. -/
theorem plain_or_leftmost (t : String) :
    Plain t ∨ ∃ (a : String) (m : Placeholder) (b : String), Leftmost t a m b := by
  rcases clear_or_first t.toList with hclear | ⟨kept, m, rest, hparts, hclear⟩
  · exact .inl (plain_iff_clear.mpr hclear)
  · refine .inr ⟨String.ofList kept, m, String.ofList rest, leftmost_iff_clear.mpr ?_⟩
    rw [String.toList_ofList, String.toList_ofList]
    exact ⟨hparts, hclear⟩

-- ============================================================ in one pass

/-- What is shown for a name: the display of the value found under it, or nothing. -/
def display (lookup : String → Option Json) (name : String) : String :=
  ((lookup name).map Json.display).getD ""

/-- What takes the place of a placeholder. -/
def shown (lookup : String → Option Json) (m : Placeholder) : String := display lookup m.key

/-- A text is filled character by character. -/
theorem toList_render (lookup : String → Option Json) (t : String) :
    (render lookup t).toList = fillFrom (display lookup) t.toList := by
  unfold render
  rw [String.toList_ofList]
  refine congrArg (fillFrom · t.toList) (funext fun name => ?_)
  unfold display
  cases lookup name with
  | none => rfl
  | some v => rfl

/-- A plain text stays as it is. -/
theorem render_of_plain (lookup : String → Option Json) (h : Plain t) : render lookup t = t := by
  have hkept : fillFrom (display lookup) (t.toList ++ []) = t.toList ++ fillFrom _ [] :=
    fillFrom_of_clear (plain_iff_clear.mp h)
  rw [fillFrom_nil, List.append_nil] at hkept
  rw [← String.toList_inj, toList_render, hkept]

/-- The leftmost placeholder is replaced, and the text behind it is filled in turn. -/
theorem render_of_leftmost (lookup : String → Option Json) (h : Leftmost t a m b) :
    render lookup t = a ++ shown lookup m ++ render lookup b := by
  obtain ⟨hparts, hclear⟩ := leftmost_iff_clear.mp h
  rw [← String.toList_inj, String.toList_append, String.toList_append, toList_render,
    toList_render, hparts, fillFrom_of_clear hclear, fillFrom_chars, List.append_assoc, shown]

/-- How a text falls: into stretches with a placeholder after each, always the leftmost one of
what is left, and a plain rest. -/
inductive Falls : String → List (String × Placeholder) → String → Prop
  | plain {t : String} (h : Plain t) : Falls t [] t
  | next {t a b last : String} {m : Placeholder} {parts : List (String × Placeholder)}
      (h : Leftmost t a m b) (rest : Falls b parts last) : Falls t ((a, m) :: parts) last

/-- The text that falls so. -/
def written (parts : List (String × Placeholder)) (last : String) : String :=
  parts.foldr (fun (a, m) behind => a ++ m.text ++ behind) last

/-- The text with every placeholder replaced and everything else kept. -/
def filled (lookup : String → Option Json) (parts : List (String × Placeholder)) (last : String) :
    String :=
  parts.foldr (fun (a, m) behind => a ++ shown lookup m ++ behind) last

/-- Every text falls into what is kept and what is replaced, since what is left gets shorter. -/
theorem exists_falls (t : String) : ∃ parts last, Falls t parts last := by
  rcases plain_or_leftmost t with hplain | ⟨a, m, b, hleft⟩
  · exact ⟨[], t, .plain hplain⟩
  · obtain ⟨parts, last, hrest⟩ := exists_falls b
    exact ⟨(a, m) :: parts, last, .next hleft hrest⟩
termination_by t.length
decreasing_by
  have hpos := m.length_text_pos
  rw [hleft.parts, String.length_append, String.length_append]
  omega

/-- Put together again, the parts are the text. -/
theorem written_of_falls {parts : List (String × Placeholder)} {last : String}
    (h : Falls t parts last) : written parts last = t := by
  induction h with
  | plain _ => rfl
  | next hleft _ ih =>
      rw [written] at ih
      rw [written, List.foldr_cons, ih, hleft.parts]

/-- A text is filled part by part. -/
theorem render_of_falls (lookup : String → Option Json) {parts : List (String × Placeholder)}
    {last : String} (h : Falls t parts last) : render lookup t = filled lookup parts last := by
  induction h with
  | plain hplain => exact render_of_plain lookup hplain
  | next hleft _ ih => rw [render_of_leftmost lookup hleft, ih, filled, filled, List.foldr_cons]

/-- A text is filled in one pass. Without a placeholder it stays as it is; else what stands
before the leftmost placeholder is kept, the display of what is found under its name comes in
its place, and the text behind it is filled in turn. So the text falls into what is kept and
what is replaced in one way, whatever is looked up. -/
theorem render_in_one_pass (t : String) :
    (Plain t → ∀ lookup, render lookup t = t)
      ∧ (∀ a m b, Leftmost t a m b →
          ∀ lookup, render lookup t = a ++ shown lookup m ++ render lookup b)
      ∧ (Plain t ∨ ∃ a m b, Leftmost t a m b)
      ∧ ∃ parts last, Falls t parts last ∧ written parts last = t
          ∧ ∀ lookup, render lookup t = filled lookup parts last := by
  refine ⟨fun h lookup => render_of_plain lookup h,
    fun a m b h lookup => render_of_leftmost lookup h, plain_or_leftmost t, ?_⟩
  obtain ⟨parts, last, hfalls⟩ := exists_falls t
  exact ⟨parts, last, hfalls, written_of_falls hfalls,
    fun lookup => render_of_falls lookup hfalls⟩

/-- Surplus braces are kept around the value, and a value that looks like a placeholder is not
filled again. -/
theorem kept_between_braces :
    ∃ m : Placeholder, Leftmost "{{{x}}}" "\x7b" m "\x7d" ∧ Plain "\x7d"
      ∧ render (fun _ => some (.string "{{y}}")) "{{{x}}}" = "{{{y}}}" := by
  let x : Placeholder := ⟨[], ['x'], [], by simp, by simp, by simp; decide, by simp⟩
  have hleft : Leftmost "{{{x}}}" "\x7b" x "\x7d" :=
    leftmost_iff_clear.mpr ⟨rfl, clear_cons.mpr ⟨rfl, clear_nil _⟩⟩
  have hplain : Plain "\x7d" := plain_iff_clear.mpr (clear_cons.mpr ⟨rfl, clear_nil _⟩)
  refine ⟨x, hleft, hplain, ?_⟩
  rw [(render_in_one_pass "{{{x}}}").2.1 "\x7b" x "\x7d" hleft,
    (render_in_one_pass "\x7d").1 hplain]
  rfl

end EventScript.Template
