/-
Which texts are integers, character by character. With the blanks around it left out, such a
text is decimal digits behind a sign or none, or hexadecimal digits behind `0x`. What a digit is
and what digits denote is said here without a reader: a letter counts in either case, and the
last digit is worth the least.

One more form is read: hexadecimal digits with a sign between them and the prefix. It is no form
of an integer, since a sign belongs in front of the whole, and there it is not read at all.
-/
import EventScript.Proofs.Numeric.Radix
import EventScript.Proofs.Text.Basic

namespace EventScript

namespace Text

variable {radix n d : Nat} {c : Char} {cs body : List Char} {i j : Int} {text : String}

-- ============================================================= the blanks

/-- The text is this, but for blanks before and behind it. -/
def Encloses (text : String) (body : List Char) : Prop :=
  ∃ before after, text.toList = before ++ body ++ after
    ∧ (∀ c ∈ before, isBlank c = true) ∧ ∀ c ∈ after, isBlank c = true

/-- What has no blank in it is found again between blanks. -/
theorem trimmed_of_encloses (h : Encloses text body) (hbody : ∀ c ∈ body, isBlank c = false)
    (hne : body ≠ []) : trimmed text.toList = body := by
  obtain ⟨before, after, htext, hbefore, hafter⟩ := h
  have hback : (after.reverse ++ (body.reverse ++ [])).dropWhile isBlank = body.reverse ++ [] :=
    dropWhile_blank_append (fun c hc => hafter c (List.mem_reverse.mp hc))
      (fun c hc => hbody c (List.mem_reverse.mp hc)) (List.reverse_ne_nil_iff.mpr hne)
  rw [List.append_nil] at hback
  unfold trimmed
  rw [htext, List.append_assoc, dropWhile_blank_append hbefore hbody hne, List.reverse_append,
    hback, List.reverse_reverse]

/-- Trimming takes nothing but blanks. -/
theorem encloses_trimmed (text : String) : Encloses text (trimmed text.toList) := by
  have hblank : ∀ (cs : List Char), ∀ c ∈ cs.takeWhile isBlank, isBlank c = true :=
    fun cs c hc => List.all_eq_true.mp List.all_takeWhile c hc
  refine ⟨text.toList.takeWhile isBlank,
    ((text.toList.dropWhile isBlank).reverse.takeWhile isBlank).reverse, ?_, hblank _, ?_⟩
  · unfold trimmed
    rw [List.append_assoc, ← List.reverse_append, List.takeWhile_append_dropWhile,
      List.reverse_reverse, List.takeWhile_append_dropWhile]
  · intro c hc
    exact hblank _ c (List.mem_reverse.mp hc)

-- ============================================================= the digits

/-- The characters are digits of the radix, at least one, and denote the number. -/
def Denotes (radix : Nat) (cs : List Char) (n : Nat) : Prop :=
  cs ≠ [] ∧ ∃ ds, List.Forall₂ (fun c d => c.toLower = Nat.digitChar d ∧ d < radix) cs ds
    ∧ n = Nat.ofDigits radix ds.reverse

/-- The digits that are read are those that are written, and letters in either case. -/
theorem digitValue?_eq_some_iff (hradix : radix ≤ 16) :
    digitValue? radix c = some d ↔ c.toLower = d.digitChar ∧ d < radix := by
  have hchar : ∀ d < 16, d.digitChar.toNat = if d < 10 then 0x30 + d else 0x61 + (d - 10) := by
    decide
  rw [← Char.toNat_inj, toNat_toLower]
  constructor
  · intro h
    obtain ⟨hlt, hrange⟩ := range_of_digitValue? h
    rw [hchar d (by omega)]
    refine ⟨?_, hlt⟩
    split <;> split <;> omega
  · intro h
    obtain ⟨heq, hlt⟩ := h
    rw [hchar d (by omega)] at heq
    have hvalue : (if 0x30 ≤ c.toNat ∧ c.toNat ≤ 0x39 then c.toNat - 0x30
        else if 0x61 ≤ c.toNat ∧ c.toNat ≤ 0x7A then c.toNat - 0x61 + 10
        else if 0x41 ≤ c.toNat ∧ c.toNat ≤ 0x5A then c.toNat - 0x41 + 10 else radix) = d := by
      split at heq <;> split at heq <;> grind
    unfold digitValue?
    simp only [Bool.and_eq_true, decide_eq_true_eq, hvalue, hlt, if_true]

/-- What digits denote is what they are read as. -/
theorem denotes_iff_writesNat (hradix : radix ≤ 16) :
    Denotes radix cs n ↔ WritesNat radix cs n := by
  unfold Denotes WritesNat
  simp only [digitValue?_eq_some_iff hradix]

-- ============================================================== the forms

/-- The characters are an integer: decimal behind a sign or none, or hexadecimal behind its
prefix and nothing else. -/
inductive IsInteger : List Char → Int → Prop
  | plain {digits : List Char} {n : Nat} : Denotes 10 digits n → IsInteger digits n
  | plus {digits : List Char} {n : Nat} : Denotes 10 digits n → IsInteger ('+' :: digits) n
  | minus {digits : List Char} {n : Nat} : Denotes 10 digits n → IsInteger ('-' :: digits) (-n)
  | hexadecimal {x : Char} {digits : List Char} {n : Nat} : x = 'x' ∨ x = 'X' →
      Denotes 16 digits n → IsInteger ('0' :: x :: digits) n

/-- The characters are hexadecimal digits with a sign between them and the prefix. -/
inductive HasInnerSign : List Char → Int → Prop
  | plus {x : Char} {digits : List Char} {n : Nat} : x = 'x' ∨ x = 'X' →
      Denotes 16 digits n → HasInnerSign ('0' :: x :: '+' :: digits) n
  | minus {x : Char} {digits : List Char} {n : Nat} : x = 'x' ∨ x = 'X' →
      Denotes 16 digits n → HasInnerSign ('0' :: x :: '-' :: digits) (-n)

/-- The two together are what an amount may be spelled as. -/
theorem isInteger_or_hasInnerSign_iff (h : trimmed text.toList = body) :
    IsInteger body i ∨ HasInnerSign body i ↔ Spells text i := by
  have hten : ∀ {cs n}, Denotes 10 cs n ↔ WritesNat 10 cs n := denotes_iff_writesNat (by decide)
  have hsixteen : ∀ {cs n}, Denotes 16 cs n ↔ WritesNat 16 cs n :=
    denotes_iff_writesNat (by decide)
  constructor
  · intro hbody
    rcases hbody with hinteger | hinner
    · cases hinteger with
      | plain hd => exact .decimal (h ▸ .plain (hten.mp hd))
      | plus hd => exact .decimal (h ▸ .plus (hten.mp hd))
      | minus hd => exact .decimal (h ▸ .minus (hten.mp hd))
      | hexadecimal hx hd => exact .hexadecimal h hx (.plain (hsixteen.mp hd))
    · cases hinner with
      | plus hx hd => exact .hexadecimal h hx (.plus (hsixteen.mp hd))
      | minus hx hd => exact .hexadecimal h hx (.minus (hsixteen.mp hd))
  · intro hspells
    cases hspells with
    | decimal hw =>
        rw [h] at hw
        cases hw with
        | plain hd => exact Or.inl (.plain (hten.mpr hd))
        | plus hd => exact Or.inl (.plus (hten.mpr hd))
        | minus hd => exact Or.inl (.minus (hten.mpr hd))
    | hexadecimal hform hx hw =>
        rw [h] at hform
        subst hform
        cases hw with
        | plain hd => exact Or.inl (.hexadecimal hx (hsixteen.mpr hd))
        | plus hd => exact Or.inr (.plus hx (hsixteen.mpr hd))
        | minus hd => exact Or.inr (.minus hx (hsixteen.mpr hd))

/-- Among digits there is no blank. -/
theorem Denotes.not_blank (hradix : radix ≤ 16) (h : Denotes radix cs n) :
    ∀ c ∈ cs, isBlank c = false := by
  intro c hc
  obtain ⟨d, hd⟩ := ((denotes_iff_writesNat hradix).mp h).exists_digit c hc
  exact not_blank_of_digitValue? hd

/-- Neither form has a blank in it, so that the blanks around it are the ones to trim. -/
theorem not_blank_of_form (h : IsInteger body i ∨ HasInnerSign body i) :
    (∀ c ∈ body, isBlank c = false) ∧ body ≠ [] := by
  have hsign : ∀ {cs : List Char}, (∀ c ∈ cs, isBlank c = false) → ∀ {x : Char},
      isBlank x = false → ∀ c ∈ x :: cs, isBlank c = false :=
    fun hcs _ hx => List.forall_mem_cons.mpr ⟨hx, hcs⟩
  have hmark : ∀ {x : Char}, x = 'x' ∨ x = 'X' → isBlank x = false := by
    rintro x (rfl | rfl) <;> rfl
  rcases h with hinteger | hinner
  · cases hinteger with
    | plain hd => exact ⟨hd.not_blank (by decide), hd.1⟩
    | plus hd => exact ⟨hsign (hd.not_blank (by decide)) rfl, List.cons_ne_nil _ _⟩
    | minus hd => exact ⟨hsign (hd.not_blank (by decide)) rfl, List.cons_ne_nil _ _⟩
    | hexadecimal hx hd =>
        exact ⟨hsign (hsign (hd.not_blank (by decide)) (hmark hx)) rfl, List.cons_ne_nil _ _⟩
  · cases hinner with
    | plus hx hd =>
        exact ⟨hsign (hsign (hsign (hd.not_blank (by decide)) rfl) (hmark hx)) rfl,
          List.cons_ne_nil _ _⟩
    | minus hx hd =>
        exact ⟨hsign (hsign (hsign (hd.not_blank (by decide)) rfl) (hmark hx)) rfl,
          List.cons_ne_nil _ _⟩

/-- Behind a hexadecimal prefix there is an integer only as digits. -/
theorem IsInteger.denotes_of_prefix {x : Char} (hx : x = 'x' ∨ x = 'X')
    (h : IsInteger ('0' :: x :: cs) i) : ∃ n : Nat, Denotes 16 cs n := by
  cases h with
  | plain hd =>
      have hdigit := ((denotes_iff_writesNat (by decide)).mp hd).exists_digit x (by simp)
      obtain ⟨d, hd⟩ := hdigit
      have := isDigit_of_digitValue? hd
      rcases hx with rfl | rfl <;> exact absurd this (by decide)
  | hexadecimal _ hd => exact ⟨_, hd⟩

/-- With a sign behind the prefix a text is no integer, not even another. -/
theorem HasInnerSign.not_isInteger (h : HasInnerSign body i) : ¬ IsInteger body j := by
  intro hinteger
  have hnone : ∀ {cs : List Char} {n : Nat} {c : Char}, c = '+' ∨ c = '-' →
      ¬ Denotes 16 (c :: cs) n :=
    fun hc hd => not_writesNat_sign hc ((denotes_iff_writesNat (by decide)).mp hd)
  cases h with
  | plus hx _ =>
      obtain ⟨n, hd⟩ := hinteger.denotes_of_prefix hx
      exact hnone (Or.inl rfl) hd
  | minus hx _ =>
      obtain ⟨n, hd⟩ := hinteger.denotes_of_prefix hx
      exact hnone (Or.inr rfl) hd

end Text

namespace Numeric

open Text (Encloses IsInteger HasInnerSign)

/-- A text is read as an integer exactly when that is within 128 bits and the text is it, blanks
aside, or has it with a sign behind the hexadecimal prefix; this last form is none of the
others. -/
theorem integers_by_grammar (text : String) (i : Int) :
    ((∃ fits : FitsExact i, parse? text = some (.int i fits))
        ↔ FitsExact i ∧ ∃ body, Encloses text body ∧ (IsInteger body i ∨ HasInnerSign body i))
      ∧ ∀ body j, HasInnerSign body i → ¬ IsInteger body j := by
  refine ⟨⟨?_, ?_⟩, fun body j h => h.not_isInteger⟩
  · intro h
    obtain ⟨fits, hparse⟩ := h
    refine ⟨fits, _, Text.encloses_trimmed text, ?_⟩
    rw [Text.isInteger_or_hasInnerSign_iff rfl]
    exact parse?_eq_int_iff.mp hparse
  · intro h
    obtain ⟨fits, body, hencloses, hform⟩ := h
    obtain ⟨hblank, hne⟩ := Text.not_blank_of_form hform
    refine ⟨fits, parse?_eq_int_iff.mpr ?_⟩
    rwa [← Text.isInteger_or_hasInnerSign_iff (Text.trimmed_of_encloses hencloses hblank hne)]

theorem hasInnerSign_five : HasInnerSign ['0', 'x', '-', '5'] (-5) :=
  .minus (Or.inl rfl) ⟨List.cons_ne_nil _ _, [5], .cons (by decide) .nil, by decide⟩

/-- A sign between the prefix and the digits is read. -/
theorem sign_behind_prefix_is_read :
    HasInnerSign ['0', 'x', '-', '5'] (-5) ∧ (∀ j, ¬ IsInteger ['0', 'x', '-', '5'] j)
      ∧ ∃ fits, parse? "0x-5" = some (.int (-5) fits) := by
  have hinner := hasInnerSign_five
  obtain ⟨hread, hother⟩ := integers_by_grammar "0x-5" (-5)
  refine ⟨hinner, fun j => hother _ j hinner, hread.mpr ⟨by decide, _, ?_, Or.inr hinner⟩⟩
  exact ⟨[], [], rfl, nofun, nofun⟩

/-- So a text is read as an integer that is none. -/
theorem no_integer_is_read_as_one :
    (∃ fits, parse? "0x-5" = some (.int (-5) fits))
      ∧ ¬ ∃ body, Encloses "0x-5" body ∧ IsInteger body (-5) := by
  refine ⟨⟨by decide, by decide +kernel⟩, ?_⟩
  rintro ⟨body, hencloses, hinteger⟩
  obtain ⟨hblank, hne⟩ := Text.not_blank_of_form (Or.inl hinteger)
  have hbody : ['0', 'x', '-', '5'] = body := Text.trimmed_of_encloses hencloses hblank hne
  exact hasInnerSign_five.not_isInteger (hbody ▸ hinteger)

end Numeric
end EventScript
