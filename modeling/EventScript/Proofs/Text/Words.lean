/-
Words of a text. The reader goes through the text with the word it is in the middle of; a
separator ends that word, and any other character goes on with it or begins another one. Either
way the lower case of the character is in a word, so the words one after another are the text in
lower case without its separators. None of them is empty, because only words with something in
them are ever ended, and none has a separator in it, because case maps lead to none.

Words that are joined by separators fall apart into the same words again, as long as their
characters are settled: no capital among them that could begin a word, none that has another lower
case. Lower-casing a character of ASCII gives a settled one.
-/
import EventScript.Proofs.Text.Case

namespace EventScript.Text

variable {word w : List Char} {small : Bool} {c : Char} {cs rest : List Char}

/-- What does not separate words is neither an underscore nor a dash nor a blank. -/
theorem isSeparator_eq_false_iff :
    isSeparator c = false ↔ c ≠ '_' ∧ c ≠ '-' ∧ isBlank c = false := by
  simp [isSeparator, and_assoc]

-- =============================================================== one step

/-- The word that was read, when there is something in it. -/
def ended (word : List Char) : List (List Char) := if word.isEmpty then [] else [word]

theorem flatten_ended (word : List Char) : (ended word).flatten = word := by
  cases word <;> simp [ended]

theorem ne_nil_of_mem_ended (h : w ∈ ended word) : w ≠ [] := by
  unfold ended at h
  split at h
  case isTrue => cases h
  case isFalse hword => simpa [List.mem_singleton.mp h] using hword

theorem ended_of_ne_nil (h : word ≠ []) : ended word = [word] := by
  simp [ended, h]

/-- A separator ends the word. -/
theorem wordsFrom_separator (h : isSeparator c = true) :
    wordsFrom word small (c :: rest) = ended word ++ wordsFrom [] false rest := by
  cases word <;> simp [wordsFrom, h, ended]

/-- Any other character goes on with the word, or it ends the word and begins another one. -/
theorem wordsFrom_inWord (h : isSeparator c = false) (word : List Char) (small : Bool)
    (rest : List Char) :
    ∃ before next, before ++ next = word
      ∧ wordsFrom word small (c :: rest)
        = ended before ++ wordsFrom (next ++ lowerChar c) (endsSmall c) rest := by
  by_cases hbegins : (isUpper c && small && !word.isEmpty) = true
  · have hword : word ≠ [] := by
      rintro rfl
      simp at hbegins
    refine ⟨word, [], List.append_nil word, ?_⟩
    rw [ended_of_ne_nil hword]
    simp only [wordsFrom, h, Bool.false_eq_true, if_false, hbegins, if_true]
    rfl
  · refine ⟨[], word, rfl, ?_⟩
    simp only [wordsFrom, h, Bool.false_eq_true, if_false, if_neg hbegins]
    rfl

-- ===================================================== what words are made of

theorem ne_nil_of_mem_wordsFrom (h : w ∈ wordsFrom word small cs) : w ≠ [] := by
  induction cs generalizing word small with
  | nil => exact ne_nil_of_mem_ended h
  | cons c rest ih =>
      cases hc : isSeparator c with
      | true =>
          rw [wordsFrom_separator hc, List.mem_append] at h
          exact h.elim ne_nil_of_mem_ended ih
      | false =>
          obtain ⟨before, next, -, heq⟩ := wordsFrom_inWord hc word small rest
          rw [heq, List.mem_append] at h
          exact h.elim ne_nil_of_mem_ended ih

/-- The words one after another are the lower case of what they were read from. -/
theorem flatten_wordsFrom (word : List Char) (small : Bool) (cs : List Char) :
    (wordsFrom word small cs).flatten
      = word ++ (cs.filter fun c => !isSeparator c).flatMap lowerChar := by
  induction cs generalizing word small with
  | nil => exact (flatten_ended word).trans (List.append_nil word).symm
  | cons c rest ih =>
      cases hc : isSeparator c with
      | true => simp [wordsFrom_separator hc, ih, flatten_ended, hc]
      | false =>
          obtain ⟨before, next, rfl, heq⟩ := wordsFrom_inWord hc word small rest
          simp [heq, ih, flatten_ended, hc]

variable {s : String}

/-- No word is empty. -/
theorem ne_empty_of_mem_words {v : String} (h : v ∈ words s) : v ≠ "" := by
  obtain ⟨w, hw, rfl⟩ := List.mem_map.mp h
  simpa using ne_nil_of_mem_wordsFrom hw

/-- The words keep every character that separates nothing, in lower case. -/
theorem toList_join_words (s : String) :
    (String.join (words s)).toList
      = (s.toList.filter fun c => !isSeparator c).flatMap lowerChar := by
  have hmap : (words s).map String.toList = wordsFrom [] false s.toList := by
    simp [words, Function.comp_def]
  rw [String.toList_join, List.flatMap_def, hmap, flatten_wordsFrom]
  rfl

/-- A character of a word comes from one of the text that stands in a word there. -/
theorem exists_of_mem_word {v : String} (hv : v ∈ words s) (hc : c ∈ v.toList) :
    ∃ d ∈ s.toList, isSeparator d = false ∧ c ∈ lowerChar d := by
  have hmem : c ∈ (String.join (words s)).toList := by
    rw [String.toList_join]
    exact List.mem_flatMap_of_mem hv hc
  rw [toList_join_words] at hmem
  obtain ⟨d, hd, hlower⟩ := List.mem_flatMap.mp hmem
  obtain ⟨hin, hd⟩ := List.mem_filter.mp hd
  exact ⟨d, hin, by simpa using hd, hlower⟩

/-- Nothing in a word separates words. -/
theorem not_isSeparator_of_mem_word {v : String} (hv : v ∈ words s) (hc : c ∈ v.toList) :
    isSeparator c = false := by
  obtain ⟨d, -, hd, hlower⟩ := exists_of_mem_word hv hc
  exact not_isSeparator_of_mem_lowerChar hd hlower

-- =========================================================== reading again

/-- A character that is read as it stands. -/
structure Settled (c : Char) : Prop where
  inWord : isSeparator c = false
  notCapital : isUpper c = false
  lower : lowerChar c = [c]

/-- Settled characters all go on with the word. -/
theorem wordsFrom_append (h : ∀ c ∈ w, Settled c) (word : List Char) (small : Bool)
    (rest : List Char) :
    ∃ small', wordsFrom word small (w ++ rest) = wordsFrom (word ++ w) small' rest := by
  induction w generalizing word small with
  | nil => exact ⟨small, by simp⟩
  | cons c w ih =>
      rw [List.forall_mem_cons] at h
      obtain ⟨hc, hw⟩ := h
      obtain ⟨small', heq⟩ := ih hw (word ++ [c]) (endsSmall c)
      refine ⟨small', ?_⟩
      rw [List.append_assoc, List.singleton_append] at heq
      rw [List.cons_append, ← heq]
      simp [wordsFrom, hc.inWord, hc.notCapital, hc.lower]

/-- Words of settled characters with separators between them are read as those words. -/
theorem words_join {separator : String} {mark : Char} (hseparator : separator.toList = [mark])
    (hmark : isSeparator mark = true) {vs : List String} (hne : ∀ v ∈ vs, v ≠ "")
    (hsettled : ∀ v ∈ vs, ∀ c ∈ v.toList, Settled c) : words (join separator vs) = vs := by
  induction vs with
  | nil => rfl
  | cons v vs ih =>
      rw [List.forall_mem_cons] at hne hsettled
      have hv : v.toList ≠ [] := by simpa using hne.1
      have hword : ∀ rest, ∃ small',
          wordsFrom [] false (v.toList ++ rest) = wordsFrom v.toList small' rest :=
        wordsFrom_append hsettled.1 [] false
      cases vs with
      | nil =>
          obtain ⟨small', heq⟩ := hword []
          rw [List.append_nil] at heq
          have hend : wordsFrom v.toList small' [] = [v.toList] := ended_of_ne_nil hv
          simp [words, join, heq, hend]
      | cons v' vs =>
          have hrest := ih hne.2 hsettled.2
          obtain ⟨small', heq⟩ := hword (mark :: (join separator (v' :: vs)).toList)
          rw [wordsFrom_separator hmark, ended_of_ne_nil hv] at heq
          unfold words at hrest ⊢
          have hjoin : join separator (v :: v' :: vs)
              = v ++ separator ++ join separator (v' :: vs) := rfl
          rw [hjoin, String.toList_append, String.toList_append, hseparator, List.append_assoc,
            List.singleton_append, heq, List.map_append, hrest]
          simp

-- ================================================================== ASCII

/-- What is no capital stays when it is lower-cased. -/
theorem toLower_eq_self (h : ¬ (0x41 ≤ c.toNat ∧ c.toNat ≤ 0x5A)) : c.toLower = c := by
  have hmove := toNat_toLower c
  rw [if_neg h] at hmove
  exact Char.toNat_inj.mp hmove

/-- The lower case of a character of ASCII is settled. -/
theorem settled_of_mem_lowerChar {d : Char} (hascii : d.toNat < 0x80)
    (hd : isSeparator d = false) (h : c ∈ lowerChar d) : Settled c := by
  have hone : c = d.toLower := by simpa [lowerChar, hascii] using h
  have hsmall : c.toNat < 0x80 ∧ ¬ (0x41 ≤ c.toNat ∧ c.toNat ≤ 0x5A) := by
    have hmove := toNat_toLower d
    rw [← hone] at hmove
    split at hmove <;> omega
  refine ⟨not_isSeparator_of_mem_lowerChar hd h, ?_, ?_⟩
  · have hcapital : c.isUpper = true → 0x41 ≤ c.toNat ∧ c.toNat ≤ 0x5A := of_decide_eq_true
    simpa [isUpper, hsmall.1] using mt hcapital hsmall.2
  · simp [lowerChar, hsmall.1, toLower_eq_self hsmall.2]

/-- Joined by separators, the words of a text of ASCII are read again. -/
theorem words_join_words (hascii : ∀ c ∈ s.toList, c.toNat < 0x80) {separator : String}
    {mark : Char} (hseparator : separator.toList = [mark]) (hmark : isSeparator mark = true) :
    words (join separator (words s)) = words s := by
  refine words_join hseparator hmark (fun v hv => ne_empty_of_mem_words hv) ?_
  intro v hv c hc
  obtain ⟨d, hin, hd, hlower⟩ := exists_of_mem_word hv hc
  exact settled_of_mem_lowerChar (hascii d hin) hd hlower

/-- Splitting a text into words loses nothing and is stable. No word is empty or has a separator
in it, and together they are the text without its separators, each character in lower case. The
words of a text of ASCII that are written with marks between them are the words of what was
written, so however they are written next, it comes to the same. -/
theorem words_keep_text (s : String) :
    (∀ v ∈ words s, v ≠ "" ∧ ∀ c ∈ v.toList, c ≠ '_' ∧ c ≠ '-' ∧ isBlank c = false)
    ∧ String.join (words s)
      = String.ofList
        ((s.toList.filter fun c => c ≠ '_' ∧ c ≠ '-' ∧ isBlank c = false).flatMap lowerChar)
    ∧ ((∀ c ∈ s.toList, c.toNat < 0x80) → ∀ again ∈ [underscore s, dasherize s],
      underscore again = underscore s ∧ dasherize again = dasherize s
        ∧ camelize again = camelize s) := by
  refine ⟨?_, ?_, ?_⟩
  · intro v hv
    refine ⟨ne_empty_of_mem_words hv, fun c hc => ?_⟩
    exact isSeparator_eq_false_iff.mp (not_isSeparator_of_mem_word hv hc)
  · have hfilter : (fun c => !isSeparator c)
        = fun c => decide (c ≠ '_' ∧ c ≠ '-' ∧ isBlank c = false) := by
      funext c
      simp [← isSeparator_eq_false_iff]
    rw [← hfilter, ← toList_join_words, String.ofList_toList]
  · intro hascii again hagain
    have hwords : words again = words s := by
      simp only [List.mem_cons, List.not_mem_nil, or_false] at hagain
      rcases hagain with rfl | rfl
      · exact words_join_words hascii rfl rfl
      · exact words_join_words hascii rfl rfl
    unfold underscore dasherize camelize
    simp [hwords]

/-- Separators in a row, a word that ends in a digit before a capital, and capitals in a row. -/
theorem words_keep_text_of_identifier :
    let s := "_HTTPServer2Go -x9Y-"
    (∀ c ∈ s.toList, c.toNat < 0x80) ∧ words s = ["httpserver2", "go", "x9", "y"]
      ∧ underscore s = "httpserver2_go_x9_y" ∧ underscore s ∈ [underscore s, dasherize s]
      ∧ camelize (underscore s) = "httpserver2GoX9Y" := by
  intro s
  have hall : s.toList.all (fun c => c.toNat < 0x80) = true := by decide
  have hascii : ∀ c ∈ s.toList, c.toNat < 0x80 := by simpa using hall
  have hwords : words s = ["httpserver2", "go", "x9", "y"] := by decide
  have hmem : underscore s ∈ [underscore s, dasherize s] := List.mem_cons_self ..
  refine ⟨hascii, hwords, by rw [underscore, hwords]; rfl, hmem, ?_⟩
  rw [((words_keep_text s).2.2 hascii _ hmem).2.2, camelize, hwords]
  decide

/-- Beyond ASCII there are capitals without a small letter, and one of these behind a small letter
begins a word only when it is read again. -/
example : underscore "A𝐀" = "a𝐀" ∧ underscore (underscore "A𝐀") = "a_𝐀" := by decide

end EventScript.Text
