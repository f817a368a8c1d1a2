/-
Texts that were cut. A step of the reader that has come to an end does not look at what follows,
so it reads the same where the text goes on; only a number is open to the right, as more digits
may follow, and it ends for certain where something stands behind it. So behind a document that
is no number nothing but blanks can stand, and the text of an object, which ends in its brace,
has no beginning that is a document but itself.
-/
import EventScript.Proofs.Json.Reading

namespace EventScript.Json

namespace Reader

variable {c : Char} {cs rest : List Char}

-- ================================================================ strings

/-- What follows the blanks is not touched by a text behind it. -/
theorem skipBlanks_append (h : skipBlanks cs = c :: rest) (more : List Char) :
    skipBlanks (cs ++ more) = c :: (rest ++ more) := by
  induction cs with
  | nil => cases h
  | cons d cs ih =>
      rw [skipBlanks] at h
      rw [List.cons_append, skipBlanks]
      split at h
      case isTrue hblank => rw [if_pos hblank, ih h]
      case isFalse hother =>
        obtain ⟨rfl, rfl⟩ := List.cons.inj h
        rw [if_neg hother]

theorem codeUnit?_append {u : Nat} (h : codeUnit? cs = some (u, rest)) (more : List Char) :
    codeUnit? (cs ++ more) = some (u, rest ++ more) := by
  unfold codeUnit? at h
  split at h
  · obtain ⟨n, hn, hpair⟩ := Option.map_eq_some_iff.mp h
    cases hpair
    simp only [List.cons_append, codeUnit?, hn, Option.map_some]
  · cases h

/-- A character written by its code, or by two, is read whatever follows. -/
theorem unicodeEscape?_append {u : Nat} {e : Char} (h : unicodeEscape? u cs = some (e, rest))
    (more : List Char) : unicodeEscape? u (cs ++ more) = some (e, rest ++ more) := by
  unfold unicodeEscape? at h ⊢
  split at h
  case isTrue hhigh =>
    rw [if_pos hhigh]
    split at h
    · next tail =>
      obtain ⟨⟨low, tail'⟩, hlow, hpair⟩ := Option.bind_eq_some_iff.mp h
      dsimp only at hpair
      split at hpair
      case isTrue hrange =>
        obtain ⟨rfl, rfl⟩ := Prod.mk.inj (Option.some.inj hpair)
        show (codeUnit? (tail ++ more)).bind _ = _
        rw [codeUnit?_append hlow]
        exact if_pos hrange
      case isFalse => cases hpair
    · cases h
  case isFalse hhigh =>
    rw [if_neg hhigh]
    split at h
    case isTrue => cases h
    case isFalse hlow =>
      cases h
      exact if_neg hlow

theorem escape?_append {e : Char} (h : escape? cs = some (e, rest)) (more : List Char) :
    escape? (cs ++ more) = some (e, rest ++ more) := by
  unfold escape? at h
  split at h
  case h_9 =>
    next tail =>
    obtain ⟨⟨u, tail'⟩, hu, he⟩ := Option.bind_eq_some_iff.mp h
    show (codeUnit? (tail ++ more)).bind _ = _
    rw [codeUnit?_append hu]
    exact unicodeEscape?_append he more
  all_goals cases h
  all_goals rfl

/-- A string ends at its quote, with however much fuel. -/
theorem stringChars_append {fuel fuel' : Nat} {s : List Char}
    (h : stringChars fuel cs = some (s, rest)) (hle : fuel ≤ fuel') (more : List Char) :
    stringChars fuel' (cs ++ more) = some (s, rest ++ more) := by
  induction fuel generalizing fuel' cs s with
  | zero => cases h
  | succ fuel ih =>
      obtain ⟨fuel', rfl⟩ : ∃ n, fuel' = n + 1 := ⟨fuel' - 1, by omega⟩
      have hle : fuel ≤ fuel' := by omega
      cases cs with
      | nil => cases h
      | cons c cs =>
          rw [stringChars] at h
          rw [List.cons_append, stringChars]
          split at h
          case isTrue hquote =>
            cases h
            rw [if_pos hquote]
          case isFalse hquote =>
            rw [if_neg hquote]
            split at h
            case isTrue hslash =>
              rw [if_pos hslash]
              obtain ⟨⟨e, behind⟩, he, hrest⟩ := Option.bind_eq_some_iff.mp h
              obtain ⟨⟨s', end'⟩, hs, hpair⟩ := Option.bind_eq_some_iff.mp hrest
              cases hpair
              simp only [escape?_append he more, Option.bind_eq_bind, Option.bind_some, ih hs hle]
            case isFalse hslash =>
              rw [if_neg hslash]
              split at h
              case isTrue => cases h
              case isFalse hcontrol =>
                rw [if_neg hcontrol]
                obtain ⟨⟨s', end'⟩, hs, hpair⟩ := Option.bind_eq_some_iff.mp h
                cases hpair
                simp only [Option.bind_eq_bind, ih hs hle, Option.bind_some]

/-- A text is read whatever follows its closing quote. -/
theorem string?_append {s : String} (h : string? cs = some (s, rest)) (more : List Char) :
    string? (cs ++ more) = some (s, rest ++ more) := by
  obtain ⟨⟨s', end'⟩, hs, hpair⟩ := Option.map_eq_some_iff.mp h
  cases hpair
  have hle : cs.length + 1 ≤ (cs ++ more).length + 1 := by
    rw [List.length_append]
    omega
  unfold string?
  rw [stringChars_append hs hle more]
  rfl

-- ================================================================ numbers

/-- A run of digits with something behind it is the same where the text goes on. -/
theorem someDigits?_append {ds : List Nat} (h : someDigits? cs = some (ds, rest))
    (hrest : rest ≠ []) (more : List Char) :
    someDigits? (cs ++ more) = some (ds, rest ++ more) := by
  have hrun : digitRun cs = (ds, rest) := by
    unfold someDigits? at h
    split at h
    · cases h
    · exact Option.some.inj h
  have hmore : digitRun (cs ++ more) = (ds, rest ++ more) := by
    unfold digitRun at hrun ⊢
    obtain ⟨hds, hdrop⟩ := Prod.mk.inj hrun
    dsimp only
    have hshort : (cs.takeWhile fun c => '0' ≤ c && c ≤ '9').length < cs.length := by
      refine Nat.not_le.mp fun hall => hrest ?_
      rw [← hdrop]
      exact List.drop_eq_nil_of_le hall
    rw [List.takeWhile_append, if_neg (Nat.ne_of_lt hshort), hds,
      List.drop_append_of_le_length (Nat.le_of_lt hshort), hdrop]
  unfold someDigits? at h ⊢
  rw [hmore]
  rw [hrun] at h
  split at h
  · cases h
  · next hne =>
    split
    · next heq => exact absurd (congrArg (fun p => (p.1, rest)) heq) (by simpa using hne rest)
    · rfl

/-- The sign of an exponent, and what is behind it. -/
def signOf : List Char → Bool × List Char
  | '+' :: rest => (false, rest)
  | '-' :: rest => (true, rest)
  | cs => (false, cs)

/-- The sign is the first character or none, whatever follows. -/
theorem signOf_append (c : Char) (cs more : List Char) :
    signOf (c :: cs ++ more) = ((signOf (c :: cs)).1, (signOf (c :: cs)).2 ++ more) := by
  by_cases hplus : c = '+'
  · subst hplus
    rfl
  · by_cases hminus : c = '-'
    · subst hminus
      rfl
    · simp [signOf, hplus, hminus]

/-- An exponent is the digits behind its sign. -/
theorem exponent?_eq (cs : List Char) : exponent? cs = (someDigits? (signOf cs).2).bind fun p =>
    let n : Nat := p.1.foldl (fun acc d => acc * 10 + d) 0
    some (if (signOf cs).1 then -(n : Int) else n, p.2) := by
  cases cs with
  | nil => rfl
  | cons c cs =>
      by_cases hplus : c = '+'
      · subst hplus
        rfl
      · by_cases hminus : c = '-'
        · subst hminus
          rfl
        · simp [exponent?, signOf, hplus, hminus]

/-- An exponent is read whatever follows, where something stood behind it already. -/
theorem exponent?_append {e : Int} (h : exponent? cs = some (e, rest)) (hrest : rest ≠ [])
    (more : List Char) : exponent? (cs ++ more) = some (e, rest ++ more) := by
  rw [exponent?_eq] at h
  obtain ⟨⟨ds, behind⟩, hds, hpair⟩ := Option.bind_eq_some_iff.mp h
  obtain ⟨he, rfl⟩ := Prod.mk.inj (Option.some.inj hpair)
  cases cs with
  | nil => cases hds
  | cons c cs =>
      rw [exponent?_eq, signOf_append, someDigits?_append hds hrest more, ← he]
      rfl

/-- A whole part is read whatever follows, where something stood behind it already. -/
theorem whole?_append {ds : List Nat} (h : whole? cs = some (ds, rest)) (hrest : rest ≠ [])
    (more : List Char) : whole? (cs ++ more) = some (ds, rest ++ more) := by
  unfold whole? at h
  split at h
  · split at h
    · cases h
    · next tail hnone =>
      cases h
      -- what follows the zero is there already, and no digit
      have hhead : (rest ++ more).head? = rest.head? := by
        obtain ⟨c, tail, rfl⟩ := List.exists_cons_of_ne_nil hrest
        rfl
      rw [List.cons_append, whole?, hhead, if_neg hnone]
  · next hother =>
    cases cs with
    | nil => cases h
    | cons c cs =>
        rw [List.cons_append, whole?]
        · exact someDigits?_append h hrest more
        · rintro tail heq
          exact hother cs (by rw [(List.cons.inj heq).1])

theorem fraction?_append {ds : Option (List Nat)} (h : fraction? cs = some (ds, rest))
    (hrest : rest ≠ []) (more : List Char) :
    fraction? (cs ++ more) = some (ds, rest ++ more) := by
  unfold fraction? at h
  split at h
  · obtain ⟨⟨found, behind⟩, hfound, hpair⟩ := Option.map_eq_some_iff.mp h
    cases hpair
    rw [List.cons_append, fraction?, someDigits?_append hfound hrest more]
    rfl
  · next hother =>
    cases h
    obtain ⟨c, tail, rfl⟩ := List.exists_cons_of_ne_nil hrest
    rw [List.cons_append, fraction?]
    rintro tail' heq
    exact hother tail (by rw [(List.cons.inj heq).1])

theorem power?_append {e : Option Int} (h : power? cs = some (e, rest)) (hrest : rest ≠ [])
    (more : List Char) : power? (cs ++ more) = some (e, rest ++ more) := by
  unfold power? at h
  split at h
  · obtain ⟨⟨found, behind⟩, hfound, hpair⟩ := Option.map_eq_some_iff.mp h
    cases hpair
    rw [List.cons_append, power?, exponent?_append hfound hrest more]
    rfl
  · obtain ⟨⟨found, behind⟩, hfound, hpair⟩ := Option.map_eq_some_iff.mp h
    cases hpair
    rw [List.cons_append, power?, exponent?_append hfound hrest more]
    rfl
  · next hsmall hgreat =>
    cases h
    obtain ⟨c, tail, rfl⟩ := List.exists_cons_of_ne_nil hrest
    rw [List.cons_append, power?]
    · rintro tail' heq
      exact hsmall tail (by rw [(List.cons.inj heq).1])
    · rintro tail' heq
      exact hgreat tail (by rw [(List.cons.inj heq).1])

/-- A number behind its sign ends where something stands behind it. -/
theorem unsigned?_append {negative : Bool} {n : Number}
    (h : unsigned? negative cs = some (n, rest)) (hrest : rest ≠ []) (more : List Char) :
    unsigned? negative (cs ++ more) = some (n, rest ++ more) := by
  obtain ⟨⟨whole, afterWhole⟩, hwhole, h⟩ := Option.bind_eq_some_iff.mp h
  obtain ⟨⟨fraction, afterFraction⟩, hfraction, h⟩ := Option.bind_eq_some_iff.mp h
  obtain ⟨⟨exponent, afterPower⟩, hpower, h⟩ := Option.bind_eq_some_iff.mp h
  obtain ⟨number, hnumber, hpair⟩ := Option.bind_eq_some_iff.mp h
  cases hpair
  -- a part that is missing leaves what there is, so something stands behind each of them
  have hafterFraction : afterFraction ≠ [] := by
    rintro rfl
    cases hpower
    exact hrest rfl
  have hafterWhole : afterWhole ≠ [] := by
    rintro rfl
    cases hfraction
    exact hafterFraction rfl
  unfold unsigned?
  simp only [whole?_append hwhole hafterWhole more, Option.bind_eq_bind, Option.bind_some,
    fraction?_append hfraction hafterFraction more, power?_append hpower hrest more]
  rw [hnumber]
  rfl

/-- A number is read whatever follows, where something stood behind it already. -/
theorem number?_append {n : Number} (h : number? cs = some (n, rest)) (hrest : rest ≠ [])
    (more : List Char) : number? (cs ++ more) = some (n, rest ++ more) := by
  unfold number? at h
  split at h
  · exact unsigned?_append h hrest more
  · next hother =>
    cases cs with
    | nil => cases h
    | cons c cs =>
        rw [List.cons_append, number?]
        · exact unsigned?_append h hrest more
        · rintro tail heq
          exact hother cs (by rw [(List.cons.inj heq).1])

-- ================================================================= values

/-- Whether a text has come to an end with the value: something stands behind it, or it is no
number, to which digits could still be added. -/
def Ends (v : Json) (rest : List Char) : Prop :=
  rest ≠ [] ∨ ∀ n, v ≠ .number n

/-- A number opens with a digit or a minus. -/
theorem number?_opens {n : Number} (h : number? (c :: cs) = some (n, rest)) :
    c.isDigit = true ∨ c = '-' := by
  by_cases hminus : c = '-'
  · exact .inr hminus
  · left
    cases hdigit : c.isDigit with
    | true => rfl
    | false =>
        -- no run of digits starts here, so no number does
        have hnone : someDigits? (c :: cs) = none := by
          unfold someDigits? digitRun
          rw [List.takeWhile_cons_of_neg (by rw [digit_iff, hdigit]; decide)]
          rfl
        have hwhole : whole? (c :: cs) = none := by
          rw [whole?]
          · exact hnone
          · rintro tail heq
            rw [(List.cons.inj heq).1] at hdigit
            cases hdigit
        rw [number?] at h
        · unfold unsigned? at h
          rw [hwhole] at h
          cases h
        · rintro tail heq
          exact hminus (List.cons.inj heq).1

theorem items?_opens {fuel depth : Nat} {vs : List Json}
    (h : items? fuel depth cs = some (vs, rest)) : ∃ c tail, skipBlanks cs = c :: tail := by
  cases hopen : skipBlanks cs with
  | cons c tail => exact ⟨c, tail, rfl⟩
  | nil =>
      rw [← items?_skipBlanks, hopen] at h
      rcases fuel with _ | _ | fuel
      · cases h
      · cases h
      · cases h

/-- Members that are read open with a quote. -/
theorem members?_opens {fuel depth : Nat} {ms : List (String × Json)}
    (h : members? fuel depth cs = some (ms, rest)) : ∃ tail, skipBlanks cs = '"' :: tail := by
  cases fuel with
  | zero => cases h
  | succ fuel =>
      rw [members?] at h
      split at h
      · next tail hname => exact ⟨tail, hname⟩
      · cases h

/-- A bracket that is closed at once is the empty list. -/
theorem value?_array_nil {fuel depth : Nat} (h : skipBlanks cs = ']' :: rest) :
    value? (fuel + 1) (depth + 1) ('[' :: cs) = some (.array [], rest) := by
  have hself : skipBlanks ('[' :: cs) = '[' :: cs := skipBlanks_of_not_blank (by decide)
  simp only [value?, hself, h]

theorem value?_object_nil {fuel depth : Nat} (h : skipBlanks cs = '\x7d' :: rest) :
    value? (fuel + 1) (depth + 1) ('\x7b' :: cs) = some (.object [], rest) := by
  have hself : skipBlanks ('\x7b' :: cs) = '\x7b' :: cs := skipBlanks_of_not_blank (by decide)
  simp only [value?, hself, h]

mutual

/-- A value that has ended reads the same where the text goes on. -/
theorem value?_append : ∀ (fuel : Nat), ∀ fuel' ≥ fuel, ∀ {depth : Nat} {cs rest : List Char}
    {v : Json}, value? fuel depth cs = some (v, rest) → Ends v rest → ∀ more : List Char,
    value? fuel' depth (cs ++ more) = some (v, rest ++ more)
  | 0 => by
      intro _ _ _ _ _ _ h
      cases h
  | fuel + 1 => by
      intro fuel' hle depth cs rest v h hends more
      -- the longer text has at least as much fuel, and both spend one here
      obtain ⟨fuel', rfl⟩ : ∃ n, fuel' = n + 1 := ⟨fuel' - 1, by omega⟩
      have hle : fuel' ≥ fuel := by omega
      cases hopen : skipBlanks cs with
      | nil =>
          rw [value?, hopen] at h
          cases h
      -- the opening character decides the kind, and it is in the beginning
      | cons c tail =>
          rw [value?, hopen] at h
          rw [← value?_skipBlanks, skipBlanks_append hopen more]
          split at h
          · next heq =>
            cases heq
            cases h
            rfl
          · next heq =>
            cases heq
            cases h
            rfl
          · next heq =>
            cases heq
            cases h
            rfl
          · next heq =>
            cases heq
            obtain ⟨⟨s, behind⟩, hs, hpair⟩ := Option.map_eq_some_iff.mp h
            cases hpair
            show (string? (tail ++ more)).map _ = _
            rw [string?_append hs more]
            rfl
          · next heq =>
            cases heq
            split at h
            · cases h
            · split at h
              · next hclosing =>
                cases h
                exact value?_array_nil (skipBlanks_append hclosing more)
              · next hitem =>
                obtain ⟨⟨vs, behind⟩, hvs, hpair⟩ := Option.map_eq_some_iff.mp h
                cases hpair
                rw [items?_skipBlanks] at hvs
                obtain ⟨d, tail', hd⟩ := items?_opens hvs
                exact value?_array (skipBlanks_append hd more) (fun heq => hitem tail' (heq ▸ hd))
                  (items?_append fuel fuel' hle hvs more)
          · next heq =>
            cases heq
            split at h
            · cases h
            · split at h
              · next hclosing =>
                cases h
                exact value?_object_nil (skipBlanks_append hclosing more)
              · obtain ⟨⟨ms, behind⟩, hms, hpair⟩ := Option.map_eq_some_iff.mp h
                cases hpair
                rw [members?_skipBlanks] at hms
                obtain ⟨tail', hd⟩ := members?_opens hms
                exact value?_object (skipBlanks_append hd more)
                  (members?_append fuel fuel' hle hms more)
          · obtain ⟨⟨n, behind⟩, hn, hpair⟩ := Option.map_eq_some_iff.mp h
            cases hpair
            -- a number may go on, unless something already stands behind it
            have hrest : rest ≠ [] := hends.resolve_right fun hnone => hnone n rfl
            exact value?_of_number (number?_opens hn) (number?_append hn hrest more)

/-- Items are read whatever follows the bracket that closes them. -/
theorem items?_append : ∀ (fuel : Nat), ∀ fuel' ≥ fuel, ∀ {depth : Nat} {cs rest : List Char}
    {vs : List Json}, items? fuel depth cs = some (vs, rest) → ∀ more : List Char,
    items? fuel' depth (cs ++ more) = some (vs, rest ++ more)
  | 0 => by
      intro _ _ _ _ _ _ h
      cases h
  | fuel + 1 => by
      intro fuel' hle depth cs rest vs h more
      obtain ⟨fuel', rfl⟩ : ∃ n, fuel' = n + 1 := ⟨fuel' - 1, by omega⟩
      have hle : fuel' ≥ fuel := by omega
      obtain ⟨⟨v, behind⟩, hv, h⟩ := Option.bind_eq_some_iff.mp h
      dsimp only at h
      split at h
      · next heq =>
        cases h
        have hbehind : behind ≠ [] := fun hnil => by rw [hnil] at heq; cases heq
        exact items?_last (value?_append fuel fuel' hle hv (.inl hbehind) more)
          (skipBlanks_append heq more)
      · next heq =>
        obtain ⟨⟨vs', end'⟩, hvs, hpair⟩ := Option.bind_eq_some_iff.mp h
        cases hpair
        have hbehind : behind ≠ [] := fun hnil => by rw [hnil] at heq; cases heq
        exact items?_more (value?_append fuel fuel' hle hv (.inl hbehind) more)
          (skipBlanks_append heq more) (items?_append fuel fuel' hle hvs more)
      · cases h

theorem members?_append : ∀ (fuel : Nat), ∀ fuel' ≥ fuel, ∀ {depth : Nat} {cs rest : List Char}
    {ms : List (String × Json)}, members? fuel depth cs = some (ms, rest) →
    ∀ more : List Char, members? fuel' depth (cs ++ more) = some (ms, rest ++ more)
  | 0 => by
      intro _ _ _ _ _ _ h
      cases h
  | fuel + 1 => by
      intro fuel' hle depth cs rest ms h more
      obtain ⟨fuel', rfl⟩ : ∃ n, fuel' = n + 1 := ⟨fuel' - 1, by omega⟩
      have hle : fuel' ≥ fuel := by omega
      rw [members?] at h
      split at h
      · next hname =>
        obtain ⟨⟨k, afterName⟩, hk, h⟩ := Option.bind_eq_some_iff.mp h
        dsimp only at h
        split at h
        · next hcolon =>
          obtain ⟨⟨v, behind⟩, hv, h⟩ := Option.bind_eq_some_iff.mp h
          dsimp only at h
          split at h
          · next heq =>
            cases h
            have hbehind : behind ≠ [] := fun hnil => by rw [hnil] at heq; cases heq
            simp only [members?, skipBlanks_append hname more, string?_append hk more,
              skipBlanks_append hcolon more, value?_append fuel fuel' hle hv (.inl hbehind) more,
              skipBlanks_append heq more, Option.bind_eq_bind, Option.bind_some]
          · next heq =>
            obtain ⟨⟨ms', end'⟩, hms, hpair⟩ := Option.bind_eq_some_iff.mp h
            cases hpair
            have hbehind : behind ≠ [] := fun hnil => by rw [hnil] at heq; cases heq
            simp only [members?, skipBlanks_append hname more, string?_append hk more,
              skipBlanks_append hcolon more, value?_append fuel fuel' hle hv (.inl hbehind) more,
              skipBlanks_append heq more, members?_append fuel fuel' hle hms more,
              Option.bind_eq_bind, Option.bind_some]
          · cases h
        · cases h
      · cases h

end

/-- What is read behind a brace is an object. -/
theorem value?_brace {fuel depth : Nat} {v : Json}
    (h : value? fuel depth ('\x7b' :: cs) = some (v, rest)) : ∃ members, v = .object members := by
  have hself : skipBlanks ('\x7b' :: cs) = '\x7b' :: cs := skipBlanks_of_not_blank (by decide)
  cases fuel with
  | zero => cases h
  | succ fuel =>
      simp only [value?, hself] at h
      split at h
      · cases h
      · split at h
        · cases h
          exact ⟨[], rfl⟩
        · obtain ⟨⟨members, behind⟩, -, hpair⟩ := Option.map_eq_some_iff.mp h
          cases hpair
          exact ⟨members, rfl⟩

/-- Where a text is all blank, the blanks go on into the next. -/
theorem skipBlanks_append_of_nil (h : skipBlanks cs = []) (more : List Char) :
    skipBlanks (cs ++ more) = skipBlanks more := by
  induction cs with
  | nil => rfl
  | cons c cs ih =>
      rw [skipBlanks] at h
      split at h
      case isTrue hblank => rw [List.cons_append, skipBlanks, if_pos hblank, ih h]
      case isFalse => cases h

/-- A text that ends in no blank is not all blanks. -/
theorem skipBlanks_concat_ne_nil {c : Char}
    (h : (c == ' ' || c == '\t' || c == '\n' || c == '\r') = false) (cs : List Char) :
    skipBlanks (cs ++ [c]) ≠ [] := by
  induction cs with
  | nil =>
      rw [List.nil_append, skipBlanks_of_not_blank h]
      exact List.cons_ne_nil _ _
  | cons d cs ih =>
      rw [List.cons_append, skipBlanks]
      split
      · exact ih
      · exact List.cons_ne_nil _ _

end Reader

-- ================================================================ documents

/-- Behind a document that is no number only blanks can stand. -/
theorem written?_append {text : String} {v : Json} (h : written? text = some v)
    (hv : ∀ n, v ≠ .number n) (more : String) :
    written? (text ++ more)
      = if (Reader.skipBlanks more.toList).isEmpty then some v else none := by
  obtain ⟨⟨v', rest⟩, hread, hrest⟩ := Option.bind_eq_some_iff.mp h
  dsimp only at hrest
  split at hrest
  case isTrue hblank =>
    cases hrest
    have hnil : Reader.skipBlanks rest = [] := List.isEmpty_iff.mp hblank
    have hlonger : 2 * (text.toList ++ more.toList).length + 2 ≥ 2 * text.toList.length + 2 := by
      rw [List.length_append]
      omega
    have hread := Reader.value?_append _ _ hlonger hread (.inr hv) more.toList
    unfold written?
    rw [String.toList_append]
    show (Reader.value? _ _ (text.toList ++ more.toList)).bind _ = _
    rw [hread, Option.bind_some]
    dsimp only
    rw [Reader.skipBlanks_append_of_nil hnil]
  case isFalse => cases hrest

/-- An object is written between braces. -/
theorem toList_object_braces (members : List (String × Json)) :
    ∃ inner, (object members).indented.toList = '\x7b' :: (inner ++ ['\x7d']) := by
  cases members with
  | nil => exact ⟨[], Reader.toList_object_nil 0⟩
  | cons m rest =>
      refine ⟨(indentedMembers 1 (m :: rest)).toList ++ (newLine 0).toList, ?_⟩
      rw [List.append_assoc]
      exact Reader.toList_object 0 m rest

/-- The beginning of the text of an object is no document, unless it is the whole text. -/
theorem written?_beginning {members : List (String × Json)} {text more : String}
    (hreadable : (object members).readable Reader.maxDepth = true)
    (hsplit : (object members).indented = text ++ more) (hmore : more ≠ "") :
    written? text = none := by
  obtain ⟨inner, hbraces⟩ := toList_object_braces members
  rw [hsplit, String.toList_append] at hbraces
  cases hread : written? text with
  | none => rfl
  | some v =>
      obtain ⟨cs, hcs⟩ : ∃ cs, text.toList = '\x7b' :: cs := by
        cases htext : text.toList with
        | nil =>
            obtain rfl : text = "" := String.toList_inj.mp htext
            cases hread
        | cons c cs =>
            rw [htext] at hbraces
            exact ⟨cs, by rw [(List.cons.inj hbraces).1]⟩
      have hv : ∀ n, v ≠ .number n := by
        obtain ⟨⟨v', rest⟩, hvalue, hrest⟩ := Option.bind_eq_some_iff.mp hread
        rw [hcs] at hvalue
        obtain ⟨found, rfl⟩ := Reader.value?_brace hvalue
        dsimp only at hrest
        split at hrest
        case isTrue =>
          cases hrest
          exact fun n => Json.noConfusion
        case isFalse => cases hrest
      -- what is missing ends in the last brace, which is no blank
      have hbrace : Reader.skipBlanks more.toList ≠ [] := by
        have hne : more.toList ≠ [] := fun hnil => hmore (String.toList_inj.mp hnil)
        obtain ⟨front, c, hfront⟩ : ∃ front c, more.toList = front ++ [c] :=
          ⟨_, _, (List.dropLast_concat_getLast hne).symm⟩
        have hlast : c = '\x7d' := by
          rw [hfront, ← List.append_assoc, ← List.cons_append] at hbraces
          exact (List.cons.inj (List.append_inj' hbraces rfl).2).1
        rw [hfront, hlast]
        exact Reader.skipBlanks_concat_ne_nil (by decide) front
      have hwhole := written?_append hread hv more
      rw [← hsplit, written?_indented hreadable, if_neg (by simpa using hbrace)] at hwhole
      cases hwhole

end EventScript.Json
