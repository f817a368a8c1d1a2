/-
Texts with nothing but blanks in them. What counts as a blank for a document is wider than what
YAML skips between tokens: a no-break space is ink to YAML, and a text of them is a plain
scalar. So a blank text may well have a value, or be refused, but it holds no indicator of
anything else, and its value is never a mapping.

Every reader leaves a part of what was ahead of it, so blanks are all that a lexer ever meets.
Its state meanwhile is outside all collections, with plain scalars for tokens, which `Idle`
says and each of its steps keeps.
-/
import EventScript.Proofs.Except
import EventScript.Text.Split
import EventScript.Yaml.Value

namespace EventScript.Yaml

-- ============================================================== forward

namespace Cursor

variable {c c' : Cursor}

/-- What is passed is gone from the front, and the rest stays. -/
theorem skip_suffix (c : Cursor) (n : Nat) : (c.skip n).rest <:+ c.rest := List.drop_suffix n c.rest

theorem run_suffix (c : Cursor) (p : Char → Bool) : (c.run p).2.rest <:+ c.rest := c.skip_suffix _

theorem skipLine_suffix (c : Cursor) : c.skipLine.rest <:+ c.rest := c.run_suffix _

theorem break?_suffix {x : Char} (h : c.break? = some (x, c')) : c'.rest <:+ c.rest := by
  unfold break? at h
  dsimp only at h
  split at h
  · cases h
    exact List.drop_suffix _ _
  · split at h
    case isTrue =>
      cases h
      exact List.drop_suffix _ _
    case isFalse =>
      split at h
      case isTrue =>
        cases h
        exact List.drop_suffix _ _
      case isFalse => cases h
  · cases h

end Cursor

/-- Passing a gap leaves the rest. -/
theorem Gap.scan_suffix {indent : Int} {fuel : Nat} {g g' : Gap} {c c' : Cursor}
    (h : Gap.scan indent fuel g c = .ok (g', c')) : c'.rest <:+ c.rest := by
  induction fuel generalizing g c with
  | zero =>
      cases h
      exact List.suffix_refl _
  | succ fuel ih =>
      unfold Gap.scan at h
      split at h
      · cases h
        exact List.suffix_refl _
      · split at h
        · split at h
          case isTrue => cases h
          case isFalse => exact (ih h).trans (c.skip_suffix 1)
        · split at h
          · cases h
            exact List.suffix_refl _
          · next b after hbreak => exact (ih h).trans (Cursor.break?_suffix hbreak)

/-- What a plain scalar leaves unread is an end of the text, over any number of lines. -/
theorem plainFrom_suffix {inFlow : Bool} {indent : Int} {fuel : Nat} {sofar text : List Char}
    {gap : Gap} {broken : Bool} {c c' : Cursor}
    (h : plainFrom inFlow indent fuel sofar gap c = .ok (text, broken, c')) :
    c'.rest <:+ c.rest := by
  induction fuel generalizing sofar gap c with
  | zero => cases h
  | succ fuel ih =>
      unfold plainFrom at h
      split at h
      case isTrue =>
        cases h
        exact List.suffix_refl _
      case isFalse =>
        split at h
        · cases h
        · next n _ =>
          dsimp only at h
          split at h
          case isTrue =>
            cases h
            exact c.skip_suffix n
          case isFalse =>
            obtain ⟨⟨gap', after⟩, hgap, hrest⟩ := Except.bind_eq_ok.mp h
            have hafter : after.rest <:+ c.rest := (Gap.scan_suffix hgap).trans (c.skip_suffix n)
            dsimp only at hrest
            split at hrest
            case isTrue =>
              cases hrest
              exact hafter
            case isFalse => exact (ih hrest).trans hafter

theorem plain_suffix {inFlow : Bool} {indent : Int} {text : List Char} {broken : Bool}
    {c c' : Cursor} (h : plain inFlow indent c = .ok (text, broken, c')) : c'.rest <:+ c.rest := by
  unfold plain at h
  obtain ⟨⟨sofar, broken', after⟩, hfrom, hok⟩ := Except.bind_eq_ok.mp h
  cases hok
  exact plainFrom_suffix hfrom

-- ============================================================ the lexer

namespace Lexer

/-- The lexer stands outside all collections, it has met plain scalars alone, and blanks are all
that is ahead of it. -/
structure Idle (l : Lexer) : Prop where
  blank : ∀ x ∈ l.cursor.rest, Text.isBlank x = true
  flow : l.flow = 0
  indent : l.indent = -1
  outer : l.outer = []
  tokens : ∀ t ∈ l.tokens.toList, ∃ s, t = .scalar s true

namespace Idle

variable {l l' : Lexer}

/-- A lexer stays idle when it moves on. -/
theorem moveTo (h : l.Idle) {c : Cursor} (hc : c.rest <:+ l.cursor.rest) : (l.moveTo c).Idle :=
  ⟨fun x hx => h.blank x (hc.subset hx), h.flow, h.indent, h.outer, h.tokens⟩

/-- It stays so on the way to a token. -/
theorem toToken (h : l.Idle) (fuel : Nat) : (toToken fuel l).Idle := by
  induction fuel generalizing l with
  | zero => exact h
  | succ fuel ih =>
      unfold Lexer.toToken
      dsimp only
      generalize hmark : (if l.cursor.column = 0 && l.cursor.isAt '\uFEFF' then l.skip 1 else l) = k
      have hk : k.Idle := by
        subst hmark
        split
        · exact h.moveTo (l.cursor.skip_suffix 1)
        · exact h
      generalize hspaces : (k.cursor.run _).2 = c
      have hc : c.rest <:+ k.cursor.rest := hspaces ▸ k.cursor.run_suffix _
      have hcomment : (if c.isAt '#' then c.skipLine else c).rest <:+ k.cursor.rest := by
        split
        · exact c.skipLine_suffix.trans hc
        · exact hc
      split
      · next after hbreak =>
        have hafter := (Cursor.break?_suffix hbreak).trans hcomment
        exact ih ⟨fun x hx => hk.blank x (hafter.subset hx), hk.flow, hk.indent, hk.outer,
          hk.tokens⟩
      · exact hk.moveTo hcomment

/-- There is no block to close. -/
theorem closeBlocks_eq (h : l.Idle) (column : Int) : l.closeBlocks column = l := by
  unfold Lexer.closeBlocks
  rw [if_neg (not_not_intro h.flow), h.outer]
  unfold closing
  cases l
  cases h.outer
  rfl

theorem dropKey (h : l.Idle) (hl : l.dropKey = .ok l') : l'.Idle ∧ l'.cursor = l.cursor := by
  unfold Lexer.dropKey at hl
  split at hl
  · split at hl
    · cases hl
    · cases hl
      exact ⟨⟨h.blank, h.flow, h.indent, h.outer, h.tokens⟩, rfl⟩
  · cases hl
    exact ⟨h, rfl⟩

/-- A lexer with nothing open notes that a key may begin, and reads nothing for it. -/
theorem noteKey (h : l.Idle) (hl : l.noteKey = .ok l') : l'.Idle ∧ l'.cursor = l.cursor := by
  unfold Lexer.noteKey at hl
  split at hl
  case isTrue =>
    obtain ⟨k, hk, hok⟩ := Except.bind_eq_ok.mp hl
    obtain ⟨hidle, hcursor⟩ := h.dropKey hk
    cases hok
    exact ⟨⟨hidle.blank, hidle.flow, hidle.indent, hidle.outer, hidle.tokens⟩, hcursor⟩
  case isFalse =>
    cases hl
    exact ⟨h, rfl⟩

theorem plainScalar (h : l.Idle) (hl : l.plainScalar = .ok l') : l'.Idle := by
  unfold Lexer.plainScalar at hl
  obtain ⟨k, hk, hrest⟩ := Except.bind_eq_ok.mp hl
  obtain ⟨hidle, -⟩ := h.noteKey hk
  obtain ⟨⟨text, broken, c⟩, hplain, hok⟩ := Except.bind_eq_ok.mp hrest
  cases hok
  refine ⟨fun x hx => hidle.blank x ((plain_suffix hplain).subset hx), hidle.flow, hidle.indent,
    hidle.outer, ?_⟩
  intro t ht
  rcases List.mem_append.mp (Array.toList_push ▸ ht) with ht | ht
  · exact hidle.tokens t ht
  · exact ⟨_, List.mem_singleton.mp ht⟩

/-- No indicator is a blank, so that only a plain scalar can begin. -/
theorem token (h : l.Idle) {x : Char} (hx : l.cursor.next = some x) (hl : l.token x = .ok l') :
    l'.Idle := by
  obtain ⟨rest, hrest⟩ : ∃ rest, l.cursor.rest = x :: rest := List.head?_eq_some_iff.mp hx
  have hblank : Text.isBlank x = true := h.blank x (hrest ▸ List.mem_cons_self)
  have hne : ∀ y, Text.isBlank y = false → (x == y) = false := by
    intro y hy
    apply beq_eq_false_iff_ne.mpr
    rintro rfl
    rw [hy] at hblank
    cases hblank
  have hmarker : ∀ y, Text.isBlank y = false → l.cursor.atMarker y = false := by
    intro y hy
    unfold Cursor.atMarker
    rw [hrest]
    simp [hne y hy]
  unfold Lexer.token at hl
  simp only [hne '%' rfl, hne '[' rfl, hne '{' rfl, hne ']' rfl, hne '}' rfl, hne ',' rfl,
    hne '-' rfl, hne '?' rfl, hne ':' rfl, hne '*' rfl, hne '&' rfl, hne '!' rfl, hne '|' rfl,
    hne '>' rfl, hne '\'' rfl, hne '"' rfl, hmarker '-' rfl, hmarker '.' rfl, Bool.and_false,
    Bool.false_and, Bool.false_eq_true, if_false] at hl
  split at hl
  case isTrue => exact h.plainScalar hl
  case isFalse => cases hl

/-- What comes of it is plain scalars and the end. -/
theorem finish (h : l.Idle) {fuel : Nat} {ts : List Token} (hts : finish fuel l = .ok ts) :
    ∃ scalars, ts = scalars ++ [.streamEnd] ∧ ∀ t ∈ scalars, ∃ s, t = .scalar s true := by
  induction fuel generalizing l with
  | zero => cases hts
  | succ fuel ih =>
      have hnext := h.toToken (l.cursor.rest.length + 1)
      unfold Lexer.finish at hts
      dsimp only at hts
      rw [hnext.closeBlocks_eq] at hts
      split at hts
      · obtain ⟨k, hk, hok⟩ := Except.bind_eq_ok.mp hts
        unfold leaveBlocks at hk
        rw [hnext.closeBlocks_eq] at hk
        obtain ⟨j, hj, hk⟩ := Except.bind_eq_ok.mp hk
        cases hk
        cases hok
        exact ⟨j.tokens.toList, Array.toList_push, (hnext.dropKey hj).1.tokens⟩
      · next x hx =>
        obtain ⟨k, hk, hrest⟩ := Except.bind_eq_ok.mp hts
        exact ih (hnext.token hx hk) hrest

end Idle

end Lexer

/-- The tokens of a text of blanks. -/
theorem Token.ofText_blank {cs : List Char} (h : ∀ x ∈ cs, Text.isBlank x = true)
    {ts : List Token} (hts : Token.ofText cs = .ok ts) :
    ∃ scalars, ts = scalars ++ [.streamEnd] ∧ ∀ t ∈ scalars, ∃ s, t = .scalar s true := by
  unfold Token.ofText at hts
  split at hts
  · cases hts
  · exact Lexer.Idle.finish ⟨h, rfl, rfl, rfl, List.forall_mem_nil _⟩ hts

-- ============================================================ the value

/-- A document that begins with a plain scalar is that scalar. -/
theorem Node.document?_scalar {s : String} {ts : List Token} {n : Option Node}
    (h : Node.document? (.scalar s true :: ts) = .ok n) : n = some (.scalar {} s true) := by
  unfold Node.document? at h
  dsimp only at h
  split at h
  case isTrue hend => simp at hend
  case isFalse =>
    have hread : (Node.read (8 * (Token.scalar s true :: ts).length + 8) true false).run
        { tokens := .scalar s true :: ts, shorthands := Node.defaultShorthands }
        = .ok (.scalar {} s true, { tokens := ts, shorthands := Node.defaultShorthands }) := rfl
    obtain ⟨x, hbody, h⟩ := Except.bind_eq_ok.mp h
    cases hbody
    split at h
    case isTrue hbare => exact absurd hbare Bool.false_ne_true
    case isFalse =>
      rw [hread] at h
      obtain ⟨y, hy, h⟩ := Except.bind_eq_ok.mp h
      cases hy
      split at h
      · cases h
        rfl
      · cases h
        rfl
      · cases h

/-- A document of one plain scalar is the value of that. -/
theorem Node.toJson_plain (s : String) : (Node.scalar {} s true).toJson = plainValue s := by
  unfold Node.toJson
  rw [value_scalar, if_pos rfl]
  cases plainValue s <;> rfl

/-- A plain scalar is not a mapping. -/
theorem plainValue_ne_object {s : String} {members : Json.Object} :
    plainValue s ≠ .ok (.object members) := by
  have hinteger : ∀ i, ofInteger i ≠ .ok (.object members) := by
    intro i
    unfold ofInteger
    split <;> exact nofun
  have hdecimal : ∀ x, ofBinary64 x ≠ .object members := by
    intro x
    unfold ofBinary64
    split <;> exact nofun
  unfold plainValue
  intro h
  split at h
  case isTrue => cases h
  case isFalse =>
    split at h
    · cases h
    · split at h
      · exact hinteger _ h
      · split at h
        case isTrue => cases h
        case isFalse =>
          split at h
          · exact hdecimal _ (Except.ok.inj h)
          · cases h

/-- A text of blanks has no mapping for its value. -/
theorem read_blank_ne_object {text : String} (h : Text.isAllBlank text = true)
    {members : Json.Object} : read text ≠ .ok (.object members) := by
  intro hread
  unfold read at hread
  obtain ⟨ts, hts, hread⟩ := Except.bind_eq_ok.mp hread
  obtain ⟨n, hn, hread⟩ := Except.bind_eq_ok.mp hread
  obtain ⟨scalars, rfl, hscalars⟩ := Token.ofText_blank (List.all_eq_true.mp h) hts
  cases scalars with
  | nil =>
      cases hn
      cases hread
  | cons t scalars =>
      obtain ⟨s, rfl⟩ := hscalars t List.mem_cons_self
      cases Node.document?_scalar hn
      dsimp only at hread
      rw [Node.toJson_plain] at hread
      exact plainValue_ne_object hread

end EventScript.Yaml
