/-
Segments of an address. A text that is put into a path is encoded there, so that it shows nothing
that would end a segment or the path, and is read back by resolving the encoding. What is read as
an address shows no such character in its segments either, so an address as text falls at its
slashes into the segments it is made of.

Two things are no text of a segment: the names "here" and "up", and the characters that an address
is read without. Apart from these, a text that is pushed is a segment of its own.
-/
import EventScript.Http.Url
import EventScript.Proofs.Text.Basic
import Mathlib.Data.List.Induction

namespace EventScript.Http

-- ========================================================= encoded texts

namespace Percent

variable {set : Char → Bool} {c : Char} {cs ds : List Char}

/-- An encoded character is resolved to its bytes, where a percent sign is encoded too. -/
theorem decodeBytes_encodeChar (hmark : set '%' = true) (c : Char) (rest : List Char) :
    decodeBytes (encodeChar set c ++ rest) = String.utf8EncodeChar c ++ decodeBytes rest := by
  have hbytes : ∀ bytes : List UInt8,
      decodeBytes (bytes.flatMap encodeByte ++ rest) = bytes ++ decodeBytes rest := by
    intro bytes
    induction bytes with
    | nil => rfl
    | cons b bytes ih =>
        rw [List.flatMap_cons, List.append_assoc, decodeBytes_encodeByte, ih, List.cons_append]
  unfold encodeChar
  split
  case isTrue => exact hbytes _
  case isFalse hkept =>
    refine decodeBytes_cons_of_ne ?_ rest
    rintro rfl
    simp [hmark] at hkept

/-- An encoded text is resolved to the bytes of its characters. -/
theorem decodeBytes_encode (hmark : set '%' = true) (cs : List Char) :
    decodeBytes (encode set cs) = cs.flatMap String.utf8EncodeChar := by
  induction cs with
  | nil => rfl
  | cons c cs ih =>
      rw [encode] at ih
      rw [encode, List.flatMap_cons, decodeBytes_encodeChar hmark, ih, List.flatMap_cons]

/-- An encoded text is read back, where the percent sign is encoded too. -/
theorem decode?_encode (hmark : set '%' = true) (cs : List Char) :
    decode? (encode set cs) = some (String.ofList cs) := by
  have hbytes : (⟨(decodeBytes (encode set cs)).toArray⟩ : ByteArray)
      = (String.ofList cs).toByteArray := by
    rw [decodeBytes_encode hmark, String.toByteArray_ofList]
    exact ByteArray.ext List.data_toByteArray.symm
  unfold decode? String.fromUTF8?
  rw [hbytes, dif_pos (String.ofList cs).isValidUTF8]
  rfl

/-- A text is known by the bytes of its encoding. -/
theorem eq_of_decodeBytes_encode (hmark : set '%' = true)
    (h : decodeBytes (encode set cs) = ds.flatMap String.utf8EncodeChar) : cs = ds := by
  rw [← decodeBytes_encode hmark] at h
  have hread : decode? (encode set cs) = decode? (encode set ds) := by
    unfold decode?
    rw [h]
  rw [decode?_encode hmark, decode?_encode hmark, Option.some.injEq] at hread
  exact String.ofList_injective hread

/-- What an encoded text shows: characters of its own that need no encoding, percent signs, and
letters and digits. -/
theorem mem_encode (h : c ∈ encode set cs) :
    (c ∈ cs ∧ set c = false) ∨ c = '%' ∨ c.isAlphanum = true := by
  have hdigit : ∀ n < 16, (hexDigit n).isAlphanum = true := by decide
  obtain ⟨d, hd, hc⟩ := List.mem_flatMap.mp h
  unfold encodeChar at hc
  split at hc
  case isTrue =>
    obtain ⟨b, -, hb⟩ := List.mem_flatMap.mp hc
    have hlt : b.toNat < 256 := b.toNat_lt
    simp only [encodeByte, List.mem_cons, List.not_mem_nil, or_false] at hb
    rcases hb with rfl | rfl | rfl
    · exact .inr (.inl rfl)
    · exact .inr (.inr (hdigit _ (by omega)))
    · exact .inr (.inr (hdigit _ (by omega)))
  case isFalse hkept =>
    rw [List.mem_singleton.mp hc]
    simp only [Bool.or_eq_true, decide_eq_true_eq, not_or, Bool.not_eq_true] at hkept
    exact .inl ⟨hd, hkept.2⟩

end Percent

namespace Url

variable {s rest dot : List Char} {ss : List String} {text : String} {texts : List String}

-- ========================================================== here and up

/-- What is lower-cased to a character below the small letters is that character. -/
theorem eq_of_toLower {c d : Char} (h : c.toLower = d) (hd : d.toNat < 0x61) : c = d := by
  rw [← Char.toNat_inj, Text.toNat_toLower] at h
  rw [← Char.toNat_inj]
  split at h
  · omega
  · exact h

/-- What is lower-cased to `e` is the letter in either case. -/
theorem eq_of_toLower_e {c : Char} (h : c.toLower = 'e') : c = 'e' ∨ c = 'E' := by
  have he : 'e'.toNat = 0x65 := rfl
  have hE : 'E'.toNat = 0x45 := rfl
  rw [← Char.toNat_inj, Text.toNat_toLower, he] at h
  rw [← Char.toNat_inj, ← Char.toNat_inj, he, hE]
  split at h
  · omega
  · exact .inl h

/-- A dot at the start of a segment, as it is or encoded, is read as one. -/
theorem decodeBytes_of_dot (hdot : dot = ['.'] ∨ dot = ['%', '2', 'e'])
    (h : s.map Char.toLower = dot ++ rest) :
    ∃ tail : List Char, tail.map Char.toLower = rest
      ∧ Percent.decodeBytes s = String.utf8EncodeChar '.' ++ Percent.decodeBytes tail := by
  rcases hdot with rfl | rfl
  · obtain ⟨c, tail, rfl, hc, htail⟩ := List.map_eq_cons_iff.mp h
    rw [eq_of_toLower hc (by decide)]
    exact ⟨tail, htail, Percent.decodeBytes_cons_of_ne (by decide) tail⟩
  · obtain ⟨c₁, s₁, rfl, h₁, hs₁⟩ := List.map_eq_cons_iff.mp h
    obtain ⟨c₂, s₂, rfl, h₂, hs₂⟩ := List.map_eq_cons_iff.mp hs₁
    obtain ⟨c₃, tail, rfl, h₃, htail⟩ := List.map_eq_cons_iff.mp hs₂
    rw [eq_of_toLower h₁ (by decide), eq_of_toLower h₂ (by decide)]
    refine ⟨tail, htail, ?_⟩
    rcases eq_of_toLower_e h₃ with rfl | rfl
    · rfl
    · rfl

/-- A segment that means here is a dot, however it is written. -/
theorem decodeBytes_of_isHere (h : isHere s = true) :
    Percent.decodeBytes s = ['.'].flatMap String.utf8EncodeChar := by
  have hlower : ∃ dot, (dot = ['.'] ∨ dot = ['%', '2', 'e'])
      ∧ s.map Char.toLower = dot ++ [] := by
    simp only [isHere, Bool.or_eq_true, beq_iff_eq] at h
    rcases h with rfl | h
    · exact ⟨['.'], .inl rfl, rfl⟩
    · exact ⟨['%', '2', 'e'], .inr rfl, h⟩
  obtain ⟨dot, hdot, hs⟩ := hlower
  obtain ⟨tail, htail, hbytes⟩ := decodeBytes_of_dot hdot hs
  rw [hbytes, List.map_eq_nil_iff.mp htail]
  rfl

theorem decodeBytes_of_isUp (h : isUp s = true) :
    Percent.decodeBytes s = ['.', '.'].flatMap String.utf8EncodeChar := by
  have hlower : ∃ first second, (first = ['.'] ∨ first = ['%', '2', 'e'])
      ∧ (second = ['.'] ∨ second = ['%', '2', 'e'])
      ∧ s.map Char.toLower = first ++ (second ++ []) := by
    simp only [isUp, Bool.or_eq_true, beq_iff_eq] at h
    rcases h with ((h | h) | h) | h
    · exact ⟨['.'], ['.'], .inl rfl, .inl rfl, h⟩
    · exact ⟨['.'], ['%', '2', 'e'], .inl rfl, .inr rfl, h⟩
    · exact ⟨['%', '2', 'e'], ['.'], .inr rfl, .inl rfl, h⟩
    · exact ⟨['%', '2', 'e'], ['%', '2', 'e'], .inr rfl, .inr rfl, h⟩
  obtain ⟨first, second, hfirst, hsecond, hs⟩ := hlower
  obtain ⟨tail, htail, hbytes⟩ := decodeBytes_of_dot hfirst hs
  obtain ⟨last, hlast, hbytes'⟩ := decodeBytes_of_dot hsecond htail
  rw [hbytes, hbytes', List.map_eq_nil_iff.mp hlast]
  rfl

-- ====================================================== one segment more

/-- The characters of a text that are not passed over. -/
def legible (text : String) : List Char := text.toList.filter fun c => !isIgnored c

/-- The segment that a text is encoded to. -/
def segmentFor (text : String) : String :=
  String.ofList (Percent.encode Percent.inSegment (legible text))

/-- A text that can be a segment of its own: it is no name for a place, and every character of
it counts. -/
structure CanBeSegment (text : String) : Prop where
  ne_here : text ≠ "."
  ne_up : text ≠ ".."
  heeded : ∀ c ∈ text.toList, isIgnored c = false

/-- The text a segment is read back as. -/
def read? (s : String) : Option String := Percent.decode? s.toList

/-- From the segment for a text its legible part is read back. -/
theorem read?_segmentFor (text : String) :
    read? (segmentFor text) = some (String.ofList (legible text)) := by
  rw [read?, segmentFor, String.toList_ofList]
  exact Percent.decode?_encode rfl _

/-- A text is legible as a whole where no character of it is ignored. -/
theorem legible_eq_iff : legible text = text.toList ↔ ∀ c ∈ text.toList, isIgnored c = false := by
  simp [legible, List.filter_eq_self]

/-- A text that can be a segment of its own is read back from it. -/
theorem read?_of_canBeSegment (h : CanBeSegment text) : read? (segmentFor text) = some text := by
  rw [read?_segmentFor, legible_eq_iff.mpr h.heeded, String.ofList_toList]

/-- What is pushed behind segments other than an empty one. -/
theorem pushSegment_eq (hss : ss ≠ [""]) (text : String) :
    pushSegment ss text =
      if text = "." ∨ text = ".." then ss
      else if legible text = ['.', '.'] then ss.dropLast ++ [""]
      else if legible text = ['.'] then ss ++ [""]
      else ss ++ [segmentFor text] := by
  have hup : isUp (Percent.encode Percent.inSegment (legible text)) = true
      ↔ legible text = ['.', '.'] := by
    constructor
    · intro h
      exact Percent.eq_of_decodeBytes_encode rfl (decodeBytes_of_isUp h)
    · intro h
      rw [h]
      rfl
  have hhere : isHere (Percent.encode Percent.inSegment (legible text)) = true
      ↔ legible text = ['.'] := by
    constructor
    · intro h
      exact Percent.eq_of_decodeBytes_encode rfl (decodeBytes_of_isHere h)
    · intro h
      rw [h]
      rfl
  unfold pushSegment
  simp only [hss, if_false]
  rw [← legible]
  simp only [hup, hhere, segmentFor]

/-- A text that can be a segment of its own becomes one. -/
theorem pushSegment_of_canBeSegment (hss : ss ≠ [""]) (h : CanBeSegment text) :
    pushSegment ss text = ss ++ [segmentFor text] := by
  have hlegible := legible_eq_iff.mpr h.heeded
  have hhere : text.toList ≠ ['.'] := fun heq => h.ne_here (String.toList_inj.mp heq)
  have hup : text.toList ≠ ['.', '.'] := fun heq => h.ne_up (String.toList_inj.mp heq)
  rw [pushSegment_eq hss, hlegible]
  simp [h.ne_here, h.ne_up, hhere, hup]

/-- A lone empty segment gives way to what is pushed. -/
theorem length_pushSegment_empty (text : String) : (pushSegment [""] text).length = 1 := by
  unfold pushSegment
  split
  · rfl
  · dsimp only
    split
    · rfl
    · split
      · rfl
      · rfl

theorem concat_ne_empty {last : String} (hlast : last ≠ "") (ss : List String) :
    ss ++ [last] ≠ [""] := by
  intro h
  have hsame := congrArg List.getLast? h
  rw [List.getLast?_concat] at hsame
  exact hlast (Option.some.inj hsame)

/-- A text either adds no segment, or it adds one; and where that one is read back as the text,
the text can be a segment of its own. -/
theorem pushSegment_cases (ss : List String) (text : String) :
    (pushSegment ss text).length ≤ ss.length
      ∨ ∃ s, pushSegment ss text = ss ++ [s]
          ∧ (read? s = some text → CanBeSegment text) := by
  -- an empty segment is read back as the empty text, which holds no dot
  have hempty : legible text ≠ [] → read? "" = some text → CanBeSegment text := by
    intro hne hread
    have htext : text = "" := (Option.some.inj hread).symm
    exact absurd (by rw [htext]; rfl) hne
  by_cases hss : ss = [""]
  · left
    rw [hss, length_pushSegment_empty]
    exact Nat.le_refl _
  · rw [pushSegment_eq hss]
    split
    case isTrue => exact .inl (Nat.le_refl _)
    case isFalse hname =>
      rw [not_or] at hname
      split
      case isTrue hup =>
        cases ss with
        | nil => exact .inr ⟨"", rfl, hempty (by rw [hup]; simp)⟩
        | cons first others => exact .inl (by simp)
      case isFalse =>
        split
        case isTrue hhere => exact .inr ⟨"", rfl, hempty (by rw [hhere]; simp)⟩
        case isFalse =>
          refine .inr ⟨segmentFor text, rfl, fun hread => ⟨hname.1, hname.2, ?_⟩⟩
          rw [read?_segmentFor, Option.some.injEq] at hread
          rw [← legible_eq_iff, ← hread, String.toList_ofList, hread]

/-- A push adds one segment at most. -/
theorem length_pushSegment_le (ss : List String) (text : String) :
    (pushSegment ss text).length ≤ ss.length + 1 := by
  rcases pushSegment_cases ss text with h | ⟨s, h, -⟩
  · omega
  · rw [h, List.length_append]
    exact Nat.le_refl _

theorem length_pushAll_le (texts : List String) (ss : List String) :
    (texts.foldl pushSegment ss).length ≤ ss.length + texts.length := by
  induction texts generalizing ss with
  | nil => exact Nat.le_refl _
  | cons text texts ih =>
      have hstep := length_pushSegment_le ss text
      have hrest := ih (pushSegment ss text)
      rw [List.foldl_cons, List.length_cons]
      omega

/-- Texts that can be segments become the segments behind those there are. -/
theorem pushAll_of_canBeSegment (hne : ss ≠ []) (hss : ss ≠ [""])
    (h : ∀ text ∈ texts, CanBeSegment text) :
    texts.foldl pushSegment ss = ss ++ texts.map segmentFor := by
  induction texts generalizing ss with
  | nil => simp
  | cons text texts ih =>
      rw [List.forall_mem_cons] at h
      rw [List.foldl_cons, pushSegment_of_canBeSegment hss h.1, ih _ _ h.2, List.append_assoc]
      · rfl
      · simp
      · cases ss with
        | nil => exact absurd rfl hne
        | cons first others => simp

/-- Only texts that can be segments are all read back from as many segments more. -/
theorem canBeSegment_of_pushAll {tail : List String}
    (hpushed : texts.foldl pushSegment ss = ss ++ tail)
    (hread : tail.map read? = texts.map some) :
    ∀ text ∈ texts, CanBeSegment text := by
  -- from the last text on: since each adds one segment at the most, it has added the last one
  induction texts using List.reverseRecOn generalizing tail with
  | nil => intro text h; cases h
  | append_singleton texts text ih =>
      have hlength : tail.length = texts.length + 1 := by simpa using congrArg List.length hread
      have hbound := length_pushAll_le texts ss
      rw [List.foldl_append, List.foldl_cons, List.foldl_nil] at hpushed
      rcases pushSegment_cases (texts.foldl pushSegment ss) text with hle | ⟨s, hs, hcan⟩
      · rw [hpushed, List.length_append] at hle
        omega
      · rcases List.eq_nil_or_concat tail with rfl | ⟨front, last, rfl⟩
        · cases hlength
        rw [List.concat_eq_append] at hpushed hread
        rw [hs, ← List.append_assoc] at hpushed
        obtain ⟨hfront, hlast⟩ := List.append_inj' hpushed rfl
        cases hlast
        rw [List.map_append, List.map_append] at hread
        obtain ⟨hreadFront, hreadLast⟩ := List.append_inj' hread rfl
        intro t ht
        rcases List.mem_append.mp ht with ht | ht
        · exact ih hfront hreadFront t ht
        · rw [List.mem_singleton.mp ht]
          exact hcan (List.cons.inj hreadLast).1

/-- The segments in front are followed by others. -/
def StandsBefore (front ss : List String) : Prop :=
  ∃ tail : List String, tail ≠ [] ∧ ss = front ++ tail

/-- What stands before other segments stays where it is, whatever is pushed. -/
theorem standsBefore_pushSegment {front : List String} (hne : front ≠ [])
    (h : StandsBefore front ss) (text : String) : StandsBefore front (pushSegment ss text) := by
  obtain ⟨tail, htail, rfl⟩ := h
  have hss : front ++ tail ≠ [""] := by
    intro hone
    have hlength := congrArg List.length hone
    have hfront := List.length_pos_iff.mpr hne
    have hback := List.length_pos_iff.mpr htail
    rw [List.length_append, List.length_singleton] at hlength
    omega
  rw [pushSegment_eq hss]
  split
  · exact ⟨tail, htail, rfl⟩
  · split
    · refine ⟨tail.dropLast ++ [""], by simp, ?_⟩
      rw [List.dropLast_append_of_ne_nil htail, List.append_assoc]
    · split
      · exact ⟨tail ++ [""], by simp, List.append_assoc ..⟩
      · exact ⟨tail ++ [segmentFor text], by simp, List.append_assoc ..⟩

/-- What stands before other segments stays through any number of pushes. -/
theorem standsBefore_pushAll {front : List String} (hne : front ≠ [])
    (h : StandsBefore front ss) (texts : List String) :
    StandsBefore front (texts.foldl pushSegment ss) := by
  induction texts generalizing ss with
  | nil => exact h
  | cons text texts ih => exact ih (standsBefore_pushSegment hne h text)

-- ============================================================ continued

/-- The segments without an empty last one. -/
def withoutEmptyLast (ss : List String) : List String :=
  if ss.getLast? = some "" then ss.dropLast else ss

/-- The segments are others, without an empty last one, with some more behind them that are
read back as the texts. -/
def Continues (ss texts segments : List String) : Prop :=
  ∃ tail : List String, segments = withoutEmptyLast ss ++ tail
    ∧ tail.map read? = texts.map some

/-- Nothing but an empty segment is left of two empty ones only. -/
theorem withoutEmptyLast_eq_empty_iff : withoutEmptyLast ss = [""] ↔ ss = ["", ""] := by
  constructor
  · intro h
    unfold withoutEmptyLast at h
    split at h
    case isTrue hlast =>
      obtain ⟨front, rfl⟩ := List.getLast?_eq_some_iff.mp hlast
      rw [List.dropLast_concat] at h
      rw [h]
      rfl
    case isFalse hlast =>
      rw [h] at hlast
      exact absurd rfl hlast
  · rintro rfl
    rfl

theorem withoutEmptyLast_subset : withoutEmptyLast ss ⊆ ss := by
  unfold withoutEmptyLast
  split
  · exact List.dropLast_subset ss
  · exact List.Subset.refl ss

/-- Segments are continued by texts, the first of which is not empty, exactly when every text
can be a segment of its own and there is not nothing but an empty segment to continue. -/
theorem continues_pushAll_iff (htext : text ≠ "") :
    Continues ss (text :: texts) ((text :: texts).foldl pushSegment (withoutEmptyLast ss))
      ↔ (∀ t ∈ text :: texts, CanBeSegment t) ∧ ss ≠ ["", ""] := by
  constructor
  · rintro ⟨tail, htail, hread⟩
    refine ⟨canBeSegment_of_pushAll htail hread, fun hss => ?_⟩
    -- the empty segment gives way to the first text, so that one is missing in the end
    have hlength : tail.length = texts.length + 1 := by simpa using congrArg List.length hread
    have hbound := length_pushAll_le texts (pushSegment [""] text)
    rw [withoutEmptyLast_eq_empty_iff.mpr hss, List.foldl_cons] at htail
    rw [htail, length_pushSegment_empty, List.length_append, List.length_singleton] at hbound
    omega
  · rintro ⟨hcan, hss⟩
    have hbase : withoutEmptyLast ss ≠ [""] := mt withoutEmptyLast_eq_empty_iff.mp hss
    have hread : ((text :: texts).map segmentFor).map read? = (text :: texts).map some := by
      rw [List.map_map]
      refine List.map_congr_left fun t ht => ?_
      rw [Function.comp_apply, read?_of_canBeSegment (hcan t ht)]
    refine ⟨(text :: texts).map segmentFor, ?_, hread⟩
    rw [List.forall_mem_cons] at hcan
    have hfirst : segmentFor text ≠ "" := by
      intro hempty
      have hself := read?_of_canBeSegment hcan.1
      rw [hempty] at hself
      exact htext (Option.some.inj hself).symm
    have hnext := concat_ne_empty hfirst (withoutEmptyLast ss)
    rw [List.foldl_cons, pushSegment_of_canBeSegment hbase hcan.1,
      pushAll_of_canBeSegment (by simp) hnext hcan.2, List.append_assoc]
    rfl

-- ================================================================ apart

/-- A segment shows nothing that ends a segment or the path. -/
def IsSegment (s : String) : Prop := ∀ c ∈ s.toList, c ≠ '/' ∧ c ≠ '?' ∧ c ≠ '#'

theorem isSegment_empty : IsSegment "" := by
  intro c hc
  cases hc

/-- An encoded text is a segment when it shows no slash, or slashes are encoded. -/
theorem isSegment_encode {set : Char → Bool} {cs : List Char} (hquestion : set '?' = true)
    (hhash : set '#' = true) (hslash : set '/' = true ∨ '/' ∉ cs) :
    IsSegment (String.ofList (Percent.encode set cs)) := by
  intro c hc
  rw [String.toList_ofList] at hc
  rcases Percent.mem_encode hc with ⟨hmem, hset⟩ | rfl | halnum
  · refine ⟨?_, ?_, ?_⟩
    · rintro rfl
      rcases hslash with hslash | hslash
      · rw [hslash] at hset
        cases hset
      · exact hslash hmem
    · rintro rfl
      rw [hquestion] at hset
      cases hset
    · rintro rfl
      rw [hhash] at hset
      cases hset
  · decide
  · refine ⟨?_, ?_, ?_⟩ <;> rintro rfl <;> cases halnum

/-- A push keeps segments apart. -/
theorem isSegment_pushSegment (h : ∀ s ∈ ss, IsSegment s) (text : String) :
    ∀ s ∈ pushSegment ss text, IsSegment s := by
  have hbase : ∀ s ∈ (if ss = [""] then [] else ss), IsSegment s := by
    split
    · intro s hs
      cases hs
    · exact h
  have hone : ∀ (front : List String) (last : String), (∀ s ∈ front, IsSegment s) →
      IsSegment last → ∀ s ∈ front ++ [last], IsSegment s := by
    intro front last hfront hlast s hs
    rcases List.mem_append.mp hs with hs | hs
    · exact hfront s hs
    · rw [List.mem_singleton.mp hs]
      exact hlast
  unfold pushSegment
  split
  · exact h
  · dsimp only
    split
    · exact hone _ _ (fun s hs => hbase s (List.dropLast_subset _ hs)) isSegment_empty
    · split
      · exact hone _ _ hbase isSegment_empty
      · exact hone _ _ hbase (isSegment_encode rfl rfl (.inl rfl))

theorem isSegment_pushAll (h : ∀ s ∈ ss, IsSegment s) (texts : List String) :
    ∀ s ∈ texts.foldl pushSegment ss, IsSegment s := by
  induction texts generalizing ss with
  | nil => exact h
  | cons text texts ih => exact ih (isSegment_pushSegment h text)

/-- Resolving brings nothing in but empty segments. -/
theorem mem_resolve {done pieces : List (List Char)} {s : List Char}
    (h : s ∈ resolve done pieces) : s = [] ∨ s ∈ done ∨ s ∈ pieces := by
  induction done, pieces using resolve.induct with
  | case1 done => exact .inr (.inl (List.mem_reverse.mp h))
  | case2 done piece hup =>
      rw [resolve, if_pos hup, List.mem_reverse, List.mem_cons] at h
      exact h.imp_right fun hs => .inl (List.mem_of_mem_tail hs)
  | case3 done piece hup hhere =>
      rw [resolve, if_neg hup, if_pos hhere, List.mem_reverse, List.mem_cons] at h
      exact h.imp_right .inl
  | case4 done piece hup hhere =>
      rw [resolve, if_neg hup, if_neg hhere, List.mem_reverse, List.mem_cons] at h
      rcases h with rfl | hs
      · exact .inr (.inr (List.mem_singleton_self _))
      · exact .inr (.inl hs)
  | case5 done piece rest hrest hup ih =>
      rw [resolve.eq_3 _ _ _ hrest, if_pos hup] at h
      rcases ih h with hs | hs | hs
      · exact .inl hs
      · exact .inr (.inl (List.mem_of_mem_tail hs))
      · exact .inr (.inr (List.mem_cons_of_mem _ hs))
  | case6 done piece rest hrest hup hhere ih =>
      rw [resolve.eq_3 _ _ _ hrest, if_neg hup, if_pos hhere] at h
      rcases ih h with hs | hs | hs
      · exact .inl hs
      · exact .inr (.inl hs)
      · exact .inr (.inr (List.mem_cons_of_mem _ hs))
  | case7 done piece rest hrest hup hhere ih =>
      rw [resolve.eq_3 _ _ _ hrest, if_neg hup, if_neg hhere] at h
      rcases ih h with hs | hs | hs
      · exact .inl hs
      · rcases List.mem_cons.mp hs with rfl | hs
        · exact .inr (.inr (List.mem_cons_self ..))
        · exact .inr (.inl hs)
      · exact .inr (.inr (List.mem_cons_of_mem _ hs))

/-- The pieces of a path that was read are segments. -/
theorem isSegment_of_pathOf {isSlash : Char → Bool} {cs : List Char} (hslash : isSlash '/' = true)
    (h : pathOf isSlash cs = .segments ss) : ∀ s ∈ ss, IsSegment s := by
  unfold pathOf at h
  cases h
  intro s hs
  obtain ⟨piece, hpiece, rfl⟩ := List.mem_map.mp hs
  rcases mem_resolve hpiece with rfl | hdone | hpiece
  · exact isSegment_empty
  · cases hdone
  · obtain ⟨cs', hcs', rfl⟩ := List.mem_map.mp hpiece
    refine isSegment_encode rfl rfl (.inr fun hmem => ?_)
    have hnot := Text.not_of_mem_piecesAt hcs' hmem
    rw [hslash] at hnot
    cases hnot

/-- The path of an address with a host is made of segments. -/
theorem isSegment_of_withHost? {scheme : String} {usual : Nat} {cs : List Char} {u : Url}
    (h : withHost? scheme usual cs = some u) (hpath : u.path = .segments ss) :
    ∀ s ∈ ss, IsSegment s := by
  unfold withHost? at h
  dsimp only at h
  split at h
  · obtain ⟨host, hhost, -⟩ := Option.bind_eq_some_iff.mp h
    cases hhost
  · obtain ⟨host, -, h⟩ := Option.bind_eq_some_iff.mp h
    obtain ⟨port, -, h⟩ := Option.bind_eq_some_iff.mp h
    cases h
    exact isSegment_of_pathOf rfl hpath

theorem isSegment_of_plain? {scheme : String} {cs : List Char} {u : Url}
    (h : plain? scheme cs = some u) (hpath : u.path = .segments ss) :
    ∀ s ∈ ss, IsSegment s := by
  unfold plain? at h
  dsimp only at h
  split at h
  · obtain ⟨port, -, h⟩ := Option.bind_eq_some_iff.mp h
    split at h
    case isTrue => cases h
    case isFalse =>
      cases h
      dsimp only at hpath
      split at hpath
      · cases hpath
        intro s hs
        cases hs
      · exact isSegment_of_pathOf rfl hpath
  · cases h
    exact isSegment_of_pathOf rfl hpath
  · split at h
    case isTrue =>
      cases h
      exact isSegment_of_pathOf rfl hpath
    case isFalse =>
      cases h
      cases hpath

/-- The path of an address that is read is made of segments. -/
theorem isSegment_of_parse? {text : String} {u : Url} (h : parse? text = some u)
    (hpath : u.path = .segments ss) : ∀ s ∈ ss, IsSegment s := by
  unfold parse? at h
  obtain ⟨⟨scheme, rest⟩, -, h⟩ := Option.bind_eq_some_iff.mp h
  dsimp only at h
  split at h
  · exact isSegment_of_withHost? h hpath
  · exact isSegment_of_plain? h hpath

-- =============================================================== written

/-- A path is written with a slash in front of each segment. -/
theorem toList_write_cons (s : String) (ss : List String) :
    (Path.segments (s :: ss)).write.toList
      = '/' :: (s.toList ++ (Path.segments ss).write.toList) := by
  simp [Path.write]

/-- A written path falls at its slashes into its segments, behind nothing. -/
theorem piecesAt_write {cs : List Char} (hcs : '/' ∉ cs) (h : ∀ s ∈ ss, IsSegment s) :
    Text.piecesAt (· == '/') (cs ++ (Path.segments ss).write.toList)
      = cs :: ss.map String.toList := by
  have hnot : ∀ {ds : List Char}, '/' ∉ ds → ∀ c ∈ ds, (c == '/') = false := by
    intro ds hds c hc
    exact beq_false_of_ne fun heq => hds (heq ▸ hc)
  induction ss generalizing cs with
  | nil =>
      have hnone : (Path.segments []).write.toList = [] := rfl
      rw [hnone, List.append_nil, Text.piecesAt_of_forall_not (hnot hcs), List.map_nil]
  | cons s ss ih =>
      rw [List.forall_mem_cons] at h
      rw [toList_write_cons, Text.piecesAt_append_cons rfl, Text.piecesAt_of_forall_not (hnot hcs),
        ih (fun hmem => (h.1 _ hmem).1 rfl) h.2]
      rfl

/-- A written path shows no mark that would end it. -/
theorem not_ends_of_mem_write {c : Char} (h : ∀ s ∈ ss, IsSegment s)
    (hc : c ∈ (Path.segments ss).write.toList) : c ≠ '?' ∧ c ≠ '#' := by
  induction ss with
  | nil => cases hc
  | cons s ss ih =>
      rw [List.forall_mem_cons] at h
      rw [toList_write_cons, List.mem_cons, List.mem_append] at hc
      rcases hc with rfl | hc | hc
      · decide
      · exact (h.1 c hc).2
      · exact ih h.2 hc

end Url

end EventScript.Http
