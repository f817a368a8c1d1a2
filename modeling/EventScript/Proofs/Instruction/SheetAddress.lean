/-
The address a row is appended at. It lies below the base: everything but the path is the base's,
and whatever the id and the range hold, no character of theirs ends a segment or the path. Behind
the segments of the base stand five more.

The five are read back as what they were made of in all cases but these. The ids `.` and `..` are
passed over; tabs and line ends of an id or a range are; and a base that is nothing but an empty
segment loses it. In these cases the address is that of something else, or of another row's sheet.
-/
import EventScript.Instruction.SheetRow
import EventScript.Proofs.Http.Segments

namespace EventScript

namespace Http.Url

variable {u v w : Url} {ss : List String}

/-- The addresses differ in their paths alone, and neither has a query or a fragment. -/
structure Beside (u v : Url) : Prop where
  scheme : v.scheme = u.scheme
  username : v.username = u.username
  password : v.password = u.password
  host : v.host = u.host
  port : v.port = u.port
  query : v.query = none
  fragment : v.fragment = none

/-- The path as text falls at its slashes into the segments, and holds nothing that ends a
path. -/
structure FallsInto (path : Path) (segments : List String) : Prop where
  eq : path = .segments segments
  pieces : Text.piecesAt (· == '/') path.write.toList = [] :: segments.map String.toList
  ends : ∀ c ∈ path.write.toList, c ≠ '?' ∧ c ≠ '#'

/-- A lone empty segment may be dropped before one is pushed. -/
theorem pushSegment_dropEmptyLast (ss : List String) :
    pushSegment (dropEmptyLast ss) "v4" = pushSegment (withoutEmptyLast ss) "v4" := by
  match ss with
  | [] => rfl
  | [s] =>
      by_cases hs : s = ""
      · rw [hs]
        rfl
      · have hlast : ([s] : List String).getLast? ≠ some "" := by simp [hs]
        rw [dropEmptyLast, withoutEmptyLast, if_neg hlast]
        intro _ _ _ h
        cases h
  | s :: t :: rest => rfl

/-- Addresses beside each other are the same text when their paths are. -/
theorem write_eq_iff (hv : Beside u v) (hw : Beside u w) :
    v.write = w.write ↔ v.path.write = w.path.write := by
  unfold write
  rw [hv.scheme, hv.username, hv.password, hv.host, hv.port, hv.query, hv.fragment, hw.scheme,
    hw.username, hw.password, hw.host, hw.port, hw.query, hw.fragment]
  simp

/-- A path of segments falls into these. -/
theorem fallsInto_of_isSegment (h : ∀ s ∈ ss, IsSegment s) :
    FallsInto (.segments ss) ss := by
  refine ⟨rfl, ?_, ?_⟩
  · exact piecesAt_write List.not_mem_nil h
  · intro c hc
    exact not_ends_of_mem_write h hc

/-- Segments are known by the path they are written in. -/
theorem eq_of_write_eq {p q : Path} {ts : List String} (hp : FallsInto p ss)
    (hq : FallsInto q ts) (h : p.write = q.write) : ss = ts := by
  have hpieces := hp.pieces
  rw [h, hq.pieces, List.cons.injEq] at hpieces
  exact ((List.map_inj_right fun _ _ => String.toList_inj.mp).mp hpieces.2).symm

end Http.Url

namespace Instruction.SheetRow

open Http

variable {i j : SheetRow} {u : Url} {ss : List String}

/-- What the segments are made of. -/
def texts (i : SheetRow) : List String :=
  ["v4", "spreadsheets", i.spreadsheetId, "values", i.range ++ ":append"]

/-- The segments of a row's address, below those of the base. -/
def segmentsBelow (i : SheetRow) (ss : List String) : List String :=
  i.texts.foldl Url.pushSegment (Url.withoutEmptyLast ss)

/-- The address that rows are appended to: the base with the segments behind its own. -/
theorem appendUrl?_eq (i : SheetRow) {base : String} (hbase : Url.parse? base = some u)
    (hpath : u.path = .segments ss) :
    i.appendUrl? base = some { u with path := .segments (i.segmentsBelow ss) } := by
  unfold appendUrl? segmentsBelow texts
  rw [hbase]
  simp only [Option.bind_eq_bind, Option.bind_some, hpath]
  rw [List.foldl_cons, List.foldl_cons, Url.pushSegment_dropEmptyLast]
  rfl

/-- The row and the segments of the base keep their address to what it is made of: the id can be
a segment, every character of the range counts, and the base is not nothing but an empty
segment. -/
structure Addressable (i : SheetRow) (ss : List String) : Prop where
  id : Url.CanBeSegment i.spreadsheetId
  range : ∀ c ∈ i.range.toList, Url.isIgnored c = false
  base : ss ≠ ["", ""]

theorem canBeSegment_version : Url.CanBeSegment "v4" :=
  ⟨by decide, by decide, Url.legible_eq_iff.mp rfl⟩

theorem canBeSegment_sheets : Url.CanBeSegment "spreadsheets" :=
  ⟨by decide, by decide, Url.legible_eq_iff.mp rfl⟩

/-- A range with the word behind it can be a segment where the range shows no ignored character;
it is never a lone dot. -/
theorem canBeSegment_append_iff {range : String} :
    Url.CanBeSegment (range ++ ":append") ↔ ∀ c ∈ range.toList, Url.isIgnored c = false := by
  have hmark : ∀ c ∈ ":append".toList, Url.isIgnored c = false := Url.legible_eq_iff.mp rfl
  have hlength : (range ++ ":append").length = range.length + 7 := String.length_append _ _
  constructor
  · intro h c hc
    exact h.heeded c (by rw [String.toList_append]; exact List.mem_append_left _ hc)
  · intro h
    refine ⟨fun heq => ?_, fun heq => ?_, fun c hc => ?_⟩
    · rw [heq] at hlength
      have hone : ".".length = 1 := rfl
      omega
    · rw [heq] at hlength
      have htwo : "..".length = 2 := rfl
      omega
    · rw [String.toList_append] at hc
      rcases List.mem_append.mp hc with hc | hc
      · exact h c hc
      · exact hmark c hc

/-- All five can be segments when the id can and every character of the range counts. -/
theorem canBeSegment_texts_iff :
    (∀ text ∈ i.texts, Url.CanBeSegment text)
      ↔ Url.CanBeSegment i.spreadsheetId ∧ ∀ c ∈ i.range.toList, Url.isIgnored c = false := by
  have hvalues : Url.CanBeSegment "values" := ⟨by decide, by decide, Url.legible_eq_iff.mp rfl⟩
  simp [texts, canBeSegment_version, canBeSegment_sheets, hvalues, canBeSegment_append_iff]

/-- The five segments are read back as what they were made of exactly for what is
addressable. -/
theorem continues_iff : Url.Continues ss i.texts (i.segmentsBelow ss) ↔ i.Addressable ss := by
  have hall : Url.Continues ss i.texts (i.segmentsBelow ss)
      ↔ (∀ text ∈ i.texts, Url.CanBeSegment text) ∧ ss ≠ ["", ""] :=
    Url.continues_pushAll_iff (by decide)
  rw [hall, canBeSegment_texts_iff]
  constructor
  · rintro ⟨⟨hid, hrange⟩, hss⟩
    exact ⟨hid, hrange, hss⟩
  · rintro ⟨hid, hrange, hss⟩
    exact ⟨⟨hid, hrange⟩, hss⟩

/-- Whatever is appended stays below the base and the version. -/
theorem standsBefore_segmentsBelow (i : SheetRow) (hss : ss ≠ ["", ""]) :
    Url.StandsBefore (Url.withoutEmptyLast ss ++ ["v4"]) (i.segmentsBelow ss) := by
  have hversion : Url.pushSegment (Url.withoutEmptyLast ss) "v4"
      = Url.withoutEmptyLast ss ++ ["v4"] :=
    Url.pushSegment_of_canBeSegment (mt Url.withoutEmptyLast_eq_empty_iff.mp hss)
      canBeSegment_version
  have hsheets : Url.pushSegment (Url.withoutEmptyLast ss ++ ["v4"]) "spreadsheets"
      = Url.withoutEmptyLast ss ++ ["v4"] ++ ["spreadsheets"] :=
    Url.pushSegment_of_canBeSegment (Url.concat_ne_empty (by decide) _) canBeSegment_sheets
  unfold segmentsBelow texts
  rw [List.foldl_cons, List.foldl_cons, hversion, hsheets]
  exact Url.standsBefore_pushAll (by simp) ⟨["spreadsheets"], by simp, rfl⟩ _

/-- Segments that continue others by the texts of two rows are those of one sheet and range. -/
theorem eq_of_continues {segments : List String} (hi : Url.Continues ss i.texts segments)
    (hj : Url.Continues ss j.texts segments) :
    i.spreadsheetId = j.spreadsheetId ∧ i.range = j.range := by
  obtain ⟨tail, htail, hread⟩ := hi
  obtain ⟨tail', htail', hread'⟩ := hj
  rw [htail] at htail'
  rw [List.append_cancel_left htail', hread'] at hread
  simpa [texts] using hread.symm

/-- Below a base with a path, without query and fragment, every row has an address. Whatever the
id and the range hold, it differs from the base in its path alone, the path as text falls into
its segments, and the base's segments and the version stand in front, but for a lone empty one.
Behind the base's segments stand five that are read back as what they were made of exactly when
the row is addressable there, and the addresses of two such rows are the same text only for the
same id and range. -/
theorem appends_below_base {base : String} {u : Url} {ss : List String}
    (hbase : Url.parse? base = some u) (hpath : u.path = .segments ss)
    (hquery : u.query = none) (hfragment : u.fragment = none) :
    ∃ (address : SheetRow → Url) (segments : SheetRow → List String),
      (∀ i : SheetRow, i.appendUrl? base = some (address i) ∧ Url.Beside u (address i)
        ∧ Url.FallsInto (address i).path (segments i)
        ∧ (ss ≠ ["", ""] →
            Url.StandsBefore (Url.withoutEmptyLast ss ++ ["v4"]) (segments i))
        ∧ (Url.Continues ss i.texts (segments i) ↔ i.Addressable ss))
      ∧ ∀ i j : SheetRow, i.Addressable ss → j.Addressable ss →
          ((address i).write = (address j).write
            ↔ i.spreadsheetId = j.spreadsheetId ∧ i.range = j.range) := by
  have hfalls (i : SheetRow) :
      Url.FallsInto (.segments (i.segmentsBelow ss)) (i.segmentsBelow ss) := by
    refine Url.fallsInto_of_isSegment (Url.isSegment_pushAll (fun s hs => ?_) i.texts)
    exact Url.isSegment_of_parse? hbase hpath s (Url.withoutEmptyLast_subset hs)
  have hbeside (i : SheetRow) : Url.Beside u { u with path := .segments (i.segmentsBelow ss) } :=
    ⟨rfl, rfl, rfl, rfl, rfl, hquery, hfragment⟩
  refine ⟨fun i => { u with path := .segments (i.segmentsBelow ss) },
    fun i => i.segmentsBelow ss,
    fun i => ⟨appendUrl?_eq i hbase hpath, hbeside i, hfalls i,
      standsBefore_segmentsBelow i, continues_iff⟩,
    fun i j hi hj => ?_⟩
  rw [Url.write_eq_iff (hbeside i) (hbeside j)]
  constructor
  -- one address has one list of segments, and id and range are read back from it
  · intro hwrite
    have hsegments := Url.eq_of_write_eq (hfalls i) (hfalls j) hwrite
    have hcontinues := continues_iff.mpr hj
    rw [← hsegments] at hcontinues
    exact eq_of_continues (continues_iff.mpr hi) hcontinues
  · rintro ⟨hid, hrange⟩
    have hsegments : i.segmentsBelow ss = j.segmentsBelow ss := by
      simp only [segmentsBelow, texts, hid, hrange]
    rw [hsegments]

/-- A slash, a hash and a question mark in a range end nothing, and a row of another sheet is
appended elsewhere. -/
theorem appends_to_range_with_marks :
    ∃ v w, (SheetRow.mk "sheet-1" "Team/Ops #2!A1?" "token" []).appendUrl?
          "https://sheets.example.com/" = some v
      ∧ v.write = "https://sheets.example.com/v4/spreadsheets/sheet-1/values/"
          ++ "Team%2FOps%20%232!A1%3F:append"
      ∧ v.query = none ∧ v.fragment = none
      ∧ (SheetRow.mk "sheet-2" "Team/Ops #2!A1?" "token" []).appendUrl?
          "https://sheets.example.com/" = some w
      ∧ v.write ≠ w.write := by
  let base : Url :=
    { scheme := "https", host := some (.domain "sheets.example.com"), path := .segments [""] }
  have hbase : Url.parse? "https://sheets.example.com/" = some base := rfl
  obtain ⟨address, segments, haddress, hpair⟩ := appends_below_base hbase rfl rfl rfl
  let i : SheetRow := ⟨"sheet-1", "Team/Ops #2!A1?", "token", []⟩
  let j : SheetRow := ⟨"sheet-2", "Team/Ops #2!A1?", "token", []⟩
  have hrange : ∀ c ∈ "Team/Ops #2!A1?".toList, Url.isIgnored c = false :=
    Url.legible_eq_iff.mp rfl
  have hone : Url.CanBeSegment "sheet-1" := ⟨by decide, by decide, Url.legible_eq_iff.mp rfl⟩
  have htwo : Url.CanBeSegment "sheet-2" := ⟨by decide, by decide, Url.legible_eq_iff.mp rfl⟩
  obtain ⟨hsome, hbeside, -⟩ := haddress i
  let v : Url :=
    { scheme := "https", host := some (.domain "sheets.example.com"),
      path := .segments
        ["v4", "spreadsheets", "sheet-1", "values", "Team%2FOps%20%232!A1%3F:append"] }
  have hv : i.appendUrl? "https://sheets.example.com/" = some v := by decide +kernel
  have hwrite : (address i).write = "https://sheets.example.com/v4/spreadsheets/sheet-1/values/"
      ++ "Team%2FOps%20%232!A1%3F:append" := by
    rw [Option.some.inj (hsome.symm.trans hv)]
    rfl
  refine ⟨address i, address j, hsome, hwrite, hbeside.query, hbeside.fragment,
    (haddress j).1, fun heq => ?_⟩
  have hsame : "sheet-1" = "sheet-2" := ((hpair i j
    ⟨hone, hrange, by decide⟩ ⟨htwo, hrange, by decide⟩).mp heq).1
  exact absurd hsame (by decide)

/-- An id that is a name for a place is passed over, so that the address is not one of a sheet;
and a tab in an id is, so that two ids have one address. -/
theorem addresses_led_astray :
    (∃ v, (SheetRow.mk "." "Transfers!A1" "token" []).appendUrl? "https://sheets.example.com/"
          = some v
        ∧ v.path = .segments ["v4", "spreadsheets", "values", "Transfers!A1:append"]
        ∧ ¬ Url.Continues [""] (SheetRow.mk "." "Transfers!A1" "token" []).texts
            ["v4", "spreadsheets", "values", "Transfers!A1:append"])
      ∧ ∃ v, (SheetRow.mk "a\tb" "Transfers!A1" "token" []).appendUrl? "https://sheets.example.com/"
          = some v
        ∧ (SheetRow.mk "ab" "Transfers!A1" "token" []).appendUrl? "https://sheets.example.com/"
          = some v := by
  refine ⟨⟨_, rfl, rfl, fun h => ?_⟩, _, rfl, rfl⟩
  exact (continues_iff.mp h).id.ne_here rfl

end Instruction.SheetRow

end EventScript
