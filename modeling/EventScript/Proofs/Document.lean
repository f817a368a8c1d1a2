/-
What a mapping must hold to be a document, and what is reported of one that is none. Both are
told from the four fields alone, without the checker: `Describes` says of which document a
mapping is the text, and the `…Report` relations say for each field which list of problems is
due, none when the field is sound.

The checker goes through all fields whatever it finds in one, so its answer is a document
exactly when all four lists are empty, and else their concatenation.
-/
import Mathlib.Data.List.Forall2
import EventScript.Document
import EventScript.Proofs.Except
import EventScript.Proofs.Yaml.Blank

namespace EventScript.Document

variable {root : Json.Object} {field : String}

-- ============================================================ documents

/-- Nothing is said of a field, or null. -/
def LeftOut (root : Json.Object) (field : String) : Prop :=
  root.get? field = none ∨ root.get? field = some .null

/-- There is more than blanks in the text. -/
def Inked (s : String) : Prop := ∃ c ∈ s.toList, Text.isBlank c = false

/-- The text of a field that may be left out. -/
inductive OptionalText (root : Json.Object) (field : String) : Option String → Prop where
  | leftOut (h : LeftOut root field) : OptionalText root field none
  | written {s : String} (h : root.get? field = some (.string s)) :
      OptionalText root field (some s)

/-- An entry is a mapping with one key: the call's name, and under it null or its arguments. -/
inductive EntryOf : Json → Call → Prop where
  | bare (name : String) : EntryOf (.object [(name, .null)]) ⟨name, none⟩
  | applied (name : String) (args : Json.Object) :
      EntryOf (.object [(name, .object args)]) ⟨name, some args⟩

/-- The mapping is the text of the document. -/
structure Describes (root : Json.Object) (d : Document) : Prop where
  version : root.get? "version" = some (.string d.version)
  inked : Inked d.version
  name : OptionalText root "name" d.name
  description : OptionalText root "description" d.description
  program : ∃ entries, root.get? "program" = some (.array entries) ∧ entries ≠ []
    ∧ List.Forall₂ EntryOf entries d.program

-- ============================================================== reports

/-- What is due for the version. A blank one counts as missing. -/
inductive VersionReport (root : Json.Object) : List Problem → Prop where
  | sound {s : String} (h : root.get? "version" = some (.string s)) (inked : Inked s) :
      VersionReport root []
  | leftOut (h : LeftOut root "version") : VersionReport root [.missing "version"]
  | blank {s : String} (h : root.get? "version" = some (.string s)) (blank : ¬ Inked s) :
      VersionReport root [.missing "version"]
  | wrongKind {v : Json} (h : root.get? "version" = some v) (null : v ≠ .null)
      (string : ∀ s, v ≠ .string s) : VersionReport root [.wrongKind "version" "a string"]

/-- What is due for a text that may be left out. -/
inductive TextReport (root : Json.Object) (field : String) : List Problem → Prop where
  | sound {text : Option String} (h : OptionalText root field text) : TextReport root field []
  | wrongKind {v : Json} (h : root.get? field = some v) (null : v ≠ .null)
      (string : ∀ s, v ≠ .string s) : TextReport root field [.wrongKind field "a string"]

/-- What is due for the entry at a position when it stands for no call. -/
inductive EntryFault (position : Nat) : Json → Problem → Prop where
  | shape {entry : Json} (h : ∀ name v, entry ≠ .object [(name, v)]) :
      EntryFault position entry (.wrongKind ("program[" ++ toString position ++ "]")
        "a mapping with exactly one instruction name")
  | args {name : String} {v : Json} (null : v ≠ .null) (object : ∀ args, v ≠ .object args) :
      EntryFault position (.object [(name, v)])
        (.wrongKind ("program[" ++ toString position ++ "]" ++ "." ++ name)
          "a mapping of arguments")

/-- What is due for entries the first of which stands at `first`: one problem for each that
stands for no call, in the order of their positions. -/
def EntriesReport (first : Nat) (entries : List Json) (problems : List Problem) : Prop :=
  ∃ positions : List Nat, positions.Pairwise (· < ·)
    ∧ (∀ i, i ∈ positions
        ↔ ∃ entry, (entry, i) ∈ entries.zipIdx first ∧ ¬ ∃ call, EntryOf entry call)
    ∧ List.Forall₂ (fun i p => p.code = .invalidFieldType
        ∧ ∃ entry, (entry, i) ∈ entries.zipIdx first ∧ EntryFault i entry p) positions problems

/-- What is due for the program: one problem of its own, or those of its entries. -/
inductive ProgramReport (root : Json.Object) : List Problem → Prop where
  | leftOut (h : LeftOut root "program") : ProgramReport root [.missing "program"]
  | wrongKind {v : Json} (h : root.get? "program" = some v) (null : v ≠ .null)
      (array : ∀ entries, v ≠ .array entries) :
      ProgramReport root [.wrongKind "program" "a sequence of instructions"]
  | empty (h : root.get? "program" = some (.array [])) : ProgramReport root [.emptyProgram]
  | entries {entries : List Json} {problems : List Problem}
      (h : root.get? "program" = some (.array entries)) (nonempty : entries ≠ [])
      (report : EntriesReport 0 entries problems) : ProgramReport root problems

/-- What is due for a mapping: its fields one after another. -/
def Report (root : Json.Object) (problems : List Problem) : Prop :=
  ∃ inVersion inName inDescription inProgram,
    problems = inVersion ++ inName ++ inDescription ++ inProgram
    ∧ VersionReport root inVersion ∧ TextReport root "name" inName
    ∧ TextReport root "description" inDescription ∧ ProgramReport root inProgram

-- ================================================================ texts

theorem isAllBlank_eq_false_iff {s : String} : Text.isAllBlank s = false ↔ Inked s := by
  unfold Text.isAllBlank Inked
  simp

/-- The version is read where it is a text that is not all blank. -/
theorem versionOf_eq_ok_iff {s : String} :
    versionOf root = .ok s ↔ root.get? "version" = some (.string s) ∧ Inked s := by
  unfold versionOf
  rw [← isAllBlank_eq_false_iff]
  cases root.get? "version" with
  | none => simp
  | some v =>
      cases v with
      | string t =>
          cases hblank : Text.isAllBlank t with
          | true =>
              simp only [Option.getD_some, hblank, if_true, reduceCtorEq, Option.some.injEq,
                Json.string.injEq, false_iff]
              rintro ⟨rfl, hink⟩
              exact absurd (hblank.symm.trans hink) (by decide)
          | false =>
              simp only [Option.getD_some, hblank, Bool.false_eq_true, if_false, Except.ok.injEq,
                Option.some.injEq, Json.string.injEq]
              constructor
              · rintro rfl
                exact ⟨rfl, hblank⟩
              · exact And.left
      | _ => simp

/-- What is reported of the version, if anything. -/
theorem versionReport (root : Json.Object) : VersionReport root (problemOf (versionOf root)) := by
  unfold versionOf
  cases h : root.get? "version" with
  | none => exact .leftOut (Or.inl h)
  | some v =>
      cases v with
      | null => exact .leftOut (Or.inr h)
      | string s =>
          show VersionReport root (problemOf (if Text.isAllBlank s then _ else _))
          split
          case isTrue hblank =>
            refine .blank h ?_
            rw [← isAllBlank_eq_false_iff, hblank]
            decide
          case isFalse hink =>
            exact .sound h (isAllBlank_eq_false_iff.mp (Bool.eq_false_iff.mpr hink))
      | _ => exact .wrongKind h nofun nofun

/-- An optional text is read where it is a text, or absent, or null. -/
theorem optionalText_eq_ok_iff {text : Option String} :
    optionalText root field = .ok text ↔ OptionalText root field text := by
  unfold optionalText
  constructor
  · intro htext
    cases h : root.get? field with
    | none =>
        rw [h] at htext
        cases htext
        exact .leftOut (Or.inl h)
    | some v =>
        rw [h] at htext
        cases v with
        | null =>
            cases htext
            exact .leftOut (Or.inr h)
        | string s =>
            cases htext
            exact .written h
        | _ => cases htext
  · rintro (⟨h | h⟩ | h)
    · rw [h]
      rfl
    · rw [h]
      rfl
    · rw [h]
      rfl

/-- What is reported of an optional text, if anything. -/
theorem textReport (root : Json.Object) (field : String) :
    TextReport root field (problemOf (optionalText root field)) := by
  cases htext : optionalText root field with
  | ok text => exact .sound (optionalText_eq_ok_iff.mp htext)
  | error p =>
      unfold optionalText at htext
      cases h : root.get? field with
      | none =>
          rw [h] at htext
          cases htext
      | some v =>
          rw [h] at htext
          cases v with
          | null => cases htext
          | string s => cases htext
          | _ =>
              cases htext
              exact .wrongKind h nofun nofun

-- ============================================================== entries

variable {position : Nat} {entry : Json} {entries : List Json} {call : Call} {p : Problem}

/-- An entry is read as a call where it is one. -/
theorem entryCall_eq_ok_iff : entryCall position entry = .ok call ↔ EntryOf entry call := by
  constructor
  · intro h
    unfold entryCall at h
    dsimp only at h
    split at h
    · cases h
      exact .bare _
    · cases h
      exact .applied _ _
    · cases h
    · cases h
  · rintro (_ | _)
    · rfl
    · rfl

/-- What is reported of an entry that is no call. -/
theorem entryFault (h : entryCall position entry = .error p) : EntryFault position entry p := by
  unfold entryCall at h
  dsimp only at h
  split at h
  · cases h
  · cases h
  · next hnull hobject =>
    cases h
    exact .args hnull hobject
  · next hnull hobject hother =>
    cases h
    exact .shape hother

theorem EntryFault.code (h : EntryFault position entry p) : p.code = .invalidFieldType := by
  cases h with
  | shape => rfl
  | args => rfl

/-- With the rest of the entries gone through, what is said of one more. -/
theorem entryCallsFrom_cons (position : Nat) (entry : Json) (entries : List Json) :
    entryCallsFrom position (entry :: entries)
      = match entryCall position entry with
        | .ok call => (call :: (entryCallsFrom (position + 1) entries).1,
            (entryCallsFrom (position + 1) entries).2)
        | .error p => ((entryCallsFrom (position + 1) entries).1,
            p :: (entryCallsFrom (position + 1) entries).2) := by
  rfl

/-- Where no problem comes up, the calls are those of the entries. -/
theorem entryOf_entryCallsFrom (h : (entryCallsFrom position entries).2 = []) :
    List.Forall₂ EntryOf entries (entryCallsFrom position entries).1 := by
  induction entries generalizing position with
  | nil => exact .nil
  | cons entry entries ih =>
      rw [entryCallsFrom_cons] at h ⊢
      cases hcall : entryCall position entry with
      | ok call =>
          rw [hcall] at h
          exact .cons (entryCall_eq_ok_iff.mp hcall) (ih h)
      | error p =>
          rw [hcall] at h
          cases h

/-- Entries that are calls are read as these, without a problem. -/
theorem entryCallsFrom_eq {calls : List Call} (h : List.Forall₂ EntryOf entries calls)
    (position : Nat) : entryCallsFrom position entries = (calls, []) := by
  induction h generalizing position with
  | nil => rfl
  | cons hentry _ ih =>
      rw [entryCallsFrom_cons, entryCall_eq_ok_iff.mpr hentry, ih]

/-- The positions of the rest are all behind that of the first entry. -/
theorem entriesReport (position : Nat) (entries : List Json) :
    EntriesReport position entries (entryCallsFrom position entries).2 := by
  induction entries generalizing position with
  | nil => exact ⟨[], .nil, by simp, .nil⟩
  | cons entry entries ih =>
      obtain ⟨positions, hlt, hmem, hfaults⟩ := ih (position + 1)
      -- the positions reported further on are all behind this one
      have hbehind : ∀ i ∈ positions, position < i := by
        intro i hi
        obtain ⟨e, he, -⟩ := (hmem i).mp hi
        exact List.le_snd_of_mem_zipIdx he
      have hfaults' : List.Forall₂ (fun i p => p.code = .invalidFieldType
          ∧ ∃ e, (e, i) ∈ (entry :: entries).zipIdx position ∧ EntryFault i e p)
          positions (entryCallsFrom (position + 1) entries).2 := by
        refine hfaults.imp fun i p h => ⟨h.1, ?_⟩
        obtain ⟨e, he, hfault⟩ := h.2
        exact ⟨e, List.mem_cons_of_mem _ he, hfault⟩
      rw [entryCallsFrom_cons]
      cases hcall : entryCall position entry with
      | ok call =>
          refine ⟨positions, hlt, fun i => ?_, hfaults'⟩
          rw [hmem, List.zipIdx_cons]
          refine exists_congr fun e => ⟨fun h => ⟨List.mem_cons_of_mem _ h.1, h.2⟩, ?_⟩
          rintro ⟨he, hnone⟩
          rcases List.mem_cons.mp he with heq | he
          · cases heq
            exact absurd ⟨call, entryCall_eq_ok_iff.mp hcall⟩ hnone
          · exact ⟨he, hnone⟩
      | error p =>
          have hfault := entryFault hcall
          have hnone : ¬ ∃ call, EntryOf entry call := by
            rintro ⟨call, hentry⟩
            rw [entryCall_eq_ok_iff.mpr hentry] at hcall
            cases hcall
          refine ⟨position :: positions, .cons hbehind hlt, fun i => ?_,
            .cons ⟨hfault.code, entry, List.mem_cons_self, hfault⟩ hfaults'⟩
          rw [List.mem_cons, hmem, List.zipIdx_cons]
          constructor
          · rintro (rfl | ⟨e, he, hnone'⟩)
            · exact ⟨entry, List.mem_cons_self, hnone⟩
            · exact ⟨e, List.mem_cons_of_mem _ he, hnone'⟩
          · rintro ⟨e, he, hnone'⟩
            rcases List.mem_cons.mp he with heq | he
            · cases heq
              exact Or.inl rfl
            · exact Or.inr ⟨e, he, hnone'⟩

/-- All entries are read where each is a call. -/
theorem entryCalls_eq_ok_iff {calls : List Call} :
    entryCalls entries = .ok calls ↔ List.Forall₂ EntryOf entries calls := by
  unfold entryCalls
  constructor
  · intro h
    split at h
    · next calls' heq =>
      cases h
      have hcalls := entryOf_entryCallsFrom (congrArg Prod.snd heq)
      rwa [heq] at hcalls
    · cases h
  · intro h
    rw [entryCallsFrom_eq h]

/-- Where an entry is none, each that is none is reported, in order. -/
theorem entryCalls_eq_error {problems : List Problem} (h : entryCalls entries = .error problems) :
    problems ≠ [] ∧ EntriesReport 0 entries problems := by
  have hreport := entriesReport 0 entries
  unfold entryCalls at h
  split at h
  · cases h
  · next calls problems' hsome heq =>
    cases h
    rw [heq] at hreport
    refine ⟨?_, hreport⟩
    rintro rfl
    exact hsome rfl

-- ============================================================= programs

/-- The program is read where it is a list of calls that is not empty. -/
theorem programOf_eq_ok_iff {calls : List Call} :
    programOf root = .ok calls ↔ ∃ entries, root.get? "program" = some (.array entries)
      ∧ entries ≠ [] ∧ List.Forall₂ EntryOf entries calls := by
  unfold programOf
  cases root.get? "program" with
  | none => simp
  | some v =>
      cases v with
      | array entries =>
          cases entries with
          | nil => simp
          | cons entry entries =>
              show entryCalls (entry :: entries) = .ok calls ↔ _
              simp [entryCalls_eq_ok_iff]
      | _ => simp

/-- What is reported of a program that is none. -/
theorem programOf_eq_error {problems : List Problem} (h : programOf root = .error problems) :
    problems ≠ [] ∧ ProgramReport root problems := by
  unfold programOf at h
  cases hprogram : root.get? "program" with
  | none =>
      rw [hprogram] at h
      cases h
      exact ⟨List.cons_ne_nil _ _, .leftOut (Or.inl hprogram)⟩
  | some v =>
      rw [hprogram] at h
      cases v with
      | null =>
          cases h
          exact ⟨List.cons_ne_nil _ _, .leftOut (Or.inr hprogram)⟩
      | array entries =>
          cases entries with
          | nil =>
              cases h
              exact ⟨List.cons_ne_nil _ _, .empty hprogram⟩
          | cons entry entries =>
              obtain ⟨hsome, hreport⟩ := entryCalls_eq_error h
              exact ⟨hsome, .entries hprogram (List.cons_ne_nil _ _) hreport⟩
      | _ =>
          cases h
          exact ⟨List.cons_ne_nil _ _, .wrongKind hprogram nofun nofun⟩

/-- Entries that all stand for calls have nothing to report. -/
theorem programReport_of_ok {calls : List Call} (h : programOf root = .ok calls) :
    ProgramReport root [] := by
  obtain ⟨entries, hprogram, hsome, hcalls⟩ := programOf_eq_ok_iff.mp h
  have hreport := entriesReport 0 entries
  rw [entryCallsFrom_eq hcalls 0] at hreport
  exact .entries hprogram hsome hreport

-- ============================================================ documents

/-- A mapping is a document exactly where it describes one. -/
theorem ofJson_eq_ok_iff {d : Document} : ofJson (.object root) = .ok d ↔ Describes root d := by
  have hfields : ofJson (.object root) = .ok d ↔ versionOf root = .ok d.version
      ∧ optionalText root "name" = .ok d.name
      ∧ optionalText root "description" = .ok d.description
      ∧ programOf root = .ok d.program := by
    cases d
    unfold ofJson
    dsimp only
    split
    · next hversion hname hdescription hprogram =>
      simp [hversion, hname, hdescription, hprogram]
    · next hnot =>
      simp only [reduceCtorEq, false_iff]
      rintro ⟨hversion, hname, hdescription, hprogram⟩
      exact hnot _ _ _ _ hversion hname hdescription hprogram
  rw [hfields, versionOf_eq_ok_iff, optionalText_eq_ok_iff, optionalText_eq_ok_iff,
    programOf_eq_ok_iff]
  constructor
  · rintro ⟨⟨hversion, hinked⟩, hname, hdescription, hprogram⟩
    exact ⟨hversion, hinked, hname, hdescription, hprogram⟩
  · rintro ⟨hversion, hinked, hname, hdescription, hprogram⟩
    exact ⟨⟨hversion, hinked⟩, hname, hdescription, hprogram⟩

/-- Where nothing is reported, something was read. -/
theorem problemOf_eq_nil {α : Type} {x : Except Problem α} (h : problemOf x = []) :
    ∃ a, x = .ok a := by
  cases x with
  | ok a => exact ⟨a, rfl⟩
  | error p => cases h

/-- A mapping that is no document is reported with every problem it has, in order. -/
theorem ofJson_eq_error {problems : List Problem} (h : ofJson (.object root) = .error problems) :
    problems ≠ [] ∧ Report root problems := by
  unfold ofJson at h
  dsimp only at h
  split at h
  · cases h
  · next hnot =>
    cases h
    cases hprogram : programOf root with
    | ok calls =>
        refine ⟨?_, _, _, _, _, rfl, versionReport root, textReport root _, textReport root _,
          programReport_of_ok hprogram⟩
        intro hnil
        simp only [List.append_eq_nil_iff] at hnil
        obtain ⟨⟨⟨hversion, hname⟩, hdescription⟩, -⟩ := hnil
        obtain ⟨version, hversion⟩ := problemOf_eq_nil hversion
        obtain ⟨name, hname⟩ := problemOf_eq_nil hname
        obtain ⟨description, hdescription⟩ := problemOf_eq_nil hdescription
        exact hnot _ _ _ _ hversion hname hdescription hprogram
    | error inProgram =>
        obtain ⟨hsome, hreport⟩ := programOf_eq_error hprogram
        refine ⟨?_, _, _, _, _, rfl, versionReport root, textReport root _, textReport root _,
          hreport⟩
        exact List.append_ne_nil_of_right_ne_nil _ hsome

/-- A blank text is not read, and the value it would have is no mapping. -/
theorem parse_eq_ofJson {source : String} (h : Yaml.read source = .ok (.object root)) :
    parse source = ofJson (.object root) := by
  unfold parse
  rw [if_neg fun hblank => Yaml.read_blank_ne_object hblank h, h]

/-- The only fields that are looked at. -/
def fields : List String := ["version", "name", "description", "program"]

/-- No key matters but those of the fields. -/
theorem ofJson_congr {other : Json.Object}
    (h : ∀ field ∈ fields, other.get? field = root.get? field) :
    ofJson (.object other) = ofJson (.object root) := by
  simp only [fields, List.forall_mem_cons] at h
  obtain ⟨hversion, hname, hdescription, hprogram, -⟩ := h
  have htext : ∀ field, other.get? field = root.get? field →
      optionalText other field = optionalText root field := by
    intro field hfield
    unfold optionalText
    rw [hfield]
  have hversion' : versionOf other = versionOf root := by
    unfold versionOf
    rw [hversion]
  have hprogram' : programOf other = programOf root := by
    unfold programOf
    rw [hprogram]
  unfold ofJson
  dsimp only
  rw [hversion', htext _ hname, htext _ hdescription, hprogram']

/-- A mapping is a document exactly when its fields describe one, and that one is the answer.
Otherwise there is something to report, and it is what is due for each of the fields in turn.
Mappings that have these fields in common are answered alike. -/
theorem parse_mapping {source : String} (h : Yaml.read source = .ok (.object root)) :
    (∀ d, parse source = .ok d ↔ Describes root d)
    ∧ ((¬ ∃ d, Describes root d) → ∃ problems, parse source = .error problems ∧ problems ≠ []
        ∧ Report root problems)
    ∧ ∀ source' (root' : Json.Object), Yaml.read source' = .ok (.object root') →
        (∀ field ∈ fields, root'.get? field = root.get? field) → parse source' = parse source := by
  have hparse := parse_eq_ofJson h
  refine ⟨fun d => hparse ▸ ofJson_eq_ok_iff, ?_, ?_⟩
  · intro hnone
    cases hjson : ofJson (.object root) with
    | ok d => exact absurd ⟨d, ofJson_eq_ok_iff.mp hjson⟩ hnone
    | error problems => exact ⟨problems, hparse.trans hjson, ofJson_eq_error hjson⟩
  · intro source' root' h' hsame
    rw [hparse, parse_eq_ofJson h', ofJson_congr hsame]

/-- The version is blank, and of the two entries the second stands for no call. -/
def twoFaults : Json.Object :=
  [("program", .array [.object [("log", .null)], .number (.int 5 (by decide))]),
    ("version", .string " ")]

theorem read_twoFaults :
    Yaml.read "version: ' '\nprogram:\n- log:\n- 5\n" = .ok (.object twoFaults) := by
  have htokens : Yaml.Token.ofText "version: ' '\nprogram:\n- log:\n- 5\n".toList
      = .ok [.blockMappingStart, .key, .scalar "version" true, .value, .scalar " " false, .key,
        .scalar "program" true, .value, .blockEntry, .blockMappingStart, .key,
        .scalar "log" true, .value, .blockEnd, .blockEntry, .scalar "5" true, .blockEnd,
        .streamEnd] :=
    Except.toOption_eq_some.mp (by decide +kernel)
  have hvalue : (Yaml.Node.mapping {} [(.scalar {} "version" true, .scalar {} " " false),
      (.scalar {} "program" true, .sequence {}
        [.mapping {} [(.scalar {} "log" true, .missing)], .scalar {} "5" true])]).toJson
      = .ok (.object twoFaults) := by
    unfold Yaml.Node.toJson Yaml.maxDepth Yaml.Node.missing
    simp only [Yaml.value_mapping, Yaml.value_sequence, Yaml.value_scalar, List.mapM_cons,
      List.mapM_nil]
    rfl
  unfold Yaml.read
  rw [htokens]
  exact hvalue

theorem parse_twoFaults : ∃ problems,
    parse "version: ' '\nprogram:\n- log:\n- 5\n" = .error problems ∧ problems ≠ []
      ∧ Report twoFaults problems := by
  refine (parse_mapping read_twoFaults).2.1 ?_
  rintro ⟨d, hversion, ⟨c, hc, hink⟩, -⟩
  have hblank : d.version = " " := (Json.string.inj (Option.some.inj hversion)).symm
  rw [hblank] at hc
  cases List.mem_singleton.mp hc
  exact absurd hink (by decide)

end EventScript.Document
