/-
A put that stops half-way. The steps before the truncation leave the file of a record as it is,
and once the text is written the record is the new one; between them there is no record under
the id, neither the old one nor the new: a beginning of the text of a record is no document, and
a beginning of its bytes may even be no text. The other records do not notice, and another put
under the id makes up for it, as it cuts the file before it writes.

Every step is looked at once, on a file that is there; what a run of steps leaves is then the
text that its steps make of the old one.
-/
import EventScript.Proofs.Json.Truncation
import EventScript.Proofs.Store.Session

namespace EventScript.FileStore

open Store (Record)

-- ============================================================ cut records

/-- The beginning of the text of a record holds no record. -/
theorem read_beginning {r : Record} (hr : r.Representable) {written rest : String}
    (hsplit : r.write = written ++ rest) (hrest : rest ≠ "") :
    Record.read written = .error (.undecodable "the text is no JSON document") := by
  unfold Record.read
  rw [Json.written?_beginning (Store.Record.readable hr) hsplit hrest]

/-- The record a file of some bytes holds. -/
def readBytes (bytes : ByteArray) : Except StoreError Record :=
  match String.fromUTF8? bytes with
  | none => .error (.io "read program" "stream did not contain valid UTF-8")
  | some text => Record.read text

/-- The bytes of a text are read as the text. -/
theorem readBytes_toByteArray (text : String) : readBytes text.toByteArray = Record.read text := by
  unfold readBytes String.fromUTF8?
  rw [dif_pos text.isValidUTF8]
  rfl

/-- Bytes that a text starts with and that are a text are a text it starts with. -/
theorem exists_append_of_isValidUTF8 {whole : String} {n : Nat} (hn : n ≤ whole.utf8ByteSize)
    (h : (whole.toByteArray.extract 0 n).IsValidUTF8) :
    ∃ front rest, whole = front ++ rest ∧ n = front.utf8ByteSize := by
  have hvalid : (String.Pos.Raw.mk n).IsValid whole :=
    String.Pos.Raw.isValid_iff_isValidUTF8_extract_zero.mpr ⟨hn, h⟩
  obtain ⟨front, rest, hwhole, hpos⟩ := String.Pos.Raw.isValid_iff_exists_append.mp hvalid
  exact ⟨front, rest, hwhole, congrArg String.Pos.Raw.byteIdx hpos⟩

/-- The beginning of the bytes of a record holds no record, and may be cut inside of a
character. -/
theorem readBytes_beginning {r : Record} (hr : r.Representable) {n : Nat}
    (hn : n < r.write.utf8ByteSize) :
    readBytes (r.write.toByteArray.extract 0 n)
        = .error (.undecodable "the text is no JSON document")
      ∨ readBytes (r.write.toByteArray.extract 0 n)
        = .error (.io "read program" "stream did not contain valid UTF-8") := by
  by_cases hvalid : (r.write.toByteArray.extract 0 n).IsValidUTF8
  · left
    obtain ⟨front, rest, hsplit, rfl⟩ := exists_append_of_isValidUTF8 (Nat.le_of_lt hn) hvalid
    have hbytes : r.write.toByteArray.extract 0 front.utf8ByteSize = front.toByteArray := by
      rw [hsplit, String.toByteArray_append]
      exact ByteArray.extract_append_eq_left rfl
    rw [hbytes, readBytes_toByteArray]
    refine read_beginning hr hsplit ?_
    rintro rfl
    rw [hsplit, String.append_empty] at hn
    exact Nat.lt_irrefl _ hn
  · right
    unfold readBytes String.fromUTF8?
    rw [dif_neg hvalid]

-- ================================================================== parts

/-- What of a put came about before it stopped: some of its steps, or all up to the writing and
a part of that. -/
inductive Part (r : Record) : List WriteStep → Prop
  | steps (n : Nat) : Part r ((writeSteps r).take n)
  | writing {written rest : String} : r.write = written ++ rest →
      Part r [.opening, .lock, .truncate, .write written]

variable {r : Record} {steps : List WriteStep}

theorem write_ne_empty (r : Record) : r.write ≠ "" := by
  obtain ⟨inner, hbraces⟩ := Json.toList_object_braces r.members
  intro hempty
  have hnil : r.write.toList = [] := congrArg String.toList hempty
  exact List.cons_ne_nil _ _ (hbraces.symm.trans hnil)

/-- The file is as it was up to the truncation, has a beginning of the new text up to the end of
the writing, and then all of it. -/
theorem Part.text_cases (h : Part r steps) (old : String) :
    (.truncate ∉ steps ∧ steps.foldl WriteStep.onText old = old)
      ∨ (.truncate ∈ steps ∧ .write r.write ∉ steps
        ∧ ∃ rest, r.write = steps.foldl WriteStep.onText old ++ rest ∧ rest ≠ "")
      ∨ (.truncate ∈ steps ∧ .write r.write ∈ steps
        ∧ steps.foldl WriteStep.onText old = r.write) := by
  cases h with
  | steps n =>
      -- only the third and the fourth step change the text
      rcases n with _ | _ | _ | _ | _ | n
      · exact .inl ⟨by simp, rfl⟩
      · exact .inl ⟨by simp [writeSteps], rfl⟩
      · exact .inl ⟨by simp [writeSteps], rfl⟩
      · refine .inr (.inl ⟨by simp [writeSteps], by simp [writeSteps], r.write, ?_, ?_⟩)
        · exact String.empty_append.symm
        · exact write_ne_empty r
      · refine .inr (.inr ⟨by simp [writeSteps], by simp [writeSteps], ?_⟩)
        exact onText_write_of_empty r.write
      · have hall : (writeSteps r).take (n + 5) = writeSteps r :=
          List.take_of_length_le (Nat.le_add_left 5 n)
        rw [hall]
        refine .inr (.inr ⟨by simp [writeSteps], by simp [writeSteps], ?_⟩)
        exact onText_write_of_empty r.write
  | @writing written rest hsplit =>
      have htext : [.opening, .lock, .truncate, .write written].foldl WriteStep.onText old
          = written := onText_write_of_empty written
      -- a write cut at its very end is a whole write
      by_cases hrest : rest = ""
      · rw [hrest, String.append_empty] at hsplit
        rw [htext, hsplit]
        exact .inr (.inr ⟨by simp, by simp, rfl⟩)
      · have hne : r.write ≠ written := by
          intro heq
          rw [heq] at hsplit
          exact hrest ((String.append_right_inj written).mp
            (hsplit.symm.trans String.append_empty.symm))
        refine .inr (.inl ⟨by simp, by simp [hne], rest, ?_, hrest⟩)
        rw [htext]
        exact hsplit

-- ============================================================ stopped puts

/-- A record is got from the bytes of its file. -/
theorem get_eq_readBytes {s : FileStore} {id text : String} (hid : Store.isValidId id = true)
    (h : s.folder.get? (fileName id) = some (.file text)) :
    s.get id = readBytes text.toByteArray := by
  rw [readBytes_toByteArray]
  unfold get
  rw [Store.checkId_eq_ok_iff.mpr hid]
  dsimp only
  rw [h]

/-- A put that stops before the truncation leaves the old record, and one that stops with the
whole text written leaves the new one; in between, with any beginning of the text written, to
the byte, there is no record under the id. The other records stay in every case, and the next
put under the id makes up for it. -/
theorem get_of_stopped_put {s : FileStore} {old : Record} (hold : s.get r.id = .ok old)
    (hr : r.Representable) :
    (∀ steps, Part r steps → ∃ folder,
      steps.foldlM (WriteStep.run (fileName r.id)) s.folder = .ok folder
        ∧ get ⟨folder, s.root⟩ r.id
          = (if .truncate ∉ steps then .ok old
            else if .write r.write ∉ steps then
              .error (.undecodable "the text is no JSON document")
            else .ok r)
        ∧ (∀ id, id ≠ r.id → get ⟨folder, s.root⟩ id = s.get id)
        ∧ ∀ new : Record, new.id = r.id → new.Representable →
          ∃ s', put ⟨folder, s.root⟩ new = .ok s' ∧ s'.get r.id = .ok new)
    ∧ (∀ n < r.write.utf8ByteSize,
      readBytes (r.write.toByteArray.extract 0 n)
          = .error (.undecodable "the text is no JSON document")
        ∨ readBytes (r.write.toByteArray.extract 0 n)
          = .error (.io "read program" "stream did not contain valid UTF-8"))
    ∧ readBytes r.write.toByteArray = .ok r := by
  obtain ⟨hid, text, hfile, hread⟩ := file_of_get hold
  refine ⟨fun steps hpart => ?_, fun n hn => readBytes_beginning hr hn, ?_⟩
  · obtain ⟨folder, hrun, -, hfiles⟩ := run_file steps hfile
    have hleft : folder.get? (fileName r.id)
        = some (.file (steps.foldl WriteStep.onText text)) := by rw [hfiles, if_pos rfl]
    refine ⟨folder, hrun, ?_, fun id hne => ?_, fun new hnew hwritable => ?_⟩
    · rw [get_eq_readBytes hid hleft, readBytes_toByteArray]
      -- untouched, cut short or whole: what is read back in each case
      rcases hpart.text_cases text with ⟨hcut, htext⟩ | ⟨hcut, hwritten, rest, hsplit, hrest⟩
        | ⟨hcut, hwritten, htext⟩
      · rw [if_pos hcut, htext, hread]
      · rw [if_neg (not_not_intro hcut), if_pos hwritten, read_beginning hr hsplit hrest]
      · rw [if_neg (not_not_intro hcut), if_neg (not_not_intro hwritten), htext,
          Store.Record.read_write hr]
    · exact get_congr ((hfiles _).trans (if_neg fun h => hne (fileName_inj.mp h)))
    · rw [← hnew] at hid hleft ⊢
      obtain ⟨folder', hput, hget, -⟩ := put_of_file (s := ⟨folder, s.root⟩) hid hwritable hleft
      exact ⟨_, hput, hget⟩
  · rw [readBytes_toByteArray, Store.Record.read_write hr]

/-- A store with one record. -/
def interrupted : FileStore :=
  ⟨[(fileName "p", .file (sampleRecord "p" "before").write)], "."⟩

theorem get_interrupted : interrupted.get "p" = .ok (sampleRecord "p" "before") :=
  get_of_file (r := sampleRecord "p" "before") rfl (sampleRecord_representable _ _) rfl

theorem get_of_stopped_put_locked :
    interrupted.get "p" = .ok (sampleRecord "p" "before")
      ∧ (sampleRecord "p" "after").Representable
      ∧ ∃ folder, [.opening, .lock].foldlM (WriteStep.run (fileName "p")) interrupted.folder
          = .ok folder
        ∧ get ⟨folder, "."⟩ "p" = .ok (sampleRecord "p" "before") := by
  have hr : (sampleRecord "p" "after").Representable := sampleRecord_representable _ _
  obtain ⟨hparts, -⟩ := get_of_stopped_put (r := sampleRecord "p" "after") get_interrupted hr
  obtain ⟨folder, hrun, hget, -⟩ := hparts _ (.steps 2)
  refine ⟨get_interrupted, hr, folder, hrun, ?_⟩
  rw [if_pos (by simp [writeSteps])] at hget
  exact hget

/-- A put that stops right after the truncation has lost the old record and has no new one. -/
theorem stopped_put_loses_record :
    interrupted.get "p" = .ok (sampleRecord "p" "before")
      ∧ Part (sampleRecord "p" "after") [.opening, .lock, .truncate]
      ∧ ∃ folder, [.opening, .lock, .truncate].foldlM (WriteStep.run (fileName "p"))
          interrupted.folder = .ok folder
        ∧ get ⟨folder, "."⟩ "p" = .error (.undecodable "the text is no JSON document") :=
  ⟨get_interrupted, .steps 3, [(fileName "p", .file "")], rfl, rfl⟩

end EventScript.FileStore
