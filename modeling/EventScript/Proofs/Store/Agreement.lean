/-
Records in memory against records in files. Two stores that remember the same past hold the
same records, so whatever is asked of them under usable ids has the same answer, and this goes
for any two kinds of store that keep the laws of a map.

Under an id that cannot be used no kind has a record, but the kinds do not say so alike: in
files the id itself is refused, whatever is asked, and in memory it is refused only when a
record is put, and is otherwise an id like any other that has no record.
-/
import EventScript.Proofs.Store.History
import EventScript.Proofs.Store.Memory
import EventScript.Proofs.Store.Session

namespace EventScript

namespace Store

-- ============================================================== two kinds

/-- The id of the record that an operation is to find. -/
def Operation.sought? : Operation → Option String
  | get id => some id
  | delete id => some id
  | contains id => some id
  | _ => none

/-- What an operation that is to find a record is answered where getting it fails. -/
def Operation.failed (op : Operation) (e : StoreError) : Except StoreError Answer :=
  match op, e with
  | contains _, .notFound _ => .ok (.found false)
  | _, e => .error e

/-- The answer to an operation, unless the id that it seeks cannot be used. -/
def Operation.checked (op : Operation) (answer : Except StoreError Answer) :
    Except StoreError Answer :=
  match op.sought? with
  | some id => if isValidId id then answer else .error (.invalidId id)
  | none => answer

/-- The check of ids lets an operation on a usable id through. -/
theorem Operation.checked_of_usable {op : Operation} {answer : Except StoreError Answer}
    (h : ∀ id, op.sought? = some id → isValidId id = true) : op.checked answer = answer := by
  unfold checked
  split
  · next id hid => exact if_pos (h id hid)
  · rfl

/-- The check of ids refuses an operation on an unusable one. -/
theorem Operation.checked_of_unusable {op : Operation} {answer : Except StoreError Answer}
    {id : String} (hop : op.sought? = some id) (hid : isValidId id = false) :
    op.checked answer = .error (.invalidId id) := by
  unfold checked
  rw [hop]
  exact if_neg (by rw [hid]; exact Bool.false_ne_true)

variable {σ τ : Type} [Store σ] [Store τ] {SoundS : σ → Prop} {SoundT : τ → Prop}
  {HoldsS HoldsT : Record → Prop} {s : σ} {t : τ} {past : List Operation}

/-- Stores that remember the same past hold the same records. -/
theorem Remembers.record?_eq (hs : Remembers SoundS s past) (ht : Remembers SoundT t past)
    (id : String) : record? s id = record? t id := by
  refine Option.ext fun r => ?_
  rw [hs.record?_iff, ht.record?_iff]

/-- Stores that remember the same past list the same ids. -/
theorem Remembers.list_eq (lawsS : Laws σ SoundS HoldsS) (lawsT : Laws τ SoundT HoldsT)
    (hs : Remembers SoundS s past) (ht : Remembers SoundT t past) : list s = list t := by
  obtain ⟨ids, hids, hascending, hmem⟩ := lawsS.list hs.sound
  obtain ⟨ids', hids', hascending', hmem'⟩ := lawsT.list ht.sound
  have hsame : ids = ids' := by
    refine List.Perm.eq_of_pairwise ?_ hascending hascending' ?_
    · exact fun a b _ _ hab hba => absurd (String.lt_trans hab hba) (String.lt_irrefl a)
    · refine (List.perm_ext_iff_of_nodup (hascending.imp String.ne_of_lt)
        (hascending'.imp String.ne_of_lt)).mpr fun id => ?_
      rw [hmem, hmem', hs.record?_eq ht]
  rw [hids, hids', hsame]

/-- Stores that remember the same past answer alike what is asked under usable ids. -/
theorem Remembers.serve_eq (lawsS : Laws σ SoundS HoldsS) (lawsT : Laws τ SoundT HoldsT)
    (refusalsS : Refusals σ) (refusalsT : Refusals τ) (hs : Remembers SoundS s past)
    (ht : Remembers SoundT t past) {op : Operation}
    (hop : ∀ r, op = .put r → HoldsS r ∧ HoldsT r)
    (hid : ∀ id, op.sought? = some id → isValidId id = true) :
    (Store.serve s op).1 = (Store.serve t op).1 := by
  have hget : ∀ id, isValidId id = true → Store.get s id = Store.get t id := by
    intro id hid
    rw [lawsS.get_eq hs.sound hid, lawsT.get_eq ht.sound hid, hs.record?_eq ht]
  cases op with
  | put r =>
      cases hvalid : isValidId r.id with
      | false => simp only [Store.serve, refusalsS.put hvalid, refusalsT.put hvalid]
      | true =>
          obtain ⟨hholdsS, hholdsT⟩ := hop r rfl
          obtain ⟨s', hputS, -⟩ := lawsS.put hs.sound hvalid hholdsS
          obtain ⟨t', hputT, -⟩ := lawsT.put ht.sound hvalid hholdsT
          simp only [Store.serve, hputS, hputT]
  | get id => exact congrArg (Except.map Answer.record) (hget id (hid id rfl))
  | delete id =>
      have hsame := hget id (hid id rfl)
      cases hr : Store.get s id with
      | error e =>
          rw [hr] at hsame
          simp only [Store.serve, refusalsS.delete hr, refusalsT.delete hsame.symm]
      | ok r =>
          rw [hr] at hsame
          obtain ⟨s', hdeleteS, -⟩ := lawsS.delete hs.sound (get_eq_ok_iff.mp hr)
          obtain ⟨t', hdeleteT, -⟩ := lawsT.delete ht.sound (get_eq_ok_iff.mp hsame.symm)
          simp only [Store.serve, hdeleteS, hdeleteT]
  | list => exact congrArg (Except.map Answer.ids) (hs.list_eq lawsS lawsT ht)
  | contains id =>
      have hsame := hget id (hid id rfl)
      simp only [Store.serve, Store.contains, hsame]

/-- What seeks a record fails as getting the record does, and only asking whether it is there
takes its absence for an answer. -/
theorem serve_failed (refusals : Refusals σ) {op : Operation} {id : String} {e : StoreError}
    (hop : op.sought? = some id) (he : Store.get s id = .error e) :
    (Store.serve s op).1 = op.failed e := by
  cases op with
  | put r => cases hop
  | list => cases hop
  | get other =>
      cases hop
      simp only [Store.serve, he]
      rfl
  | delete other =>
      cases hop
      simp only [Store.serve, refusals.delete he]
      rfl
  | contains other =>
      cases hop
      simp only [Store.serve, Store.contains, he]
      cases e <;> rfl

end Store

-- =================================================== in memory, in files

open Store (Record isValidId record? Operation answers afterAll serve)

theorem MemoryStore.refusals : Store.Refusals MemoryStore where
  put := by
    intro s r hid
    show s.put r = _
    unfold MemoryStore.put Store.checkId
    rw [hid]
    rfl
  delete := by
    intro s id e he
    have hget : s.get id = .error e := he
    show s.delete id = _
    unfold MemoryStore.get at hget
    unfold MemoryStore.delete
    cases hr : s.records.get? id with
    | some r =>
        rw [hr] at hget
        cases hget
    | none =>
        rw [hr] at hget
        cases hget
        rfl

/-- In memory an id that cannot be used is one without a record. -/
theorem MemoryStore.get_unusable {s : MemoryStore} {past : List Operation}
    (h : Store.Remembers MemoryStore.Sound s past) {id : String} (hid : isValidId id = false) :
    Store.get s id = .error (.notFound id) := by
  have hnone : s.records.get? id = none := by
    refine Option.eq_none_iff_forall_ne_some.mpr fun r hr => ?_
    rw [← MemoryStore.record?_eq] at hr
    rw [(h.record?_iff.mp hr).1] at hid
    cases hid
  show s.get id = _
  unfold MemoryStore.get
  rw [hnone]

/-- In files an id that cannot be used is refused. -/
theorem FileStore.get_unusable {s : FileStore} {id : String} (hid : isValidId id = false) :
    Store.get s id = .error (.invalidId id) := by
  show s.get id = _
  unfold FileStore.get Store.checkId
  rw [hid]
  rfl

namespace Store

variable {inMemory : MemoryStore} {inFiles : FileStore} {past : List Operation}

/-- One answer in files, for the one in memory. -/
theorem serve_inFiles (hmemory : Remembers MemoryStore.Sound inMemory past)
    (hfiles : Remembers FileStore.Sound inFiles past) {op : Operation}
    (hop : ∀ r, op = .put r → r.Representable) :
    (serve inFiles op).1 = op.checked (serve inMemory op).1 := by
  by_cases hunusable : ∃ id, op.sought? = some id ∧ isValidId id = false
  · obtain ⟨id, hsought, hid⟩ := hunusable
    rw [Operation.checked_of_unusable hsought hid,
      serve_failed FileStore.refusals hsought (FileStore.get_unusable hid)]
    cases op <;> rfl
  · have husable : ∀ id, op.sought? = some id → isValidId id = true := fun id hsought =>
      eq_true_of_ne_false fun hid => hunusable ⟨id, hsought, hid⟩
    rw [Operation.checked_of_usable husable]
    exact (hmemory.serve_eq MemoryStore.laws FileStore.laws MemoryStore.refusals
      FileStore.refusals hfiles (fun r hr => ⟨trivial, hop r hr⟩) husable).symm

/-- All answers in files, for those in memory. -/
theorem answers_inFiles (hmemory : Remembers MemoryStore.Sound inMemory past)
    (hfiles : Remembers FileStore.Sound inFiles past) {ops : List Operation}
    (hops : Puts Record.Representable ops) :
    answers inFiles ops = List.zipWith Operation.checked ops (answers inMemory ops) := by
  induction ops generalizing inMemory inFiles past with
  | nil => rfl
  | cons op ops ih =>
      have hop : ∀ r, op = .put r → r.Representable := by
        rintro r rfl
        exact hops r (List.mem_cons_self ..)
      have hmemory' := hmemory.serve MemoryStore.laws MemoryStore.refusals
        fun r (_ : op = .put r) => trivial
      have hfiles' := hfiles.serve FileStore.laws FileStore.refusals hop
      unfold answers
      rw [List.zipWith_cons_cons, serve_inFiles hmemory hfiles hop,
        ih hmemory' hfiles' fun r hr => hops r (List.mem_cons_of_mem _ hr)]

end Store

theorem MemoryStore.remembers_empty : Store.Remembers MemoryStore.Sound MemoryStore.empty [] :=
  .of_empty MemoryStore.sound_empty fun id => MemoryStore.record?_eq .empty id

/-- From empty stores on, records in files answer as records in memory do, but for unusable
ids: these are refused in files whatever is sought under them, while in memory nothing is
found there. -/
theorem answers_alike_but_for_unusable_ids (root : String) {ops : List Operation}
    (hops : Store.Puts Record.Representable ops) :
    answers (⟨[], root⟩ : FileStore) ops
        = List.zipWith Operation.checked ops (answers MemoryStore.empty ops)
      ∧ ∀ before op after id, ops = before ++ op :: after → op.sought? = some id →
        isValidId id = false →
          (serve (afterAll MemoryStore.empty before) op).1 = op.failed (.notFound id) := by
  constructor
  · exact Store.answers_inFiles MemoryStore.remembers_empty (FileStore.remembers_empty root) hops
  · intro before op after id _ hsought hid
    have hputs : Store.Puts (fun _ => True) before := fun _ _ => trivial
    have hbefore :=
      MemoryStore.remembers_empty.afterAll MemoryStore.laws MemoryStore.refusals hputs
    exact Store.serve_failed MemoryStore.refusals hsought (MemoryStore.get_unusable hbefore hid)

/-- An id with a slash is refused in files and unknown in memory; for all else the answers are
the same. -/
theorem answers_alike_with_slash :
    let r := FileStore.sampleRecord "p" "short"
    let ops : List Operation := [.put r, .get "p", .get "a/b", .delete "a/b", .contains "a/b", .list]
    Store.Puts Record.Representable ops
      ∧ answers (⟨[], "data"⟩ : FileStore) ops
        = List.zipWith Operation.checked ops (answers MemoryStore.empty ops)
      ∧ answers MemoryStore.empty ops = [.ok .done, .ok (.record r), .error (.notFound "a/b"),
        .error (.notFound "a/b"), .ok (.found false), .ok (.ids ["p"])] := by
  intro r ops
  have hops : Store.Puts Record.Representable ops := by
    intro put hput
    rcases List.mem_cons.mp hput with hput | hput
    · cases hput
      exact FileStore.sampleRecord_representable "p" "short"
    · simp at hput
  refine ⟨hops, (answers_alike_but_for_unusable_ids "data" hops).1, ?_⟩
  have hid : isValidId r.id = true := by decide +kernel
  have hput : Store.put MemoryStore.empty r = .ok ⟨[("p", r)]⟩ := by
    show MemoryStore.put _ _ = _
    unfold MemoryStore.put Store.checkId
    rw [hid]
    rfl
  simp only [ops, answers, serve, hput]
  rfl

/-- The one store says that nothing is there where the other refuses the id. -/
theorem unusable_id_is_told_apart :
    answers MemoryStore.empty [.get "a/b"] ≠ answers (⟨[], "data"⟩ : FileStore) [.get "a/b"] := by
  intro h
  cases (List.cons.inj h).1

end EventScript
