/-
A record that was written is read back. Its members have names of their own, so none of them
is found twice and merging them loses nothing; each is of the type its reader wants. The
identifier of a chain has to be a word of 64 bits, as it is wherever it comes from, and the
time has to be one that can be written.
-/
import EventScript.Proofs.Except
import EventScript.Proofs.Json.Reading
import EventScript.Proofs.Table
import EventScript.Proofs.Timestamp.Reading
import EventScript.Store.Record

namespace EventScript

/-- What is below 64 bits fits a number. -/
theorem Json.fitsWord_of_lt {n : Nat} (h : n < 0x10000000000000000) : FitsWord n := by
  unfold FitsWord
  omega

/-- A word of 64 bits is written as a number. -/
theorem Json.ofNat_of_lt {n : Nat} (h : n < 0x10000000000000000) :
    ofNat n = .number (.int n (fitsWord_of_lt h)) := ofInt_of_fits _

/-- Members with nothing to merge in them are merged to themselves. -/
theorem Json.mergedMembers_eq_self {members : List (String × Json)}
    (h : ∀ e ∈ members, e.2.merged = e.2) : mergedMembers members = members := by
  induction members with
  | nil => rfl
  | cons e members ih =>
      obtain ⟨k, v⟩ := e
      have hv : v.merged = v := h (k, v) (List.mem_cons_self ..)
      rw [mergedMembers, hv, ih fun e he => h e (List.mem_cons_of_mem _ he)]

theorem Json.readableMembers_of_forall {depth : Nat} {members : List (String × Json)}
    (h : ∀ e ∈ members, e.2.readable depth = true) : readableMembers depth members = true := by
  induction members with
  | nil => rfl
  | cons e members ih =>
      obtain ⟨k, v⟩ := e
      have hv : v.readable depth = true := h (k, v) (List.mem_cons_self ..)
      rw [readableMembers, hv, ih fun e he => h e (List.mem_cons_of_mem _ he)]
      rfl

-- ============================================================== decoding

namespace Decode

/-- Members that fit their slots are all of them right. -/
theorem firstMismatch?_eq_none {strict : Bool} {slots : List Slot} {args : Json.Object}
    (h : ∀ e ∈ args, ∃ f, (slots.find? fun f => f.name == e.1) = some f ∧ f.check e.2 = none) :
    firstMismatch? strict slots args = none := by
  refine List.findSome?_eq_none_iff.mpr ?_
  intro e he
  obtain ⟨f, hf, hcheck⟩ := h e he
  obtain ⟨k, v⟩ := e
  dsimp only at hf hcheck ⊢
  rw [hf]
  exact hcheck

/-- A record is read from members that have each a name of its own and fit their slots. -/
theorem record_ofList {α : Type} {title : String} {slots : List Slot}
    {build : Json.Object → Except Mismatch α} {strict : Bool} {members : List (String × Json)}
    (h : ∀ e ∈ members, ∃ f, (slots.find? fun f => f.name == e.1) = some f ∧ f.check e.2 = none) :
    record title slots build strict (.object (Table.ofList members))
      = build (Table.ofList members) := by
  have hnone : firstMismatch? strict slots (Table.ofList members) = none :=
    firstMismatch?_eq_none fun e he => h e (Table.mem_of_mem_ofList he)
  unfold record
  dsimp only
  rw [hnone]

theorem check_slot {α : Type} {name : String} {r : Reader α} {v : Json} {a : α} (h : r v = .ok a) :
    (slot name r).check v = none := by
  unfold slot
  dsimp only
  rw [h]

theorem check_spareSlot {α : Type} {name : String} {r : Reader α} {v : Json} {a : α}
    (h : r v = .ok a) : (spareSlot name r).check v = none := by
  show (slot name r).check v = none
  exact check_slot h

theorem need_of_get? {α : Type} {args : Json.Object} {field : String} {r : Reader α} {v : Json}
    (h : args.get? field = some v) : need args field r = r v := by
  unfold need
  rw [h]

theorem may_text {args : Json.Object} {field : String} {s : Option String}
    (h : args.get? field = s.map .string) : may args field text = .ok s := by
  unfold may
  rw [h]
  cases s <;> rfl

/-- The reader of words takes what is written of one. -/
theorem orNull_word {n : Nat} (h : Json.FitsWord n) (expected : String) :
    orNull (word expected) (.number (.int n h)) = .ok (some n) := by
  have hsign : 0 ≤ (n : Int) := Int.natCast_nonneg n
  simp only [orNull, word, hsign, if_true, Int.toNat_natCast]
  rfl

/-- A word that may be missing is read as it was written. -/
theorem may_word {args : Json.Object} {field : String} {n : Option Nat}
    (h : args.get? field = n.map Json.ofNat) (hn : ∀ k ∈ n, k < 0x10000000000000000)
    (expected : String) : may args field (word expected) = .ok n := by
  unfold may
  rw [h]
  cases n with
  | none => rfl
  | some k =>
      show orNull (word expected) (Json.ofNat k) = _
      rw [Json.ofNat_of_lt (hn k rfl)]
      exact orNull_word _ expected

/-- What is read as a record was built from some members. -/
theorem exists_of_record {α : Type} {title : String} {slots : List Slot}
    {build : Json.Object → Except Mismatch α} {strict : Bool} {v : Json} {a : α}
    (h : record title slots build strict v = .ok a) : ∃ args, build args = .ok a := by
  unfold record at h
  split at h
  · split at h
    · cases h
    · next args _ _ => exact ⟨args, h⟩
  · obtain ⟨args, -, hargs⟩ := Except.bind_eq_ok.mp h
    exact ⟨args, hargs⟩
  · cases h

/-- What is read as a word is one. -/
theorem lt_of_word {expected : String} {v : Json} {n : Nat} (h : word expected v = .ok n) :
    n < 0x10000000000000000 := by
  unfold word at h
  split at h
  · next i hfits =>
    split at h
    case isTrue =>
      cases h
      obtain ⟨-, hbelow⟩ := hfits
      omega
    case isFalse => cases h
  · cases h

/-- A word that is read is below 64 bits. -/
theorem lt_of_may_word {args : Json.Object} {field expected : String} {n : Option Nat}
    (h : may args field (word expected) = .ok n) : ∀ k ∈ n, k < 0x10000000000000000 := by
  intro k hk
  unfold may at h
  split at h
  · unfold orNull at h
    split at h
    · cases h
      cases hk
    · obtain ⟨j, hj, rfl⟩ := Except.map_eq_ok.mp h
      cases hk
      exact lt_of_word hj
  · cases h
    cases hk

end Decode

-- ================================================================== casts

namespace Cast

/-- Whether the chain has the identifier of one. -/
def Representable (c : Cast) : Prop := ∀ n ∈ c.chainId, n < 0x10000000000000000

variable {c : Cast}

/-- The members of a cast are its four, as far as they are known. -/
theorem mem_members {e : String × Json} (h : e ∈ c.members) :
    e = ("id", .string c.id) ∨ (∃ s ∈ c.name, e = ("name", .string s))
      ∨ (∃ s ∈ c.address, e = ("address", .string s))
      ∨ ∃ n ∈ c.chainId, e = ("chainId", Json.ofNat n) := by
  obtain ⟨id, name, address, chainId⟩ := c
  cases name <;> cases address <;> cases chainId <;> simpa [members] using h

/-- The members of a cast have distinct names. -/
theorem members_nodup (c : Cast) : (c.members.map Prod.fst).Nodup := by
  obtain ⟨id, name, address, chainId⟩ := c
  cases name <;> cases address <;> cases chainId <;> simp [members]

/-- Each member of a cast is found under its name, where it is known. -/
theorem get?_members (c : Cast) :
    Table.get? "id" c.members = some (.string c.id)
      ∧ Table.get? "name" c.members = c.name.map .string
      ∧ Table.get? "address" c.members = c.address.map .string
      ∧ Table.get? "chainId" c.members = c.chainId.map Json.ofNat := by
  obtain ⟨id, name, address, chainId⟩ := c
  cases name <;> cases address <;> cases chainId <;> exact ⟨rfl, rfl, rfl, rfl⟩

/-- A cast is read from its members, whatever order they come in. -/
theorem decode_members (h : c.Representable) :
    decode (.object (Table.ofList c.members)) = .ok c := by
  obtain ⟨hid, hname, haddress, hchain⟩ := c.get?_members
  rw [← Table.get?_ofList c.members_nodup] at hid hname haddress hchain
  unfold decode
  rw [Decode.record_ofList]
  · rw [Decode.need_of_get? hid, Decode.may_text hname, Decode.may_text haddress,
      Decode.may_word hchain h]
    rfl
  · intro e he
    rcases mem_members he with rfl | ⟨s, -, rfl⟩ | ⟨s, -, rfl⟩ | ⟨n, hn, rfl⟩
    · exact ⟨_, rfl, rfl⟩
    · exact ⟨_, rfl, rfl⟩
    · exact ⟨_, rfl, rfl⟩
    · rw [Json.ofNat_of_lt (h n hn)]
      exact ⟨_, rfl, Decode.check_spareSlot (Decode.orNull_word _ "u64")⟩

/-- A cast that was read can be written. -/
theorem representable_of_decode {v : Json} (h : decode v = .ok c) : c.Representable := by
  obtain ⟨args, hargs⟩ := Decode.exists_of_record h
  obtain ⟨id, -, hargs⟩ := Except.bind_eq_ok.mp hargs
  obtain ⟨name, -, hargs⟩ := Except.bind_eq_ok.mp hargs
  obtain ⟨address, -, hargs⟩ := Except.bind_eq_ok.mp hargs
  obtain ⟨chainId, hchain, hargs⟩ := Except.bind_eq_ok.mp hargs
  cases hargs
  exact Decode.lt_of_may_word hchain

theorem mergedMembers_members (h : c.Representable) : Json.mergedMembers c.members = c.members := by
  refine Json.mergedMembers_eq_self fun e he => ?_
  rcases mem_members he with rfl | ⟨s, -, rfl⟩ | ⟨s, -, rfl⟩ | ⟨n, hn, rfl⟩
  · rfl
  · rfl
  · rfl
  · dsimp only
    rw [Json.ofNat_of_lt (h n hn)]
    rfl

theorem readable_members (h : c.Representable) (depth : Nat) :
    Json.readableMembers depth c.members = true := by
  refine Json.readableMembers_of_forall fun e he => ?_
  rcases mem_members he with rfl | ⟨s, -, rfl⟩ | ⟨s, -, rfl⟩ | ⟨n, hn, rfl⟩
  · rfl
  · rfl
  · rfl
  · dsimp only
    rw [Json.ofNat_of_lt (h n hn)]
    rfl

end Cast

-- ================================================================ records

namespace Store.Record

/-- Whether the text of a record is one that is read. -/
structure Representable (r : Record) : Prop where
  cast : r.cast.Representable
  updatedAt : r.updatedAt.Representable

variable {r : Record}

/-- A record has every name once, and so has its cast. -/
theorem repeated?_members (r : Record) : repeated? (.object r.members) = none := by
  have htwice : ∀ (names : List String) (members : List (String × Json)),
      (members.map Prod.fst).Nodup → twice? names (.object members) = none := by
    intro names members hnodup
    refine List.find?_eq_none.mpr fun n _ => ?_
    have hcount := List.nodup_iff_count.mp hnodup n
    simpa using hcount
  have hcast : (Json.object r.members).member? "cast" = some (.object r.cast.members) := rfl
  unfold repeated?
  rw [hcast, htwice _ _ (by simp [members]), Option.bind_some,
    htwice _ _ r.cast.members_nodup]
  rfl

/-- The members of a record with those of its cast in the order of their names. -/
def entries (r : Record) : List (String × Json) :=
  [("id", .string r.id), ("source", .string r.source),
    ("cast", .object (Table.ofList r.cast.members)), ("updatedAt", .string r.updatedAt.write)]

/-- The members of a record are found in any order. -/
theorem get?_entries (r : Record) (name : String) :
    Table.get? name (Table.ofList r.entries) = Table.get? name r.entries :=
  Table.get?_ofList (by simp [entries])

/-- A record as it is written has nothing to merge but the order of its members. -/
theorem merged_members (h : r.Representable) :
    (Json.object r.members).merged = .object (Table.ofList r.entries) := by
  have hcast : (Json.object r.cast.members).merged = .object (Table.ofList r.cast.members) := by
    rw [Json.merged, Cast.mergedMembers_members h.cast]
  show Json.object (Table.ofList [_, _, ("cast", (Json.object r.cast.members).merged), _]) = _
  rw [hcast]
  rfl

theorem instant_write {t : Timestamp} (h : t.Representable) :
    instant (.string t.write) = .ok t := by
  unfold instant
  dsimp only
  rw [Timestamp.parse?_write h]

/-- A record is read back from its members. -/
theorem decode_merged (h : r.Representable) : decode (Json.object r.members).merged = .ok r := by
  have hcast := Cast.decode_members h.cast
  have hinstant := instant_write h.updatedAt
  have hget := r.get?_entries
  rw [merged_members h]
  unfold decode
  rw [Decode.record_ofList]
  · rw [Decode.need_of_get? (hget "id"), Decode.need_of_get? (hget "source"),
      Decode.need_of_get? (hget "cast"), hcast, Decode.need_of_get? (hget "updatedAt"), hinstant]
    rfl
  · intro e he
    simp only [entries, List.mem_cons, List.not_mem_nil, or_false] at he
    rcases he with rfl | rfl | rfl | rfl
    · exact ⟨_, rfl, rfl⟩
    · exact ⟨_, rfl, rfl⟩
    · exact ⟨_, rfl, Decode.check_slot hcast⟩
    · exact ⟨_, rfl, Decode.check_slot hinstant⟩

theorem readable (h : r.Representable) :
    (Json.object r.members).readable Json.Reader.maxDepth = true := by
  have hcast : (Json.object r.cast.members).readable 126 = true :=
    Cast.readable_members h.cast 125
  show Json.readableMembers 126 r.members = true
  refine Json.readableMembers_of_forall fun e he => ?_
  simp only [members, List.mem_cons, List.not_mem_nil, or_false] at he
  rcases he with rfl | rfl | rfl | rfl
  · rfl
  · rfl
  · exact hcast
  · rfl

/-- A record is read from its text. -/
theorem read_write (h : r.Representable) : read r.write = .ok r := by
  unfold read write
  rw [Json.written?_indented (readable h)]
  dsimp only
  rw [repeated?_members]
  dsimp only
  rw [decode_merged h]

/-- The cast of a record that was read can be written. -/
theorem cast_representable_of_read {text : String} (h : read text = .ok r) :
    r.cast.Representable := by
  unfold read at h
  split at h
  · cases h
  · split at h
    · cases h
    · split at h
      · cases h
      · next decoded hdecode =>
        cases h
        obtain ⟨args, hargs⟩ := Decode.exists_of_record hdecode
        obtain ⟨id, -, hargs⟩ := Except.bind_eq_ok.mp hargs
        obtain ⟨source, -, hargs⟩ := Except.bind_eq_ok.mp hargs
        obtain ⟨cast, hcast, hargs⟩ := Except.bind_eq_ok.mp hargs
        obtain ⟨updatedAt, -, hargs⟩ := Except.bind_eq_ok.mp hargs
        cases hargs
        obtain ⟨v, -, hv⟩ : ∃ v, args.get? "cast" = some v ∧ Cast.decode v = .ok cast := by
          unfold Decode.need at hcast
          split at hcast
          · next v hget => exact ⟨v, hget, hcast⟩
          · cases hcast
        exact Cast.representable_of_decode hv

end Store.Record

end EventScript
