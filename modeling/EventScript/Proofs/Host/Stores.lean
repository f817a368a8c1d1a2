/-
Hosts over the two kinds of store, from the empty store on. Whatever was asked of them and
whenever, they know the instructions they were made with, their stores are sound, and a dispatch
is answered as the programs would have answered one by one.

A store in memory holds every record. One in files holds those that can be written and read
back; a record is one of them if the chain it names is a word of 64 bits and the clock shows
a time that has a text, as every clock does.
-/
import EventScript.Proofs.Host.Dispatch
import EventScript.Proofs.Store.File
import EventScript.Proofs.Store.Memory

namespace EventScript.Host

open Store (record?)

-- ============================================================== hosts later

section

variable {σ : Type} [Store σ]

/-- The host at a time, after all that was asked of it before. -/
def later (h : Host σ) (past : List (Timestamp × Operation)) (now : Timestamp) : Host σ :=
  (h.serveAll past).atTime now

theorem serveAll_sameRules (h : Host σ) (past : List (Timestamp × Operation)) :
    h.SameRules (h.serveAll past) := by
  induction past generalizing h with
  | nil => exact .refl h
  | cons x past ih =>
      obtain ⟨now, op⟩ := x
      have hafter := (h.atTime_sameRules now).trans ((h.atTime now).after_sameRules op)
      exact hafter.trans (ih ((h.atTime now).after op))

/-- A host has its rules for good. -/
theorem later_sameRules (h : Host σ) (past : List (Timestamp × Operation)) (now : Timestamp) :
    h.SameRules (h.later past now) :=
  (h.serveAll_sameRules past).trans ((h.serveAll past).atTime_sameRules now)

/-- A host without records keeps what there is of them. -/
theorem Kept.of_empty {Sound : σ → Prop} {h : Host σ} (hs : Sound h.store)
    (hnone : ∀ id, record? h.store id = none) : h.Kept Sound where
  sound := hs
  own := by
    intro id r hr
    rw [hnone id] at hr
    cases hr

end

/-- Whether all the records that are asked to be kept can be written and read back. -/
def Storable (past : List (Timestamp × Operation)) : Prop :=
  ∀ x ∈ past, ∀ r, x.2.offers? x.1 = some r → r.Representable

-- ======================================================= the kinds of store

variable (registry : Registry) (settings : Settings) (world : World)

/-- A host that keeps its records in memory and has none yet. -/
def inMemory : Host MemoryStore := { store := .empty, registry, settings, world }

/-- A host that keeps its records in the files of a folder and has none yet. -/
def inFiles (root : String) : Host FileStore := { store := ⟨[], root⟩, registry, settings, world }

/-- A host with a store in memory is kept after any past. -/
theorem inMemory_later_kept (past : List (Timestamp × Operation)) (now : Timestamp) :
    ((inMemory registry settings world).later past now).Kept MemoryStore.Sound := by
  have hstart : (inMemory registry settings world).Kept MemoryStore.Sound :=
    .of_empty MemoryStore.sound_empty fun id => by
      rw [MemoryStore.record?_eq]
      rfl
  exact (hstart.serveAll MemoryStore.laws fun _ _ _ _ => trivial).atTime now

/-- A host with a store in files is kept after any past whose records can be stored. -/
theorem inFiles_later_kept (root : String) {past : List (Timestamp × Operation)}
    (hpast : Storable past) (now : Timestamp) :
    ((inFiles registry settings world root).later past now).Kept FileStore.Sound := by
  have hsound := FileStore.sound_empty root
  have hstart : (inFiles registry settings world root).Kept FileStore.Sound :=
    .of_empty hsound fun id => by
      refine Option.eq_none_iff_forall_ne_some.mpr fun r hr => ?_
      obtain ⟨-, -, -, hfile⟩ := hsound.record?_iff.mp hr
      cases hfile
  exact (hstart.serveAll FileStore.laws hpast).atTime now

/-- Two programs are created, one of them for a contract on a chain. -/
def twoCreated : List (Timestamp × Operation) :=
  let source := "version: \"1\"\nprogram:\n  - set:\n      variable: seen\n      value: true\n"
  [(.epoch, .create "flag" source { id := "first", address := some "0xA", chainId := some 1 }),
    (.epoch, .create "bell" source { id := "second" })]

theorem twoCreated_storable : Storable twoCreated := by
  have hepoch : Timestamp.epoch.Representable := ⟨by decide +kernel, by decide⟩
  intro x hx r hr
  simp only [twoCreated, List.mem_cons, List.not_mem_nil, or_false] at hx
  rcases hx with rfl | rfl
  · cases hr
    exact ⟨by simp [Cast.Representable], hepoch⟩
  · cases hr
    exact ⟨by simp [Cast.Representable], hepoch⟩

/-- The host of files that the two were created on. -/
def twoInFiles : Host FileStore :=
  (inFiles (.builtin 16) {} {} "data").later twoCreated .epoch

theorem twoInFiles_keys : twoInFiles.store.folder.keys = ["bell.json", "flag.json"] := by
  decide +kernel

/-- A host stays orderly from the empty store on: its records are under their ids and compile,
each operation that writes does so exactly when it is allowed to and on one record only, those
that run programs write nothing, and every program there can be run. -/
theorem later_orderly (past : List (Timestamp × Operation)) (now : Timestamp) :
    ((inMemory registry settings world).SameRules
        ((inMemory registry settings world).later past now)
      ∧ ((inMemory registry settings world).later past now).Orderly fun _ => True)
    ∧ (∀ root, Storable past →
      (inFiles registry settings world root).SameRules
          ((inFiles registry settings world root).later past now)
        ∧ ((inFiles registry settings world root).later past now).Orderly
          Store.Record.Representable) := by
  refine ⟨⟨later_sameRules _ past now, ?_⟩, fun root hpast => ⟨later_sameRules _ past now, ?_⟩⟩
  · exact (inMemory_later_kept registry settings world past now).orderly MemoryStore.laws
  · exact (inFiles_later_kept registry settings world root hpast now).orderly FileStore.laws

theorem later_orderly_twoCreated :
    Storable twoCreated ∧ twoInFiles.store.folder.keys = ["bell.json", "flag.json"]
      ∧ twoInFiles.Orderly Store.Record.Representable :=
  ⟨twoCreated_storable, twoInFiles_keys,
    ((later_orderly (.builtin 16) {} {} twoCreated .epoch).2 "data" twoCreated_storable).2⟩

/-- Dispatching agrees with handling each program on its own, whatever was asked of the host
since its store was empty. -/
theorem later_dispatched (past : List (Timestamp × Operation)) (now : Timestamp)
    (address : String) (event : Json) :
    (∃ reports, (((inMemory registry settings world).later past now).dispatch address event).1
          = .ok reports
        ∧ ((inMemory registry settings world).later past now).Dispatched address event reports)
    ∧ (∀ root, Storable past →
      ∃ reports, (((inFiles registry settings world root).later past now).dispatch address event).1
          = .ok reports
        ∧ ((inFiles registry settings world root).later past now).Dispatched address event
            reports) := by
  refine ⟨?_, fun root hpast => ?_⟩
  · exact (inMemory_later_kept registry settings world past now).dispatched MemoryStore.laws
      address event
  · exact (inFiles_later_kept registry settings world root hpast now).dispatched FileStore.laws
      address event

theorem later_dispatched_twoCreated :
    Storable twoCreated ∧ twoInFiles.store.folder.keys = ["bell.json", "flag.json"]
      ∧ ∃ reports, (twoInFiles.dispatch "0xa" .null).1 = .ok reports
        ∧ twoInFiles.Dispatched "0xa" .null reports :=
  ⟨twoCreated_storable, twoInFiles_keys,
    (later_dispatched (.builtin 16) {} {} twoCreated .epoch "0xa" .null).2 "data"
      twoCreated_storable⟩

end EventScript.Host
