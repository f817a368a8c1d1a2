/-
Records in memory keep the laws of a map for every record, as long as their ids ascend, which
they do from the empty store on.
-/
import EventScript.Proofs.Store.Laws
import EventScript.Proofs.Table
import EventScript.Store.Memory

namespace EventScript.MemoryStore

open Store (Record)

/-- The ids stand in order, each once. -/
def Sound (s : MemoryStore) : Prop := s.records.Ascending

theorem sound_empty : empty.Sound := Table.ascending_nil

/-- A record is there where the table has it. -/
theorem record?_eq (s : MemoryStore) (id : String) : Store.record? s id = s.records.get? id := by
  show (s.get id).toOption = _
  unfold get
  cases s.records.get? id <;> rfl

/-- The store in memory keeps the laws of stores, for all records. -/
theorem laws : Store.Laws MemoryStore Sound fun _ => True where
  get_absent := by
    intro s id _ _ hr
    rw [record?_eq] at hr
    show s.get id = _
    unfold get
    rw [hr]
  put := by
    intro s r hs hid _
    refine ⟨⟨s.records.insert r.id r⟩, ?_, hs.insert r.id r, ?_⟩
    · show s.put r = _
      unfold put
      rw [Store.checkId_eq_ok_iff.mpr hid]
    · intro id
      rw [record?_eq, record?_eq]
      exact Table.get?_insert s.records r.id id r
  delete := by
    intro s id r hs hr
    rw [record?_eq] at hr
    refine ⟨⟨s.records.erase id⟩, ?_, hs.erase id, ?_⟩
    · show s.delete id = _
      unfold delete
      rw [hr]
    · intro other
      rw [record?_eq, record?_eq]
      exact hs.get?_erase id other
  delete_absent := by
    intro s id _ hr
    rw [record?_eq] at hr
    refine ⟨.notFound id, ?_⟩
    show s.delete id = _
    unfold delete
    rw [hr]
  list := by
    intro s hs
    refine ⟨s.records.keys, rfl, hs, ?_⟩
    intro id
    rw [record?_eq]
    exact Table.isSome_get?_iff.symm

end EventScript.MemoryStore
