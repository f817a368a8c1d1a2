/-
Records in memory.
-/
import EventScript.Store.Basic

namespace EventScript

/-- A store that is a table of records. -/
structure MemoryStore where
  records : Table Store.Record := []

namespace MemoryStore

open Store (Record)

/-- The store without records. -/
def empty : MemoryStore := {}

/-- The number of records. -/
def size (s : MemoryStore) : Nat := s.records.length

/-- Whether there is no record. -/
def isEmpty (s : MemoryStore) : Bool := s.records.isEmpty

/-- The record under an id. -/
def get (s : MemoryStore) (id : String) : Except StoreError Record :=
  match s.records.get? id with
  | some r => .ok r
  | none => .error (.notFound id)

/-- The store with a record under its id. -/
def put (s : MemoryStore) (r : Record) : Except StoreError MemoryStore :=
  match Store.checkId r.id with
  | .error e => .error e
  | .ok () => .ok ⟨s.records.insert r.id r⟩

/-- The record under an id, and the store without it. -/
def delete (s : MemoryStore) (id : String) : Except StoreError (Record × MemoryStore) :=
  match s.records.get? id with
  | some r => .ok (r, ⟨s.records.erase id⟩)
  | none => .error (.notFound id)

instance : Store MemoryStore where
  get := get
  put := put
  delete := delete
  list s := .ok s.records.keys
  place? _ _ := none

end MemoryStore
end EventScript
