/-
What a store is: records under ids. A store is a value, and an operation that fails leaves
it as it is, so a changed store is only ever the outcome of a success.
-/
import EventScript.Store.Record

namespace EventScript

/-- A kind of store. -/
class Store (σ : Type) where
  /-- The record under an id. -/
  get : σ → String → Except StoreError Store.Record
  /-- The store with a record under its id, in place of any that was there. -/
  put : σ → Store.Record → Except StoreError σ
  /-- The record under an id, and the store without it. -/
  delete : σ → String → Except StoreError (Store.Record × σ)
  /-- The ids, in order. -/
  list : σ → Except StoreError (List String)
  /-- Where the record of an id is kept, when that can be told. -/
  place? : σ → String → Option String

namespace Store

variable {σ : Type} [Store σ]

/-- Whether there is a record under an id. -/
def contains (s : σ) (id : String) : Except StoreError Bool :=
  match get s id with
  | .ok _ => .ok true
  | .error (.notFound _) => .ok false
  | .error e => .error e

/-- Nothing for an id that can be used as a key. -/
def checkId (id : String) : Except StoreError Unit :=
  if isValidId id then .ok () else .error (.invalidId id)

end Store
end EventScript
