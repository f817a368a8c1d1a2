/-
Records in files. The record of an id is the file of that name, ending in `.json`, in one
folder. A put takes several steps on the file, and whatever stops it leaves the folder as
the steps before have made it; between the truncation and the end of the writing the file
holds no whole record.
-/
import EventScript.FileSystem
import EventScript.Store.Basic

namespace EventScript

/-- A store that is a folder of files. -/
structure FileStore where
  folder : Folder
  /-- The path of the folder that holds it. -/
  root : String

namespace FileStore

open Store (Record)

-- ================================================================= names

/-- The file of an id. -/
def fileName (id : String) : String := id ++ ".json"

/-- The id a file is named for. A name that is all ending is no id. -/
def stem? (name : String) : Option String :=
  let cs := name.toList
  let ending := ".json".toList
  if ending.length < cs.length && ending.isSuffixOf cs then
    some (String.ofList (cs.take (cs.length - ending.length)))
  else none

/-- The path of an entry of a folder. -/
def below (path name : String) : String :=
  if path = "" ∨ path.endsWith "/" then path ++ name else path ++ "/" ++ name

/-- The path of the folder of records. -/
def folderPath (root : String) : String := below root "programs"

-- ======================================================== steps of a put

/-- One step of writing a file. -/
inductive WriteStep where
  /-- Opens the file, and makes it if it is missing. -/
  | opening
  | lock
  /-- Cuts the file to nothing. -/
  | truncate
  /-- Writes over the file from its start. -/
  | write (text : String)
  | sync
deriving DecidableEq, Repr

/-- The folder after a step on one of its files. -/
def WriteStep.run (name : String) (folder : Folder) : WriteStep → Except StoreError Folder
  | opening => match folder.get? name with
    | none => .ok (folder.insert name (.file ""))
    | some (.file _) => .ok folder
    | some (.folder _) =>
      .error (.io "open program" FileSystem.Fault.isFolder.message)
  | truncate => .ok (folder.insert name (.file ""))
  | write text => match folder.get? name with
    | some (.file old) =>
      .ok (folder.insert name (.file (text ++ String.ofList (old.toList.drop text.length))))
    | _ => .error (.io "write program" FileSystem.Fault.isFolder.message)
  | lock => .ok folder
  | sync => .ok folder

/-- The steps that put a record. -/
def writeSteps (r : Record) : List WriteStep :=
  [.opening, .lock, .truncate, .write r.write, .sync]

-- ============================================================ operations

/-- The record under an id. -/
def get (s : FileStore) (id : String) : Except StoreError Record :=
  match Store.checkId id with
  | .error e => .error e
  | .ok () => match s.folder.get? (fileName id) with
    | none => .error (.notFound id)
    | some (.folder _) => .error (.io "read program" FileSystem.Fault.isFolder.message)
    | some (.file text) => Record.read text

/-- The store with a record under its id. -/
def put (s : FileStore) (r : Record) : Except StoreError FileStore :=
  match Store.checkId r.id with
  | .error e => .error e
  | .ok () =>
    ((writeSteps r).foldlM (WriteStep.run (fileName r.id)) s.folder).map
      fun folder => { s with folder }

/-- The record under an id, and the store without it. -/
def delete (s : FileStore) (id : String) : Except StoreError (Record × FileStore) :=
  (s.get id).map fun r => (r, { s with folder := s.folder.erase (fileName id) })

/-- The ids of the files that are named for one. -/
def ids (folder : Folder) : List String :=
  (folder.keys.filterMap stem?).mergeSort

instance : Store FileStore where
  get := get
  put := put
  delete := delete
  list s := .ok (ids s.folder)
  place? s id := some (below (folderPath s.root) (fileName id))

-- ============================================================== in files

/-- The folder of the records of a store, made where it is missing: the files then, and
where it is. -/
def prepare (files : FileSystem) (root : String) :
    Except StoreError (FileSystem × Location) :=
  (files.makeFolder (folderPath root)).mapError fun fault =>
    .io "create programs directory" fault.message

/-- The store in the folder at a location. -/
def load (files : FileSystem) (root : String) (location : Location) : FileStore :=
  ⟨files.folderAt location, root⟩

/-- The files with the store in the folder at a location. -/
def save (s : FileStore) (files : FileSystem) (location : Location) : FileSystem :=
  files.putAt location (.folder s.folder)

end FileStore
end EventScript
