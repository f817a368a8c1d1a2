/-
Files, as far as a command can see and change them. A tree is a file of text or a folder
of named trees. A path is a text of segments between slashes; it is followed from the root
when it starts with a slash, else from the working folder, and everything on the way has to
be a folder. A location is where a path leads: names from the root on.
-/
import EventScript.Table
import EventScript.Text.Split

namespace EventScript

/-- A file or a folder. -/
inductive FileTree where
  /-- A file, by its content as a text. Bytes that are no text stand in no tree: what is read
  from a file that was cut inside a character is told of its bytes alone. -/
  | file (text : String)
  /-- A folder, by what is in it under each name. -/
  | folder (entries : List (String × FileTree))
deriving Inhabited

/-- The entries of a folder, by name. -/
abbrev Folder := Table FileTree

/-- Names of folders from the root on, and perhaps of a file in the last of them. -/
abbrev Location := List String

namespace FileTree

/-- The tree at a location below `t`. -/
def at? (t : FileTree) : Location → Option FileTree
  | [] => some t
  | name :: rest => match t with
    | .file _ => none
    | .folder entries => (Table.get? name entries).bind fun c => c.at? rest

/-- The tree with another one at a location, in place of what was there; folders on the way
are made, and a file on the way is left as it is. -/
def put (t new : FileTree) : Location → FileTree
  | [] => new
  | name :: rest => match t with
    | .file text => .file text
    | .folder entries =>
      let child := (Table.get? name entries).getD (.folder [])
      .folder (Table.insert name (child.put new rest) entries)

end FileTree

/-- The files a command works on. -/
structure FileSystem where
  root : FileTree := .folder []
  /-- The working folder. -/
  here : Location := []

namespace FileSystem

/-- Why a file or folder cannot be used as asked. -/
inductive Fault where
  | absent
  /-- A folder is where a file is wanted. -/
  | isFolder
  /-- A file is where a folder is wanted. -/
  | notFolder
  /-- A file has the name of the folder to make. -/
  | taken
deriving DecidableEq, Repr

/-- The fault in the words of the system. -/
def Fault.message : Fault → String
  | absent => "No such file or directory (os error 2)"
  | isFolder => "Is a directory (os error 21)"
  | notFolder => "Not a directory (os error 20)"
  | taken => "File exists (os error 17)"

/-- The entries of the folder at a location; none where no folder is. -/
def folderAt (fs : FileSystem) (location : Location) : Folder :=
  match fs.root.at? location with
  | some (.folder entries) => entries
  | _ => []

/-- Whether a folder is at the location. -/
def isFolderAt (fs : FileSystem) (location : Location) : Bool :=
  match fs.root.at? location with
  | some (.folder _) => true
  | _ => false

/-- The files with another tree at a location. -/
def putAt (fs : FileSystem) (location : Location) (new : FileTree) : FileSystem :=
  { fs with root := fs.root.put new location }

-- ================================================================= paths

/-- Where a path starts. -/
def origin (fs : FileSystem) (path : String) : Location :=
  if path.startsWith "/" then [] else fs.here

/-- One segment further. -/
def advance (location : Location) (segment : String) : Location :=
  if segment = "" ∨ segment = "." then location
  else if segment = ".." then location.dropLast
  else location ++ [segment]

/-- Where a path leads: every place but the last has to be a folder. The empty path leads
nowhere. -/
def locate? (fs : FileSystem) (path : String) : Option Location :=
  if path = "" then none
  else (Text.split "/" path).foldlM (fun location segment =>
    if fs.isFolderAt location then some (advance location segment) else none) (fs.origin path)

/-- What a path leads to. -/
def node? (fs : FileSystem) (path : String) : Option FileTree :=
  (fs.locate? path).bind fs.root.at?

/-- The text of the file a path leads to. -/
def read (fs : FileSystem) (path : String) : Except Fault String :=
  match fs.node? path with
  | none => .error .absent
  | some (.folder _) => .error .isFolder
  | some (.file text) => .ok text

-- =============================================================== writing

/-- The folders that segments name one below the other, made where they are missing. -/
def makeFrom (fs : FileSystem) (location : Location) :
    List String → Except Fault (FileSystem × Location)
  | [] => .ok (fs, location)
  | segment :: rest =>
    let next := advance location segment
    match fs.root.at? next with
    | some (.folder _) => fs.makeFrom next rest
    | some (.file _) => .error (if rest.isEmpty then .taken else .notFolder)
    | none => (fs.putAt next (.folder [])).makeFrom next rest

/-- The folder of a path, made with those on the way where they are missing. -/
def makeFolder (fs : FileSystem) (path : String) : Except Fault (FileSystem × Location) :=
  fs.makeFrom (fs.origin path) (Text.split "/" path)

/-- The files with a text in the file of a path, its folder made where it is missing. -/
def write (fs : FileSystem) (path text : String) : Except Fault FileSystem :=
  let segments := Text.split "/" path
  match fs.makeFrom (fs.origin path) segments.dropLast with
  | .error fault => .error fault
  | .ok (fs, parent) =>
    let location := advance parent (segments.getLastD "")
    if fs.isFolderAt location then .error .isFolder
    else .ok (fs.putAt location (.file text))

end FileSystem

-- =============================================================== changes

/-- One difference between a folder and the same folder later. -/
inductive FolderChange where
  | write (name text : String)
  | remove (name : String)
deriving DecidableEq, Repr

/-- Whether a folder has a file of this text. -/
def Folder.hasText (folder : Folder) (name text : String) : Bool :=
  match folder.get? name with
  | some (.file old) => old == text
  | _ => false

/-- What to do to the files of a folder so that they are those of another. -/
def Folder.changes (before after : Folder) : List FolderChange :=
  (before.filterMap fun (name, _) => if after.has name then none else some (.remove name))
    ++ after.filterMap fun (name, tree) => match tree with
      | .file text => if before.hasText name text then none else some (.write name text)
      | .folder _ => none

end EventScript
