/-
Absolute addresses. Reading brings an address into its normal form: the scheme and the
host in lower case, the port left out where it is the usual one, dot segments resolved, and
every part percent-encoded as its place requires. `Url.pushSegment` puts text into a path
as a segment of its own.
-/
import EventScript.Http.Host

namespace EventScript.Http

/-- The path of an address. -/
inductive Url.Path where
  /-- Segments behind slashes; a path that ends with a slash has an empty last one. -/
  | segments (segments : List String)
  /-- Text without structure. -/
  | plain (text : String)
deriving DecidableEq, Repr

/-- An absolute address in normal form, its parts percent-encoded. -/
structure Url where
  scheme : String
  username : String := ""
  password : Option String := none
  host : Option Host := none
  port : Option Nat := none
  path : Url.Path
  query : Option String := none
  fragment : Option String := none
deriving DecidableEq, Repr

namespace Url

/-- The schemes whose addresses need a host, with their usual ports. -/
def hostSchemes : List (String × Nat) :=
  [("http", 80), ("https", 443), ("ws", 80), ("wss", 443), ("ftp", 21)]

/-- The scheme in front of a colon, in lower case, and the text behind it. -/
def scheme? (cs : List Char) : Option (String × List Char) :=
  let isScheme (c : Char) : Bool := c.isAlphanum || c == '+' || c == '-' || c == '.'
  match cs.takeWhile isScheme, cs.dropWhile isScheme with
  | c :: name, ':' :: rest =>
    if c.isAlpha then some (String.ofList ((c :: name).map Char.toLower), rest) else none
  | _, _ => none

-- ================================================================ segments

/-- Whether a segment means the place it stands at. -/
def isHere (s : List Char) : Bool :=
  s == ['.'] || s.map Char.toLower == ['%', '2', 'e']

/-- Whether a segment means the place above. -/
def isUp (s : List Char) : Bool :=
  let s := s.map Char.toLower
  s == ['.', '.'] || s == ['.', '%', '2', 'e'] || s == ['%', '2', 'e', '.']
    || s == ['%', '2', 'e', '%', '2', 'e']

/-- The segments with those that mean "here" and "up" resolved; `done` holds what is
resolved, last first. -/
def resolve (done : List (List Char)) : List (List Char) → List (List Char)
  | [] => done.reverse
  | [s] =>
    if isUp s then ([] :: done.tail).reverse
    else if isHere s then ([] :: done).reverse
    else (s :: done).reverse
  | s :: rest =>
    if isUp s then resolve done.tail rest
    else if isHere s then resolve done rest
    else resolve (s :: done) rest

/-- The normal form of a path written behind its first slash. -/
def pathOf (isSlash : Char → Bool) (cs : List Char) : Path :=
  let pieces := (Text.piecesAt isSlash cs).map (Percent.encode Percent.inPath)
  .segments ((resolve [] pieces).map String.ofList)

/-- A tab or a line end; addresses are read as if these were not there. -/
def isIgnored (c : Char) : Bool := c == '\t' || c == '\n' || c == '\r'

/-- The segments with one more, whose text cannot end the segment or be taken for an
encoding. The names "here" and "up" are passed over. -/
def pushSegment (segments : List String) (text : String) : List String :=
  if text = "." ∨ text = ".." then segments
  else
    let base := if segments = [""] then [] else segments
    let segment := Percent.encode Percent.inSegment (text.toList.filter fun c => !isIgnored c)
    if isUp segment then base.dropLast ++ [""]
    else if isHere segment then base ++ [""]
    else base ++ [String.ofList segment]

/-- The segments without an empty last one, unless it is the only one. -/
def dropEmptyLast (segments : List String) : List String :=
  match segments with
  | _ :: _ :: _ => if segments.getLast? = some "" then segments.dropLast else segments
  | _ => segments

-- =============================================================== authority

/-- User name and password in front of the last at sign, and what follows it. -/
def userinfo (cs : List Char) : String × Option String × List Char :=
  if cs.contains '@' then
    let host := (cs.reverse.takeWhile (· != '@')).reverse
    let user := (cs.reverse.dropWhile (· != '@')).tail.reverse
    let encoded (cs : List Char) : String := String.ofList (Percent.encode Percent.inUserinfo cs)
    let password := (user.dropWhile (· != ':')).tail
    (encoded (user.takeWhile (· != ':')),
      if password.isEmpty then none else some (encoded password), host)
  else ("", none, cs)

/-- The host in front of a colon outside brackets, and what follows it. -/
def splitHost (bracketed : Bool) : List Char → List Char × List Char
  | [] => ([], [])
  | c :: rest =>
    if c == ':' && !bracketed then ([], c :: rest)
    else
      let bracketed := if c == '[' then true else if c == ']' then false else bracketed
      let (host, after) := splitHost bracketed rest
      (c :: host, after)

/-- The port behind a colon; none when there is no digit or it is the usual one. -/
def port? (usual : Option Nat) : List Char → Option (Option Nat)
  | [] => some none
  | [_] => some none
  | _ :: digits => match Text.digitsFrom? 10 0 digits with
    | some n => if n < 0x10000 then some (if some n = usual then none else some n) else none
    | none => none

-- ================================================================= reading

/-- What stands at either end of an address without being part of it. -/
private def isEdge (c : Char) : Bool := c.toNat ≤ 0x20

/-- Query and fragment of the text behind the path. -/
def tailParts (cs : List Char) : Option String × Option String :=
  let query := (cs.takeWhile (· != '#')).tail
  let fragment := (cs.dropWhile (· != '#')).tail
  let encoded (set : Char → Bool) (cs : List Char) : String :=
    String.ofList (Percent.encode set cs)
  (if cs.head? = some '?' then some (encoded Percent.inQuery query) else none,
    if cs.contains '#' then some (encoded Percent.inFragment fragment) else none)

/-- The characters before and after the first that ends a part. -/
private def cut (ends : Char → Bool) (cs : List Char) : List Char × List Char :=
  (cs.takeWhile fun c => !ends c, cs.dropWhile fun c => !ends c)

/-- What ends a path: the mark of a query or of a fragment. -/
private def endsPath (c : Char) : Bool := c == '?' || c == '#'

/-- An address of a scheme that needs a host. -/
def withHost? (scheme : String) (usual : Nat) (cs : List Char) : Option Url := do
  let isSlash (c : Char) : Bool := c == '/' || c == '\\'
  let (authority, rest) := cut (fun c => isSlash c || endsPath c) (cs.dropWhile isSlash)
  let (username, password, place) := userinfo authority
  let (name, after) := splitHost false place
  let host ← if name.isEmpty then none else Host.parse? name
  let port ← port? (some usual) after
  let (path, tail) := cut endsPath rest
  let (query, fragment) := tailParts tail
  return { scheme, username, password, host := some host, port,
           path := pathOf isSlash path.tail, query, fragment }

/-- An address of any other scheme. Its host is taken as it stands. So are the addresses of
files read, which the standard for addresses treats apart: here they have no drive letters, a
backslash is no slash in them, `localhost` is a host like any other, and one without a host is
written with a single slash, `file:///tmp/x` as `file:/tmp/x`. -/
def plain? (scheme : String) (cs : List Char) : Option Url := do
  let (body, tail) := cut endsPath cs
  let (query, fragment) := tailParts tail
  match body with
  | '/' :: '/' :: rest =>
    let (authority, path) := cut (· == '/') rest
    let (username, password, place) := userinfo authority
    let (name, after) := splitHost false place
    let port ← port? none after
    if name.any Host.isForbidden && name.head? ≠ some '[' then none
    else
      let host := if name.isEmpty then none else some (Host.domain (String.ofList name))
      return { scheme, username, password, host, port,
               path := match path with
                 | [] => .segments []
                 | _ :: path => pathOf (· == '/') path
               query, fragment }
  | '/' :: path => return { scheme, path := pathOf (· == '/') path, query, fragment }
  | _ =>
    if scheme = "file" then
      return { scheme, path := pathOf (· == '/') body, query, fragment }
    else
      let text := String.ofList (Percent.encode Percent.controls body)
      return { scheme, path := .plain text, query, fragment }

/-- The address that a text spells. -/
def parse? (s : String) : Option Url := do
  let trimmed := ((s.toList.dropWhile isEdge).reverse.dropWhile isEdge).reverse
  let (scheme, rest) ← scheme? (trimmed.filter fun c => !isIgnored c)
  match hostSchemes.lookup scheme with
  | some usual => withHost? scheme usual rest
  | none => plain? scheme rest

-- ================================================================= writing

/-- The path as it stands in an address. -/
def Path.write : Path → String
  | segments ss => String.join (ss.map fun s => "/" ++ s)
  | plain text => text

/-- The address as text. -/
def write (u : Url) : String :=
  let login := match u.username, u.password with
    | "", none => ""
    | name, none => name ++ "@"
    | name, some password => name ++ ":" ++ password ++ "@"
  let authority := match u.host with
    | some host => "//" ++ login ++ host.write ++ (match u.port with
      | some n => ":" ++ toString n
      | none => "")
    | none => ""
  let optional (mark : String) : Option String → String
    | some s => mark ++ s
    | none => ""
  u.scheme ++ ":" ++ authority ++ u.path.write ++ optional "?" u.query
    ++ optional "#" u.fragment

/-- The address with a pair added to its query. -/
def addQuery (u : Url) (name value : String) : Url :=
  let pair := name ++ "=" ++ value
  { u with query := match u.query with
    | none => some pair
    | some "" => some pair
    | some query => some (query ++ "&" ++ pair) }

end Url
end EventScript.Http
