/-
Requests as they are sent: a method, an address, headers and a JSON body. A draft is what an
instruction asks for; it becomes a request when its address can be reached over HTTP and
its headers can be written.
-/
import EventScript.Http.Url
import EventScript.Json.Printer
import EventScript.Text.Split

-- =============================================================== base 64

namespace EventScript.Text.Base64

/-- The character for a value below 64. -/
def digit (n : Nat) : Char :=
  if n < 26 then Char.ofNat (0x41 + n)
  else if n < 52 then Char.ofNat (0x61 + (n - 26))
  else if n < 62 then Char.ofNat (0x30 + (n - 52))
  else if n = 62 then '+'
  else '/'

/-- Bytes as text in base 64: three of them make four characters, and the last group is padded
to as many. -/
def encode : List UInt8 → List Char
  | [] => []
  | [a] =>
    let n := a.toNat * 65536
    [digit (n / 262144), digit (n / 4096 % 64), '=', '=']
  | [a, b] =>
    let n := a.toNat * 65536 + b.toNat * 256
    [digit (n / 262144), digit (n / 4096 % 64), digit (n / 64 % 64), '=']
  | a :: b :: c :: rest =>
    let n := a.toNat * 65536 + b.toNat * 256 + c.toNat
    digit (n / 262144) :: digit (n / 4096 % 64) :: digit (n / 64 % 64) :: digit (n % 64)
      :: encode rest

end EventScript.Text.Base64

namespace EventScript.Http

-- =============================================================== requests

/-- The methods that carry a body here. -/
inductive Method where
  | post
  | put
  | patch
deriving DecidableEq, Repr

namespace Method

/-- Every method. -/
def all : List Method := [post, put, patch]

/-- The method as a request names it. -/
def name : Method → String
  | post => "POST"
  | put => "PUT"
  | patch => "PATCH"

end Method

/-- A header, its name in lower case. -/
abbrev Header := String × String

/-- A request on its way. -/
structure Request where
  method : Method
  url : Url
  /-- In the order they were added. -/
  headers : List Header
  body : Json

namespace Request

/-- Why a request cannot be built. -/
inductive Fault where
  | url (text : String)
  | header (name : String)
deriving DecidableEq, Repr

/-- The fault in words. -/
def Fault.message : Fault → String
  | url text => "builder error: invalid URL '" ++ text ++ "'"
  | header name => "builder error: invalid header '" ++ name ++ "'"

-- ================================================================= headers

/-- A character of a header's name. -/
def isTokenChar (c : Char) : Bool :=
  c.isAlphanum || "!#$%&'*+-.^_\x60|~".toList.contains c

/-- A character of a header's value: nothing that would end the line. -/
def isValueChar (c : Char) : Bool :=
  c == '\t' || (0x20 ≤ c.toNat && c.toNat != 0x7F)

/-- A value as it arrives: blanks around it do not count. -/
def received (value : String) : String :=
  let isSpace (c : Char) : Bool := c == ' ' || c == '\t'
  String.ofList ((value.toList.dropWhile isSpace).reverse.dropWhile isSpace).reverse

/-- The header of a name and a value, when both can be written. -/
def header (name value : String) : Except Fault Header :=
  if name.isEmpty || !name.toList.all isTokenChar || !value.toList.all isValueChar then
    .error (.header name)
  else .ok (String.ofList (name.toList.map Char.toLower), received value)

/-- The header that proves who asks, by a token. -/
def bearer (token : String) : Except Fault Header :=
  header "authorization" ("Bearer " ++ token)

/-- The header that proves who asks, by name and password. -/
def basic (user : String) (password : Option String) : Header :=
  let pair := user ++ ":" ++ password.getD ""
  ("authorization", "Basic " ++ String.ofList (Text.Base64.encode pair.toUTF8.toList))

-- ================================================================ building

/-- The host in a form that can be sent. -/
private def isSendable : Option Host → Bool
  | some (.domain name) => name.toList.all fun c => !"\"\x60\x7b\x7d".toList.contains c
  | some _ => true
  | none => false

/-- Name and password taken out of an address, as a header. -/
def login (u : Url) : List Header × Url :=
  let user := Percent.decode? u.username.toList
  let password := u.password.bind fun p => Percent.decode? p.toList
  match user with
  | none => ([], u)
  | some user =>
    if user.isEmpty && password.isNone then ([], u)
    else ([basic user password], { u with username := "", password := none })

/-- The request of a method to an address with a JSON body and further headers. Only HTTP
addresses can be reached. -/
def build (method : Method) (u : Url) (body : Json) (further : List (Except Fault Header)) :
    Except Fault Request :=
  if (u.scheme == "http" || u.scheme == "https") && isSendable u.host then do
    let further ← further.mapM id
    let (login, url) := login u
    return { method, url, body,
             headers := login ++ [("content-type", "application/json")] ++ further }
  else .error (.url u.write)

/-- The address as the receiver sees it. -/
def target (r : Request) : String := { r.url with fragment := none }.write

/-- The headers by name; those of one name stay in their order. -/
def headersByName (r : Request) : List Header :=
  r.headers.mergeSort fun a b => !(b.1 < a.1)

end Request
end EventScript.Http
