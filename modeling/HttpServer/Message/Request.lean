import HttpServer.Json.Reader
import HttpServer.Text.Blank
import HttpServer.Text.Numeral

/-!
# Requests

A request as it stands in a message: method, target and version from the start line, headers by
their exact names, and a body, which is also kept as a tree when the request says that it is JSON.

Header names are compared byte by byte. Where a header is known under two spellings, the first one
wins.
-/

namespace HttpServer

/-- A request. All of it but the body is text. -/
structure Request where
  method : Bytes
  target : Bytes
  /-- What follows the name of the protocol, such as `1.1`. -/
  version : Bytes
  headers : Table Bytes
  body : Bytes
  json : Option Json

namespace Request

/-- The request of which nothing has arrived. -/
def blank : Request :=
  ⟨[], [], [], Table.empty, [], none⟩

instance : Inhabited Request := ⟨blank⟩

/-- A request for a target, without headers or a body. -/
def ofTarget (method target : Bytes) : Request :=
  { blank with method := method, target := target, version := Bytes.ascii "1.1" }

/-- Sets a header, replacing the one of that name. -/
def setHeader (r : Request) (name value : Bytes) : Request :=
  { r with headers := r.headers.insert name value }

/-- The header of a name. -/
def header? (r : Request) (name : Bytes) : Option Bytes :=
  r.headers.find? name

/-- The target up to its query. -/
def path (r : Request) : Bytes :=
  r.target.takeWhile (· != Bytes.question)

/-- The request carries a body. -/
def isPost (r : Request) : Bool :=
  r.method == Bytes.ascii "POST" || r.method == Bytes.ascii "post"

/-- The client asks to keep the connection. -/
def isKeepAlive (r : Request) : Bool :=
  r.header? (Bytes.ascii "Connection") == some (Bytes.ascii "keep-alive")

/-- The body is announced as JSON. -/
def isJson (r : Request) : Bool :=
  r.header? (Bytes.ascii "Content-Type") == some (Bytes.ascii "application/json") ||
    r.header? (Bytes.ascii "content-type") == some (Bytes.ascii "application/json")

/-- The value of a member of the JSON body. -/
def jsonField? (r : Request) (key : Bytes) : Option Json :=
  r.json.bind (Json.field? key)

/-- The announced length of the body, as it is written. -/
def lengthText? (r : Request) : Option Bytes :=
  (r.header? (Bytes.ascii "Content-Length")).or (r.header? (Bytes.ascii "content-length"))

/-- The largest length that can be announced. -/
def greatestLength : Nat := 18446744073709551615

/-- The number that a text stands for: digits, perhaps behind a plus sign, of a value that fits in
64 bits. -/
def countOf? (cs : List Char) : Option Nat :=
  Numeral.below? (greatestLength + 1) 10 <|
    match cs with
    | '+' :: ds => ds
    | ds => ds

/-- The length that a header's value announces, blanks around it aside. -/
def lengthOf? (value : Bytes) : Option Nat :=
  countOf? (trimBlank (Utf8.lossy value))

/-- The announced length of the body. -/
def length? (r : Request) : Option Nat :=
  r.lengthText?.bind lengthOf?

@[simp] theorem header?_setHeader (r : Request) (name value n : Bytes) :
    (r.setHeader name value).header? n = if n = name then some value else r.header? n := by
  simp [header?, setHeader]

end Request

end HttpServer
