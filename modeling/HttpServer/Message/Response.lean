import HttpServer.Message.MediaType
import HttpServer.Message.Status

/-!
# Responses

A response begins as an intention: a target, whether to keep the connection, and perhaps a code that
was settled beforehand. Building it settles the code, may replace the target, and may attach the
content of a file, which is sent behind the head without being copied into it.

A file stays attached as it was long when it was attached, and shows what is written to it later: the
part that it has since lost reads as zeros.

The head is the status line and the header lines down to the content type. The length of the body
and the empty line follow it, so that the length can be counted first.
-/

namespace HttpServer

/-- A file whose content follows a head. -/
structure Attachment where
  /-- The serial number of the file. -/
  serial : Nat
  data : Bytes
deriving DecidableEq, Repr

namespace Attachment

/-- What an attached file shows after it was overwritten with `content`. -/
def overwrite (a : Attachment) (content : Bytes) : Attachment :=
  { a with data := (content ++ List.replicate a.data.length 0).take a.data.length }

@[simp] theorem length_overwrite (a : Attachment) (content : Bytes) :
    (a.overwrite content).data.length = a.data.length := by
  simp [overwrite]

end Attachment

/-- A response of one connection. -/
structure Response where
  code : Option Nat
  keepAlive : Bool
  target : Bytes
  /-- The content of the file that follows the head. -/
  attached : Option Attachment
deriving DecidableEq, Repr

namespace Response

/-- No response yet. -/
def blank : Response :=
  ⟨none, false, [], none⟩

instance : Inhabited Response := ⟨blank⟩

/-- Prepares for a target. A code that is given here outlives a file that is found. -/
def begin (r : Response) (target : Bytes) (keepAlive : Bool) (code : Option Nat) : Response :=
  { r with code := code, keepAlive := keepAlive, target := target }

/-- The content of the file that follows the head. -/
def fileBytes (r : Response) : Bytes :=
  match r.attached with
  | some a => a.data
  | none => []

/-- Lets go of the file. -/
def detach (r : Response) : Response :=
  { r with attached := none }

/-- The status that is reported for a code: an unknown one is a bad request. -/
def statusOf (code : Option Nat) : Status :=
  (code.bind Status.ofCode?).getD .badRequest

/-- The line break at the end of a head line. -/
def endLine (text : Bytes) : Bytes :=
  text ++ Bytes.crlf

/-- The status line. -/
def statusLine (s : Status) : Bytes :=
  endLine (Bytes.ascii "HTTP/1.1 " ++ Bytes.decimal s.code ++ Bytes.ascii (" " ++ s.reason))

/-- The lines that say whether the connection is kept. -/
def connectionLines (keepAlive : Bool) : Bytes :=
  if keepAlive then
    endLine (Bytes.ascii "Connection: keep-alive") ++
      endLine (Bytes.ascii "Keep-Alive: max=6, timeout=120")
  else endLine (Bytes.ascii "Connection: close")

/-- The line that announces the type of the body. -/
def typeLine (target : Bytes) : Bytes :=
  endLine (Bytes.ascii ("Content-Type: " ++ MediaType.ofTarget target))

/-- The line that announces the length of the body, and the end of the head. -/
def lengthLine (length : Nat) : Bytes :=
  endLine (endLine (Bytes.ascii "Content-Length: " ++ Bytes.decimal length))

/-- The head down to the content type. -/
def head (r : Response) : Bytes :=
  statusLine (statusOf r.code) ++ connectionLines r.keepAlive ++ typeLine r.target

/-- Why a generated page is served. -/
inductive PageReason where
  | incomplete
  | noFile
deriving DecidableEq, Repr

namespace PageReason

/-- The wording on the page. -/
def message : PageReason → String
  | incomplete => "The request could not be completed."
  | noFile => "File Not Found."

end PageReason

/-- The page that is generated where no file can be served. -/
def generatedPage (s : Status) (why : PageReason) : Bytes :=
  Bytes.ascii "<html><title>Error</title><body bgcolor=\"ffffff\">" ++ Bytes.decimal s.code ++
    Bytes.ascii (" : " ++ s.reason ++ "\n<p>" ++ why.message ++
      "</p><hr><em>reactor-httpd</em></body></html>")

/-- A body behind its length. -/
def withLength (body : Bytes) : Bytes :=
  lengthLine body.length ++ body

@[simp] theorem fileBytes_detach (r : Response) : r.detach.fileBytes = [] := rfl

@[simp] theorem statusOf_code (s : Status) : statusOf (some s.code) = s := by
  simp [statusOf]

end Response

end HttpServer
