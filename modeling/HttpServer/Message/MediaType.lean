import HttpServer.Site.Path

/-!
# Content types

The type announced for a target hangs on its extension alone, by an exact match in a fixed table.
Anything else, a missing extension included, is plain text.
-/

namespace HttpServer

namespace MediaType

/-- The type of a target that the table does not name. -/
def plain : String := "text/plain"

/-- The types by extension. -/
def table : List (String × String) :=
  [("html", "text/html"),
   ("xml", "text/xml"),
   ("xhtml", "application/xhtml+xml"),
   ("txt", "text/plain"),
   ("rtf", "application/rtf"),
   ("pdf", "application/pdf"),
   ("word", "application/nsword"),
   ("png", "image/png"),
   ("gif", "image/gif"),
   ("jpg", "image/jpeg"),
   ("jpeg", "image/jpeg"),
   ("au", "audio/basic"),
   ("mpeg", "video/mpeg"),
   ("mpg", "video/mpeg"),
   ("avi", "video/x-msvideo"),
   ("gz", "application/x-gzip"),
   ("tar", "application/x-tar"),
   ("css", "text/css"),
   ("js", "text/javascript")]

/-- The type for an extension. -/
def ofExtension (ext : Bytes) : String :=
  match table.find? fun row => Bytes.ascii row.1 == ext with
  | some row => row.2
  | none => plain

/-- The type announced for a target. -/
def ofTarget (target : Bytes) : String :=
  match Path.extension? target with
  | some ext => ofExtension ext
  | none => plain

end MediaType

end HttpServer
