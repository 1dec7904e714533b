import HttpServer.Message.Response
import HttpServer.Site.FileTree
import HttpServer.Site.Routes

/-!
# A site

A site is a directory of files together with its routes. `answer` builds the response to a request.

Unless the code is settled, a handler for the target is asked first. If it succeeds, what it wrote is
the body; if it fails, nothing of that is sent. Without a handler the file of the target, or of its
alias, decides: what names no file is a bad request, and a file that others may not read is
forbidden. For the three codes that have a page, the page takes the place of the file. Where no file
can be opened the body is a generated page.

Only the directory's own files can be reached: a target that climbs is refused, and any other is
taken below the directory.
-/

namespace HttpServer

/-- A directory of files, and routes. -/
structure Site where
  root : Bytes
  routes : Routes

namespace Site

/-- The path of the file for a target; `none` for a target that climbs. -/
def resolve? (s : Site) (target : Bytes) : Option Bytes :=
  let p := Path.relative target
  if Path.climbs p then none else some (Path.join s.root p)

/-- What can be said of a target's file before it is opened. -/
inductive Availability where
  | readable
  | forbidden
  | missing
deriving DecidableEq, Repr

/-- The permission bit that lets others read. -/
def othersRead : Nat := 0o4

/-- Whether the permissions let others read. -/
def worldReadable (mode : Nat) : Bool :=
  mode &&& othersRead != 0

/-- What can be said of a target's file. -/
def availability (s : Site) (files : FileTree) (target : Bytes) : Availability :=
  match s.resolve? target with
  | none => .missing
  | some path =>
    match files.stat path with
    | .ok (.file f) => if worldReadable f.mode then .readable else .forbidden
    | _ => .missing

/-- A target's file. -/
def open? (s : Site) (files : FileTree) (target : Bytes) : Option File :=
  (s.resolve? target).bind fun path => (files.file path).toOption

/-- The attachment of a file; an empty one is not attached. -/
def attachmentOf (f : File) : Option Attachment :=
  if f.data = [] then none else some ⟨f.serial, f.data⟩

/-- A handler was asked. -/
structure Call where
  path : Bytes
  request : Request

/-- A response as it was built. -/
structure Answer where
  /-- The head and, unless a file is attached, the body. -/
  text : Bytes
  response : Response
  /-- The handler that was asked for it. -/
  call : Option Call

/-- The code that a target's file decides. A readable file leaves a settled code as it is. -/
def codeOf (a : Availability) (settled : Option Nat) : Nat :=
  match a with
  | .missing => Status.badRequest.code
  | .forbidden => Status.forbidden.code
  | .readable => settled.getD Status.ok.code

/-- The page that takes the place of the file for a code. -/
def pageOf? (code : Nat) : Option Bytes :=
  (Status.ofCode? code).bind Status.page?

/-- Builds the rest once the code of the response is settled. -/
def conclude (s : Site) (files : FileTree) (r : Response) : Bytes × Response :=
  let code := r.code.getD Status.badRequest.code
  let page := pageOf? code
  let status := Response.statusOf (some code)
  let r := { r with target := page.getD r.target, code := some status.code }
  if code ≠ Status.ok.code ∧ page = none then
    (r.head ++ Response.withLength (Response.generatedPage status .incomplete), r)
  else
    match s.open? files r.target with
    | none => (r.head ++ Response.withLength (Response.generatedPage status .noFile), r)
    | some f =>
      (r.head ++ Response.lengthLine f.data.length, { r with attached := attachmentOf f })

/-- The handler that is asked: the target's own, while the code is open. -/
def handlerFor? (s : Site) (r : Response) : Option Handler :=
  match r.code with
  | none => s.routes.handler? r.target
  | some _ => none

/-- The response with its target replaced by the alias and its code decided by the file. -/
def locate (s : Site) (files : FileTree) (r : Response) : Response :=
  let target := (s.routes.alias? r.target).getD r.target
  { r with target := target, code := some (codeOf (s.availability files target) r.code) }

/-- Builds the response to a request. -/
def answer (s : Site) (files : FileTree) (request : Request) (response : Response) : Answer :=
  let r := response.detach
  match s.handlerFor? r with
  | some h =>
    let reply := h request
    let call := some ⟨r.target, request⟩
    if reply.succeeded then
      let r := { r with code := some Status.ok.code }
      ⟨r.head ++ Response.withLength reply.written, r, call⟩
    else
      let (text, r) := s.conclude files { r with code := some Status.internalError.code }
      ⟨text, r, call⟩
  | none =>
    let (text, r) := s.conclude files (s.locate files r)
    ⟨text, r, none⟩

section Answer

variable {s : Site} {response : Response} {h : Handler} {request : Request}

theorem answer_of_succeeded (hh : s.handlerFor? response.detach = some h)
    (hs : (h request).succeeded = true) (files : FileTree) :
    s.answer files request response =
      let r := { response.detach with code := some Status.ok.code }
      ⟨r.head ++ Response.withLength (h request).written, r, some ⟨response.target, request⟩⟩ := by
  unfold answer
  simp only [hh, hs, if_true]
  rfl

theorem answer_of_failed (hh : s.handlerFor? response.detach = some h)
    (hs : (h request).succeeded = false) (files : FileTree) :
    s.answer files request response =
      let r := { response.detach with code := some Status.internalError.code }
      ⟨(s.conclude files r).1, (s.conclude files r).2, some ⟨response.target, request⟩⟩ := by
  unfold answer
  simp only [hh, hs, Bool.false_eq_true, if_false]
  rfl

theorem answer_of_none (hh : s.handlerFor? response.detach = none) (files : FileTree) :
    s.answer files request response =
      let r := s.locate files response.detach
      ⟨(s.conclude files r).1, (s.conclude files r).2, none⟩ := by
  unfold answer
  simp only [hh]

/-- A handler is asked for a response exactly if there is one to be asked. -/
theorem isSome_call_answer (s : Site) (files : FileTree) (request : Request) (response : Response) :
    (s.answer files request response).call.isSome = (s.handlerFor? response.detach).isSome := by
  cases hh : s.handlerFor? response.detach with
  | none =>
      rw [answer_of_none hh]
      rfl
  | some h =>
      cases hs : (h request).succeeded with
      | true =>
          rw [answer_of_succeeded hh hs]
          rfl
      | false =>
          rw [answer_of_failed hh hs]
          rfl

end Answer

/-- The response with its attached file as it stands in the tree now. -/
def refresh (files : FileTree) (r : Response) : Response :=
  { r with
    attached := r.attached.map fun a =>
      match files.fileOfSerial? a.serial with
      | some f => a.overwrite f.data
      | none => a }

end Site

end HttpServer
