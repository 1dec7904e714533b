import HttpServer.Proofs.Site.Selection

/-!
# Which type is announced for a body

The type in the head of a response is that of the name under which it is sent, and this name is
settled before it is known what the body will be. `Source` lists what it can be, and what type is
announced for it; `Supplies` says which source a request leads to.

A file is announced by the name that it is asked for, which the root stands in front of once it is
opened. Both end in the same name, since a path that ends in none leads to a directory at best
(`ofTarget_eq_of_file`). A generated page is announced as HTML where it takes the place of another
page, and under the type of the name that was asked for where it does not.
-/

namespace HttpServer

namespace Site

open Message

/-- Where the body of a response comes from. -/
inductive Source where
  /-- The handler of a target wrote it. -/
  | handler (target written : Bytes)
  /-- It is the file that is opened under a path. -/
  | file (path : Bytes) (f : File)
  /-- It is generated, since there is no file for the page of a status. -/
  | pageless (status : Status)
  /-- It is generated in answer to a name, for a code that has no page. -/
  | generated (name : Bytes) (status : Status) (why : Response.PageReason)

namespace Source

def body : Source → Bytes
  | handler _ written => written
  | file _ f => f.data
  | pageless status => Response.generatedPage status .noFile
  | generated _ status why => Response.generatedPage status why

/-- The type that is announced. -/
def type : Source → String
  | handler target _ => MediaType.ofTarget target
  | file path _ => MediaType.ofTarget path
  | pageless _ => "text/html"
  | generated name _ _ => MediaType.ofTarget name

end Source

section Rows

/-- The source of the body for a code, where the file of a name was looked at. -/
inductive Yields (s : Site) (files : FileTree) (name : Bytes) (code : Nat) : Source → Prop where
  | file {path : Bytes} {f : File} : code = Status.ok.code → s.resolve? name = some path →
      files.file path = .ok f → Yields s files name code (.file path f)
  | unopened : code = Status.ok.code → (∀ f, ¬s.Opened files name f) →
      Yields s files name code (.generated name .ok .noFile)
  | page {status : Status} {page path : Bytes} {f : File} : code = status.code →
      status.page? = some page → s.resolve? page = some path → files.file path = .ok f →
      Yields s files name code (.file path f)
  | noPage {status : Status} {page : Bytes} : code = status.code → status.page? = some page →
      (∀ f, ¬s.Opened files page f) → Yields s files name code (.pageless status)
  | internalError : code = Status.internalError.code →
      Yields s files name code (.generated name .internalError .incomplete)
  /-- The code is none of those that can be reported. -/
  | unknown : Status.ofCode? code = none →
      Yields s files name code (.generated name .badRequest .incomplete)

/-- The source of the body for a target, where `settled` was settled before. -/
inductive Supplies (s : Site) (files : FileTree) (request : Request) (target : Bytes)
    (settled : Option Nat) : Source → Prop where
  | handled {h : Handler} : settled = none → s.routes.handler? target = some h →
      (h request).succeeded = true →
      Supplies s files request target settled (.handler target (h request).written)
  | failed {h : Handler} : settled = none → s.routes.handler? target = some h →
      (h request).succeeded = false →
      Supplies s files request target settled (.generated target .internalError .incomplete)
  | located {code : Nat} {source : Source} : (settled = none → s.routes.handler? target = none) →
      Decides s files (s.nameOf target) settled code →
      Yields s files (s.nameOf target) code source →
      Supplies s files request target settled source

end Rows

section Files

variable {s : Site} {files : FileTree} {name path : Bytes} {f : File}

theorem opened_iff_file :
    s.Opened files name f ↔ ∃ path, s.resolve? name = some path ∧ files.file path = .ok f := by
  rw [opened_iff, open?, Option.bind_eq_some_iff]
  refine exists_congr fun path => and_congr_right fun _ => ?_
  cases files.file path with
  | error e => exact ⟨nofun, nofun⟩
  | ok g => exact Option.some_inj.trans (iff_of_eq (Except.ok.injEq g f)).symm

/-- A name that leads to a file has components. -/
theorem components_ne_nil_of_stat (hpath : s.resolve? name = some path)
    (hstat : files.stat path = .ok (.file f)) : Path.components name ≠ [] := by
  obtain ⟨rfl, -⟩ := eq_of_resolve? hpath
  obtain ⟨front, hpieces, -⟩ :=
    Path.exists_pieces_append_separator s.root (Path.relative name)
  have hne := Path.pieces_ne_nil (Path.relative name)
  have hlast : (Path.pieces (s.root ++ Path.separator s.root ++ Path.relative name)).getLast? =
      some ((Path.pieces (Path.relative name)).getLast hne) := by
    rw [hpieces, List.getLast?_append, List.getLast?_eq_some_getLast hne]
    rfl
  have hmoves := FileTree.moves_of_stat_file hstat hlast
  rw [← Path.components_relative]
  refine List.ne_nil_of_mem (a := (Path.pieces (Path.relative name)).getLast hne) ?_
  rw [Path.components, List.mem_filter]
  exact ⟨List.getLast_mem hne, decide_eq_true hmoves⟩

/-- A file has the same extension under the name that is asked for and under the path that is
opened. -/
theorem ofTarget_eq_of_file (hpath : s.resolve? name = some path)
    (hfile : files.file path = .ok f) : MediaType.ofTarget name = MediaType.ofTarget path := by
  have hopened : s.Opened files name f := opened_iff_file.2 ⟨path, hpath, hfile⟩
  obtain ⟨⟨path', hpath', hstat⟩, -⟩ := hopened
  have hcomponents := (eq_of_resolve? hpath').2
  cases hpath.symm.trans hpath'
  unfold MediaType.ofTarget
  rw [Path.extension?_eq_of_components hcomponents (components_ne_nil_of_stat hpath hstat)]

theorem ofTarget_page {status : Status} {page : Bytes} (h : status.page? = some page) :
    MediaType.ofTarget page = "text/html" := by
  revert h
  cases status with
  | ok => exact nofun
  | internalError => exact nofun
  | _ =>
      rintro ⟨⟩
      decide +kernel

end Files

section Tables

variable {s : Site} {files : FileTree} {name : Bytes} {code : Nat} {request : Request}
  {target : Bytes} {settled : Option Nat} {source : Source}

/-- The source of a body is what covers its code, under a name of the type that is announced. -/
theorem Yields.covers (h : Yields s files name code source) :
    ∃ status name', Covers s files name code status name' source.body ∧
      MediaType.ofTarget name' = source.type := by
  cases h with
  | file hcode hpath hfile =>
      exact ⟨_, _, .file hcode (opened_iff_file.2 ⟨_, hpath, hfile⟩),
        ofTarget_eq_of_file hpath hfile⟩
  | unopened hcode hunopened => exact ⟨_, _, .unopened hcode hunopened, rfl⟩
  | page hcode hpage hpath hfile =>
      exact ⟨_, _, .page hcode hpage (opened_iff_file.2 ⟨_, hpath, hfile⟩),
        ofTarget_eq_of_file hpath hfile⟩
  | noPage hcode hpage hunopened => exact ⟨_, _, .noPage hcode hpage hunopened, ofTarget_page hpage⟩
  | internalError hcode => exact ⟨_, _, .internalError hcode, rfl⟩
  | unknown hcode => exact ⟨_, _, .unknown hcode, rfl⟩

theorem Covers.exists_yields {status : Status} {name' body : Bytes}
    (h : Covers s files name code status name' body) : ∃ source, Yields s files name code source := by
  cases h with
  | file hcode hopened =>
      obtain ⟨path, hpath, hfile⟩ := opened_iff_file.1 hopened
      exact ⟨_, .file hcode hpath hfile⟩
  | unopened hcode hunopened => exact ⟨_, .unopened hcode hunopened⟩
  | page hcode hpage hopened =>
      obtain ⟨path, hpath, hfile⟩ := opened_iff_file.1 hopened
      exact ⟨_, .page hcode hpage hpath hfile⟩
  | noPage hcode hpage hunopened => exact ⟨_, .noPage hcode hpage hunopened⟩
  | internalError hcode => exact ⟨_, .internalError hcode⟩
  | unknown hcode => exact ⟨_, .unknown hcode⟩

theorem Supplies.selects (h : Supplies s files request target settled source) :
    ∃ e, Selects s files request target settled e ∧ e.body = source.body ∧
      MediaType.ofTarget e.name = source.type := by
  cases h with
  | handled hnone hh hs => exact ⟨_, .handled hnone hh hs, rfl, rfl⟩
  | failed hnone hh hs => exact ⟨_, .failed hnone hh hs, rfl, rfl⟩
  | located hunasked hdecides hyields =>
      obtain ⟨status, name', hcovers, htype⟩ := hyields.covers
      exact ⟨_, .located hunasked hdecides hcovers, rfl, htype⟩

/-- Every request leads to some source. -/
theorem exists_supplies (s : Site) (files : FileTree) (request : Request) (target : Bytes)
    (settled : Option Nat) : ∃ source, Supplies s files request target settled source := by
  obtain ⟨e, hselects⟩ := exists_selects s files request target settled
  cases hselects with
  | handled hnone hh hs => exact ⟨_, .handled hnone hh hs⟩
  | failed hnone hh hs => exact ⟨_, .failed hnone hh hs⟩
  | located hunasked hdecides hcovers =>
      obtain ⟨source, hyields⟩ := hcovers.exists_yields
      exact ⟨source, .located hunasked hdecides hyields⟩

end Tables

section Announced

/-- An answer has a body, of which part stands behind the head, or the whole is attached, and the
head has one line for the type of it. -/
def Announces (a : Answer) (body : Bytes) (type : String) : Prop :=
  ∃ status fields inline,
    Framed a.text (statusText status :: fields) inline ∧
    inline ++ a.response.fileBytes = body ∧
    fieldValues (Bytes.ascii "Content-Type") fields = [Bytes.ascii type]

/-- No more than one type is announced. -/
theorem Announces.ascii_eq {a : Answer} {body body' : Bytes} {type type' : String}
    (h : Announces a body type) (h' : Announces a body' type') :
    Bytes.ascii type = Bytes.ascii type' := by
  obtain ⟨status, fields, inline, hframed, -, hvalues⟩ := h
  obtain ⟨status', fields', inline', hframed', -, hvalues'⟩ := h'
  have hlines := (hframed.unique hframed' (List.cons_ne_nil _ _) (List.cons_ne_nil _ _)).1
  rw [(List.cons.inj hlines).2, hvalues'] at hvalues
  exact (List.cons.inj hvalues).1.symm

/-- The type that is announced is that of the name. -/
theorem Shows.announces {a : Answer} {keepAlive : Bool} {e : Ending} (h : Shows a keepAlive e) :
    Announces a e.body (MediaType.ofTarget e.name) := by
  obtain ⟨htarget, inline, hwritten, hbody⟩ := h.shown
  refine ⟨e.status, _, inline, hwritten.framed, hbody, ?_⟩
  rw [fieldValues_contentType, htarget]

theorem Supplies.announces {s : Site} {files : FileTree} {request : Request} {target : Bytes}
    {settled : Option Nat} {source : Source}
    (h : Supplies s files request target settled source) (left : Response) (keepAlive : Bool) :
    Announces (s.answer files request (left.begin target keepAlive settled)) source.body
      source.type := by
  obtain ⟨e, hselects, hbody, htype⟩ := h.selects
  rw [← hbody, ← htype]
  exact (hselects.shows left keepAlive).announces

/-- Whatever a response was before, some source supplies its body, and its head announces the type
for that source: for what a handler wrote that of the target, for a file that of the path it is
opened under, for a generated page in place of another one HTML, and for any other generated page,
which is no less HTML, that of the name that was asked for. -/
theorem answer_announced (s : Site) (files : FileTree) (request : Request) (left : Response)
    (target : Bytes) (keepAlive : Bool) (settled : Option Nat) :
    (∃ source, Supplies s files request target settled source) ∧
      ∀ source, Supplies s files request target settled source →
        Announces (s.answer files request (left.begin target keepAlive settled)) source.body
          source.type :=
  ⟨exists_supplies s files request target settled, fun _ h => h.announces left keepAlive⟩

/-- A site with one handler, which fails. -/
def faltering : Site :=
  ⟨Bytes.ascii "/srv",
    Routes.empty.addHandler (Bytes.ascii "/fail") (.constant false (Bytes.ascii "partial"))⟩

/-- The page that takes the place of what a handler wrote is announced as plain text. -/
theorem announces_faltering :
    let a := faltering.answer .empty Request.blank (ask "/fail")
    let page := Response.generatedPage .internalError .incomplete
    Announces a page "text/plain" ∧ ¬Announces a page "text/html" := by
  intro a page
  have hfails : Supplies faltering .empty Request.blank (Bytes.ascii "/fail") none
      (.generated (Bytes.ascii "/fail") .internalError .incomplete) := .failed rfl rfl rfl
  have htype : MediaType.ofTarget (Bytes.ascii "/fail") = "text/plain" := by decide +kernel
  have hplain : Announces a page "text/plain" := htype ▸ hfails.announces Response.blank false
  exact ⟨hplain, fun hhtml => absurd (hplain.ascii_eq hhtml) (by decide)⟩

end Announced

end Site

end HttpServer
