import HttpServer.Proofs.Site.Disclosure
import HttpServer.Proofs.Site.Framing

/-!
# Which status and which body a response has

A handler, another name for the target, the file of that name, a code that was settled before, and
the pages that take the place of a file are looked at one after the other, and each may undo what
the one before it decided. The rows of three tables say what comes out of it. `Decides` has the code
that a file decides, `Covers` the status, the name and the body that a code leads to, and `Selects`
puts the two together with the handlers.

Some row applies to every request, and what a row says is what is sent (`Shows`): the whole body, be
it written behind the head or attached.
-/

namespace HttpServer

namespace Site

section Rows

/-- The file of a target can be opened: its owner may read it. -/
def Opened (s : Site) (files : FileTree) (target : Bytes) (f : File) : Prop :=
  s.Finds files target f ∧ f.isReadable = true

/-- The name of the file for a target, which is the target itself unless it has another name. -/
def nameOf (s : Site) (target : Bytes) : Bytes :=
  (s.routes.alias? target).getD target

/-- What the file of a name decides about the code; `settled` is the code that was settled
before. -/
inductive Decides (s : Site) (files : FileTree) (name : Bytes) (settled : Option Nat) : Nat → Prop
  where
  /-- The name climbs. -/
  | refused : s.resolve? name = none → Decides s files name settled Status.badRequest.code
  /-- There is nothing of this name. -/
  | nothing {path : Bytes} {e : IoError} : s.resolve? name = some path →
      files.stat path = .error e → Decides s files name settled Status.badRequest.code
  /-- A directory has this name, or whatever else is no file. -/
  | unfiled {path : Bytes} {e : FileEntry} : s.resolve? name = some path →
      files.stat path = .ok e → (∀ f, e ≠ .file f) →
      Decides s files name settled Status.badRequest.code
  | forbidden {f : File} : s.Finds files name f → worldReadable f.mode = false →
      Decides s files name settled Status.forbidden.code
  | readable {f : File} : s.Finds files name f → worldReadable f.mode = true →
      Decides s files name settled (settled.getD Status.ok.code)

/-- The status that is reported for a code, the name under which the response is sent, and the
body. -/
inductive Covers (s : Site) (files : FileTree) (name : Bytes) (code : Nat) :
    Status → Bytes → Bytes → Prop where
  | file {f : File} : code = Status.ok.code → s.Opened files name f →
      Covers s files name code .ok name f.data
  | unopened : code = Status.ok.code → (∀ f, ¬s.Opened files name f) →
      Covers s files name code .ok name (Response.generatedPage .ok .noFile)
  /-- The code has a page. -/
  | page {status : Status} {page : Bytes} {f : File} : code = status.code →
      status.page? = some page → s.Opened files page f →
      Covers s files name code status page f.data
  /-- The code has a page, but there is no file for it. -/
  | noPage {status : Status} {page : Bytes} : code = status.code → status.page? = some page →
      (∀ f, ¬s.Opened files page f) →
      Covers s files name code status page (Response.generatedPage status .noFile)
  | internalError : code = Status.internalError.code →
      Covers s files name code .internalError name
        (Response.generatedPage .internalError .incomplete)
  /-- The code is none of those that can be reported. -/
  | unknown : Status.ofCode? code = none →
      Covers s files name code .badRequest name (Response.generatedPage .badRequest .incomplete)

/-- How a request ends: the handler that was asked, what is reported, under which name, and with
which body. -/
structure Ending where
  call : Option Call
  status : Status
  name : Bytes
  body : Bytes

/-- How a request for a target ends, where `settled` was settled before. -/
inductive Selects (s : Site) (files : FileTree) (request : Request) (target : Bytes)
    (settled : Option Nat) : Ending → Prop where
  | handled {h : Handler} : settled = none → s.routes.handler? target = some h →
      (h request).succeeded = true →
      Selects s files request target settled
        ⟨some ⟨target, request⟩, .ok, target, (h request).written⟩
  | failed {h : Handler} : settled = none → s.routes.handler? target = some h →
      (h request).succeeded = false →
      Selects s files request target settled
        ⟨some ⟨target, request⟩, .internalError, target,
          Response.generatedPage .internalError .incomplete⟩
  | located {code : Nat} {status : Status} {name body : Bytes} :
      (settled = none → s.routes.handler? target = none) →
      Decides s files (s.nameOf target) settled code →
      Covers s files (s.nameOf target) code status name body →
      Selects s files request target settled ⟨none, status, name, body⟩

end Rows

section Shown

/-- A text and a response have a status, a name and a body: part of the body is written behind the
head, or the whole of it is attached. -/
structure Shown (text : Bytes) (r : Response) (status : Status) (name body : Bytes) : Prop where
  target_eq : r.target = name
  written : ∃ inline, Written text r status inline ∧ inline ++ r.fileBytes = body

/-- An answer ends a request in a certain way. -/
structure Shows (a : Answer) (keepAlive : Bool) (e : Ending) : Prop where
  call_eq : a.call = e.call
  keepAlive_eq : a.response.keepAlive = keepAlive
  shown : Shown a.text a.response e.status e.name e.body

variable {s : Site} {files : FileTree} {name : Bytes} {r : Response} {status : Status}

theorem opened_iff {f : File} : s.Opened files name f ↔ s.open? files name = some f := by
  constructor
  · rintro ⟨hfinds, hreadable⟩
    exact hfinds.open?_eq hreadable
  · intro hopen
    refine ⟨finds_of_open? hopen, ?_⟩
    obtain ⟨path, -, hfile⟩ := Option.bind_eq_some_iff.1 hopen
    unfold FileTree.file at hfile
    split at hfile
    · cases hfile
    · split at hfile
      · cases hfile
        assumption
      · cases hfile
    · cases hfile

theorem not_opened_iff : (∀ f, ¬s.Opened files name f) ↔ s.open? files name = none := by
  rw [Option.eq_none_iff_forall_ne_some]
  exact forall_congr' fun _ => not_congr opened_iff

/-- A body that is written behind the head. -/
theorem shown_withLength (hc : r.code = some status.code) (ha : r.attached = none)
    (body : Bytes) : Shown (r.head ++ Response.withLength body) r status r.target body := by
  refine ⟨rfl, body, written_withLength hc ha body, ?_⟩
  unfold Response.fileBytes
  rw [ha]
  exact List.append_nil body

theorem shown_conclude_of_opened (hcode : codeFor r = status.code) (hopens : Opens r) {f : File}
    (hopened : s.Opened files (targetFor r) f) :
    Shown (s.conclude files r).1 (s.conclude files r).2 status (targetFor r) f.data := by
  rw [conclude_eq]
  simp only [if_pos hopens, opened_iff.1 hopened, hcode, Response.statusOf_code]
  refine ⟨rfl, [], written_attached (r := { r with
    target := targetFor r, code := some status.code }) rfl f, ?_⟩
  exact fileBytes_attachmentOf { r with target := targetFor r, code := some status.code } f

theorem shown_conclude_of_unopened (ha : r.attached = none) (hcode : codeFor r = status.code)
    (hopens : Opens r) (hunopened : ∀ f, ¬s.Opened files (targetFor r) f) :
    Shown (s.conclude files r).1 (s.conclude files r).2 status (targetFor r)
      (Response.generatedPage status .noFile) := by
  rw [conclude_eq]
  simp only [if_pos hopens, not_opened_iff.1 hunopened, hcode, Response.statusOf_code]
  exact shown_withLength (r := { r with target := targetFor r, code := some status.code }) rfl ha _

theorem shown_conclude_of_not_opens (ha : r.attached = none)
    (hstatus : Response.statusOf (some (codeFor r)) = status) (hopens : ¬Opens r) :
    Shown (s.conclude files r).1 (s.conclude files r).2 status r.target
      (Response.generatedPage status .incomplete) := by
  have htarget : targetFor r = r.target := by
    have hnone : pageOf? (codeFor r) = none := by
      rw [← Option.not_isSome_iff_eq_none]
      exact fun hpage => hopens (Or.inr hpage)
    rw [targetFor, hnone]
    rfl
  rw [conclude_eq]
  simp only [if_neg hopens, hstatus, htarget]
  exact shown_withLength (r := { r with code := some status.code }) rfl ha _

end Shown

section Tables

variable {s : Site} {files : FileTree} {name : Bytes} {settled : Option Nat} {code : Nat}
  {request : Request}

/-- A file is found, or one of the rows without a file applies. -/
theorem decides_codeOf (s : Site) (files : FileTree) (name : Bytes) (settled : Option Nat) :
    Decides s files name settled (codeOf (s.availability files name) settled) := by
  cases hpath : s.resolve? name with
  | none =>
      have hmissing : s.availability files name = .missing := by
        simp only [availability, hpath]
      rw [hmissing]
      exact .refused hpath
  | some path =>
      cases hstat : files.stat path with
      | error e =>
          have hmissing : s.availability files name = .missing := by
            simp only [availability, hpath, hstat]
          rw [hmissing]
          exact .nothing hpath hstat
      | ok e =>
          cases e with
          | file f =>
              have hfinds : s.Finds files name f := ⟨path, hpath, hstat⟩
              rw [hfinds.availability_eq]
              cases hmode : worldReadable f.mode with
              | true => exact .readable hfinds hmode
              | false => exact .forbidden hfinds hmode
          | directory =>
              have hmissing : s.availability files name = .missing := by
                simp only [availability, hpath, hstat]
              rw [hmissing]
              exact .unfiled hpath hstat nofun
          | link target =>
              have hmissing : s.availability files name = .missing := by
                simp only [availability, hpath, hstat]
              rw [hmissing]
              exact .unfiled hpath hstat nofun

/-- What a row says about the code is what the file decides. -/
theorem Decides.codeOf_eq (h : Decides s files name settled code) :
    codeOf (s.availability files name) settled = code := by
  cases h with
  | refused hpath => simp only [availability, hpath, codeOf]
  | nothing hpath hstat => simp only [availability, hpath, hstat, codeOf]
  | unfiled hpath hstat hfile =>
      rename_i path e
      cases e with
      | file f => exact absurd rfl (hfile f)
      | directory => simp only [availability, hpath, hstat, codeOf]
      | link target => simp only [availability, hpath, hstat, codeOf]
  | forbidden hfinds hmode => rw [hfinds.availability_eq, hmode]; rfl
  | readable hfinds hmode => rw [hfinds.availability_eq, hmode]; rfl

/-- Some row applies to every code. -/
theorem exists_covers (s : Site) (files : FileTree) (name : Bytes) (code : Nat) :
    ∃ status name' body, Covers s files name code status name' body := by
  have hpage {status : Status} (hcode : code = status.code) {page : Bytes}
      (hpage : status.page? = some page) :
      ∃ status name' body, Covers s files name code status name' body := by
    by_cases hopened : ∃ f, s.Opened files page f
    · obtain ⟨f, hf⟩ := hopened
      exact ⟨_, _, _, .page hcode hpage hf⟩
    · exact ⟨_, _, _, .noPage hcode hpage (not_exists.1 hopened)⟩
  cases hstatus : Status.ofCode? code with
  | none => exact ⟨_, _, _, .unknown hstatus⟩
  | some status =>
      have hcode := Status.ofCode?_eq_some_iff.1 hstatus
      cases status with
      | ok =>
          by_cases hopened : ∃ f, s.Opened files name f
          · obtain ⟨f, hf⟩ := hopened
            exact ⟨_, _, _, .file hcode hf⟩
          · exact ⟨_, _, _, .unopened hcode (not_exists.1 hopened)⟩
      | badRequest => exact hpage hcode rfl
      | forbidden => exact hpage hcode rfl
      | notFound => exact hpage hcode rfl
      | internalError => exact ⟨_, _, _, .internalError hcode⟩

theorem targetFor_of_page {r : Response} {status : Status} (hcode : codeFor r = status.code)
    {page : Bytes} (hpage : status.page? = some page) : targetFor r = page := by
  rw [targetFor, pageOf?_eq_some_iff.2 ⟨status, hcode, hpage⟩]
  rfl

theorem targetFor_of_ok {r : Response} (hcode : codeFor r = Status.ok.code) :
    targetFor r = r.target := by
  rw [targetFor, hcode]
  rfl

/-- What a row says about a code is what a response with it is concluded as. -/
theorem Covers.shown_conclude {r : Response} (ha : r.attached = none) {status : Status}
    {name' body : Bytes} (h : Covers s files r.target (codeFor r) status name' body) :
    Shown (s.conclude files r).1 (s.conclude files r).2 status name' body := by
  cases h with
  | file hcode hopened =>
      rw [← targetFor_of_ok hcode] at hopened ⊢
      exact shown_conclude_of_opened hcode (Or.inl hcode) hopened
  | unopened hcode hunopened =>
      rw [← targetFor_of_ok hcode] at hunopened ⊢
      exact shown_conclude_of_unopened ha hcode (Or.inl hcode) hunopened
  | page hcode hpage hopened =>
      have hopens : Opens r := Or.inr (Option.isSome_iff_exists.2
        ⟨_, pageOf?_eq_some_iff.2 ⟨status, hcode, hpage⟩⟩)
      rw [← targetFor_of_page hcode hpage] at hopened ⊢
      exact shown_conclude_of_opened hcode hopens hopened
  | noPage hcode hpage hunopened =>
      have hopens : Opens r := Or.inr (Option.isSome_iff_exists.2
        ⟨_, pageOf?_eq_some_iff.2 ⟨status, hcode, hpage⟩⟩)
      rw [← targetFor_of_page hcode hpage] at hunopened ⊢
      exact shown_conclude_of_unopened ha hcode hopens hunopened
  | internalError hcode =>
      apply shown_conclude_of_not_opens ha
      · rw [hcode, Response.statusOf_code]
      · rw [Opens, hcode]
        decide
  | unknown hcode =>
      apply shown_conclude_of_not_opens ha
      · rw [Response.statusOf, Option.bind_some, hcode]
        rfl
      · rintro (hok | hpage)
        · rw [hok, Status.ofCode?_code] at hcode
          cases hcode
        · rw [pageOf?, hcode] at hpage
          cases hpage

theorem handlerFor?_begin (s : Site) (left : Response) (target : Bytes) (keepAlive : Bool)
    (settled : Option Nat) :
    s.handlerFor? (left.begin target keepAlive settled).detach =
      if settled = none then s.routes.handler? target else none := by
  cases settled <;> rfl

/-- Some row applies to every request. -/
theorem exists_selects (s : Site) (files : FileTree) (request : Request) (target : Bytes)
    (settled : Option Nat) : ∃ e, Selects s files request target settled e := by
  by_cases hunasked : settled = none → s.routes.handler? target = none
  · obtain ⟨status, name, body, hcovers⟩ := exists_covers s files (s.nameOf target)
      (codeOf (s.availability files (s.nameOf target)) settled)
    exact ⟨_, .located hunasked (decides_codeOf s files _ settled) hcovers⟩
  · obtain ⟨hnone, hhandler⟩ := Classical.not_imp.1 hunasked
    obtain ⟨h, hh⟩ := Option.ne_none_iff_exists'.1 hhandler
    cases hs : (h request).succeeded with
    | true => exact ⟨_, .handled hnone hh hs⟩
    | false => exact ⟨_, .failed hnone hh hs⟩

/-- What a row says is what is sent. -/
theorem Selects.shows {target : Bytes} {e : Ending}
    (h : Selects s files request target settled e) (left : Response) (keepAlive : Bool) :
    Shows (s.answer files request (left.begin target keepAlive settled)) keepAlive e := by
  have hkeep := (written_answer s files request (left.begin target keepAlive settled)).1
  have hasked := handlerFor?_begin s left target keepAlive settled
  cases h with
  | handled hnone hh hs =>
      rw [if_pos hnone, hh] at hasked
      rw [answer_of_succeeded hasked hs] at hkeep ⊢
      exact ⟨rfl, hkeep, shown_withLength (r := { (left.begin target keepAlive settled).detach with
        code := some Status.ok.code }) rfl rfl _⟩
  | failed hnone hh hs =>
      rw [if_pos hnone, hh] at hasked
      rw [answer_of_failed hasked hs] at hkeep ⊢
      refine ⟨rfl, hkeep, ?_⟩
      change Shown (s.conclude files _).1 (s.conclude files _).2 _ _ _
      exact shown_conclude_of_not_opens rfl rfl (not_opens_internalError _)
  | located hunasked hdecides hcovers =>
      have hnone : s.handlerFor? (left.begin target keepAlive settled).detach = none := by
        rw [hasked]
        split
        · exact hunasked ‹_›
        · rfl
      rw [answer_of_none hnone] at hkeep ⊢
      refine ⟨rfl, hkeep, ?_⟩
      rw [← hdecides.codeOf_eq] at hcovers
      exact Covers.shown_conclude (r := s.locate files (left.begin target keepAlive settled).detach)
        rfl hcovers

/-- Whatever a response was before, it ends as the tables say: some row applies, and what it says
about the handler, the status, the name and the body is what is sent. -/
theorem answer_selected (s : Site) (files : FileTree) (request : Request) (left : Response)
    (target : Bytes) (keepAlive : Bool) (settled : Option Nat) :
    (∃ e, Selects s files request target settled e) ∧
      ∀ e, Selects s files request target settled e →
        Shows (s.answer files request (left.begin target keepAlive settled)) keepAlive e :=
  ⟨exists_selects s files request target settled, fun _ h => h.shows left keepAlive⟩

end Tables

section Shelves

/-- A file that its owner may read, and others too, is sent. -/
theorem selected_shelf_a (f : File) (hmode : worldReadable f.mode = true)
    (hf : f.isReadable = true) (request : Request) :
    Selects shelfSite (shelf (Bytes.ascii "a") f) request (Bytes.ascii "/a") none
      ⟨none, .ok, Bytes.ascii "/a", f.data⟩ :=
  .located (fun _ => rfl) (.readable (finds_shelf_a f) hmode)
    (.file rfl ⟨finds_shelf_a f, hf⟩)

theorem answer_selected_shelf :
    Selects shelfSite (shelf (Bytes.ascii "a") (note "x" 0o644)) Request.blank (Bytes.ascii "/a") none
        ⟨none, .ok, Bytes.ascii "/a", Bytes.ascii "x"⟩ ∧
      Shows (shelfSite.answer (shelf (Bytes.ascii "a") (note "x" 0o644)) Request.blank (ask "/a"))
        false ⟨none, .ok, Bytes.ascii "/a", Bytes.ascii "x"⟩ := by
  have hselects := selected_shelf_a (note "x" 0o644) (by decide) (by decide) Request.blank
  exact ⟨hselects, (answer_selected shelfSite (shelf (Bytes.ascii "a") (note "x" 0o644))
    Request.blank Response.blank (Bytes.ascii "/a") false none).2 _ hselects⟩

/-- A file that others may read, but not its owner, is reported as a success, and its content is not
sent. -/
theorem unopened_shelf_a :
    let files := shelf (Bytes.ascii "a") (note "x" 0o004)
    let a := shelfSite.answer files Request.blank (ask "/a")
    shelfSite.Finds files (Bytes.ascii "/a") (note "x" 0o004) ∧
      worldReadable (note "x" 0o004).mode = true ∧
      Shown a.text a.response .ok (Bytes.ascii "/a") (Response.generatedPage .ok .noFile) ∧
      Response.generatedPage .ok .noFile ≠ (note "x" 0o004).data := by
  intro files a
  have hfinds := finds_shelf_a (note "x" 0o004)
  have hmode : worldReadable (note "x" 0o004).mode = true := by decide
  have hunopened : ∀ f, ¬shelfSite.Opened files (Bytes.ascii "/a") f := by
    rintro f ⟨hf, hreadable⟩
    obtain ⟨path, hpath, hstat⟩ := hfinds
    obtain ⟨path', hpath', hstat'⟩ := hf
    rw [hpath, Option.some.injEq] at hpath'
    subst hpath'
    rw [hstat] at hstat'
    cases hstat'
    revert hreadable
    decide
  have hselects : Selects shelfSite files Request.blank (Bytes.ascii "/a") none
      ⟨none, .ok, Bytes.ascii "/a", Response.generatedPage .ok .noFile⟩ :=
    .located (fun _ => rfl) (.readable hfinds hmode) (.unopened rfl hunopened)
  exact ⟨hfinds, hmode, (hselects.shows Response.blank false).shown, by decide +kernel⟩

end Shelves

end Site

end HttpServer
