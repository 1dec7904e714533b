import HttpServer.Proofs.Site.Conclusion

/-!
# What a response discloses

The permission bit that lets others read is looked at once, on the file of the target, while the
code of the response is decided. A page that takes the place of that file is opened without being
asked for it. So what is attached is a file that others may read, or such a page.

`Veiled` relates two trees that differ only in what files hold that others may not read. A walk does
not look into files, so it leads to the same places in both, and what a target's file decides is the
same. `disclosed_readable_or_page` says that then the response is the same, too, unless its page is
one of those files.
-/

namespace HttpServer

namespace FileTree

/-- Two entries look the same to others: they are the same, or two files that others may not
read. -/
inductive SameToOthers : Option FileEntry → Option FileEntry → Prop where
  | same (e : Option FileEntry) : SameToOthers e e
  | hidden {f f' : File} : Site.worldReadable f.mode = false → f'.mode = f.mode →
      SameToOthers (some (.file f)) (some (.file f'))

/-- Two trees differ only in what files hold that others may not read. -/
structure Veiled (t t' : FileTree) : Prop where
  workingDirectory_eq : t'.workingDirectory = t.workingDirectory
  lookup? : ∀ l, SameToOthers (t.lookup? l) (t'.lookup? l)

theorem SameToOthers.directory_iff {e e' : Option FileEntry} (h : SameToOthers e e') :
    e' = some .directory ↔ e = some .directory := by
  cases h with
  | same => exact Iff.rfl
  | hidden => exact ⟨fun h => (by cases h), fun h => (by cases h)⟩

section Veiled

variable {t t' : FileTree}

/-- Walks do not look into files. -/
theorem Veiled.walk_eq (h : Veiled t t') (purpose : Purpose) (links : Nat) (dir : Location)
    (pieces : List Bytes) : t'.walk purpose links dir pieces = t.walk purpose links dir pieces := by
  -- a link uses up one of the links, and any other piece one of the pieces
  induction links using Nat.strongRecOn generalizing dir pieces with
  | ind links ihlinks =>
      induction pieces generalizing dir with
      | nil => rw [walk, walk]
      | cons name rest ih =>
          have hname := h.lookup? (dir ++ [name])
          unfold walk
          simp only [ne_eq, (h.lookup? dir).directory_iff, ih]
          generalize t.lookup? (dir ++ [name]) = e at hname ⊢
          generalize t'.lookup? (dir ++ [name]) = e' at hname ⊢
          cases hname with
          | hidden => rfl
          | same =>
              cases links with
              | zero => rfl
              | succ links => simp only [ihlinks links (Nat.lt_succ_self links)]

theorem Veiled.place_eq (h : Veiled t t') (purpose : Purpose) (path : Bytes) :
    t'.place purpose path = t.place purpose path := by
  unfold place start
  rw [h.workingDirectory_eq]
  simp only [h.walk_eq]

/-- A path names the same in both trees, or in each a file that others may not read. -/
theorem Veiled.stat_cases (h : Veiled t t') (path : Bytes) :
    t'.stat path = t.stat path ∨
      ∃ f f' : File, t.stat path = .ok (.file f) ∧ t'.stat path = .ok (.file f') ∧
        Site.worldReadable f.mode = false ∧ f'.mode = f.mode := by
  unfold stat
  rw [h.place_eq]
  cases t.place .finding path with
  | error e => exact Or.inl rfl
  | ok p =>
      cases p with
      | free l => exact Or.inl rfl
      | found l =>
          have hl := h.lookup? l
          simp only
          generalize t.lookup? l = e at hl ⊢
          generalize t'.lookup? l = e' at hl ⊢
          cases hl with
          | same => exact Or.inl rfl
          | hidden hmode hsame => exact Or.inr ⟨_, _, rfl, rfl, hmode, hsame⟩

end Veiled

end FileTree

namespace Site

section Trees

variable {s : Site} {files files' : FileTree} {r : Response}

theorem availability_eq_of_veiled (h : files.Veiled files') (target : Bytes) :
    s.availability files' target = s.availability files target := by
  unfold availability
  cases s.resolve? target with
  | none => rfl
  | some path =>
      rcases h.stat_cases path with hsame | ⟨f, f', hf, hf', hmode, hmode'⟩
      · simp only [hsame]
      · simp only [hf, hf', hmode', hmode]

theorem open?_cases_of_veiled (h : files.Veiled files') (target : Bytes) :
    s.open? files' target = s.open? files target ∨
      ∃ f, s.Finds files target f ∧ worldReadable f.mode = false := by
  cases hpath : s.resolve? target with
  | none =>
      refine Or.inl (open?_congr fun path h => ?_)
      rw [hpath] at h
      cases h
  | some path =>
      rcases h.stat_cases path with hsame | ⟨f, f', hf, -, hmode, -⟩
      · refine Or.inl (open?_congr fun path' h => ?_)
        rw [hpath] at h
        cases h
        unfold FileTree.file
        rw [hsame]
      · exact Or.inr ⟨f, ⟨path, hpath, hf⟩, hmode⟩

theorem locate_eq_of_veiled (h : files.Veiled files') : s.locate files' r = s.locate files r := by
  unfold locate
  simp only [availability_eq_of_veiled h]

/-- A response that is to report success has a target that others may read. -/
def Cleared (s : Site) (files : FileTree) (r : Response) : Prop :=
  codeFor r = Status.ok.code → s.availability files r.target = .readable

theorem cleared_locate (s : Site) (files : FileTree) (r : Response) :
    s.Cleared files (s.locate files r) := codeOf_eq_ok

/-- What is attached is the whole of the file that the target names. Either others may read it, or
it is a page. -/
theorem attached_conclude (ha : r.attached = none) (hr : s.Cleared files r) {m : Attachment}
    (hm : (s.conclude files r).2.attached = some m) :
    ∃ f, s.Finds files (s.conclude files r).2.target f ∧ m = ⟨f.serial, f.data⟩ ∧
      ((s.conclude files r).2.code = some Status.ok.code ∧
          (s.conclude files r).2.target = r.target ∧ worldReadable f.mode = true ∨
        ServesPage (s.conclude files r).2) := by
  obtain ⟨hopens, f, hfinds, hfile⟩ := finds_of_attached_conclude ha hm
  refine ⟨f, hfinds, hfile, ?_⟩
  rcases hopens.cases with ⟨hok, htarget⟩ | ⟨status, hcode, hpage⟩
  · have hsame := (target_conclude s files ha).trans htarget
    rw [hsame] at hfinds
    exact Or.inl ⟨code_conclude s files ha hok, hsame, hfinds.mode_of_readable (hr hok)⟩
  · exact Or.inr (servesPage_conclude ha hcode hpage)

/-- A response comes out the same in both trees, or it is a page that others may not read. -/
theorem conclude_cases_of_veiled (ha : r.attached = none) (hr : s.Cleared files r)
    (h : files.Veiled files') :
    s.conclude files' r = s.conclude files r ∨
      ServesPage (s.conclude files r).2 ∧
        ∃ f, s.Finds files (s.conclude files r).2.target f ∧ worldReadable f.mode = false := by
  rcases open?_cases_of_veiled h (targetFor r) with hsame | ⟨f, hfinds, hmode⟩
  · exact Or.inl (conclude_eq_of_open? fun _ => hsame)
  · by_cases hopens : Opens r
    · rcases hopens.cases with ⟨hok, htarget⟩ | ⟨status, hcode, hpage⟩
      · -- what stands for success may be read by others
        rw [htarget] at hfinds
        have hreadable := hfinds.mode_of_readable (hr hok)
        rw [hmode] at hreadable
        cases hreadable
      · refine Or.inr ⟨servesPage_conclude ha hcode hpage, f, ?_, hmode⟩
        rw [response_conclude s files ha]
        exact hfinds
    · exact Or.inl (conclude_eq_of_open? fun h => absurd h hopens)

/-- A file that can be opened follows the head of a response that reports success. -/
theorem conclude_of_open? {target : Bytes} {f : File} (hopen : s.open? files target = some f)
    (keepAlive : Bool) :
    let r : Response := ⟨some Status.ok.code, keepAlive, target, none⟩
    s.conclude files r =
      (r.head ++ Response.lengthLine f.data.length, { r with attached := attachmentOf f }) := by
  intro r
  have htarget : targetFor r = target := rfl
  have hopens : Opens r := Or.inl rfl
  rw [conclude_eq]
  simp only [if_pos hopens, htarget, hopen]
  rfl

/-- A file that others may read is sent where it is asked for. -/
theorem answer_of_finds {response : Response} {f : File}
    (hh : s.handlerFor? response.detach = none)
    (hcode : response.code.getD Status.ok.code = Status.ok.code)
    (h : s.Finds files (s.served response.detach) f) (hmode : worldReadable f.mode = true)
    (howner : f.isReadable = true) (request : Request) :
    s.answer files request response =
      let r : Response := ⟨some Status.ok.code, response.keepAlive, s.served response.detach, none⟩
      ⟨r.head ++ Response.lengthLine f.data.length, { r with attached := attachmentOf f }, none⟩ := by
  have hok : codeOf .readable response.detach.code = Status.ok.code := hcode
  have hconclude := conclude_of_open? (h.open?_eq howner) response.keepAlive
  rw [answer_of_none hh, h.locate_eq, hmode, if_pos rfl, hok]
  exact congrArg (fun p => Answer.mk p.1 p.2 none) hconclude

/-- A file that others may read is attached where it is asked for. -/
theorem attached_of_finds {response : Response} {f : File}
    (hh : s.handlerFor? response.detach = none)
    (hcode : response.code.getD Status.ok.code = Status.ok.code)
    (h : s.Finds files (s.served response.detach) f) (hmode : worldReadable f.mode = true)
    (howner : f.isReadable = true) (request : Request) :
    (s.answer files request response).response.attached = attachmentOf f := by
  rw [answer_of_finds hh hcode h hmode howner request]

/-- Where a file that others may not read is asked for, the page is attached, whoever may read
that. -/
theorem attached_of_forbidden {response : Response} {f page : File}
    (hh : s.handlerFor? response.detach = none) (h : s.Finds files (s.served response.detach) f)
    (hmode : worldReadable f.mode = false) (hpage : s.Finds files (Bytes.ascii "/403.html") page)
    (howner : page.isReadable = true) (request : Request) :
    (s.answer files request response).response.attached = attachmentOf page := by
  rw [answer_of_none hh, h.locate_eq, hmode, if_neg Bool.false_ne_true]
  exact attached_conclude_of_opens rfl (Or.inr rfl) (hpage.open?_eq howner)

/-- An attached file is a whole file that others may read, namely that of the target or of its
alias, or it is the page for the code of the response. And what files hold that others may not read
makes no difference to a response, unless its page is such a file. -/
theorem disclosed_readable_or_page (s : Site) (files : FileTree) (request : Request)
    (response : Response) :
    let a := s.answer files request response
    (∀ m, a.response.attached = some m →
      ∃ f, s.Finds files a.response.target f ∧ m = ⟨f.serial, f.data⟩ ∧
        (a.response.code = some Status.ok.code ∧ a.response.target = s.served response ∧
            worldReadable f.mode = true ∨
          ServesPage a.response)) ∧
    ∀ files', files.Veiled files' →
      s.answer files' request response = a ∨
        ServesPage a.response ∧
          ∃ f, s.Finds files a.response.target f ∧ worldReadable f.mode = false := by
  intro a
  cases hh : s.handlerFor? response.detach with
  | some h =>
      cases hs : (h request).succeeded with
      | true =>
          have ha := answer_of_succeeded hh hs
          refine ⟨fun m hm => ?_, fun files' _ => Or.inl ((ha files').trans (ha files).symm)⟩
          simp only [a, ha] at hm
          cases hm
      | false =>
          have ha := answer_of_failed hh hs
          have hopens := not_opens_internalError response.detach
          simp only [a, ha]
          refine ⟨fun m hm => ?_, fun files' h => Or.inl ?_⟩
          · exact absurd (finds_of_attached_conclude rfl hm).1 hopens
          · rw [conclude_eq_of_open? fun h => absurd h hopens]
  | none =>
      have ha := @answer_of_none s response request hh
      have hclear := cleared_locate s files response.detach
      simp only [a, ha]
      refine ⟨fun m hm => attached_conclude rfl hclear hm, fun files' h => ?_⟩
      rw [locate_eq_of_veiled h]
      rcases conclude_cases_of_veiled rfl hclear h with hsame | hpage
      · exact Or.inl (by rw [hsame])
      · exact Or.inr hpage

end Trees

section Shelves

/-- A directory with one file in it. -/
def shelf (name : Bytes) (f : File) : FileTree :=
  (FileTree.empty.set [Bytes.ascii "srv"] .directory).set [Bytes.ascii "srv", name] (.file f)

/-- The site whose root is that directory. -/
def shelfSite : Site := ⟨Bytes.ascii "/srv", Routes.empty⟩

theorem lookup?_shelf (name : Bytes) (f : File) (l : Location) :
    (shelf name f).lookup? l =
      if l = [Bytes.ascii "srv", name] then some (.file f)
      else if l = [Bytes.ascii "srv"] then some .directory
      else FileTree.empty.lookup? l := by
  unfold shelf
  rw [FileTree.lookup?_set (List.cons_ne_nil _ _), FileTree.lookup?_set (List.cons_ne_nil _ _)]

theorem linkless_shelf (name : Bytes) (f : File) : (shelf name f).Linkless := by
  refine FileTree.Linkless.set (FileTree.Linkless.set FileTree.linkless_empty ?_ ?_) ?_ ?_
  · exact List.cons_ne_nil _ _
  · intro target h
    cases h
  · exact List.cons_ne_nil _ _
  · intro target h
    cases h

/-- A target is that of a file in the directory. -/
def Shelved (target file : Bytes) : Prop :=
  let path := Bytes.ascii "/srv/" ++ file
  shelfSite.resolve? target = some path ∧ Path.pieces path = [[], Bytes.ascii "srv", file] ∧
    0 ∉ path ∧ path.length ≤ FileTree.greatestPath ∧
    ¬ (file = [] ∨ file = Path.here) ∧ file ≠ Path.parent ∧ file.length ≤ FileTree.greatestName

instance (target file : Bytes) : Decidable (Shelved target file) :=
  inferInstanceAs (Decidable (_ ∧ _))

/-- Only its own file stands in the directory. -/
theorem finds_shelf_iff {target file name : Bytes} {f g : File} (h : Shelved target file) :
    shelfSite.Finds (shelf name f) target g ↔ file = name ∧ g = f := by
  obtain ⟨hpath, hpieces, hzero, hlong, hfile, hparent, hlen⟩ := h
  have hcheck : FileTree.checkPath (Bytes.ascii "/srv/" ++ file) = .ok () := by
    unfold FileTree.checkPath
    rw [if_neg hzero, if_neg (List.append_ne_nil_of_left_ne_nil (by decide) _),
      if_neg (Nat.not_lt.2 hlong)]
  have hstart : (shelf name f).start (Bytes.ascii "/srv/" ++ file) = [] := rfl
  have hroot : (shelf name f).lookup? [] = some .directory := FileTree.lookup?_nil _
  have hsrv : (shelf name f).lookup? [Bytes.ascii "srv"] = some .directory := by
    rw [lookup?_shelf, if_neg (by simp), if_pos rfl]
  have hentry : (shelf name f).lookup? [Bytes.ascii "srv", file] =
      if file = name then some (.file f) else none := by
    rw [lookup?_shelf]
    simp [FileTree.lookup?, FileTree.empty]
  unfold Finds
  simp only [hpath, Option.some.injEq, exists_eq_left',
    FileTree.stat_eq_ok_iff (linkless_shelf name f), hstart, hpieces]
  constructor
  · rintro ⟨-, l, hleads, hl⟩
    rw [FileTree.leads_stay_iff hroot (Or.inl rfl),
      FileTree.leads_enter_iff hroot (by decide) (by decide)] at hleads
    obtain ⟨-, -, hleads⟩ := hleads
    rw [List.nil_append, FileTree.leads_enter_iff hsrv hfile hparent] at hleads
    obtain ⟨-, -, hdone⟩ := hleads
    cases hdone
    rw [List.singleton_append, hentry] at hl
    split at hl
    · cases hl
      exact ⟨‹_›, rfl⟩
    · cases hl
  · rintro ⟨rfl, rfl⟩
    rw [if_pos rfl] at hentry
    exact ⟨hcheck, _, .stay hroot (Or.inl rfl) (.enter hroot (by decide) (by decide) (by decide)
      hsrv (.enter hsrv hfile hparent hlen hentry (.done _))), hentry⟩

/-- A text in a file. -/
def note (text : String) (mode : Nat) : File := ⟨0, Bytes.ascii text, mode⟩

/-- What is asked of the site. -/
def ask (target : String) : Response := Response.blank.begin (Bytes.ascii target) false none

theorem finds_shelf_a (f : File) :
    shelfSite.Finds (shelf (Bytes.ascii "a") f) (Bytes.ascii "/a") f := by
  have hshelved : Shelved (Bytes.ascii "/a") (Bytes.ascii "a") := by decide +kernel
  exact (finds_shelf_iff hshelved).2 ⟨rfl, rfl⟩

theorem finds_shelf_page (f : File) :
    shelfSite.Finds (shelf (Bytes.ascii "403.html") f) (Bytes.ascii "/403.html") f := by
  have hshelved : Shelved (Bytes.ascii "/403.html") (Bytes.ascii "403.html") := by decide +kernel
  exact (finds_shelf_iff hshelved).2 ⟨rfl, rfl⟩

/-- There is no page beside the file. -/
theorem not_finds_page_shelf_a {f g : File} {status : Status} {page : Bytes}
    (h : status.page? = some page) : ¬ shelfSite.Finds (shelf (Bytes.ascii "a") f) page g := by
  have hshelved : ∃ file, Shelved page file ∧ file ≠ Bytes.ascii "a" := by
    cases status with
    | badRequest =>
        cases h
        exact ⟨Bytes.ascii "400.html", by decide +kernel⟩
    | forbidden =>
        cases h
        exact ⟨Bytes.ascii "403.html", by decide +kernel⟩
    | notFound =>
        cases h
        exact ⟨Bytes.ascii "404.html", by decide +kernel⟩
    | ok => cases h
    | internalError => cases h
  obtain ⟨file, hshelved, hne⟩ := hshelved
  exact fun hfinds => hne ((finds_shelf_iff hshelved).1 hfinds).1

theorem veiled_shelf {f f' : File} (hmode : worldReadable f.mode = false) (h : f'.mode = f.mode)
    (name : Bytes) : (shelf name f).Veiled (shelf name f') := by
  refine ⟨rfl, fun l => ?_⟩
  rw [lookup?_shelf, lookup?_shelf]
  split
  · exact .hidden hmode h
  · exact .same _

/-- A file that others may read is sent, and of one that they may not read nothing shows. -/
theorem disclosed_shelf :
    let a := shelfSite.answer (shelf (Bytes.ascii "a") (note "x" 0o644)) Request.blank (ask "/a")
    let b (text : String) :=
      shelfSite.answer (shelf (Bytes.ascii "a") (note text 0o640)) Request.blank (ask "/a")
    a.response.attached = some ⟨0, Bytes.ascii "x"⟩ ∧
      (∃ f, shelfSite.Finds (shelf (Bytes.ascii "a") (note "x" 0o644)) a.response.target f ∧
        (⟨0, Bytes.ascii "x"⟩ : Attachment) = ⟨f.serial, f.data⟩ ∧
        (a.response.code = some Status.ok.code ∧ a.response.target = Bytes.ascii "/a" ∧
            worldReadable f.mode = true ∨ ServesPage a.response)) ∧
      b "y" = b "x" := by
  intro a b
  have hattached : a.response.attached = some ⟨0, Bytes.ascii "x"⟩ :=
    attached_of_finds (f := note "x" 0o644) rfl rfl (finds_shelf_a _) (by decide) (by decide)
      Request.blank
  have hdisclosed := disclosed_readable_or_page shelfSite (shelf (Bytes.ascii "a") (note "x" 0o644))
    Request.blank (ask "/a")
  refine ⟨hattached, hdisclosed.1 _ hattached, ?_⟩
  have hmode : worldReadable (note "x" 0o640).mode = false := by decide
  have hsame : (note "y" 0o640).mode = (note "x" 0o640).mode := rfl
  have hveiled := veiled_shelf hmode hsame (Bytes.ascii "a")
  rcases (disclosed_readable_or_page shelfSite _ Request.blank (ask "/a")).2 _ hveiled with
    hsame | ⟨⟨status, -, hpage⟩, f, hfinds, -⟩
  · exact hsame
  · exact absurd hfinds (not_finds_page_shelf_a hpage)

/-- A page is sent although others may not read it, even where it is itself what was asked for and
refused: there is no file that they may read. -/
theorem attached_forbidden_page :
    let files := shelf (Bytes.ascii "403.html") (note "x" 0o600)
    let a := shelfSite.answer files Request.blank (ask "/403.html")
    a.response.attached = some ⟨0, Bytes.ascii "x"⟩ ∧
      shelfSite.availability files (Bytes.ascii "/403.html") = .forbidden ∧
      ∀ l f, files.lookup? l = some (.file f) → worldReadable f.mode = false := by
  intro files a
  have hfinds := finds_shelf_page (note "x" 0o600)
  have hmode : worldReadable (note "x" 0o600).mode = false := by decide
  refine ⟨attached_of_forbidden rfl hfinds hmode hfinds (by decide) Request.blank, ?_, ?_⟩
  · rw [hfinds.availability_eq, hmode, if_neg Bool.false_ne_true]
  · intro l f hl
    rw [lookup?_shelf] at hl
    split at hl
    · cases hl
      exact hmode
    · split at hl
      · cases hl
      · simp [FileTree.lookup?, FileTree.empty] at hl

end Shelves

end Site

end HttpServer
