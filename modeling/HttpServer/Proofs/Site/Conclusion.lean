import HttpServer.Proofs.Site.Confinement

/-!
# How a response is concluded

Once the code of a response is settled, the code alone says whether a file is opened for it and
under which target: `Opens` and `targetFor`. `conclude_eq` puts the rest of the building in these
terms, and `response_conclude` says what becomes of a response by it. `Finds` is what a target
names; its permissions decide the code, and its owner's permission is asked for when it is opened.
-/

namespace HttpServer

namespace Site

/-- The file that a target names, whoever may read it. -/
def Finds (s : Site) (files : FileTree) (target : Bytes) (f : File) : Prop :=
  ∃ path, s.resolve? target = some path ∧ files.stat path = .ok (.file f)

/-- The target of a response is the page for its code. -/
def ServesPage (r : Response) : Prop :=
  ∃ status : Status, r.code = some status.code ∧ status.page? = some r.target

section Targets

variable {s : Site} {files : FileTree} {target : Bytes} {f : File}

theorem Finds.availability_eq (h : s.Finds files target f) :
    s.availability files target = if worldReadable f.mode then .readable else .forbidden := by
  obtain ⟨path, hpath, hstat⟩ := h
  unfold availability
  simp only [hpath, hstat]

/-- A target decides for success only where others may read what it names. -/
theorem Finds.mode_of_readable (h : s.Finds files target f)
    (ha : s.availability files target = .readable) : worldReadable f.mode = true := by
  rw [h.availability_eq] at ha
  split at ha
  · assumption
  · cases ha

theorem finds_of_open? (h : s.open? files target = some f) : s.Finds files target f := by
  obtain ⟨path, hpath, hfile⟩ := Option.bind_eq_some_iff.1 h
  refine ⟨path, hpath, ?_⟩
  unfold FileTree.file at hfile
  split at hfile
  · cases hfile
  · rename_i g hstat
    split at hfile
    · cases hfile
      exact hstat
    · cases hfile
  · cases hfile

/-- A target's file is opened if its owner may read it. -/
theorem Finds.open?_eq (h : s.Finds files target f) (hf : f.isReadable = true) :
    s.open? files target = some f := by
  obtain ⟨path, hpath, hstat⟩ := h
  unfold open? FileTree.file
  rw [hpath, Option.bind_some, hstat]
  simp only [hf, if_true]
  rfl

theorem pageOf?_eq_some_iff {code : Nat} {page : Bytes} :
    pageOf? code = some page ↔
      ∃ status : Status, code = status.code ∧ status.page? = some page := by
  unfold pageOf?
  rw [Option.bind_eq_some_iff]
  simp only [Status.ofCode?_eq_some_iff]

theorem codeOf_eq_ok {a : Availability} {settled : Option Nat}
    (h : codeOf a settled = Status.ok.code) : a = .readable := by
  cases a with
  | missing => cases h
  | forbidden => cases h
  | readable => rfl

end Targets

section Answers

variable {s : Site} {files files' : FileTree} {r : Response}

/-- The code with which a response is concluded. -/
def codeFor (r : Response) : Nat := r.code.getD Status.badRequest.code

/-- The target under which a response is concluded. -/
def targetFor (r : Response) : Bytes := (pageOf? (codeFor r)).getD r.target

/-- A file is opened for a response: for success, or as a page. -/
def Opens (r : Response) : Prop :=
  codeFor r = Status.ok.code ∨ (pageOf? (codeFor r)).isSome = true

instance (r : Response) : Decidable (Opens r) :=
  inferInstanceAs (Decidable (_ ∨ _))

theorem conclude_eq (s : Site) (files : FileTree) (r : Response) :
    s.conclude files r =
      let status := Response.statusOf (some (codeFor r))
      let q := { r with target := targetFor r, code := some status.code }
      if Opens r then
        match s.open? files (targetFor r) with
        | none => (q.head ++ Response.withLength (Response.generatedPage status .noFile), q)
        | some f =>
          (q.head ++ Response.lengthLine f.data.length, { q with attached := attachmentOf f })
      else (q.head ++ Response.withLength (Response.generatedPage status .incomplete), q) := by
  have hopens : Opens r ↔ ¬ (codeFor r ≠ Status.ok.code ∧ pageOf? (codeFor r) = none) := by
    rw [Opens, Decidable.not_and_iff_or_not, Decidable.not_not, Option.isSome_iff_ne_none]
  simp only [hopens, ite_not]
  rfl

/-- What a response without an attachment is concluded as. -/
theorem response_conclude (s : Site) (files : FileTree) (ha : r.attached = none) :
    (s.conclude files r).2 = { r with
      target := targetFor r
      code := some (Response.statusOf (some (codeFor r))).code
      attached := if Opens r then (s.open? files (targetFor r)).bind attachmentOf else none } := by
  rw [conclude_eq]
  simp only
  split
  · cases s.open? files (targetFor r) with
    | none => rw [Option.bind_none, ← ha]
    | some f => rfl
  · rw [← ha]

theorem target_conclude (s : Site) (files : FileTree) (ha : r.attached = none) :
    (s.conclude files r).2.target = targetFor r := by
  rw [response_conclude s files ha]

theorem code_conclude (s : Site) (files : FileTree) (ha : r.attached = none) {status : Status}
    (hcode : codeFor r = status.code) : (s.conclude files r).2.code = some status.code := by
  rw [response_conclude s files ha]
  simp only [hcode, Response.statusOf_code]

theorem attached_conclude_of_opens (ha : r.attached = none) (h : Opens r) {f : File}
    (hopen : s.open? files (targetFor r) = some f) :
    (s.conclude files r).2.attached = attachmentOf f := by
  rw [response_conclude s files ha]
  simp only
  rw [if_pos h, hopen, Option.bind_some]

/-- Of a tree, a response is concluded from the file that is opened for it. -/
theorem conclude_eq_of_open?
    (h : Opens r → s.open? files' (targetFor r) = s.open? files (targetFor r)) :
    s.conclude files' r = s.conclude files r := by
  rw [conclude_eq, conclude_eq]
  split
  · rename_i hopens
    rw [h hopens]
  · rfl

/-- An internal error is no success and has no page. -/
theorem not_opens_internalError (r : Response) :
    ¬ Opens { r with code := some Status.internalError.code } := by
  rintro (h | h)
  · cases h
  · cases h

/-- What is opened for success is the target, and otherwise the page for the code. -/
theorem Opens.cases (h : Opens r) :
    codeFor r = Status.ok.code ∧ targetFor r = r.target ∨
      ∃ status : Status, codeFor r = status.code ∧ status.page? = some (targetFor r) := by
  rcases h with hok | hpage
  · left
    refine ⟨hok, ?_⟩
    rw [targetFor, hok]
    rfl
  · right
    obtain ⟨page, hpage⟩ := Option.isSome_iff_exists.1 hpage
    obtain ⟨status, hcode, hstatus⟩ := pageOf?_eq_some_iff.1 hpage
    refine ⟨status, hcode, ?_⟩
    rw [targetFor, hpage, hstatus]
    rfl

theorem servesPage_conclude (ha : r.attached = none) {status : Status}
    (hcode : codeFor r = status.code) (hpage : status.page? = some (targetFor r)) :
    ServesPage (s.conclude files r).2 := by
  refine ⟨status, code_conclude s files ha hcode, ?_⟩
  rw [target_conclude s files ha]
  exact hpage

theorem eq_of_attachmentOf {f : File} {m : Attachment} (h : attachmentOf f = some m) :
    m = ⟨f.serial, f.data⟩ := by
  unfold attachmentOf at h
  split at h
  · cases h
  · exact (Option.some.inj h).symm

/-- What is attached is the whole of the file that the target names. -/
theorem finds_of_attached_conclude (ha : r.attached = none) {m : Attachment}
    (hm : (s.conclude files r).2.attached = some m) :
    Opens r ∧ ∃ f, s.Finds files (s.conclude files r).2.target f ∧ m = ⟨f.serial, f.data⟩ := by
  rw [target_conclude s files ha]
  rw [response_conclude s files ha] at hm
  simp only at hm
  split at hm
  · rename_i hopens
    obtain ⟨f, hopen, hattach⟩ := Option.bind_eq_some_iff.1 hm
    exact ⟨hopens, f, finds_of_open? hopen, eq_of_attachmentOf hattach⟩
  · cases hm

/-- What a found file makes of the code. -/
theorem Finds.locate_eq {f : File} (h : s.Finds files (s.served r) f) :
    s.locate files r = { r with
      target := s.served r
      code := some (codeOf (if worldReadable f.mode then .readable else .forbidden) r.code) } := by
  rw [← h.availability_eq]
  rfl

end Answers

end Site

end HttpServer
