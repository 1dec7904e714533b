import HttpServer.Proofs.Site.Paths
import HttpServer.Proofs.Site.Walks
import HttpServer.Site

/-!
# What a site looks at

While a response is built, at most two paths are looked at: one that is asked for what it names, and
one that is opened. `looks` lists them, and `answer_congr` says that nothing is missing in the list:
a tree that shows the same there gets the same answer. All of them come from `resolve?`, which puts
the target, without the slashes in front, behind the root and refuses it if it climbs. So each of
them is `Confined`, and where no name is a link it leads to a place at or below the one where the
root leads.
-/

namespace HttpServer

namespace Site

/-- A path that is looked at. -/
inductive Look where
  | asked (path : Bytes)
  | opened (path : Bytes)
deriving DecidableEq, Repr

def Look.path : Look → Bytes
  | asked path => path
  | opened path => path

/-- Two trees show the same at a path. -/
def Look.Agrees (files files' : FileTree) : Look → Prop
  | asked path => files.stat path = files'.stat path
  | opened path => files.file path = files'.file path

/-- The target under which a response is served. -/
def served (s : Site) (r : Response) : Bytes :=
  (s.routes.alias? r.target).getD r.target

/-- What is looked at to decide the code of a response. -/
def looksOfLocate (s : Site) (r : Response) : List Look :=
  (s.resolve? (s.served r)).toList.map .asked

/-- What is looked at once the code of a response is settled. -/
def looksOfConclude (s : Site) (r : Response) : List Look :=
  let code := r.code.getD Status.badRequest.code
  let page := pageOf? code
  if code ≠ Status.ok.code ∧ page = none then []
  else (s.resolve? (page.getD r.target)).toList.map .opened

/-- What is looked at while a response is built. -/
def looks (s : Site) (files : FileTree) (request : Request) (response : Response) : List Look :=
  let r := response.detach
  match s.handlerFor? r with
  | some h =>
    if (h request).succeeded then []
    else s.looksOfConclude { r with code := some Status.internalError.code }
  | none => s.looksOfLocate r ++ s.looksOfConclude (s.locate files r)

/-- A path is the root and behind it, with a slash between if the root does not end in one, a path
that does not open with a slash and has no piece that climbs. -/
def Confined (root path : Bytes) : Prop :=
  ∃ p, path = root ++ Path.separator root ++ p ∧ p.head? ≠ some Bytes.slash ∧
    Path.parent ∉ Path.pieces p

section Resolve

variable {s : Site} {target path : Bytes}

theorem resolve?_eq (s : Site) (target : Bytes) :
    s.resolve? target =
      if Path.parent ∈ Path.pieces target then none
      else some (s.root ++ Path.separator s.root ++ Path.relative target) := by
  have hclimbs : Path.climbs (Path.relative target) ↔ Path.parent ∈ Path.pieces target :=
    Path.parent_mem_pieces_iff.symm.trans (Path.parent_mem_pieces_relative target)
  unfold resolve?
  simp only [hclimbs, Path.join_eq (Path.head?_relative_ne target)]

/-- A target is refused exactly if a piece of it climbs. -/
theorem resolve?_eq_none_iff : s.resolve? target = none ↔ Path.parent ∈ Path.pieces target := by
  rw [resolve?_eq]
  split
  · rename_i h
    exact ⟨fun _ => h, fun _ => rfl⟩
  · rename_i h
    exact ⟨fun hsome => (by cases hsome), fun hmem => absurd hmem h⟩

theorem confined_of_resolve? (h : s.resolve? target = some path) : Confined s.root path := by
  rw [resolve?_eq] at h
  split at h
  · cases h
  · rename_i hparent
    cases h
    refine ⟨Path.relative target, rfl, Path.head?_relative_ne target, ?_⟩
    rwa [Path.parent_mem_pieces_relative]

/-- The path of a target, as a text and in its components. -/
theorem eq_of_resolve? (h : s.resolve? target = some path) :
    path = s.root ++ Path.separator s.root ++ Path.relative target ∧
      Path.components path = Path.components s.root ++ Path.components target := by
  rw [resolve?_eq] at h
  split at h
  · cases h
  · cases h
    rw [Path.components_append_separator, Path.components_relative]
    exact ⟨rfl, rfl⟩

end Resolve

section Looks

variable {s : Site} {files files' : FileTree} {r : Response}

theorem availability_congr {target : Bytes}
    (h : ∀ path, s.resolve? target = some path → files.stat path = files'.stat path) :
    s.availability files target = s.availability files' target := by
  unfold availability
  cases hpath : s.resolve? target with
  | none => rfl
  | some path => simp only [h path hpath]

theorem open?_congr {target : Bytes}
    (h : ∀ path, s.resolve? target = some path → files.file path = files'.file path) :
    s.open? files target = s.open? files' target := by
  unfold open?
  cases hpath : s.resolve? target with
  | none => rfl
  | some path => simp only [Option.bind_some, h path hpath]

theorem locate_congr (h : ∀ k ∈ s.looksOfLocate r, k.Agrees files files') :
    s.locate files r = s.locate files' r := by
  have ha : s.availability files (s.served r) = s.availability files' (s.served r) := by
    refine availability_congr fun path hpath => h (.asked path) ?_
    unfold looksOfLocate
    rw [hpath]
    exact List.mem_cons_self
  unfold served at ha
  unfold locate
  simp only [ha]

theorem conclude_congr (h : ∀ k ∈ s.looksOfConclude r, k.Agrees files files') :
    s.conclude files r = s.conclude files' r := by
  unfold looksOfConclude at h
  unfold conclude
  simp only at h ⊢
  split
  · rfl
  · rename_i hcode
    rw [if_neg hcode] at h
    rw [open?_congr fun path hpath => h (.opened path) ?_]
    rw [hpath]
    exact List.mem_cons_self

/-- Nothing else is looked at: a tree that shows the same there gets the same answer. -/
theorem answer_congr {request : Request}
    (h : ∀ k ∈ s.looks files request r, k.Agrees files files') :
    s.answer files' request r = s.answer files request r := by
  unfold looks at h
  unfold answer
  simp only at h ⊢
  -- a handler settles the code and the tree is not asked, or the tree settles it
  split
  · rename_i handler hhandler
    rw [hhandler] at h
    simp only at h
    split
    · rfl
    · rename_i hfails
      rw [if_neg hfails] at h
      rw [conclude_congr h]
  · rename_i hhandler
    rw [hhandler] at h
    simp only [List.forall_mem_append] at h
    obtain ⟨hlocate, hconclude⟩ := h
    rw [← locate_congr hlocate, conclude_congr hconclude]

theorem resolve?_of_mem {make : Bytes → Look} (hmake : ∀ path, (make path).path = path)
    {target : Bytes} {k : Look} (h : k ∈ (s.resolve? target).toList.map make) :
    s.resolve? target = some k.path := by
  obtain ⟨path, hpath, rfl⟩ := List.mem_map.1 h
  rw [hmake]
  exact Option.mem_toList.1 hpath

theorem exists_resolve?_of_mem_looksOfConclude {k : Look} (h : k ∈ s.looksOfConclude r) :
    ∃ target, s.resolve? target = some k.path := by
  unfold looksOfConclude at h
  simp only at h
  split at h
  · exact absurd h List.not_mem_nil
  · exact ⟨_, resolve?_of_mem (fun _ => rfl) h⟩

theorem exists_resolve?_of_mem_looks {request : Request} {k : Look}
    (h : k ∈ s.looks files request r) : ∃ target, s.resolve? target = some k.path := by
  unfold looks at h
  simp only at h
  split at h
  · split at h
    · exact absurd h List.not_mem_nil
    · exact exists_resolve?_of_mem_looksOfConclude h
  · rcases List.mem_append.1 h with hk | hk
    · exact ⟨_, resolve?_of_mem (fun _ => rfl) hk⟩
    · exact exists_resolve?_of_mem_looksOfConclude hk

end Looks

section Trees

variable {root path : Bytes} {files : FileTree} {e : FileEntry}

/-- A confined path is walked from where the root is walked from. -/
theorem Confined.start_eq (h : Confined root path) : files.start path = files.start root := by
  obtain ⟨p, rfl, hp, -⟩ := h
  unfold FileTree.start
  cases root with
  | nil =>
      have hpath : [] ++ Path.separator [] ++ p = p := rfl
      rw [hpath, if_neg hp]
      rfl
  | cons b root => rfl

/-- Where no name is a link, the root leads to a directory, and a confined path to that directory or
below it. -/
theorem Confined.below (h : Confined root path) (ht : files.Linkless)
    (hs : files.stat path = .ok e) :
    ∃ base rest,
      files.walk .finding FileTree.greatestLinks (files.start root) (Path.pieces root) =
        .ok ⟨.found base, FileTree.greatestLinks⟩ ∧
      files.lookup? base = some .directory ∧ files.lookup? (base ++ rest) = some e := by
  obtain ⟨-, l, hleads, hl⟩ := (FileTree.stat_eq_ok_iff ht).1 hs
  rw [h.start_eq] at hleads
  obtain ⟨p, rfl, hp, hparent⟩ := h
  obtain ⟨front, hwhole, hroot⟩ := Path.exists_pieces_append_separator root p
  rw [hwhole, FileTree.leads_append_iff] at hleads
  obtain ⟨base, hbase, hrest⟩ := hleads
  obtain ⟨rest, rfl⟩ := hrest.descends hparent
  have hdir : files.lookup? base = some .directory := by
    obtain ⟨first, pieces, hpieces⟩ := List.exists_cons_of_ne_nil (Path.pieces_ne_nil p)
    rw [hpieces] at hrest
    exact hrest.directory
  refine ⟨base, rest, (FileTree.walk_eq_found_iff ht).2 ⟨rfl, ?_⟩, hdir, hl⟩
  rcases hroot with hroot | hroot
  · rw [hroot]
    exact hbase
  · -- the root ends in a slash, which asks for the directory that the path needs, too
    rw [hroot, FileTree.leads_append_iff]
    exact ⟨base, hbase, .stay hdir (Or.inl rfl) (.done base)⟩

end Trees

/-- While a response is built, for whatever target and whatever code was settled beforehand, a site
looks only at the root with a path behind it that does not climb. In a tree without links all that
it reaches is the directory to which the root leads, or lies below it. A target is refused exactly
if one of its pieces climbs; any other gets the path whose components are those of the root and then
its own. -/
theorem looks_confined (s : Site) (files : FileTree) (request : Request) (response : Response) :
    (∀ files', (∀ k ∈ s.looks files request response, k.Agrees files files') →
      s.answer files' request response = s.answer files request response) ∧
    (∀ k ∈ s.looks files request response, Confined s.root k.path) ∧
    (files.Linkless → ∀ k ∈ s.looks files request response, ∀ e, files.stat k.path = .ok e →
      ∃ base rest,
        files.walk .finding FileTree.greatestLinks (files.start s.root) (Path.pieces s.root) =
          .ok ⟨.found base, FileTree.greatestLinks⟩ ∧
        files.lookup? base = some .directory ∧ files.lookup? (base ++ rest) = some e) ∧
    ∀ target,
      (s.resolve? target = none ↔ Path.parent ∈ Path.pieces target) ∧
      ∀ path, s.resolve? target = some path →
        path = s.root ++ Path.separator s.root ++ Path.relative target ∧
        Path.components path = Path.components s.root ++ Path.components target := by
  have hconfined : ∀ k ∈ s.looks files request response, Confined s.root k.path := by
    intro k hk
    obtain ⟨target, htarget⟩ := exists_resolve?_of_mem_looks hk
    exact confined_of_resolve? htarget
  refine ⟨fun files' h => answer_congr h, hconfined, ?_, fun target => ?_⟩
  · intro ht k hk e he
    exact (hconfined k hk).below ht he
  · exact ⟨resolve?_eq_none_iff, fun path h => eq_of_resolve? h⟩

/-- A tree with one file in one directory. -/
def pantry : FileTree :=
  (FileTree.empty.set [Bytes.ascii "srv"] .directory).set [Bytes.ascii "srv", Bytes.ascii "a"]
    (.file ⟨0, Bytes.ascii "x", FileTree.defaultMode⟩)

theorem linkless_pantry : pantry.Linkless := by
  refine FileTree.Linkless.set (FileTree.Linkless.set FileTree.linkless_empty ?_ ?_) ?_ ?_
  · exact List.cons_ne_nil _ _
  · intro target h
    cases h
  · exact List.cons_ne_nil _ _
  · intro target h
    cases h

theorem stat_pantry : pantry.stat (Bytes.ascii "/srv/./a") =
    .ok (.file ⟨0, Bytes.ascii "x", FileTree.defaultMode⟩) := by
  have hcheck : FileTree.checkPath (Bytes.ascii "/srv/./a") = .ok () := by rfl
  have hpieces : Path.pieces (Bytes.ascii "/srv/./a") =
      [[], Bytes.ascii "srv", Path.here, Bytes.ascii "a"] := by decide +kernel
  have hroot : pantry.lookup? [] = some .directory := rfl
  have hsrv : pantry.lookup? [Bytes.ascii "srv"] = some .directory := by decide +kernel
  have hfile : pantry.lookup? [Bytes.ascii "srv", Bytes.ascii "a"] =
      some (.file ⟨0, Bytes.ascii "x", FileTree.defaultMode⟩) := by decide +kernel
  refine (FileTree.stat_eq_ok_iff linkless_pantry).2
    ⟨hcheck, [Bytes.ascii "srv", Bytes.ascii "a"], ?_, hfile⟩
  rw [hpieces]
  have hstart : pantry.start (Bytes.ascii "/srv/./a") = [] := by decide +kernel
  rw [hstart]
  refine .stay hroot (Or.inl rfl) (.enter hroot (by decide) (by decide) (by decide) hsrv ?_)
  exact .stay hsrv (Or.inr rfl) (.enter hsrv (by decide) (by decide) (by decide) hfile (.done _))

/-- Slashes in front and dots do not lead away from the root. -/
theorem looks_confined_pantry :
    let site : Site := ⟨Bytes.ascii "/srv/", Routes.empty⟩
    let response := Response.blank.begin (Bytes.ascii "//./a") false none
    let file : File := ⟨0, Bytes.ascii "x", FileTree.defaultMode⟩
    pantry.Linkless ∧
      .asked (Bytes.ascii "/srv/./a") ∈ site.looks pantry Request.blank response ∧
      pantry.stat (Bytes.ascii "/srv/./a") = .ok (.file file) ∧
      ∃ base rest, pantry.walk .finding FileTree.greatestLinks [] (Path.pieces site.root) =
          .ok ⟨.found base, FileTree.greatestLinks⟩ ∧
        pantry.lookup? base = some .directory ∧
        pantry.lookup? (base ++ rest) = some (.file file) := by
  intro site response file
  have hmem : .asked (Bytes.ascii "/srv/./a") ∈ site.looks pantry Request.blank response := by
    decide +kernel
  exact ⟨linkless_pantry, hmem, stat_pantry,
    (looks_confined site pantry Request.blank response).2.2.1 linkless_pantry _ hmem _ stat_pantry⟩

end Site

end HttpServer
