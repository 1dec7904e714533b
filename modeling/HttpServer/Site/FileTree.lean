import HttpServer.Error
import HttpServer.Site.LocationMap
import HttpServer.Site.Path

/-!
# A tree of files

The tree holds directories, regular files with their permission bits, and symbolic links. Every
entry is kept at its location. A file keeps its serial number as long as it is only written to; one
that is made anew under the same name has another.

A path that opens with a slash is walked from the root, any other from the working directory, piece
by piece. Each piece asks that the place reached so far is a directory, so a slash behind the name of
a file leads nowhere. Empty pieces and single dots stay, two dots climb, and a link is replaced by the
pieces of its target, which are walked from the link's own directory. No more than forty links are
followed on one walk.

A walk has a purpose. One that may end at a new file does not accept a name with a slash behind it,
since only a directory can have one. One that is for an entry itself does not follow a link that the
path ends in. Files belong to the program, so it may read or write one if the owner may.
-/

namespace HttpServer

/-- A regular file. -/
structure File where
  /-- Tells files apart that have had the same name. -/
  serial : Nat
  data : Bytes
  mode : Nat
deriving DecidableEq, Repr

namespace File

/-- The permission bit that lets the owner read. -/
def ownerRead : Nat := 0o400

/-- The permission bit that lets the owner write. -/
def ownerWrite : Nat := 0o200

/-- The owner may read the file. -/
def isReadable (f : File) : Bool := f.mode &&& ownerRead != 0

/-- The owner may write the file. -/
def isWritable (f : File) : Bool := f.mode &&& ownerWrite != 0

end File

/-- What a name can stand for. -/
inductive FileEntry where
  | file (f : File)
  | directory
  | link (target : Bytes)
deriving DecidableEq, Repr

/-- A tree of files. -/
structure FileTree where
  entries : LocationMap FileEntry
  /-- The serial number of the next new file. -/
  nextSerial : Nat
  /-- The directory from which paths without a slash in front are walked. -/
  workingDirectory : Location
deriving Repr

namespace FileTree

/-- The tree with a root and nothing else. -/
def empty : FileTree := ⟨.empty, 0, []⟩

instance : Inhabited FileTree := ⟨empty⟩

/-- The entry at a location; the root is a directory. -/
def lookup? (t : FileTree) (l : Location) : Option FileEntry :=
  if l = [] then some .directory else t.entries.find? l

/-- The tree with an entry set. -/
def set (t : FileTree) (l : Location) (e : FileEntry) : FileTree :=
  { t with entries := t.entries.set e l }

/-- The tree without an entry and all that lies below it. -/
def erase (t : FileTree) (l : Location) : FileTree :=
  { t with entries := t.entries.erase l }

/-- The longest name. -/
def greatestName : Nat := 255

/-- The longest path. -/
def greatestPath : Nat := 4095

/-- The links that one walk may follow. -/
def greatestLinks : Nat := 40

/-- Where a walk ends: at an entry, or at a name that is still free in its directory. -/
inductive Place where
  | found (l : Location)
  | free (l : Location)
deriving DecidableEq, Repr

/-- The end of a walk, and the number of links that it might still have followed. -/
structure Arrival where
  place : Place
  links : Nat
deriving DecidableEq, Repr

/-- What a walk is for. -/
inductive Purpose where
  /-- For what a path stands for. -/
  | finding
  /-- For a file, or the name for a new one. -/
  | making
  /-- For an entry itself, which may be a link. -/
  | naming
deriving DecidableEq, Repr

/-- Only slashes are left of a path, and at least one. -/
def onlySlashesLeft (rest : List Bytes) : Prop :=
  rest ≠ [] ∧ ∀ piece ∈ rest, piece = []

instance (rest : List Bytes) : Decidable (onlySlashesLeft rest) :=
  inferInstanceAs (Decidable (_ ∧ _))

/-- Walks on from `dir` along the pieces of a path, following at most `links` links. -/
def walk (t : FileTree) (purpose : Purpose) (links : Nat) (dir : Location) (pieces : List Bytes) :
    Except OsError Arrival :=
  match pieces with
  | [] => .ok ⟨.found dir, links⟩
  | name :: rest =>
    if t.lookup? dir ≠ some .directory then .error .notADirectory
    else if name = [] ∨ name = Path.here then t.walk purpose links dir rest
    else if name = Path.parent then t.walk purpose links dir.dropLast rest
    else if purpose = .making ∧ onlySlashesLeft rest then .error .isADirectory
    else if greatestName < name.length then .error .nameTooLong
    else
      match t.lookup? (dir ++ [name]) with
      | none => if rest = [] then .ok ⟨.free (dir ++ [name]), links⟩ else .error .noSuchFile
      | some (.link target) =>
        if purpose = .naming ∧ rest = [] then .ok ⟨.found (dir ++ [name]), links⟩
        else
          match links with
          | 0 => .error .tooManyLinks
          | links + 1 =>
            let base := if target.head? = some Bytes.slash then [] else dir
            t.walk purpose links base (Path.pieces target ++ rest)
      | some _ => t.walk purpose links (dir ++ [name]) rest
termination_by (links, pieces.length)

/-- Where the walk along a path starts. -/
def start (t : FileTree) (path : Bytes) : Location :=
  if path.head? = some Bytes.slash then [] else t.workingDirectory

/-- Whether a path can be walked at all. -/
def checkPath (path : Bytes) : Except IoError Unit :=
  if 0 ∈ path then .error .zeroByte
  else if path = [] then .error (.os .noSuchFile)
  else if greatestPath < path.length then .error (.os .nameTooLong)
  else .ok ()

/-- Where a path leads. -/
def place (t : FileTree) (purpose : Purpose) (path : Bytes) : Except IoError Place := do
  checkPath path
  match t.walk purpose greatestLinks (t.start path) (Path.pieces path) with
  | .error e => .error (.os e)
  | .ok arrival => .ok arrival.place

/-- What a path names. -/
def stat (t : FileTree) (path : Bytes) : Except IoError FileEntry :=
  match t.place .finding path with
  | .error e => .error e
  | .ok (.free _) => .error (.os .noSuchFile)
  | .ok (.found l) =>
    match t.lookup? l with
    | some e => .ok e
    | none => .error (.os .noSuchFile)

/-- A path names something. -/
def exists? (t : FileTree) (path : Bytes) : Bool :=
  (t.stat path).toOption.isSome

/-- The file that a path names, to be read. -/
def file (t : FileTree) (path : Bytes) : Except IoError File :=
  match t.stat path with
  | .error e => .error e
  | .ok (.file f) => if f.isReadable then .ok f else .error (.os .permissionDenied)
  | .ok _ => .error (.os .isADirectory)

/-- The file with a serial number. -/
def fileOfSerial? (t : FileTree) (serial : Nat) : Option File :=
  t.entries.values.findSome? fun e =>
    match e with
    | .file f => if f.serial = serial then some f else none
    | _ => none

/-- The permissions of a file about which nothing was said. -/
def defaultMode : Nat := 0o644

/-- Makes a new file. -/
def create (t : FileTree) (l : Location) (data : Bytes) : FileTree :=
  { t.set l (.file ⟨t.nextSerial, data, defaultMode⟩) with nextSerial := t.nextSerial + 1 }

/-- Changes the content of a file that is there, or makes a new file where its directory is
there. -/
def update (t : FileTree) (path : Bytes) (change : Bytes → Bytes) : Except IoError FileTree :=
  match t.place .making path with
  | .error e => .error e
  | .ok (.free l) => .ok (t.create l (change []))
  | .ok (.found l) =>
    match t.lookup? l with
    | some (.file f) =>
      if f.isWritable then .ok (t.set l (.file { f with data := change f.data }))
      else .error (.os .permissionDenied)
    | _ => .error (.os .isADirectory)

/-- Writes a file anew. -/
def write (t : FileTree) (path data : Bytes) : Except IoError FileTree :=
  t.update path fun _ => data

/-- Opens a file to append to. -/
def touch (t : FileTree) (path : Bytes) : Except IoError FileTree :=
  t.update path id

/-- Sets the permissions of a file. -/
def setMode (t : FileTree) (path : Bytes) (mode : Nat) : FileTree :=
  match t.place .finding path with
  | .ok (.found l) =>
    match t.lookup? l with
    | some (.file f) => t.set l (.file { f with mode := mode })
    | _ => t
  | _ => t

/-- A tree on the way to a directory: the directory reached so far, and the number of links that may
still be followed. -/
structure Descent where
  tree : FileTree
  dir : Location
  links : Nat

/-- One name further, where a directory is made if nothing is there. -/
def Descent.makeDirectory (d : Descent) (name : Bytes) : Except IoError Descent :=
  match d.tree.walk .naming d.links d.dir [name] with
  | .error e => .error (.os e)
  | .ok ⟨.free l, links⟩ => .ok ⟨d.tree.set l .directory, l, links⟩
  | .ok ⟨.found _, _⟩ =>
    match d.tree.walk .finding d.links d.dir [name] with
    | .ok ⟨.found l, links⟩ =>
      if d.tree.lookup? l = some .directory then .ok ⟨d.tree, l, links⟩
      else .error (.os .fileExists)
    | _ => .error (.os .fileExists)

/-- The tree with a directory at the end of each part of some components. -/
def makeDirectories (t : FileTree) (start : Location) (components : List Bytes) :
    Except IoError FileTree := do
  let d ← components.foldlM Descent.makeDirectory ⟨t, start, greatestLinks⟩
  return d.tree

/-- The tree with an entry under a name that is free. -/
def addEntry (t : FileTree) (path : Bytes) (e : FileEntry) : Except IoError FileTree :=
  match t.place .naming path with
  | .error e => .error e
  | .ok (.free l) => .ok (t.set l e)
  | .ok (.found _) => .error (.os .fileExists)

/-- The tree without the file or link that a path names. -/
def delete (t : FileTree) (path : Bytes) : Except IoError FileTree :=
  match t.place .naming path with
  | .error e => .error e
  | .ok (.free _) => .error (.os .noSuchFile)
  | .ok (.found l) =>
    if t.lookup? l = some .directory then .error (.os .isADirectory) else .ok (t.erase l)

/-- The tree in which a directory is the working directory. -/
def enter (t : FileTree) (path : Bytes) : Except IoError FileTree :=
  match t.place .finding path with
  | .error e => .error e
  | .ok (.free _) => .error (.os .noSuchFile)
  | .ok (.found l) =>
    if t.lookup? l = some .directory then .ok { t with workingDirectory := l }
    else .error (.os .notADirectory)

/-- A change to a tree. -/
inductive Change where
  | write (path data : Bytes) (mode : Nat)
  | directory (path : Bytes)
  | link (path target : Bytes)
  | delete (path : Bytes)
deriving Repr

namespace Change

/-- The path at which something changes. -/
def path : Change → Bytes
  | write path _ _ => path
  | directory path => path
  | link path _ => path
  | delete path => path

/-- The components of the directories that have to be there before the change. -/
def directories : Change → List Bytes
  | write path _ _ => (Path.components path).dropLast
  | directory path => Path.components path
  | link path _ => (Path.components path).dropLast
  | delete _ => []

end Change

/-- The tree after a change. Directories that are missing on the way are made. -/
def apply (t : FileTree) (change : Change) : Except IoError FileTree := do
  checkPath change.path
  let t ← t.makeDirectories (t.start change.path) change.directories
  match change with
  | .write path data mode => return (← t.write path data).setMode path mode
  | .directory _ => return t
  | .link path target =>
    checkPath target
    t.addEntry path (.link target)
  | .delete path => t.delete path

/-- The tree after some changes, one after the other. -/
def applyAll (t : FileTree) (changes : List Change) : Except IoError FileTree :=
  changes.foldlM apply t

/-- The tree with a working directory and nothing else. -/
def within (path : Bytes) : Except IoError FileTree := do
  (← empty.apply (.directory path)).enter path

@[simp] theorem lookup?_nil (t : FileTree) : t.lookup? [] = some .directory := by
  simp [lookup?]

theorem lookup?_set {t : FileTree} {l : Location} {e : FileEntry} (hl : l ≠ []) (m : Location) :
    (t.set l e).lookup? m = if m = l then some e else t.lookup? m := by
  unfold lookup? set
  by_cases h0 : m = []
  · subst h0
    simp [Ne.symm hl]
  · simp only [h0, if_false, LocationMap.find?_set]

end FileTree

end HttpServer
