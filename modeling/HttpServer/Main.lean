import HttpServer.CommandLine

/-!
# The program

Looks at the files that the command speaks of, runs the command, and does what it came to: it prints,
writes the files that are new, and ends with the exit code. A host without a network serves nobody, so
serving ends as soon as it begins.
-/

namespace HttpServer

namespace Program

/-- The text of a path. -/
def pathText (path : Bytes) : String := Utf8.toText path

/-- What stands under a path. -/
def look (path : Bytes) : IO (Option FileEntry) := do
  let place := (← IO.currentDir) / pathText path
  if ← place.isDir then return some .directory
  if ← place.pathExists then
    let content ← IO.FS.readBinFile place
    return some (.file ⟨0, content.toList, FileTree.defaultMode⟩)
  return none

/-- The paths on the way to a path, and the path itself. -/
def segments (path : Bytes) : List Bytes :=
  let pieces := Path.pieces path
  (List.range pieces.length).map fun n =>
    [Bytes.slash].intercalate (pieces.take (n + 1))

/-- The tree after a change; one that cannot be made changes nothing. -/
def changed (files : FileTree) (change : FileTree.Change) : FileTree :=
  (files.apply change).toOption.getD files

/-- Takes what stands under a path, and on the way to it, into a tree of files. -/
def survey (files : FileTree) (path : Bytes) : IO FileTree :=
  (segments path).foldlM
    (fun files p => do
      match ← look p with
      | some .directory => return changed files (.directory p)
      | some (.file f) => return changed files (.write p f.data f.mode)
      | _ => return files)
    files

/-- The number of processors of which the system tells; one where it tells of none. -/
def countProcessors : IO UInt64 := do
  let told ← try IO.FS.lines "/proc/cpuinfo" catch _ => pure #[]
  let count := told.filter fun line => line.startsWith "processor"
  return max 1 (UInt64.ofNat count.size)

/-- The host of the program, with those of its files that a command speaks of. -/
def hostFor (c : Command) : IO Host := do
  let here := Utf8.encode (← IO.currentDir).toString
  let start := (FileTree.within here).toOption.getD .empty
  let files ← match c.path? with
    | some path => survey start path
    | none => pure start
  let host : Host := ⟨.isolated, ← countProcessors, files⟩
  let logFile := match c with
    | .writeConfig _ => none
    | .serve settings => ((host.settings settings).toOption.bind ServerConfig.logFile)
  match logFile with
  | some path => return { host with files := ← survey files path }
  | none => return host

/-- Writes the file under a path, if it has changed. -/
def publish (before after : FileTree) (path : Bytes) : IO Unit := do
  match after.file path with
  | .error _ => return
  | .ok f =>
    let known := (before.file path).toOption.map File.data
    if known != some f.data then
      IO.FS.writeBinFile ((← IO.currentDir) / pathText path) (ByteArray.mk f.data.toArray)

/-- Prints what a program has to say at its end. -/
def report (f : Host.Finish) : IO UInt32 := do
  (← IO.getStdout).write (ByteArray.mk f.output.toArray)
  f.complaints.forM fun line => IO.eprintln line
  return f.exitCode

/-- The file that a finished program may have written. -/
def published (c : Command) (h : Host) : Option Bytes :=
  match c with
  | .writeConfig path => some path
  | .serve settings => (h.settings settings).toOption.bind ServerConfig.logFile

end Program

end HttpServer

open HttpServer in
/-- Runs the program. -/
def main (arguments : List String) : IO UInt32 := do
  let command := Command.ofArguments (arguments.map Utf8.encode)
  let host ← Program.hostFor command
  let finish := match host.run command with
    | .finished f => f
    | .serving s => Host.interrupted s
  if let some path := Program.published command host then
    Program.publish host.files finish.files path
  Program.report finish
