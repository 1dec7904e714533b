import HttpServer.Log.Queue
import HttpServer.Site.FileTree

/-!
# The log of a process

A process has one logger. It writes to a file, which is opened first, or else to the standard error:
directly where no record may wait, and otherwise through a queue.
-/

namespace HttpServer

/-- What a log has written after some calls and a last flush: a direct one where nothing may wait,
and otherwise a queued one. -/
def logged (f : LogFilter) (capacity : Nat) (calls : List LogCall) : List LogEntry :=
  let calls := calls ++ [.flush]
  if capacity = 0 then directLog f calls
  else (calls.foldl QueuedLog.perform (QueuedLog.fresh f capacity)).written

namespace Log

/-- Opens the log file of a process and installs its logger, of which there can be one. The file is
opened first; where there is none, the log goes to the standard error. -/
def install (installed : Bool) (files : FileTree) (file : Option Bytes) :
    Except ServerError FileTree :=
  let opened : Except IoError FileTree :=
    match file with
    | none => .ok files
    | some path => files.touch path
  match opened with
  | .error e => .error (.io e)
  | .ok files => if installed then .error .loggerInstalled else .ok files

end Log

end HttpServer
