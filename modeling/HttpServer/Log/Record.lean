import HttpServer.Config

/-!
# Records and the lines that they become

A record has a severity, the name of the part of the program that it comes from, and a text. Those
that pass the filter become one line each. A record passes if it is at least as severe as the filter
asks.

What is asked of a log are calls, and what its writer is told are entries. A direct log tells its
writer at once what each call asks for.
-/

namespace HttpServer

/-- How severe a record is. -/
inductive Severity where
  | error
  | warn
  | info
  | debug
  | trace
deriving DecidableEq, Repr

namespace Severity

/-- The position on the scale; the most severe comes first. -/
def rank : Severity → Nat
  | error => 1
  | warn => 2
  | info => 3
  | debug => 4
  | trace => 5

/-- All severities, the most severe first. -/
def all : List Severity := [error, warn, info, debug, trace]

/-- The name as it stands in a line. -/
def name : Severity → String
  | error => "ERROR"
  | warn => "WARN"
  | info => "INFO"
  | debug => "DEBUG"
  | trace => "TRACE"

/-- The severity with a name. -/
def ofName? (name : String) : Option Severity :=
  all.find? fun s => s.name == name

/-- The name, filled up with blanks to the longest one. -/
def label (s : Severity) : String :=
  s.name ++ String.ofList (List.replicate (5 - s.name.length) ' ')

end Severity

/-- The least severe records that pass; with none, no record passes. -/
abbrev LogFilter := Option Severity

namespace LogFilter

/-- A severity passes. -/
def passes (f : LogFilter) (s : Severity) : Bool :=
  match f with
  | none => false
  | some least => s.rank ≤ least.rank

end LogFilter

/-- The filter of a configured level. -/
def LogLevel.filter : LogLevel → LogFilter
  | .debug => some .debug
  | .info => some .info
  | .warn => some .warn
  | .error => some .error

/-- What is logged. -/
structure LogRecord where
  severity : Severity
  target : String
  message : String
deriving DecidableEq, Repr

namespace LogRecord

/-- The line of a record that was logged at a time. -/
def line (r : LogRecord) (time : String) : String :=
  time ++ " [" ++ r.severity.label ++ "] " ++ r.target ++ ": " ++ r.message ++ "\n"

end LogRecord

/-- What is asked of a log. -/
inductive LogCall where
  | log (record : LogRecord) (time : String)
  | flush
deriving DecidableEq, Repr

/-- What a writer is told. -/
inductive LogEntry where
  | line (text : String)
  | flush
deriving DecidableEq, Repr

namespace LogEntry

/-- The text of a line. -/
def text? : LogEntry → Option String
  | line t => some t
  | flush => none

/-- The lines among entries. -/
def lines (es : List LogEntry) : List String :=
  es.filterMap text?

end LogEntry

namespace LogCall

/-- What a call tells the writer; a record that does not pass tells it nothing. -/
def entry? (f : LogFilter) : LogCall → Option LogEntry
  | log r time => if f.passes r.severity then some (.line (r.line time)) else none
  | flush => some .flush

end LogCall

/-- What a direct log has written after some calls. -/
def directLog (f : LogFilter) (calls : List LogCall) : List LogEntry :=
  calls.filterMap (LogCall.entry? f)

@[simp] theorem directLog_append (f : LogFilter) (a b : List LogCall) :
    directLog f (a ++ b) = directLog f a ++ directLog f b := by
  simp [directLog]

end HttpServer
