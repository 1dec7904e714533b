import HttpServer.Reactor

/-!
# Runs of a reactor

A run is any sequence of steps, each of them taken as a whole: a client is taken in or turned away,
an event is attended to, a worker runs a job under the lock of its connection to its end or until a
handler panics, timers expire, and notices are attended to. Timers and notices are taken one at a
time or all that are there at once. The steps may come in any order, and nothing is asked of the
events and of the jobs but that the system does not give out a descriptor that an open connection
still has.

`Logged` runs also remember what became of each client. A reactor returns when it is told to shut
down or cannot ask for events any more; in either case the workers come to an end first.

`Timed` runs also follow a clock that does not run backwards, and remember when there was last some
activity on each connection: when it was made, or when it was found ready for reading or writing.
-/

namespace HttpServer

namespace Reactor

/-- A step of a reactor, of a worker or of a timer. -/
inductive Step where
  | accept (now : Nat) (descriptor : Int) (registers : Bool)
  | dispatch (now : Nat) (e : Event)
  | perform (files : FileTree) (job : Job) (conduct : Conduct)
  | unwind (job : Job) (conduct : Conduct)
  | expireNext (now : Nat)
  | expire (now : Nat)
  | applyNext
  | applyClosed

/-- The time of a step, if it looks at the clock. -/
def Step.time? : Step → Option Nat
  | .accept now _ _ => some now
  | .dispatch now _ => some now
  | .expireNext now => some now
  | .expire now => some now
  | _ => none

/-- The reactor after a step, unless the step cannot be made. -/
def step (r : Reactor) : Step → Option Reactor
  | .accept now d registers => if r.holds d then none else some (r.accept now d registers).2
  | .dispatch now e => some (r.dispatch now e).2
  | .perform files job conduct => some (r.perform files job conduct).2
  | .unwind job conduct => r.unwind job conduct
  | .expireNext now => r.expireNext now
  | .expire now => some (r.expire now).2
  | .applyNext => r.applyNext
  | .applyClosed => some r.applyClosed

/-- What a reactor can come to. -/
inductive Reachable (settings : ReactorSettings) : Reactor → Prop where
  | start : Reachable settings (fresh settings)
  | step {r q : Reactor} (s : Step) :
      Reachable settings r → r.step s = some q → Reachable settings q

/-- What becomes of the client of a step. -/
def admission? (r : Reactor) : Step → Option Admission
  | .accept now d registers => some (r.accept now d registers).1
  | _ => none

/-- What a reactor can come to, with what became of its clients. -/
inductive Logged (settings : ReactorSettings) : List Admission → Reactor → Prop where
  | start : Logged settings [] (fresh settings)
  | step {r q : Reactor} {admissions : List Admission} (s : Step) :
      Logged settings admissions r → r.step s = some q →
      Logged settings (admissions ++ (r.admission? s).toList) q

/-- What a reactor returns, and what it has come to then. -/
inductive Returned (r : Reactor) : Except ServerError Unit → Reactor → Prop where
  /-- It was told to shut down. -/
  | shutDown (rest : List (FileTree × Job × Conduct)) : Returned r (.ok ()) (r.windUp rest)
  /-- It could not ask for events. -/
  | pollFailed (rest : List (FileTree × Job × Conduct)) (e : IoError) :
      Returned r (.error (.io e)) (r.windUp rest)

/-- The connection for which a step is an activity. -/
def active? (r : Reactor) : Step → Option Nat
  | .accept _ _ registers => if !r.isFull && registers then some r.links.length else none
  | .dispatch _ e =>
    if !e.isHangup && (e.isReadable || e.isWritable) then r.occupant? e.descriptor else none
  | _ => none

/-- The times of the last activity after a step at a time. -/
def activityAfter (r : Reactor) (activity : Nat → Nat) (now : Nat) (s : Step) : Nat → Nat :=
  fun id => if r.active? s = some id then now else activity id

/-- What a reactor can come to by a time, its clock not running backwards, with the times of the last
activity. -/
inductive Timed (settings : ReactorSettings) : Nat → (Nat → Nat) → Reactor → Prop where
  | start : Timed settings 0 (fun _ => 0) (fresh settings)
  | step {r q : Reactor} {now : Nat} {activity : Nat → Nat} (s : Step) :
      Timed settings now activity r → (∀ t ∈ s.time?, now ≤ t) → r.step s = some q →
      Timed settings (s.time?.getD now) (r.activityAfter activity (s.time?.getD now) s) q

theorem Logged.reachable {settings : ReactorSettings} {admissions : List Admission} {r : Reactor}
    (h : Logged settings admissions r) : Reachable settings r := by
  induction h with
  | start => exact .start
  | step s _ hs ih => exact .step s ih hs

theorem Timed.reachable {settings : ReactorSettings} {now : Nat} {activity : Nat → Nat} {r : Reactor}
    (h : Timed settings now activity r) : Reachable settings r := by
  induction h with
  | start => exact .start
  | step s _ _ hs ih => exact .step s ih hs

end Reactor

end HttpServer
