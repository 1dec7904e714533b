import HttpServer.Bytes

/-!
# Status codes

The codes that a response can end with, the phrase that goes with each, and the page that is served
in place of the requested file for the three codes that have one. A code outside the list has
neither.
-/

namespace HttpServer

/-- What a response reports. -/
inductive Status where
  | ok
  | badRequest
  | forbidden
  | notFound
  | internalError
deriving DecidableEq, Repr

namespace Status

/-- The number in the status line. -/
def code : Status → Nat
  | ok => 200
  | badRequest => 400
  | forbidden => 403
  | notFound => 404
  | internalError => 500

/-- The status with a given number. -/
def ofCode? (n : Nat) : Option Status :=
  match n with
  | 200 => some ok
  | 400 => some badRequest
  | 403 => some forbidden
  | 404 => some notFound
  | 500 => some internalError
  | _ => none

/-- The phrase behind the number. -/
def reason : Status → String
  | ok => "OK"
  | badRequest => "Bad Request"
  | forbidden => "Forbidden"
  | notFound => "Not Found"
  | internalError => "Internal Server Error"

/-- The page served in place of the requested file. -/
def page? : Status → Option Bytes
  | badRequest => some (Bytes.ascii "/400.html")
  | forbidden => some (Bytes.ascii "/403.html")
  | notFound => some (Bytes.ascii "/404.html")
  | _ => none

@[simp] theorem ofCode?_code (s : Status) : ofCode? s.code = some s := by
  cases s <;> rfl

theorem ofCode?_eq_some_iff {n : Nat} {s : Status} : ofCode? n = some s ↔ n = s.code := by
  constructor
  · intro h
    unfold ofCode? at h
    split at h <;> simp_all [code] <;> (subst h; rfl)
  · rintro rfl
    exact ofCode?_code s

theorem code_injective {s t : Status} (h : s.code = t.code) : s = t := by
  have := congrArg ofCode? h
  simpa using this

end Status

end HttpServer
