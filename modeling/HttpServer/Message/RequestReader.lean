import HttpServer.Buffer
import HttpServer.Message.Request

/-!
# Reading a request as it arrives

A request arrives in pieces. The reader takes every complete line out of what has arrived: the start
line, then headers up to an empty line. A request that carries a body then waits until the body and
the line break behind it are there, no byte less and no byte more; the body is looked at but stays
where it is. Any line that breaks its rule fails the request, and so does a body that is longer than
announced, or announced as JSON and is not.

`advance` works on the bytes that have arrived and says how many are left; `read` applies it to a
buffer.
-/

namespace HttpServer

/-- How far a request has been read. -/
inductive Phase where
  | startLine
  | headers
  | body
  | done
  | failed
deriving DecidableEq, Repr

/-- What one attempt to read on came to. -/
inductive Outcome where
  | success
  /-- More has to arrive; what was read so far is kept. -/
  | incomplete
  | error
deriving DecidableEq, Repr

/-- A request that is being read. -/
structure RequestReader where
  phase : Phase
  request : Request

namespace RequestReader

/-- Nothing was read. -/
def start : RequestReader :=
  ⟨.startLine, Request.blank⟩

instance : Inhabited RequestReader := ⟨start⟩

/-- The request was read to its end, or failed. -/
def isFinished (r : RequestReader) : Bool :=
  r.phase == .done || r.phase == .failed

/-- The request fails; what was read of it stays visible. -/
def fail (r : RequestReader) : RequestReader :=
  { r with phase := .failed }

/-- The name of the protocol in front of the version. -/
def protocolName : Bytes := Bytes.ascii "HTTP/"

/-- Reads a start line: three tokens with single spaces between. -/
def startLine (r : RequestReader) (line : Bytes) : RequestReader :=
  match line.splitOn Bytes.space with
  | [method, target, protocol] =>
    match Bytes.strip? protocolName protocol with
    | some version =>
      ⟨.headers, { r.request with method := method, target := target, version := version }⟩
    | none => r.fail
  | _ => r.fail

/-- A header's value, without the one space that may stand behind the colon. -/
def headerValue (value : Bytes) : Bytes :=
  match value with
  | b :: r => if b = Bytes.space then r else b :: r
  | [] => []

/-- Reads a header, or the empty line behind the last one. -/
def headerLine (r : RequestReader) (line : Bytes) : RequestReader :=
  if line = [] then
    { r with phase := if r.request.isPost then .body else .done }
  else
    match Bytes.breakOn Bytes.colon line with
    | some (name, value) =>
      ⟨.headers, r.request.setHeader name (headerValue value)⟩
    | none => r.fail

/-- Reads a line, which has to be text. -/
def line (r : RequestReader) (bs : Bytes) : RequestReader :=
  if Utf8.isValid bs then
    if r.phase = .startLine then r.startLine bs else r.headerLine bs
  else r.fail

/-- The bytes that have to follow the headers: the body and a line break. -/
def expectedBytes (length : Nat) : Nat :=
  min (length + Bytes.crlf.length) Request.greatestLength

/-- Stores a body that has arrived in full; one that is announced as JSON has to be JSON. -/
def store (r : RequestReader) (body : Bytes) : RequestReader :=
  let request := { r.request with body := body }
  if request.isJson then
    match Json.parse body with
    | .ok v => ⟨.done, { request with json := some v }⟩
    | .error _ => ⟨.failed, request⟩
  else ⟨.done, request⟩

/-- Reads the body out of what has arrived behind the headers; `none` while it is too short. -/
def body? (r : RequestReader) (available : Bytes) : Option RequestReader :=
  match r.request.length? with
  | none => some r.fail
  | some n =>
    if available.length < expectedBytes n then none
    else if expectedBytes n < available.length then some r.fail
    else some (r.store (available.take n))

/-- Where an attempt to read on ends. -/
structure Stop where
  outcome : Outcome
  reader : RequestReader
  /-- The bytes that were not taken. -/
  rest : Bytes

/-- What a reader that is at its end reports. -/
def verdict (r : RequestReader) : Outcome :=
  if r.phase = .done then .success else .error

/-- Reads on until the request ends or more has to arrive. -/
def advance (r : RequestReader) (bs : Bytes) : Stop :=
  match r.phase with
  | .done => ⟨.success, r, bs⟩
  | .failed => ⟨.error, r, bs⟩
  | .body =>
    match r.body? bs with
    | some s => ⟨s.verdict, s, bs⟩
    | none => ⟨.incomplete, r, bs⟩
  | .startLine | .headers =>
    match h : Bytes.lineEnd? bs with
    | none => ⟨.incomplete, r, bs⟩
    | some n =>
      have : (bs.drop (n + 2)).length < bs.length := by
        have := congrArg List.length (Bytes.eq_of_lineEnd?_eq_some h)
        simp only [List.length_append, List.length_drop, Bytes.crlf, List.length_cons,
          List.length_nil] at this ⊢
        omega
      (r.line (bs.take n)).advance (bs.drop (n + 2))
termination_by bs.length

/-- Nothing can be read before more has arrived. This only looks for a line break or counts, so it
does not cost much to ask after each piece. -/
def waits (r : RequestReader) (b : ByteBuffer) : Bool :=
  match r.phase with
  | .startLine | .headers => !b.hasLine
  | .body =>
    match r.request.length? with
    | some n => b.readable < expectedBytes n
    | none => false
  | .done | .failed => false

/-- Reads on in a buffer, whose complete lines are consumed. -/
def read (r : RequestReader) (b : ByteBuffer) : Outcome × RequestReader × ByteBuffer :=
  if r.isFinished then (r.verdict, r, b)
  else if r.waits b then (.incomplete, r, b)
  else
    let stop := r.advance b.unread
    (stop.outcome, stop.reader, b.consume (b.readable - stop.rest.length))

theorem verdict_of_done {r : RequestReader} (h : r.phase = .done) : r.verdict = .success := by
  simp [verdict, h]

theorem advance_of_done {r : RequestReader} (h : r.phase = .done) (bs : Bytes) :
    r.advance bs = ⟨.success, r, bs⟩ := by
  unfold advance
  simp [h]

theorem advance_of_failed {r : RequestReader} (h : r.phase = .failed) (bs : Bytes) :
    r.advance bs = ⟨.error, r, bs⟩ := by
  unfold advance
  simp [h]

/-- A reader that waits does not move. -/
theorem advance_of_waits {r : RequestReader} {b : ByteBuffer} (hb : b.WellFormed)
    (h : r.waits b = true) : r.advance b.unread = ⟨.incomplete, r, b.unread⟩ := by
  unfold waits at h
  unfold advance
  cases hp : r.phase with
  | startLine | headers =>
    simp only [hp, b.hasLine_eq hb, Option.not_isSome, Option.isNone_iff_eq_none] at h ⊢
    split
    · rfl
    · simp_all
  | body =>
    simp only [hp] at h ⊢
    have hnone : r.body? b.unread = none := by
      unfold body?
      split at h
      · rename_i n hn
        simp only [hn, b.length_unread]
        exact if_pos (of_decide_eq_true h)
      · simp at h
    simp [hnone]
  | done | failed => simp [hp] at h

/-- A reader that is at its end does not move. -/
theorem advance_of_isFinished {r : RequestReader} (h : r.isFinished = true) (bs : Bytes) :
    r.advance bs = ⟨r.verdict, r, bs⟩ := by
  cases hp : r.phase with
  | done => simp [advance_of_done hp, verdict, hp]
  | failed => simp [advance_of_failed hp, verdict, hp]
  | startLine | headers | body => simp [isFinished, hp] at h

/-- Reading in a buffer is reading what is unread in it. -/
theorem read_eq {r : RequestReader} {b : ByteBuffer} (hb : b.WellFormed) :
    r.read b =
      ((r.advance b.unread).outcome, (r.advance b.unread).reader,
        b.consume (b.readable - (r.advance b.unread).rest.length)) := by
  have hstay : b.consume (b.readable - b.unread.length) = b := by
    rw [b.length_unread, Nat.sub_self]
    simp [ByteBuffer.consume]
  unfold read
  split
  · rename_i h
    rw [advance_of_isFinished h, hstay]
  · split
    · rename_i h
      rw [advance_of_waits hb h, hstay]
    · rfl

end RequestReader

end HttpServer
