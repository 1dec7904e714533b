import HttpServer.Proofs.Message.Head
import HttpServer.Site

/-!
# How a response is framed

The body of a response comes from a handler, from a file, from the page that takes the place of a
file, or from a generated page. `written_answer` says what all of them have in common: one head,
whose last line counts what follows, and behind it either the body or, where a file is attached,
nothing.

The lines of the head are known but for three values: the status, the type out of a fixed table and
the count. None of them can hold a line break, so the head of the text is cut where it was meant to
be, and has the header lines that it was meant to have.
-/

namespace HttpServer

namespace Site

open Message

/-- The status line without its break. -/
def statusText (s : Status) : Bytes :=
  Bytes.ascii "HTTP/1.1 " ++ Bytes.decimal s.code ++ Bytes.ascii (" " ++ s.reason)

/-- The header lines that say whether the connection is kept, without their breaks. -/
def connectionTexts (keepAlive : Bool) : List Bytes :=
  if keepAlive then
    [Bytes.ascii "Connection: keep-alive", Bytes.ascii "Keep-Alive: max=6, timeout=120"]
  else [Bytes.ascii "Connection: close"]

/-- The header lines of a response, without their breaks. -/
def fieldTexts (keepAlive : Bool) (target : Bytes) (length : Nat) : List Bytes :=
  connectionTexts keepAlive ++
    [Bytes.ascii ("Content-Type: " ++ MediaType.ofTarget target),
      Bytes.ascii "Content-Length: " ++ Bytes.decimal length]

/-- The names of the header lines of a response. -/
def fieldNames (keepAlive : Bool) : List Bytes :=
  (if keepAlive then ["Connection", "Keep-Alive", "Content-Type", "Content-Length"]
    else ["Connection", "Content-Type", "Content-Length"]).map Bytes.ascii

/-- A text is the head of a response with the count of what follows, and behind it a body, unless a
file is attached. -/
structure Written (text : Bytes) (r : Response) (status : Status) (body : Bytes) : Prop where
  code_eq : r.code = some status.code
  text_eq : text = r.head ++ Response.lengthLine (body.length + r.fileBytes.length) ++ body
  body_eq : body = [] ∨ r.attached = none

/-- A body that stands behind the head itself. -/
theorem written_withLength {r : Response} {status : Status} (hc : r.code = some status.code)
    (ha : r.attached = none) (body : Bytes) :
    Written (r.head ++ Response.withLength body) r status body := by
  have hfile : r.fileBytes = [] := by
    unfold Response.fileBytes
    rw [ha]
  refine ⟨hc, ?_, Or.inr ha⟩
  rw [hfile, Response.withLength, List.length_nil, Nat.add_zero, List.append_assoc]

/-- The attached content is that of the file, also if it is empty and nothing is attached. -/
theorem fileBytes_attachmentOf (r : Response) (f : File) :
    Response.fileBytes { r with attached := attachmentOf f } = f.data := by
  unfold Response.fileBytes attachmentOf
  by_cases h : f.data = []
  · rw [if_pos h, h]
  · rw [if_neg h]

/-- A file that is attached behind the head. -/
theorem written_attached {r : Response} {status : Status} (hc : r.code = some status.code)
    (f : File) :
    Written (r.head ++ Response.lengthLine f.data.length) { r with attached := attachmentOf f }
      status [] := by
  refine ⟨hc, ?_, Or.inl rfl⟩
  rw [fileBytes_attachmentOf, List.length_nil, Nat.zero_add, List.append_nil]
  rfl

theorem written_conclude (s : Site) (files : FileTree) {r : Response} (ha : r.attached = none) :
    (s.conclude files r).2.keepAlive = r.keepAlive ∧
      ∃ status body, Written (s.conclude files r).1 (s.conclude files r).2 status body := by
  obtain ⟨code, keepAlive, target, attached⟩ := r
  cases ha
  unfold conclude
  simp only
  split
  · exact ⟨rfl, _, _, written_withLength rfl rfl _⟩
  · split
    · exact ⟨rfl, _, _, written_withLength rfl rfl _⟩
    · rename_i f _
      exact ⟨rfl, _, _, written_attached rfl f⟩

/-- Whatever a response was before, it is written as a whole. -/
theorem written_answer (s : Site) (files : FileTree) (request : Request) (r : Response) :
    (s.answer files request r).response.keepAlive = r.keepAlive ∧
      ∃ status body, Written (s.answer files request r).text
        (s.answer files request r).response status body := by
  unfold answer
  simp only
  split
  · split
    · exact ⟨rfl, Status.ok, _, written_withLength rfl rfl _⟩
    · exact written_conclude s files rfl
  · exact written_conclude s files rfl

theorem text_answer_ne_nil (s : Site) (files : FileTree) (request : Request) (r : Response) :
    (s.answer files request r).text ≠ [] := by
  obtain ⟨-, status, body, hw⟩ := written_answer s files request r
  rw [hw.text_eq]
  simp [Response.lengthLine, Response.endLine, Bytes.crlf]

/-- The lines of a head, and the empty line behind them. -/
theorem head_append_lengthLine {r : Response} {status : Status}
    (hc : r.code = some status.code) (length : Nat) :
    r.head ++ Response.lengthLine length =
      ((statusText status :: fieldTexts r.keepAlive r.target length).map
        Response.endLine).flatten ++ Bytes.crlf := by
  have hs : Response.statusOf r.code = status := by rw [hc, Response.statusOf_code]
  unfold Response.head fieldTexts connectionTexts
  rw [hs]
  cases r.keepAlive with
  | true => simp [Response.statusLine, Response.connectionLines, Response.typeLine,
      Response.lengthLine, Response.endLine, statusText]
  | false => simp [Response.statusLine, Response.connectionLines, Response.typeLine,
      Response.lengthLine, Response.endLine, statusText]

/-- A content type is plain text or stands in the table. -/
theorem ofTarget_mem (target : Bytes) :
    MediaType.ofTarget target ∈ MediaType.plain :: MediaType.table.map Prod.snd := by
  unfold MediaType.ofTarget
  split
  · unfold MediaType.ofExtension
    split
    · rename_i row hrow
      exact List.mem_cons_of_mem _ (List.mem_map_of_mem (List.mem_of_find?_eq_some hrow))
    · exact List.mem_cons_self
  · exact List.mem_cons_self

theorem unbroken_ofTarget (target : Bytes) :
    Unbroken (Bytes.ascii (MediaType.ofTarget target)) := by
  have hall : ∀ t ∈ MediaType.plain :: MediaType.table.map Prod.snd, Unbroken (Bytes.ascii t) := by
    decide
  exact hall _ (ofTarget_mem target)

/-- No line of a head is empty or holds a break, whatever the target is. -/
theorem headLine_ne_nil_and_unbroken (status : Status) (keepAlive : Bool) (target : Bytes)
    (length : Nat) :
    ∀ l ∈ statusText status :: fieldTexts keepAlive target length, l ≠ [] ∧ Unbroken l := by
  have hstatus : statusText status ≠ [] ∧ Unbroken (statusText status) := by
    cases status <;> decide
  have hconnection : ∀ l ∈ connectionTexts keepAlive, l ≠ [] ∧ Unbroken l := by
    cases keepAlive <;> decide
  intro l hl
  rcases List.mem_cons.1 hl with rfl | hl
  · exact hstatus
  · rcases List.mem_append.1 hl with hl | hl
    · exact hconnection l hl
    · simp only [List.mem_cons, List.not_mem_nil, or_false] at hl
      rcases hl with rfl | rfl
      · rw [Bytes.ascii_append]
        exact ⟨by simp [Bytes.ascii], unbroken_append.2 ⟨by decide, unbroken_ofTarget target⟩⟩
      · exact ⟨by simp [Bytes.ascii], unbroken_append.2 ⟨by decide, unbroken_decimal length⟩⟩

/-- What is written is cut where it was meant to be. -/
theorem Written.framed {text : Bytes} {r : Response} {status : Status} {body : Bytes}
    (h : Written text r status body) :
    Framed text
      (statusText status :: fieldTexts r.keepAlive r.target (body.length + r.fileBytes.length))
      body := by
  rw [h.text_eq, head_append_lengthLine h.code_eq]
  exact framed_of_lines (List.cons_ne_nil _ _) (headLine_ne_nil_and_unbroken _ _ _ _) body

theorem map_fieldName_fieldTexts (keepAlive : Bool) (target : Bytes) (length : Nat) :
    (fieldTexts keepAlive target length).map fieldName = fieldNames keepAlive := by
  unfold fieldTexts
  rw [Bytes.ascii_append]
  cases keepAlive <;> rfl

theorem fieldValues_connection (keepAlive : Bool) (target : Bytes) (length : Nat) :
    fieldValues (Bytes.ascii "Connection") (fieldTexts keepAlive target length) =
      [Bytes.ascii (if keepAlive then "keep-alive" else "close")] := by
  unfold fieldTexts
  rw [Bytes.ascii_append]
  cases keepAlive <;> rfl

theorem fieldValues_contentType (keepAlive : Bool) (target : Bytes) (length : Nat) :
    fieldValues (Bytes.ascii "Content-Type") (fieldTexts keepAlive target length) =
      [Bytes.ascii (MediaType.ofTarget target)] := by
  unfold fieldTexts
  rw [Bytes.ascii_append]
  cases keepAlive <;> rfl

theorem fieldValues_contentLength (keepAlive : Bool) (target : Bytes) (length : Nat) :
    fieldValues (Bytes.ascii "Content-Length") (fieldTexts keepAlive target length) =
      [Bytes.decimal length] := by
  unfold fieldTexts
  rw [Bytes.ascii_append]
  cases keepAlive <;> rfl

/-- Every response has one head, which ends at the first empty line of its text. The header lines
are the same for all requests and targets; one of them speaks of the connection, and one counts what
follows the head, in the text or in an attached file, never in both. -/
theorem answer_framed (s : Site) (files : FileTree) (request : Request) (left : Response)
    (target : Bytes) (keepAlive : Bool) (seeded : Option Nat) :
    let a := s.answer files request (left.begin target keepAlive seeded)
    ∃ status fields body,
      Framed a.text (statusText status :: fields) body ∧
      a.response.code = some status.code ∧
      fields.map fieldName = fieldNames keepAlive ∧
      fieldValues (Bytes.ascii "Connection") fields =
        [Bytes.ascii (if keepAlive then "keep-alive" else "close")] ∧
      (∃ digits, fieldValues (Bytes.ascii "Content-Length") fields = [digits] ∧ digits ≠ [] ∧
        (∀ d ∈ digits, Bytes.isDigit d = true) ∧
        Bytes.decimalValue digits = body.length + a.response.fileBytes.length) ∧
      (body = [] ∨ a.response.attached = none) := by
  intro a
  obtain ⟨hkeep, status, body, hw⟩ :=
    written_answer s files request (left.begin target keepAlive seeded)
  have hkeep : a.response.keepAlive = keepAlive := hkeep
  refine ⟨status,
    fieldTexts keepAlive a.response.target (body.length + a.response.fileBytes.length), body, ?_,
    hw.code_eq, ?_, ?_, ?_, hw.body_eq⟩
  · rw [← hkeep]
    exact hw.framed
  · exact map_fieldName_fieldTexts keepAlive _ _
  · exact fieldValues_connection keepAlive _ _
  · refine ⟨_, fieldValues_contentLength keepAlive _ _, Bytes.decimal_ne_nil _, ?_, ?_⟩
    · intro d hd
      exact Bytes.isDigit_of_mem_decimal hd
    · exact Bytes.decimalValue_decimal _

end Site

end HttpServer
