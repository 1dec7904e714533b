import HttpServer.Connection.History
import HttpServer.Proofs.Connection.Draining
import HttpServer.Proofs.Connection.Processing

/-!
# A connection that is used again

When a response was let go of and nothing is left unread, a connection still differs from a new one:
its buffers have grown, and the old response keeps its code and its target. None of that shows.
`Alike` relates two connections that differ only so. `Alike.act` carries the relation over every
act, which lets one see the same of both, and `sights_reset_eq_sights_fresh` draws the consequence
for a connection with any history.
-/

namespace HttpServer

namespace Connection

/-- What a response shows while it stands ready. -/
structure Shown where
  /-- The unwritten part of the head and, unless a file is attached, of the body. -/
  text : Bytes
  /-- The content of the attached file. -/
  file : Bytes
  code : Option Nat
  target : Bytes
  keepAlive : Bool

/-- The response of a connection. -/
def shown (c : Connection) : Shown :=
  ⟨c.outbound.unread, c.response.fileBytes, c.response.code, c.response.target,
    c.response.keepAlive⟩

/-- What an act on a connection lets one see. -/
inductive Sight where
  | read (answer : Except IoError Nat)
  /-- The handler that was asked, and the response if one is ready. -/
  | process (isReady : Bool) (call : Option Site.Call) (response : Option Shown)
  | write (answer : Except IoError Bytes)
  | reset
  | close (done : Bool)

/-- What one act lets one see. -/
def sight (site : Site) (c : Connection) (stats : Stats) : Act → Sight
  | .read arrivals => .read (c.read arrivals).1
  | .process files =>
    let p := c.process site files stats
    .process p.isReady p.call (if p.isReady then some p.connection.shown else none)
  | .write taking => .write (c.write taking).1
  | .reset => .reset
  | .close => .close (c.close stats).1

/-- What some acts let one see, one after the other. -/
def sights (site : Site) (c : Connection) (stats : Stats) : List Act → List Sight
  | [] => []
  | a :: as =>
    sight site c stats a :: sights site (act site c stats a).1 (act site c stats a).2 as

/-- Two connections that differ only in the room that their buffers have, and in what is left of
responses that were let go of. -/
structure Alike (c d : Connection) : Prop where
  closed_eq : c.closed = d.closed
  reader_eq : c.reader = d.reader
  inbound_eq : c.inbound.unread = d.inbound.unread
  outbound_eq : c.outbound.unread = d.outbound.unread
  fileBytes_eq : c.response.fileBytes = d.response.fileBytes
  fileSent_eq : c.fileSent = d.fileSent
  wellFormed : c.inbound.WellFormed
  wellFormed' : d.inbound.WellFormed

section Buffers

/-- Reading on shows the bytes of a buffer and not the room that it has. -/
structure SameReading (p q : Outcome × RequestReader × ByteBuffer) : Prop where
  outcome_eq : p.1 = q.1
  reader_eq : p.2.1 = q.2.1
  unread_eq : p.2.2.unread = q.2.2.unread
  wellFormed : p.2.2.WellFormed
  wellFormed' : q.2.2.WellFormed

theorem sameReading_read (r : RequestReader) {b b' : ByteBuffer} (hb : b.WellFormed)
    (hb' : b'.WellFormed) (h : b.unread = b'.unread) : SameReading (r.read b) (r.read b') := by
  have hreadable : b.readable = b'.readable := by
    rw [← ByteBuffer.length_unread, ← ByteBuffer.length_unread, h]
  rw [RequestReader.read_eq hb, RequestReader.read_eq hb', h, hreadable]
  refine ⟨rfl, rfl, ?_, hb.consume _, hb'.consume _⟩
  rw [ByteBuffer.unread_consume, ByteBuffer.unread_consume, h]

/-- So does reading what has arrived. -/
theorem alike_readAll {b b' : ByteBuffer} (hb : b.WellFormed) (hb' : b'.WellFormed)
    (h : b.unread = b'.unread) (total : Nat) (arrivals : Script) :
    (readAll b total arrivals).1 = (readAll b' total arrivals).1 ∧
      (readAll b total arrivals).2.unread = (readAll b' total arrivals).2.unread := by
  have hd := drained_readAll hb total arrivals
  have hd' := drained_readAll hb' total arrivals
  exact ⟨hd.answer_eq.trans hd'.answer_eq.symm, by rw [hd.unread_eq, hd'.unread_eq, h]⟩

end Buffers

section Acts

variable {c d : Connection} (h : Alike c d)

include h

theorem Alike.read (arrivals : Script) :
    (c.read arrivals).1 = (d.read arrivals).1 ∧ Alike (c.read arrivals).2 (d.read arrivals).2 := by
  cases hc : c.closed with
  | true =>
      rw [read_of_closed hc, read_of_closed (h.closed_eq ▸ hc)]
      exact ⟨rfl, h⟩
  | false =>
      rw [read_eq c arrivals hc, read_eq d arrivals (h.closed_eq ▸ hc)]
      obtain ⟨hanswer, hunread⟩ := alike_readAll h.wellFormed h.wellFormed' h.inbound_eq 0 arrivals
      exact ⟨hanswer, { h with
        inbound_eq := hunread
        wellFormed := (drained_readAll h.wellFormed 0 arrivals).wellFormed
        wellFormed' := (drained_readAll h.wellFormed' 0 arrivals).wellFormed }⟩

theorem Alike.unsent_eq : c.unsent = d.unsent := by
  rw [unsent, unsent, h.outbound_eq, h.fileBytes_eq, h.fileSent_eq]

theorem Alike.advance (n : Nat) : Alike (c.advance n) (d.advance n) := by
  have hreadable : c.outbound.readable = d.outbound.readable := by
    rw [← ByteBuffer.length_unread, ← ByteBuffer.length_unread, h.outbound_eq]
  unfold Connection.advance
  rw [hreadable]
  split
  · exact { h with outbound_eq := rfl, fileSent_eq := by rw [h.fileSent_eq] }
  · refine { h with outbound_eq := ?_ }
    rw [ByteBuffer.unread_consume, ByteBuffer.unread_consume, h.outbound_eq]

theorem Alike.write (taking : Except IoError Nat) :
    (c.write taking).1 = (d.write taking).1 ∧ Alike (c.write taking).2 (d.write taking).2 := by
  unfold Connection.write
  rw [h.closed_eq, h.unsent_eq]
  split
  · exact ⟨rfl, h⟩
  · split
    · exact ⟨rfl, h⟩
    · cases taking with
      | error e => exact ⟨rfl, h⟩
      | ok n =>
          simp only
          split
          · exact ⟨rfl, h⟩
          · exact ⟨rfl, h.advance _⟩

theorem Alike.reset : Alike c.reset d.reset :=
  { h with reader_eq := rfl, outbound_eq := rfl, fileBytes_eq := rfl, fileSent_eq := rfl }

theorem Alike.close (stats stats' : Stats) :
    (c.close stats).1 = (d.close stats').1 ∧
      Alike (c.close stats).2.1 (d.close stats').2.1 := by
  unfold Connection.close
  rw [h.closed_eq]
  split
  · exact ⟨rfl, h⟩
  · exact ⟨rfl, { h.reset with
      closed_eq := rfl
      inbound_eq := rfl
      wellFormed := .clear _
      wellFormed' := .clear _ }⟩

end Acts

section Process

/-- What reading on comes to is the same, and so is a response that it builds. -/
structure AlikeProcessed (p q : Processed) : Prop where
  isReady_eq : p.isReady = q.isReady
  call_eq : p.call = q.call
  alike : Alike p.connection q.connection
  response_eq : p.isReady = true → p.connection.response = q.connection.response

/-- A response is built from the request alone, whatever the one before it was. -/
theorem answer_begin (site : Site) (files : FileTree) (request : Request) (r r' : Response)
    (target : Bytes) (keepAlive : Bool) (code : Option Nat) :
    site.answer files request (r.begin target keepAlive code) =
      site.answer files request (r'.begin target keepAlive code) := by
  unfold Site.answer
  simp only [Response.begin, Response.detach]

variable {c d : Connection}

/-- Of what a connection holds, a response is built from the reader alone. -/
theorem alikeProcessed_respond (hclosed : c.closed = d.closed) (hreader : c.reader = d.reader)
    (hinbound : c.inbound.unread = d.inbound.unread) (hw : c.inbound.WellFormed)
    (hw' : d.inbound.WellFormed) (site : Site) (files : FileTree) (outcome : Outcome)
    (stats stats' : Stats) :
    AlikeProcessed (c.respond site files outcome stats) (d.respond site files outcome stats') := by
  simp only [respond, prepared]
  rw [hreader, answer_begin site files _ c.response d.response]
  refine ⟨rfl, rfl, ?_, fun _ => rfl⟩
  refine ⟨hclosed, rfl, hinbound, ?_, rfl, rfl, hw, hw'⟩
  rw [ByteBuffer.unread_clear_append, ByteBuffer.unread_clear_append]

theorem Alike.process (h : Alike c d) (site : Site) (files : FileTree) (stats stats' : Stats) :
    AlikeProcessed (c.process site files stats) (d.process site files stats') := by
  have hempty : c.inbound.isEmpty = d.inbound.isEmpty := by
    rw [Bool.eq_iff_iff, ByteBuffer.isEmpty_iff, ByteBuffer.isEmpty_iff, h.inbound_eq]
  have hresumed : c.resumed = d.resumed := by
    rw [resumed, resumed, h.reader_eq]
  obtain ⟨houtcome, hreader, hunread, hwell, hwell'⟩ :=
    sameReading_read d.resumed h.wellFormed h.wellFormed' h.inbound_eq
  rw [process_eq, process_eq, hempty, hresumed, houtcome, hreader]
  -- nothing is unread, or more has to follow, or a response is built
  split
  · exact ⟨rfl, rfl, { h with reader_eq := rfl }, fun hready => Bool.noConfusion hready⟩
  · split
    · exact ⟨rfl, rfl, { h with
        reader_eq := rfl
        inbound_eq := hunread
        wellFormed := hwell
        wellFormed' := hwell' }, fun hready => Bool.noConfusion hready⟩
    · refine alikeProcessed_respond ?_ ?_ ?_ ?_ ?_ site files _ stats stats'
      · exact h.closed_eq
      · rfl
      · rfl
      · exact ByteBuffer.WellFormed.clear _
      · exact ByteBuffer.WellFormed.clear _

theorem AlikeProcessed.sight_eq {site : Site} {files : FileTree} {stats stats' : Stats}
    (h : AlikeProcessed (c.process site files stats) (d.process site files stats')) :
    sight site c stats (.process files) = sight site d stats' (.process files) := by
  simp only [sight]
  rw [h.isReady_eq, h.call_eq]
  split
  · rename_i hready
    rw [shown, shown, h.alike.outbound_eq, h.response_eq (h.isReady_eq.trans hready)]
  · rfl

end Process

section Runs

variable {c d : Connection}

/-- Connections that are alike let one see the same, and stay alike. -/
theorem Alike.act (h : Alike c d) (site : Site) (stats stats' : Stats) (a : Act) :
    sight site c stats a = sight site d stats' a ∧
      Alike (Connection.act site c stats a).1 (Connection.act site d stats' a).1 := by
  cases a with
  | read arrivals => exact ⟨congrArg Sight.read (h.read arrivals).1, (h.read arrivals).2⟩
  | process files =>
      have hp := h.process site files stats stats'
      exact ⟨hp.sight_eq, hp.alike⟩
  | write taking => exact ⟨congrArg Sight.write (h.write taking).1, (h.write taking).2⟩
  | reset => exact ⟨rfl, h.reset⟩
  | close => exact ⟨congrArg Sight.close (h.close stats stats').1, (h.close stats stats').2⟩

theorem Alike.sights (h : Alike c d) (site : Site) (stats stats' : Stats) (as : List Act) :
    Connection.sights site c stats as = Connection.sights site d stats' as := by
  induction as generalizing c d stats stats' with
  | nil => rfl
  | cons a as ih =>
      obtain ⟨hsight, halike⟩ := h.act site stats stats' a
      rw [Connection.sights, Connection.sights, hsight, ih halike]

theorem Alike.refl (h : c.inbound.WellFormed) : Alike c c :=
  ⟨rfl, rfl, rfl, rfl, rfl, rfl, h, h⟩

theorem wellFormed_acts (h : c.inbound.WellFormed) (site : Site) (stats : Stats) (as : List Act) :
    (acts site c stats as).1.inbound.WellFormed := by
  induction as generalizing c stats with
  | nil => exact h
  | cons a as ih =>
      rw [acts_cons]
      -- a connection is like itself, and stays so
      exact ih ((Alike.refl h).act site stats stats a).2.wellFormed _

/-- A connection without a response and without unread bytes is like a new one. -/
theorem alike_reset_fresh (ho : c.closed = false) (hw : c.inbound.WellFormed)
    (hi : c.inbound.unread = []) (size : Nat) : Alike c.reset (fresh size) where
  closed_eq := ho
  reader_eq := rfl
  inbound_eq := hi
  outbound_eq := rfl
  fileBytes_eq := rfl
  fileSent_eq := rfl
  wellFormed := hw
  wellFormed' := ByteBuffer.wellFormed_empty size

/-- Whatever has been done to an open connection, once its response was let go of and nothing is
left unread, it lets one see what a new connection does: the same answers to all acts, the same
requests to handlers, and the same responses, whatever sizes their buffers began with. -/
theorem sights_reset_eq_sights_fresh (site : Site) (size size' : Nat) (stats stats' : Stats)
    (history later : List Act) (ho : (acts site (fresh size) stats history).1.closed = false)
    (hi : (acts site (fresh size) stats history).1.inbound.unread = []) :
    sights site (acts site (fresh size) stats (history ++ [.reset])).1
        (acts site (fresh size) stats (history ++ [.reset])).2 later =
      sights site (fresh size') stats' later := by
  have hw := wellFormed_acts (ByteBuffer.wellFormed_empty size) site stats history (c := fresh size)
  rw [acts_append]
  exact (alike_reset_fresh ho hw hi size').sights site _ stats' later

/-- A site that sends the JSON value of a request back. -/
def mirror : Site :=
  ⟨[], Routes.empty.addHandler [Bytes.slash] Handler.echoJson⟩

/-- A request arrives with a value, is answered, and its answer is written. -/
def mirrored : List Act :=
  [.read [.ok (Bytes.ascii "POST / HTTP/1.1\r\nConnection: keep-alive\r\n"),
      .ok (Bytes.ascii "Content-Type: application/json\r\nContent-Length: 2\r\n\r\n17\r\n")],
    .process .empty, .write (.ok 1000)]

/-- A request without a value. -/
def asked : List Act :=
  [.read [.ok (Bytes.ascii "GET / HTTP/1.1\r\n\r\n")], .process .empty]

/-- The value of the first request is not in the answer to the second one. -/
theorem sights_mirrored :
    (acts mirror (fresh 0) .zero mirrored).1.closed = false ∧
      (acts mirror (fresh 0) .zero mirrored).1.inbound.unread = [] ∧
      (acts mirror (fresh 0) .zero mirrored).1.reader.request.json.map Json.render =
        some (Bytes.ascii "17") ∧
      sights mirror (acts mirror (fresh 0) .zero (mirrored ++ [.reset])).1
          (acts mirror (fresh 0) .zero (mirrored ++ [.reset])).2 asked =
        sights mirror (fresh 1024) .zero asked := by
  have ho : (acts mirror (fresh 0) .zero mirrored).1.closed = false := by decide +kernel
  have hi : (acts mirror (fresh 0) .zero mirrored).1.inbound.unread = [] := by decide +kernel
  refine ⟨ho, hi, ?_, sights_reset_eq_sights_fresh mirror 0 1024 .zero .zero mirrored asked ho hi⟩
  decide +kernel

end Runs

end Connection

end HttpServer
