import HttpServer.Proofs.Connection.Renewal
import HttpServer.Proofs.Message.Acceptance

/-!
# What stands behind a request

Where a request ends, whatever else has arrived is dropped with it. For a request that ends with its
head and asks to be kept, `sights_behind` says what that comes to. It is answered as if nothing
stood behind it, and when its answer was let go of, the connection is like a new one, whatever stood
there. So of several requests that arrive together the first one is answered, and the others never
are.
-/

namespace HttpServer

namespace Connection

open Message

/-- A request that ends with its head, of a client that wants to be kept. -/
def Brief (r : Bytes) : Prop :=
  ∃ method fields, Head r method fields [] ∧ ¬ HasBody method ∧
    Carries fields (Bytes.ascii "Connection") (Bytes.ascii "keep-alive")

/-- An open connection that waits for a request, with some bytes unread. -/
structure Awaits (c : Connection) (bs : Bytes) : Prop where
  closed_eq : c.closed = false
  resumed_eq : c.resumed = .start
  wellFormed : c.inbound.WellFormed
  unread_eq : c.inbound.unread = bs

section Reads

variable {c : Connection} {bs : Bytes}

theorem awaits_fresh (size : Nat) : Awaits (fresh size) [] :=
  ⟨rfl, rfl, ByteBuffer.wellFormed_empty size, rfl⟩

/-- What is read stands behind what is unread. -/
theorem Awaits.read (h : Awaits c bs) (arrivals : Script) :
    Awaits (c.read arrivals).2 (bs ++ arrivals.gather.1) := by
  have hdrained := drained_readAll h.wellFormed 0 arrivals
  rw [read_eq c arrivals h.closed_eq]
  refine ⟨h.closed_eq, h.resumed_eq, hdrained.wellFormed, ?_⟩
  rw [hdrained.unread_eq, h.unread_eq]

theorem awaits_read_fresh (size : Nat) (h : bs ≠ []) :
    Awaits ((fresh size).read [.ok bs]).2 bs := by
  have hread := (awaits_fresh size).read [.ok bs]
  rw [Script.gather_ok h, Script.gather_nil, List.nil_append, List.append_nil] at hread
  exact hread

end Reads

section Request

variable {r s : Bytes} {c d : Connection}

theorem Brief.ne_nil (h : Brief r) : r ≠ [] := by
  obtain ⟨method, fields, hhead, -⟩ := h
  exact List.ne_nil_of_length_pos (Nat.lt_of_le_of_lt (Nat.zero_le _) hhead.length_lt)

/-- A brief request is read to its end, and what stands behind it is left. -/
theorem advance_brief (h : Brief r) :
    ∃ q : Request, q.isKeepAlive = true ∧
      ∀ s, RequestReader.start.advance (r ++ s) = ⟨.success, ⟨.done, q⟩, s⟩ := by
  obtain ⟨method, fields, hhead, hbody, hkeep⟩ := h
  obtain ⟨q, hq, htake⟩ := RequestReader.takeLines_of_not_hasBody hhead hbody
  refine ⟨q, ?_, fun s => ?_⟩
  · rw [Request.isKeepAlive, beq_iff_eq]
    exact (hq.header?_iff _ _ (by decide)).2 hkeep
  · have hinHead : (RequestReader.start.takeLines r).1.inHead = false := by
      rw [htake]
      rfl
    rw [RequestReader.advance_eq_settle, RequestReader.takeLines_start_append hinHead, htake]
    rfl

/-- What stands behind a request is dropped, and the response is built. -/
theorem process_behind (h : Brief r) :
    ∃ q : Request, q.isKeepAlive = true ∧ ∀ (c : Connection) (s : Bytes), Awaits c (r ++ s) →
      ∀ (site : Site) (files : FileTree) (stats : Stats), ∃ b : ByteBuffer,
        c.process site files stats =
          respond { c with reader := ⟨.done, q⟩, inbound := b.clear } site files .success
            stats := by
  obtain ⟨q, hkeep, hadvance⟩ := advance_brief h
  refine ⟨q, hkeep, fun c s hc site files stats => ?_⟩
  have hempty : ¬ c.inbound.isEmpty = true := by
    rw [ByteBuffer.isEmpty_iff, hc.unread_eq]
    exact List.append_ne_nil_of_left_ne_nil h.ne_nil s
  rw [process_eq, if_neg hempty, hc.resumed_eq, RequestReader.read_eq hc.wellFormed, hc.unread_eq,
    hadvance s]
  refine ⟨_, if_neg ?_⟩
  intro houtcome
  cases houtcome

/-- What stands behind a request makes no difference to its answer. -/
theorem alikeProcessed_behind {t : Bytes} (h : Brief r) (hc : Awaits c (r ++ s))
    (hd : Awaits d (r ++ t)) (site : Site) (files : FileTree) (stats stats' : Stats) :
    AlikeProcessed (c.process site files stats) (d.process site files stats') := by
  obtain ⟨q, -, hprocess⟩ := process_behind h
  obtain ⟨b, hb⟩ := hprocess c s hc site files stats
  obtain ⟨b', hb'⟩ := hprocess d t hd site files stats'
  rw [hb, hb']
  refine alikeProcessed_respond ?_ ?_ ?_ ?_ ?_ site files .success stats stats'
  · exact hc.closed_eq.trans hd.closed_eq.symm
  · rfl
  · rfl
  · exact ByteBuffer.WellFormed.clear b
  · exact ByteBuffer.WellFormed.clear b'

/-- An answer to a brief request keeps the client, and nothing is left unread. -/
structure Kept (p : Processed) : Prop where
  isReady : p.isReady = true
  isKeptAlive : p.connection.isKeptAlive = true
  closed_eq : p.connection.closed = false
  wellFormed : p.connection.inbound.WellFormed
  unread_eq : p.connection.inbound.unread = []

theorem kept_behind (h : Brief r) (hc : Awaits c (r ++ s)) (site : Site) (files : FileTree)
    (stats : Stats) : Kept (c.process site files stats) := by
  obtain ⟨q, hkeep, hprocess⟩ := process_behind h
  obtain ⟨b, hb⟩ := hprocess c s hc site files stats
  rw [hb]
  refine ⟨rfl, ?_, hc.closed_eq, .clear b, rfl⟩
  simp only [isKeptAlive, respond, prepared]
  rw [(Site.written_answer _ _ _ _).1]
  exact hkeep

end Request

section Writes

/-- Writing leaves all but the cursors of the response as it was. -/
theorem sameBut_writes (site : Site) (c : Connection) (stats : Stats)
    (takings : List (Except IoError Nat)) :
    SameBut c (acts site c stats (takings.map .write)).1 := by
  induction takings generalizing c with
  | nil => exact .refl c
  | cons taking takings ih => exact (sameBut_write c taking).trans (ih _)

end Writes

section Runs

variable {r s : Bytes} {c d : Connection}

/-- A request that ends with its head is answered as if nothing stood behind it. However much of the
answer is written before it is let go of, nothing is unread afterwards, and the connection lets one
see what a new one does. -/
theorem sights_behind (h : Brief r) (hc : Awaits c (r ++ s)) (hd : Awaits d r) (site : Site)
    (files : FileTree) (stats stats' : Stats) (takings : List (Except IoError Nat)) (size : Nat)
    (later : List Act) :
    let p := c.process site files stats
    let w := acts site p.connection p.stats (takings.map .write ++ [.reset])
    sight site c stats (.process files) = sight site d stats' (.process files) ∧
      p.isReady = true ∧ p.connection.isKeptAlive = true ∧
      w.1.inbound.unread = [] ∧
      sights site w.1 w.2 later = sights site (fresh size) stats' later := by
  intro p w
  have hkept : Kept p := kept_behind h hc site files stats
  have hsame := sameBut_writes site p.connection p.stats takings
  have hw : w.1 = (acts site p.connection p.stats (takings.map .write)).1.reset := by
    simp only [w]
    rw [acts_append]
    rfl
  have hunread : (acts site p.connection p.stats (takings.map .write)).1.inbound.unread = [] := by
    rw [hsame.inbound_eq]
    exact hkept.unread_eq
  have halike : Alike w.1 (fresh size) := by
    rw [hw]
    refine alike_reset_fresh (hsame.closed_eq.trans hkept.closed_eq) ?_ hunread size
    rw [hsame.inbound_eq]
    exact hkept.wellFormed
  refine ⟨?_, hkept.isReady, hkept.isKeptAlive, ?_, halike.sights site _ stats' later⟩
  · rw [← List.append_nil r] at hd
    exact (alikeProcessed_behind h hc hd site files stats stats').sight_eq
  · rw [hw]
    exact hunread

/-- A request for the root of a site. -/
def rootRequest : Bytes :=
  Bytes.ascii "GET / HTTP/1.1\r\nConnection: keep-alive\r\n\r\n"

theorem brief_rootRequest : Brief rootRequest := by
  have htext : ∀ {bs : Bytes}, Utf8.isValid bs = true → IsText bs := RequestReader.isText_iff.2
  have hstart : StartLine (Bytes.ascii "GET / HTTP/1.1") (Bytes.ascii "GET") (Bytes.ascii "/")
      (Bytes.ascii "1.1") :=
    ⟨htext (by decide +kernel), by decide +kernel, by decide +kernel, by decide +kernel,
      by decide +kernel⟩
  have hfield : FieldLine (Bytes.ascii "Connection: keep-alive") :=
    ⟨htext (by decide +kernel), by decide +kernel⟩
  have hfirst : Cut rootRequest (Bytes.ascii "GET / HTTP/1.1")
      (Bytes.ascii "Connection: keep-alive\r\n\r\n") :=
    cut_iff.2 ⟨by decide +kernel, by decide +kernel⟩
  have hsecond : Cut (Bytes.ascii "Connection: keep-alive\r\n\r\n")
      (Bytes.ascii "Connection: keep-alive") Bytes.crlf :=
    cut_iff.2 ⟨by decide +kernel, by decide +kernel⟩
  have hempty : Cut Bytes.crlf [] [] := cut_iff.2 ⟨by decide +kernel, by decide +kernel⟩
  refine ⟨Bytes.ascii "GET", [Bytes.ascii "Connection: keep-alive"], ⟨Bytes.crlf,
    ⟨_, _, _, _, hfirst, hstart, .cons hsecond hfield (.nil _)⟩, hempty⟩, ?_, ?_⟩
  · rintro (h | h)
    · exact absurd h (by decide +kernel)
    · exact absurd h (by decide +kernel)
  · exact ⟨[], _, [], rfl, Or.inl (by decide +kernel), fun l hl => absurd hl List.not_mem_nil⟩

/-- A connection that has read the same request twice. -/
def twice : Connection :=
  ((fresh 64).read [.ok (rootRequest ++ rootRequest)]).2

theorem awaits_twice : Awaits twice (rootRequest ++ rootRequest) :=
  awaits_read_fresh 64 (List.append_ne_nil_of_left_ne_nil brief_rootRequest.ne_nil _)

theorem awaits_once : Awaits ((fresh 64).read [.ok rootRequest]).2 rootRequest :=
  awaits_read_fresh 64 brief_rootRequest.ne_nil

/-- The second request is gone with the answer to the first one. -/
theorem sights_behind_twice :
    Brief rootRequest ∧ Awaits twice (rootRequest ++ rootRequest) ∧
      Awaits ((fresh 64).read [.ok rootRequest]).2 rootRequest ∧
      sight mirror twice .zero (.process .empty) =
        sight mirror ((fresh 64).read [.ok rootRequest]).2 .zero (.process .empty) :=
  ⟨brief_rootRequest, awaits_twice, awaits_once,
    (sights_behind brief_rootRequest awaits_twice awaits_once mirror .empty .zero .zero [.ok 1000] 0
      []).1⟩

/-- Of two requests that were read together, the second one is not unread once the first one was
answered and its answer was written. -/
theorem unread_behind_twice :
    let p := twice.process mirror .empty .zero
    let w := acts mirror p.connection p.stats [.write (.ok 1000)]
    Brief rootRequest ∧ Awaits twice (rootRequest ++ rootRequest) ∧ p.isReady = true ∧
      p.connection.isKeptAlive = true ∧ w.1.unsent = [] ∧ w.1.reset.inbound.unread ≠ rootRequest ∧
      (w.1.reset.process mirror .empty w.2).isReady = false := by
  refine ⟨brief_rootRequest, awaits_twice, ?_⟩
  decide +kernel

end Runs

end Connection

end HttpServer
