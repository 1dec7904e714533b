import HttpServer.Proofs.Connection.Closing
import HttpServer.Proofs.Connection.Transcript
import HttpServer.Proofs.Message.Lines
import HttpServer.Proofs.Site.Conclusion
import Mathlib.Logic.Relation

/-!
# A request that fails

A request can fail at any of its lines, at its length or in its body, and leaves behind what was
read of it: perhaps a target, perhaps the wish to be kept. Its response begins as an internal error,
and its target is looked up like any other, which can make another error of it, but no success. No
handler is asked, and only the page for the error is opened. `Refuses` says what such a response is.

It does not keep the client. So the task that writes the last byte of it closes the connection, and
until then nothing is read. `Parted` says this of every wire that comes after it.
-/

namespace HttpServer

namespace RequestReader

theorem outcome_settle_of_failed {r : RequestReader} {rest : Bytes}
    (h : (r.settle rest).reader.phase = .failed) : (r.settle rest).outcome = .error := by
  unfold settle at h ⊢
  cases hp : r.phase with
  | startLine | headers | done =>
      simp only [hp] at h
      cases h
  | failed => rfl
  | body =>
      simp only [hp] at h ⊢
      cases hbody : r.body? rest with
      | none =>
          simp only [hbody, hp] at h
          cases h
      | some s =>
          simp only [hbody] at h ⊢
          rw [verdict, h]
          rfl

/-- A reader that has failed reports it. -/
theorem outcome_read_of_failed {r : RequestReader} {b : ByteBuffer}
    (h : (r.read b).2.1.phase = .failed) : (r.read b).1 = .error := by
  unfold read at h ⊢
  split
  · rw [if_pos ‹_›] at h
    simp only at h ⊢
    rw [verdict, h]
    rfl
  · rename_i hfinished
    rw [if_neg hfinished] at h
    split
    · rw [if_pos ‹_›] at h
      simp only at h
      rw [isFinished, h] at hfinished
      exact absurd rfl hfinished
    · rw [if_neg ‹_›] at h
      simp only [advance_eq_settle] at h ⊢
      exact outcome_settle_of_failed h

end RequestReader

namespace Site

open Message

/-- The statuses of a response that refuses a request. -/
def refusals : List Status := [.badRequest, .forbidden, .internalError]

/-- A response that refuses a request: the text of its head says that the client is not kept, and
what is attached is the file of the page for its code, which is one of two. -/
structure Refuses (s : Site) (files : FileTree) (text : Bytes) (r : Response) : Prop where
  keepAlive_eq : r.keepAlive = false
  head : ∃ status ∈ refusals,
    r.code = some status.code ∧ ∃ fields body, Framed text (statusText status :: fields) body ∧
      fieldValues (Bytes.ascii "Connection") fields = [Bytes.ascii "close"]
  attached : ∀ m, r.attached = some m →
    (r.code = some Status.badRequest.code ∧ r.target = Bytes.ascii "/400.html" ∨
      r.code = some Status.forbidden.code ∧ r.target = Bytes.ascii "/403.html") ∧
    ∃ f, s.Finds files r.target f ∧ m = ⟨f.serial, f.data⟩

section Refuses

variable {s : Site} {files : FileTree} {r : Response} {status : Status}

/-- A file never makes a success of an internal error. -/
theorem codeOf_internalError (a : Availability) :
    ∃ status ∈ refusals, codeOf a (some Status.internalError.code) = status.code := by
  cases a with
  | missing => exact ⟨.badRequest, by decide, rfl⟩
  | forbidden => exact ⟨.forbidden, by decide, rfl⟩
  | readable => exact ⟨.internalError, by decide, rfl⟩

/-- Nothing but the page for the code is attached to a refusal. -/
theorem page_of_attached_conclude (ha : r.attached = none) (hcode : codeFor r = status.code)
    (hstatus : status ∈ refusals) {m : Attachment}
    (hm : (s.conclude files r).2.attached = some m) :
    status.page? = some (s.conclude files r).2.target := by
  rw [target_conclude s files ha]
  rcases (finds_of_attached_conclude ha hm).1.cases with ⟨hok, -⟩ | ⟨page, hpage, htarget⟩
  · rw [Status.code_injective (hcode.symm.trans hok)] at hstatus
    exact absurd hstatus (by decide)
  · rw [Status.code_injective (hcode.symm.trans hpage)]
    exact htarget

/-- Whatever is looked up for a failed request, it is refused, and no handler is asked. -/
theorem refuses_answer (s : Site) (files : FileTree) (request : Request) (left : Response)
    (target : Bytes) :
    let a := s.answer files request (left.begin target false (some Status.internalError.code))
    a.call = none ∧ s.Refuses files a.text a.response := by
  intro a
  obtain ⟨hkeep, status, body, hwritten⟩ := written_answer s files request
    (left.begin target false (some Status.internalError.code))
  have hkeep : a.response.keepAlive = false := hkeep
  obtain ⟨q, hq, ha, error, herror, hcode⟩ : ∃ q,
      a = ⟨(s.conclude files q).1, (s.conclude files q).2, none⟩ ∧
        q.attached = none ∧ ∃ error ∈ refusals, codeFor q = error.code := by
    obtain ⟨error, herror, hcode⟩ := codeOf_internalError (s.availability files
      (s.served (left.begin target false (some Status.internalError.code))))
    exact ⟨_, answer_of_none rfl files, rfl, error, herror, hcode⟩
  have hsettled : a.response.code = some error.code := by
    rw [hq]
    exact code_conclude s files ha hcode
  have hstatus : status = error :=
    Status.code_injective (Option.some.inj (hwritten.code_eq.symm.trans hsettled))
  refine ⟨by rw [hq], hkeep, ⟨status, hstatus ▸ herror, hwritten.code_eq, _, _,
    hwritten.framed, (fieldValues_connection _ _ _).trans ?_⟩, fun m hm => ?_⟩
  · rw [hkeep]
    rfl
  · rw [hsettled]
    rw [hq] at hm ⊢
    have hpage := page_of_attached_conclude ha hcode herror hm
    refine ⟨?_, (finds_of_attached_conclude ha hm).2⟩
    cases error with
    | badRequest => exact Or.inl ⟨rfl, (Option.some.inj hpage).symm⟩
    | forbidden => exact Or.inr ⟨rfl, (Option.some.inj hpage).symm⟩
    | internalError => cases hpage
    | ok | notFound => exact absurd herror (by decide)

end Refuses

end Site

namespace Connection

section Processing

variable {c : Connection} {site : Site} {files : FileTree} {stats : Stats}

/-- A reader that reads on has not failed before. -/
theorem phase_resumed_ne_failed (c : Connection) : c.resumed.phase ≠ .failed := by
  unfold resumed
  split
  · exact nofun
  · rename_i h
    intro hfailed
    rw [RequestReader.isFinished, hfailed] at h
    exact h rfl

/-- Where the reader has failed, it failed just now, and its request was answered. -/
theorem process_of_failed
    (h : (c.process site files stats).connection.reader.phase = .failed) :
    ∃ d : Connection, d.closed = c.closed ∧ d.inbound.unread = [] ∧
      c.process site files stats = d.respond site files .error stats := by
  rw [process_eq] at h ⊢
  split
  · rw [if_pos ‹_›] at h
    exact absurd h (phase_resumed_ne_failed c)
  · rw [if_neg ‹_›] at h
    have herror : (c.resumed.read c.inbound).1 = .error := by
      apply RequestReader.outcome_read_of_failed
      split at h
      · exact h
      · exact h
    rw [herror, if_neg nofun]
    refine ⟨_, ?_, ?_, rfl⟩
    · rfl
    · exact ByteBuffer.unread_clear _

/-- A connection that holds nothing has no request to fail. -/
theorem Spent.phase_ne_failed (h : c.Spent) :
    (c.process site files stats).connection.reader.phase ≠ .failed := by
  rw [h.process_eq, h.reader_eq]
  exact nofun

/-- A request that failed is refused. -/
theorem refuses_respond (d : Connection) :
    (d.respond site files .error stats).call = none ∧
      site.Refuses files (d.respond site files .error stats).connection.outbound.unread
        (d.respond site files .error stats).connection.response := by
  obtain ⟨hcall, hrefuses⟩ := Site.refuses_answer site files d.reader.request d.response
    d.reader.request.path
  refine ⟨hcall, ?_⟩
  simp only [respond, prepared, ByteBuffer.unread_clear_append]
  exact hrefuses

end Processing

end Connection

namespace Wire

open Connection

/-- A wire goes on to another one by a task. -/
def Goes (site : Site) (v w : Wire) : Prop :=
  ∃ files conduct, v.run site files conduct = some w

/-- The last response of a connection is going out, or the connection is closed. -/
inductive Departing (c : Connection) (output : Bytes) (u : Wire) : Prop where
  | answering : u.armed = some .writing → SameBut c u.connection → u.connection.Aligned →
      u.connection.unsent ≠ [] → u.sent ++ u.connection.unsent = output → Departing c output u
  | ended : u.armed = none → u.connection.closed = true → u.connection.inbound.unread = [] →
      u.sent <+: output → Departing c output u

/-- Behind the last response of a wire nothing is read and nothing is built, and where all of it is
out the connection is closed. -/
structure Parted (reader : RequestReader) (built : List Built) (output : Bytes) (u : Wire) :
    Prop where
  built_eq : u.built = built
  sent_prefix : u.sent <+: output
  unread_inbound : u.connection.inbound.unread = []
  reader_eq : u.connection.closed = false → u.connection.reader = reader
  armed_ne : u.armed ≠ some .reading
  closed_of_sent : u.sent = output → u.connection.closed = true ∧ u.armed = none

section Departing

variable {c d : Connection} {site : Site} {files : FileTree} {conduct : Conduct} {stats : Stats}
  {u w : Wire} {sent output : Bytes} {built : Option Built}

theorem departing_endClosed (hunread : d.inbound.unread = []) (hsent : w.sent ++ sent <+: output) :
    Departing c output (w.after (d.endClosed sent built stats)) := by
  have hgone : (d.endClosed sent built stats).connection.inbound.unread = [] :=
    unread_endClosed hunread
  exact .ended rfl (closed_endClosed d sent built stats) hgone hsent

theorem departing_endArmed (hsame : SameBut c d) (haligned : d.Aligned) (hne : d.unsent ≠ [])
    (hunread : c.inbound.unread = []) (hall : w.sent ++ sent ++ d.unsent = output)
    (rearms : Bool) :
    Departing c output (w.after (d.endArmed rearms .writing sent built stats)) := by
  unfold endArmed
  split
  · exact .answering rfl hsame haligned hne hall
  · refine departing_endClosed ?_ (hall ▸ List.prefix_append _ _)
    rw [hsame.inbound_eq]
    exact hunread

/-- A task goes on with the last response, or closes the connection. -/
theorem departing_run (ho : c.closed = false) (hkeep : c.isKeptAlive = false)
    (hunread : c.inbound.unread = []) (h : Departing c output u)
    (hrun : u.run site files conduct = some w) : Departing c output w ∧ w.built = u.built := by
  rw [run_eq] at hrun
  cases h with
  | ended harmed => rw [harmed] at hrun; cases hrun
  | answering harmed hsame haligned hne hall =>
      rw [harmed] at hrun
      have hw : w = u.after (u.connection.writeTask site files conduct u.stats) :=
        (Option.some.inj hrun).symm
      have hand := handover_deliver conduct.takings haligned
      rw [hw, writeTask, if_neg ((hsame.closed_eq.trans ho) ▸ Bool.false_ne_true)]
      generalize deliver conduct.takings u.connection = r at hand ⊢
      obtain ⟨sent, delivery, d⟩ := r
      have hcd : SameBut c d := hsame.trans hand.sameBut
      have hd : d.inbound.unread = [] := hcd.inbound_eq ▸ hunread
      have hrest : u.sent ++ sent ++ d.unsent = output := by
        rw [List.append_assoc, hand.append_unsent]
        exact hall
      have hprefix : u.sent ++ sent <+: output := hrest ▸ List.prefix_append _ _
      have hbuilt {t : TaskEnd} (ht : t.built = none) : (u.after t).built = u.built := by
        rw [after, ht]
        exact List.append_nil _
      cases delivery with
      | waiting =>
          exact ⟨departing_endArmed hcd hand.aligned (hand.of_waiting rfl) hunread hrest _,
            hbuilt (built_endArmed _ _ _ _ _ _)⟩
      | broken e => exact ⟨departing_endClosed hd hprefix, hbuilt rfl⟩
      | complete =>
          have hk : ¬ d.isKeptAlive = true := by
            rw [isKeptAlive, hcd.response_eq]
            exact Bool.eq_false_iff.1 hkeep
          simp only [if_neg hk]
          exact ⟨departing_endClosed hd hprefix, hbuilt rfl⟩

theorem Departing.goes {v : Wire} (ho : c.closed = false) (hkeep : c.isKeptAlive = false)
    (hunread : c.inbound.unread = []) (h : Departing c output v)
    (hgoes : Relation.ReflTransGen (Goes site) v u) : Departing c output u ∧ u.built = v.built := by
  induction hgoes with
  | refl => exact ⟨h, rfl⟩
  | tail _ hstep ih =>
      obtain ⟨files, conduct, hrun⟩ := hstep
      obtain ⟨hdeparting, hbuilt⟩ := departing_run ho hkeep hunread ih.1 hrun
      exact ⟨hdeparting, hbuilt.trans ih.2⟩

theorem Departing.parted (hunread : c.inbound.unread = []) (h : Departing c output u) :
    Parted c.reader u.built output u := by
  cases h with
  | answering harmed hsame haligned hne hall =>
      refine ⟨rfl, hall ▸ List.prefix_append _ _, ?_, fun _ => hsame.reader_eq, ?_, ?_⟩
      · rw [hsame.inbound_eq]
        exact hunread
      · rw [harmed]
        exact nofun
      · intro hsent
        rw [hsent] at hall
        exact absurd (List.append_right_eq_self.1 hall) hne
  | ended harmed hclosed hgone hprefix =>
      refine ⟨rfl, hprefix, hgone, ?_, ?_, fun _ => ⟨hclosed, harmed⟩⟩
      · intro hopen
        rw [hclosed] at hopen
        cases hopen
      · rw [harmed]
        exact nofun

end Departing

section Failure

/-- Whatever has been done to a connection, a request that fails is refused without a handler, and
its response is the last one: nothing that comes behind it is read or answered, and when all of it
is out the connection is closed. -/
theorem refused_and_parted (site : Site) (files : FileTree) (size : Nat) (stats stats' : Stats)
    (history : List Act)
    (hfailed : ((acts site (fresh size) stats history).1.process site files
      stats').connection.reader.phase = .failed) :
    let c := (acts site (fresh size) stats history).1
    let p := c.process site files stats'
    p.isReady = true ∧ p.call = none ∧
      site.Refuses files p.connection.outbound.unread p.connection.response ∧
      ∀ (w : Wire) (rearms : Bool) (sent : Bytes) (u : Wire),
        Relation.ReflTransGen (Goes site)
          (w.after (c.endProcessing site files rearms sent stats')) u →
        Parted p.connection.reader (w.built ++ [⟨p.connection.unsent, false, none⟩])
          (w.sent ++ sent ++ p.connection.unsent) u := by
  intro c p
  have ho : c.closed = false := by
    rw [← Bool.not_eq_true]
    intro hclosed
    have hspent := spent_acts (c := fresh size) nofun site stats history hclosed
    exact hspent.phase_ne_failed hfailed
  obtain ⟨d, hd, hunread, hp⟩ : ∃ d : Connection, d.closed = c.closed ∧ d.inbound.unread = [] ∧
      p = d.respond site files .error stats' := process_of_failed hfailed
  have hready : Ready c site stats' p := hp ▸ ready_respond hd hunread site files .error stats'
  obtain ⟨hcall, hrefuses⟩ : p.call = none ∧
      site.Refuses files p.connection.outbound.unread p.connection.response :=
    hp ▸ refuses_respond d
  refine ⟨hready.isReady, hcall, hrefuses, fun w rearms sent u hgoes => ?_⟩
  have hopen : p.connection.closed = false := hready.closed_eq.trans ho
  have hend : c.endProcessing site files rearms sent stats' =
      p.connection.endArmed rearms .writing sent
        (some ⟨p.connection.unsent, false, none⟩) p.stats := by
    rw [endProcessing, Processed.direction, Processed.built?, if_pos hready.isReady,
      if_pos hready.isReady, isKeptAlive, hrefuses.keepAlive_eq, hcall]
  have hbegin : Departing p.connection (w.sent ++ sent ++ p.connection.unsent)
      (w.after (c.endProcessing site files rearms sent stats')) := by
    rw [hend]
    exact departing_endArmed (.refl _) hready.aligned hready.unsent_ne_nil hready.unread_inbound
      rfl rearms
  obtain ⟨hdeparting, hbuilt⟩ :=
    hbegin.goes hopen hrefuses.keepAlive_eq hready.unread_inbound hgoes
  have hparted := hdeparting.parted hready.unread_inbound
  rw [hbuilt, hend, after, built_endArmed] at hparted
  exact hparted

/-- A request that wants to be kept and breaks off, and another one behind it. -/
def brokenRequest : Bytes :=
  Bytes.ascii
    "GET / HTTP/1.1\r\nConnection: keep-alive\r\nbroken\r\n\r\nGET / HTTP/1.1\r\n\r\n"

/-- The one that broke off is refused. Its response is all that there is to be sent, whatever
arrives while it is written. -/
theorem parted_brokenRequest :
    let c := (acts mirror (fresh 64) .zero [.read [.ok brokenRequest]]).1
    let p := c.process mirror .empty .zero
    let w := (start 64 .zero).after (c.endProcessing mirror .empty true [] .zero)
    p.connection.reader.phase = .failed ∧ p.connection.reader.request.isKeepAlive = true ∧
      mirror.Refuses .empty p.connection.outbound.unread p.connection.response ∧
      ∃ u, w.run mirror .empty ⟨[.ok brokenRequest], [.ok 1000], true⟩ = some u ∧
        Parted p.connection.reader [⟨p.connection.unsent, false, none⟩] p.connection.unsent u := by
  intro c p w
  have hfailed : p.connection.reader.phase = .failed := by decide +kernel
  have hkeep : p.connection.reader.request.isKeepAlive = true := by decide +kernel
  obtain ⟨hready, -, hrefuses, hparted⟩ := refused_and_parted mirror .empty 64 .zero .zero
    [.read [.ok brokenRequest]] hfailed
  have harmed : w.armed = some .writing := congrArg some (if_pos hready)
  have hrun : w.run mirror .empty ⟨[.ok brokenRequest], [.ok 1000], true⟩ ≠ none := by
    rw [ne_eq, run_eq_none_iff, harmed]
    exact nofun
  obtain ⟨u, hu⟩ := Option.ne_none_iff_exists'.1 hrun
  exact ⟨hfailed, hkeep, hrefuses, u, hu,
    hparted (start 64 .zero) true [] u (.single ⟨_, _, hu⟩)⟩

end Failure

end Wire

end HttpServer
