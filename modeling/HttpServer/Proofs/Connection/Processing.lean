import HttpServer.Proofs.Connection.Cursors
import HttpServer.Proofs.Site.Framing

/-!
# Reading on in what has arrived

Either the request goes on, and then only the reader and the inbound buffer change, or it ends.
Then a response stands ready from its first byte, nothing is left to be read, and one more request
is counted.
-/

namespace HttpServer

/-- The bytes of a response are those of some answer of the site: its text, and the file behind it.
-/
def Built.IsAnswer (site : Site) (b : Built) : Prop :=
  ∃ files request response,
    b.bytes = (site.answer files request response).text ++
      (site.answer files request response).response.fileBytes ∧
    b.keepAlive = (site.answer files request response).response.keepAlive

namespace Connection

/-- A response that was built and of which nothing was written. -/
structure Ready (c : Connection) (site : Site) (stats : Stats) (p : Processed) : Prop where
  isReady : p.isReady = true
  isAnswer : Built.IsAnswer site ⟨p.connection.unsent, p.connection.isKeptAlive, p.call⟩
  closed_eq : p.connection.closed = c.closed
  aligned : p.connection.Aligned
  unread_inbound : p.connection.inbound.unread = []
  unsent_ne_nil : p.connection.unsent ≠ []
  stats_eq : p.stats = { stats with requests := stats.requests.increment 1 }

theorem ready_respond {c d : Connection} (hd : d.closed = c.closed) (h : d.inbound.unread = [])
    (site : Site) (files : FileTree) (outcome : Outcome) (stats : Stats) :
    Ready c site stats (d.respond site files outcome stats) := by
  refine ⟨rfl, ⟨files, _, _, ?_, rfl⟩, hd, ⟨Nat.zero_le _, fun _ => rfl⟩, h, ?_, rfl⟩
  · rw [unsent]
    simp only [respond, ByteBuffer.unread_clear_append, List.drop_zero]
  · intro hnil
    have htext := (List.append_eq_nil_iff.1 hnil).1
    simp only [respond, ByteBuffer.unread_clear_append] at htext
    exact Site.text_answer_ne_nil _ _ _ _ htext

/-- The reader that reads on: a new one, once a request has ended. -/
def resumed (c : Connection) : RequestReader :=
  if c.reader.isFinished then .start else c.reader

theorem process_eq (c : Connection) (site : Site) (files : FileTree) (stats : Stats) :
    c.process site files stats =
      if c.inbound.isEmpty then ⟨false, none, { c with reader := c.resumed }, stats⟩
      else if (c.resumed.read c.inbound).1 = .incomplete then
        ⟨false, none, { c with
          reader := (c.resumed.read c.inbound).2.1
          inbound := (c.resumed.read c.inbound).2.2 }, stats⟩
      else
        respond { c with
          reader := (c.resumed.read c.inbound).2.1
          inbound := (c.resumed.read c.inbound).2.2.clear } site files
          (c.resumed.read c.inbound).1 stats := rfl

/-- What reading on can come to. -/
theorem process_cases (c : Connection) (site : Site) (files : FileTree) (stats : Stats) :
    (∃ reader inbound, c.process site files stats =
      ⟨false, none, { c with reader := reader, inbound := inbound }, stats⟩) ∨
    Ready c site stats (c.process site files stats) := by
  rw [process_eq]
  split
  · exact Or.inl ⟨_, c.inbound, rfl⟩
  · split
    · exact Or.inl ⟨_, _, rfl⟩
    · right
      refine ready_respond ?_ ?_ site files _ stats
      · rfl
      · exact ByteBuffer.unread_clear _

theorem unwound?_eq (c : Connection) (site : Site) :
    c.unwound? site =
      if c.inbound.isEmpty ∨ (c.resumed.read c.inbound).1 = .incomplete then none
      else
        let d := { c with
          reader := (c.resumed.read c.inbound).2.1
          inbound := (c.resumed.read c.inbound).2.2.clear
          outbound := c.outbound.clear }
        let response := (d.prepared (c.resumed.read c.inbound).1).detach
        (site.handlerFor? response).map fun _ => { d with response := response } := rfl

/-- A panic can come exactly where a handler is asked. -/
theorem isSome_unwound? (c : Connection) (site : Site) (files : FileTree) (stats : Stats) :
    (c.unwound? site).isSome = (c.process site files stats).call.isSome := by
  rw [unwound?_eq, process_eq]
  by_cases hempty : c.inbound.isEmpty = true
  · rw [if_pos (Or.inl hempty), if_pos hempty]
    rfl
  · by_cases houtcome : (c.resumed.read c.inbound).1 = .incomplete
    · rw [if_pos (Or.inr houtcome), if_neg hempty, if_pos houtcome]
      rfl
    · rw [if_neg (not_or.2 ⟨hempty, houtcome⟩), if_neg hempty, if_neg houtcome, Option.isSome_map]
      exact (site.isSome_call_answer files _ _).symm

/-- A panic closes nothing, and leaves nothing to write. -/
theorem of_unwound? {c d : Connection} {site : Site} (h : c.unwound? site = some d) :
    d.closed = c.closed ∧ d.unsent = [] := by
  rw [unwound?_eq] at h
  split at h
  · cases h
  · obtain ⟨_, -, rfl⟩ := Option.map_eq_some_iff.1 h
    exact ⟨rfl, by simp [unsent]⟩

/-- How a task that reads on can end. -/
theorem endProcessing_cases (c : Connection) (site : Site) (files : FileTree) (rearms : Bool)
    (sent : Bytes) (stats : Stats) :
    (∃ reader inbound, c.endProcessing site files rearms sent stats =
      { c with reader := reader, inbound := inbound }.endArmed rearms .reading sent none stats) ∨
    (∃ p, Ready c site stats p ∧ c.endProcessing site files rearms sent stats =
      p.connection.endArmed rearms .writing sent
        (some ⟨p.connection.unsent, p.connection.isKeptAlive, p.call⟩) p.stats) := by
  unfold endProcessing
  rcases process_cases c site files stats with ⟨reader, inbound, hp⟩ | hp
  · left
    rw [hp]
    exact ⟨reader, inbound, rfl⟩
  · right
    refine ⟨_, hp, ?_⟩
    simp only [Processed.built?, Processed.direction, hp.isReady, if_true]

/-- Where nothing has arrived nothing is answered. -/
theorem endProcessing_of_unread_nil {c : Connection} (h : c.inbound.unread = []) (site : Site)
    (files : FileTree) (rearms : Bool) (sent : Bytes) (stats : Stats) :
    c.endProcessing site files rearms sent stats =
      { c with reader := c.resumed }.endArmed rearms .reading sent none stats := by
  have hempty : c.inbound.isEmpty = true := by
    rw [ByteBuffer.isEmpty, ← ByteBuffer.length_unread, h]
    rfl
  rw [endProcessing, process_eq, if_pos hempty]
  rfl

end Connection

end HttpServer
