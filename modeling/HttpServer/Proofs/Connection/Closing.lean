import HttpServer.Proofs.Connection.Renewal
import HttpServer.Proofs.Connection.Turns
import Mathlib.Data.List.Perm.Basic

/-!
# Closing is final

A connection can be closed at any time, and its tasks can come late: it may be read from, read on
in, written to, reset and closed again after that. `Spent` is what closing leaves of a connection.
No act moves it, so nothing is answered, handed to a handler, or counted any more, and the cursors
of the response that was let go of stay where they are.

The connections of a server share its counters. `Company` is any number of connections with
theirs, acted on in any order. Its open connections are as many as the counter says, so there is
always one to count down when the first close comes.
-/

namespace HttpServer

namespace Connection

/-- All that the connection held is gone. -/
structure Spent (c : Connection) : Prop where
  closed_eq : c.closed = true
  reader_eq : c.reader = .start
  clear_inbound : c.inbound.clear = c.inbound
  clear_outbound : c.outbound.clear = c.outbound
  detach_response : c.response.detach = c.response
  fileSent_eq : c.fileSent = 0

/-- What an act on a closed connection lets one see. -/
def refused : Act → Sight
  | .read _ => .read (.error .notConnected)
  | .process _ => .process false none none
  | .write _ => .write (.error .notConnected)
  | .reset => .reset
  | .close => .close false

/-- Nothing comes of a connection any more: it holds nothing, and whatever is done to it is refused,
leaves it as it is and is not counted. -/
structure Final (c : Connection) : Prop where
  unread_inbound : c.inbound.unread = []
  attached_eq : c.response.attached = none
  /-- With the cursor at the front, the number of pending bytes is not cut off at zero. -/
  fileSent_eq : c.fileSent = 0
  pending_eq : c.pending = 0
  acts_eq : ∀ site stats as, acts site c stats as = (c, stats)
  sights_eq : ∀ site stats as, sights site c stats as = as.map refused

section Spent

variable {c : Connection}

theorem close_of_open (ho : c.closed = false) (stats : Stats) :
    c.close stats =
      (true, { c.reset with closed := true, inbound := c.inbound.clear },
        { stats with live := stats.live.decrement 1 }) := by
  rw [close, if_neg (ho ▸ Bool.false_ne_true)]

/-- Whatever a connection was doing, nothing of it is left when it is closed. -/
theorem spent_close (ho : c.closed = false) (stats : Stats) : (c.close stats).2.1.Spent := by
  rw [close_of_open ho]
  exact ⟨rfl, rfl, rfl, rfl, rfl, rfl⟩

namespace Spent

variable (h : c.Spent)

include h

theorem unread_inbound : c.inbound.unread = [] := by
  rw [← h.clear_inbound, ByteBuffer.unread_clear]

theorem attached_eq : c.response.attached = none := by
  rw [← h.detach_response]
  rfl

theorem pending_eq : c.pending = 0 := by
  rw [pending, ← h.clear_outbound, ← h.detach_response, h.fileSent_eq]
  rfl

/-- Nothing is there to read on in, and the reader is a new one already. -/
theorem process_eq (site : Site) (files : FileTree) (stats : Stats) :
    c.process site files stats = ⟨false, none, c, stats⟩ := by
  have hempty : c.inbound.isEmpty = true :=
    (ByteBuffer.isEmpty_iff _).2 h.unread_inbound
  have hresumed : c.resumed = c.reader := by
    rw [resumed, h.reader_eq]
    rfl
  rw [Connection.process_eq, if_pos hempty, hresumed]

theorem reset_eq : c.reset = c := by
  unfold Connection.reset
  rw [h.clear_outbound, h.detach_response, ← h.reader_eq, ← h.fileSent_eq]

theorem act_eq (site : Site) (stats : Stats) (a : Act) :
    act site c stats a = (c, stats) ∧ sight site c stats a = refused a := by
  cases a with
  | read arrivals =>
      simp only [act, sight, refused, read_of_closed h.closed_eq, and_self]
  | process files =>
      simp only [act, sight, refused, h.process_eq, Bool.false_eq_true, if_false, and_self]
  | write taking =>
      simp only [act, sight, refused, write_of_closed h.closed_eq, and_self]
  | reset => simp only [act, sight, refused, h.reset_eq, and_self]
  | close =>
      simp only [act, sight, refused, close_of_closed h.closed_eq, and_self]

theorem final : c.Final := by
  refine ⟨h.unread_inbound, h.attached_eq, h.fileSent_eq, h.pending_eq, ?_, ?_⟩
  · intro site stats as
    induction as with
    | nil => rfl
    | cons a as ih => rw [acts_cons, (h.act_eq site stats a).1, ih]
  · intro site stats as
    induction as with
    | nil => rfl
    | cons a as ih =>
        obtain ⟨hact, hsight⟩ := h.act_eq site stats a
        rw [sights, hact, hsight, ih, List.map_cons]

end Spent

end Spent

section Acts

variable {c : Connection}

theorem closed_read (c : Connection) (arrivals : Script) :
    (c.read arrivals).2.closed = c.closed := by
  unfold read
  split
  · rfl
  · rfl

/-- A connection is closed by being closed, and by nothing else. -/
theorem closed_act_iff (site : Site) (c : Connection) (stats : Stats) (a : Act) :
    (act site c stats a).1.closed = true ↔ c.closed = true ∨ a = .close := by
  have hsame {d : Connection} (hd : d.closed = c.closed) (ha : a ≠ .close) :
      d.closed = true ↔ c.closed = true ∨ a = .close := by
    rw [hd, or_iff_left ha]
  cases a with
  | read arrivals => exact hsame (closed_read c arrivals) nofun
  | process files =>
      refine hsame ?_ nofun
      rcases process_cases c site files stats with ⟨reader, inbound, hp⟩ | hp
      · rw [act, hp]
      · exact hp.closed_eq
  | write taking => exact hsame (closed_write c taking) nofun
  | reset => exact hsame rfl nofun
  | close => exact iff_of_true (closed_close c stats) (Or.inr rfl)

theorem live_act (site : Site) (c : Connection) (stats : Stats) {a : Act} (ha : a ≠ .close) :
    (act site c stats a).2.live = stats.live := by
  cases a with
  | read arrivals => rfl
  | process files =>
      rcases process_cases c site files stats with ⟨reader, inbound, hp⟩ | hp
      · rw [act, hp]
      · rw [act, hp.stats_eq]
  | write taking => rfl
  | reset => rfl
  | close => exact absurd rfl ha

/-- An act closes a connection and counts down, or it does neither. -/
theorem act_counts (site : Site) (c : Connection) (stats : Stats) (a : Act) :
    ((act site c stats a).1.closed = c.closed ∧ (act site c stats a).2.live = stats.live) ∨
    (c.closed = false ∧ (act site c stats a).1.closed = true ∧
      (act site c stats a).2.live = stats.live.decrement 1) := by
  by_cases ha : a = .close
  · subst ha
    cases hc : c.closed with
    | false =>
        right
        refine ⟨rfl, closed_close c stats, ?_⟩
        rw [act, close_of_open hc]
    | true =>
        left
        rw [act, close_of_closed hc]
        exact ⟨hc, rfl⟩
  · left
    refine ⟨?_, live_act site c stats ha⟩
    rw [Bool.eq_iff_iff, closed_act_iff, or_iff_left ha]

/-- If closing spends a connection, then any act does that closes it. -/
theorem spent_act (h : c.closed = true → c.Spent) (site : Site) (stats : Stats) (a : Act)
    (hclosed : (act site c stats a).1.closed = true) : (act site c stats a).1.Spent := by
  cases hc : c.closed with
  | true =>
      rw [((h hc).act_eq site stats a).1]
      exact h hc
  | false =>
      rcases (closed_act_iff site c stats a).1 hclosed with hopen | rfl
      · rw [hc] at hopen
        cases hopen
      · exact spent_close hc stats

theorem spent_acts (h : c.closed = true → c.Spent) (site : Site) (stats : Stats) (as : List Act) :
    (acts site c stats as).1.closed = true → (acts site c stats as).1.Spent := by
  induction as generalizing c stats with
  | nil => exact h
  | cons a as ih =>
      rw [acts_cons]
      exact ih (spent_act h site stats a) _

end Acts

end Connection

open Connection

/-- Connections that are counted together. -/
structure Company where
  members : List Connection
  stats : Stats

namespace Company

/-- The number of members that are open. -/
def openCount (k : Company) : Nat :=
  k.members.countP fun c => !c.closed

/-- A new connection comes in. -/
def join (k : Company) (bufferSize : Nat) : Company :=
  let (c, stats) := establish bufferSize k.stats
  ⟨k.members ++ [c], stats⟩

/-- Something is done to a member. -/
def act (k : Company) (i : Nat) (site : Site) (a : Act) : Company :=
  match k.members[i]? with
  | none => k
  | some c =>
    let (c, stats) := c.act site k.stats a
    ⟨k.members.set i c, stats⟩

/-- The number of descriptors that a process can have, one for each open connection. -/
def greatestOpenCount : Nat := 2147483648

/-- What a company can come to, while other things are counted, too. -/
inductive Reachable : Company → Prop where
  | start (stats : Stats) : stats.live = .zero → Reachable ⟨[], stats⟩
  | join {k : Company} (bufferSize : Nat) : Reachable k → k.openCount < greatestOpenCount →
      Reachable (k.join bufferSize)
  | act {k : Company} (i : Nat) (site : Site) (a : Act) : Reachable k →
      Reachable (k.act i site a)
  | count {k : Company} (stats : Stats) : Reachable k → stats.live = k.stats.live →
      Reachable { k with stats := stats }

/-- The open members are counted, and the closed ones hold nothing. -/
structure Counted (k : Company) : Prop where
  live_eq : k.stats.live.value.toNat = k.openCount
  openCount_le : k.openCount ≤ greatestOpenCount
  spent : ∀ c ∈ k.members, c.closed = true → c.Spent

section Counted

variable {k : Company} {i : Nat} {c : Connection}

/-- Of the members only one is counted anew when another connection takes its place. -/
theorem openCount_set (hc : k.members[i]? = some c) (d : Connection) (stats : Stats) :
    openCount ⟨k.members.set i d, stats⟩ + (if c.closed then 0 else 1) =
      k.openCount + (if d.closed then 0 else 1) := by
  obtain ⟨hi, rfl⟩ := List.getElem?_eq_some_iff.1 hc
  have hbefore := (List.getElem_cons_eraseIdx_perm hi).countP_eq fun c => !c.closed
  have hafter := (List.set_perm_cons_eraseIdx hi d).countP_eq fun c => !c.closed
  rw [List.countP_cons] at hbefore hafter
  unfold openCount
  rw [hafter, ← hbefore]
  simp only [Bool.not_eq_true', ← Bool.not_eq_true, ite_not]
  omega

theorem openCount_pos (hc : c ∈ k.members) (ho : c.closed = false) : 0 < k.openCount := by
  refine List.countP_pos_iff.2 ⟨c, hc, ?_⟩
  rw [ho]
  rfl

theorem counted_start {stats : Stats} (h : stats.live = .zero) : Counted ⟨[], stats⟩ := by
  refine ⟨?_, Nat.zero_le _, fun c hc => nomatch hc⟩
  rw [h]
  rfl

theorem Counted.join (h : k.Counted) (hroom : k.openCount < greatestOpenCount)
    (bufferSize : Nat) : (k.join bufferSize).Counted := by
  have hcount : (k.join bufferSize).openCount = k.openCount + 1 := by
    unfold openCount
    exact List.countP_append
  refine ⟨?_, ?_, ?_⟩
  · -- the counter is far from its end
    have hlt : k.openCount + 1 < 18446744073709551616 := Nat.lt_of_le_of_lt hroom (by decide)
    rw [hcount, ← Nat.mod_eq_of_lt hlt, ← h.live_eq]
    exact Counter.toNat_increment _ _
  · rw [hcount]
    exact hroom
  · intro c hc hclosed
    rcases List.mem_append.1 hc with hc | hc
    · exact h.spent c hc hclosed
    · rw [List.mem_singleton.1 hc] at hclosed
      cases hclosed

/-- Closing a member counts down, by one. -/
theorem Counted.live_close (h : k.Counted) (hc : c ∈ k.members) (ho : c.closed = false) :
    (k.stats.live.decrement 1).value.toNat + 1 = k.openCount := by
  have hpos := openCount_pos hc ho
  rw [Counter.toNat_decrement, h.live_eq, UInt64.toNat_one]
  omega

theorem Counted.act (h : k.Counted) (i : Nat) (site : Site) (a : Act) :
    (k.act i site a).Counted := by
  unfold Company.act
  split
  · exact h
  · rename_i c hc
    have hmem := List.mem_of_getElem? hc
    have hcounts := act_counts site c k.stats a
    have hspent := spent_act (h.spent c hmem) site k.stats a
    generalize c.act site k.stats a = s at hcounts hspent ⊢
    obtain ⟨d, stats⟩ := s
    simp only at hcounts hspent ⊢
    have hset := openCount_set hc d stats
    have hmembers : ∀ e ∈ k.members.set i d, e.closed = true → e.Spent := by
      intro e he
      rcases List.mem_or_eq_of_mem_set he with he | rfl
      · exact h.spent e he
      · exact hspent
    rcases hcounts with ⟨hsame, hlive⟩ | ⟨ho, hclosed, hlive⟩
    · rw [hsame, Nat.add_right_cancel_iff] at hset
      refine ⟨?_, hset ▸ h.openCount_le, hmembers⟩
      rw [hlive, hset]
      exact h.live_eq
    · rw [ho, hclosed, if_neg Bool.false_ne_true, if_pos rfl] at hset
      have hdown := h.live_close hmem ho
      refine ⟨?_, ?_, hmembers⟩
      · rw [hlive]
        exact Nat.add_right_cancel (hdown.trans hset.symm)
      · exact Nat.le_trans (Nat.le.intro hset) h.openCount_le

theorem Reachable.counted (h : k.Reachable) : k.Counted := by
  induction h with
  | start stats hzero => exact counted_start hzero
  | join bufferSize _ hroom ih => exact ih.join hroom bufferSize
  | act i site a _ ih => exact ih.act i site a
  | count stats _ hlive ih => exact ⟨hlive ▸ ih.live_eq, ih.openCount_le, ih.spent⟩

/-- Whatever a member of a company was doing, the first time it is closed one open connection less
is counted, and nothing else; from then on nothing comes of it any more. Only closing does that. -/
theorem final_of_reachable (h : k.Reachable) (hc : c ∈ k.members) :
    (c.closed = true → c.Final) ∧
    (c.closed = false →
      (c.close k.stats).1 = true ∧ (c.close k.stats).2.1.Final ∧
        ∃ live, (c.close k.stats).2.2 = { k.stats with live := live } ∧
          live.value.toNat + 1 = k.stats.live.value.toNat) ∧
    ∀ site stats a, (c.act site stats a).1.closed = true ↔ c.closed = true ∨ a = .close := by
  have hk := h.counted
  refine ⟨fun hclosed => (hk.spent c hc hclosed).final, fun ho => ?_,
    fun site stats a => closed_act_iff site c stats a⟩
  refine ⟨?_, (spent_close ho k.stats).final, k.stats.live.decrement 1, ?_, ?_⟩
  · rw [close_of_open ho]
  · rw [close_of_open ho]
  · rw [hk.live_close hc ho, hk.live_eq]

/-- Two connections, of which the first has written five bytes of a response. -/
def pair : Company :=
  (((((⟨[], .zero⟩ : Company).join 64).join 64).act 0 mirror
    (.read [.ok (Bytes.ascii "GET / HTTP/1.1\r\n\r\n")])).act 0 mirror
    (.process .empty)).act 0 mirror (.write (.ok 5))

theorem reachable_pair : pair.Reachable := by
  have hone : ((⟨[], .zero⟩ : Company).join 64).Reachable := .join 64 (.start _ rfl) (by decide)
  have htwo := Reachable.join 64 hone (by decide)
  exact .act _ _ _ (.act _ _ _ (.act _ _ _ htwo))

/-- In the middle of its response the first one is closed. -/
theorem final_pair :
    ∃ c ∈ pair.members, c.closed = false ∧ c.pending ≠ 0 ∧
      pair.stats.live.value.toNat = 2 ∧ (c.close pair.stats).2.2.live.value.toNat = 1 ∧
      (c.close pair.stats).2.1.Final := by
  have hview : (pair.members[0]?.map fun c => (c.closed, c.pending == 0, pair.stats.live.value)) =
      some (false, false, 2) := by decide +kernel
  obtain ⟨c, hc, hview⟩ := Option.map_eq_some_iff.1 hview
  simp only [Prod.mk.injEq, beq_eq_false_iff_ne] at hview
  obtain ⟨ho, hpending, hlive⟩ := hview
  have hmem := List.mem_of_getElem? hc
  obtain ⟨-, hclose, -⟩ := final_of_reachable reachable_pair hmem
  obtain ⟨-, hfinal, live, hstats, hdown⟩ := hclose ho
  refine ⟨c, hmem, ho, hpending, ?_, ?_, hfinal⟩
  · rw [hlive]
    rfl
  · rw [hlive] at hdown
    rw [hstats]
    exact Nat.succ.inj hdown

end Counted

end Company

end HttpServer
