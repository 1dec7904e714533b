import HttpServer.Proofs.Buffer.Growth
import HttpServer.Proofs.Connection.Renewal

/-!
# The memory of a connection that lives long

A connection keeps its inbound buffer from one request to the next, and the buffer never gives
capacity back. Reads alone fill it. Nothing is taken out while one of them goes on, so the load of the
buffer is never greater than what is unread when the read ends.

`capacity_bounded` therefore bounds the capacity by the backlog, the most bytes that any act leaves
unread, and not by how long the connection lives or by how much it reads in all. Of a buffer by itself
it says so for calls that fit: a sum that overflows cuts the block off (`length_lt_overflowing`).
-/

namespace HttpServer

open ByteBuffer

namespace Connection

section Reads

theorem grown_readAll {b : ByteBuffer} (hb : b.WellFormed) (total : Nat) (script : Script) :
    Grown b (readAll b total script).2.readable (readAll b total script).2 := by
  obtain ⟨pieces, -, -, hbuffer⟩ := exists_pieced_readAll b total script
  rw [hbuffer]
  exact grown_foldl_accept hb pieces

end Reads

section Acts

variable {c : Connection}

/-- Reading on takes bytes out of the inbound buffer, or forgets them. -/
theorem capacity_process (hc : c.inbound.WellFormed) (site : Site) (files : FileTree)
    (stats : Stats) :
    (c.process site files stats).connection.inbound.capacity = c.inbound.capacity := by
  have hread : (c.resumed.read c.inbound).2.2.capacity = c.inbound.capacity := by
    rw [RequestReader.read_eq hc]
    exact capacity_consume _ _
  rw [process_eq]
  split
  · rfl
  · split
    · exact hread
    · exact hread

/-- No act makes the inbound buffer larger than twice what it leaves unread. -/
theorem grown_act (hc : c.inbound.WellFormed) (site : Site) (stats : Stats) (a : Act) :
    Grown c.inbound (act site c stats a).1.inbound.readable (act site c stats a).1.inbound := by
  cases a with
  | read arrivals =>
      change Grown c.inbound (c.read arrivals).2.inbound.readable (c.read arrivals).2.inbound
      cases ho : c.closed with
      | true =>
          rw [read_of_closed ho]
          exact .of_eq rfl
      | false =>
          rw [read_eq c arrivals ho]
          exact grown_readAll hc 0 arrivals
  | process files => exact .of_eq (capacity_process hc site files stats)
  | write taking =>
      change Grown c.inbound _ (c.write taking).2.inbound
      exact .of_eq (congrArg capacity (sameBut_write c taking).inbound_eq)
  | reset => exact .of_eq rfl
  | close =>
      change Grown c.inbound _ (c.close stats).2.1.inbound
      unfold close
      split
      · exact .of_eq rfl
      · exact .of_eq rfl

/-- A connection after some acts, none of which left more than `bound` bytes unread. -/
theorem grown_acts (hc : c.inbound.WellFormed) (site : Site) (stats : Stats) (as : List Act)
    {bound : Nat}
    (hbound : ∀ front, front <+: as → (acts site c stats front).1.inbound.readable ≤ bound) :
    Grown c.inbound bound (acts site c stats as).1.inbound := by
  induction as generalizing c stats with
  | nil => exact .of_eq rfl
  | cons a as ih =>
      have hfirst : (act site c stats a).1.inbound.readable ≤ bound :=
        hbound [a] ⟨as, rfl⟩
      have hwell := wellFormed_acts hc site stats [a]
      have hrest := ih hwell (act site c stats a).2 fun front hfront =>
        hbound (a :: front) (List.cons_prefix_cons.2 ⟨rfl, hfront⟩)
      exact ((grown_act hc site stats a).mono hfirst).trans hrest

end Acts

/-- Whatever is done to a buffer, if it fits, the capacity never decreases and is at most twice the
greatest load, unless it was larger to begin with. So a connection that never has more than `bound`
bytes unread keeps within twice that, however long it lives. -/
theorem capacity_bounded {ε : Type} (capacity : Nat) (calls more : List (Call ε)) (site : Site)
    (size : Nat) (stats : Stats) (as : List Act) (bound : Nat) :
    ((empty capacity).Fitting (calls ++ more) → ∃ k m,
      Block.afterCalls? capacity calls = some k ∧
      Block.afterCalls? capacity (calls ++ more) = some m ∧
      k.data.length ≤ m.data.length ∧
      k.data.length ≤ max capacity (2 * (empty capacity).peak calls)) ∧
    ((∀ front, front <+: as → (acts site (fresh size) stats front).1.inbound.readable ≤ bound) →
      (acts site (fresh size) stats as).1.inbound.capacity ≤ max size (2 * bound)) := by
  refine ⟨length_afterCalls?_le, fun hbound => ?_⟩
  exact (grown_acts (c := fresh size) (wellFormed_empty size) site stats as hbound).le_max

/-- A request line comes in by two reads, and is read. -/
def trickle : List Act :=
  [.read [.ok (Bytes.ascii "GET / ")], .read [.ok (Bytes.ascii "HTTP/1.1\r\n")], .process .empty]

theorem capacity_bounded_trickle :
    (∃ k m, Block.afterCalls? 4 mixed = some k ∧ Block.afterCalls? 4 (mixed ++ [.clear]) = some m ∧
      k.data.length ≤ m.data.length ∧ k.data.length ≤ 14) ∧
    (acts ⟨[], .empty⟩ (fresh 4) .zero trickle).1.inbound.capacity ≤ 32 := by
  obtain ⟨hcalls, hacts⟩ := capacity_bounded 4 mixed [.clear] ⟨[], .empty⟩ 4 .zero trickle 16
  refine ⟨hcalls (by decide +kernel), hacts fun front hfront => ?_⟩
  simp only [trickle, List.prefix_cons_iff, List.prefix_nil] at hfront
  rcases hfront with rfl | ⟨_, rfl, rfl | ⟨_, rfl, rfl | ⟨_, rfl, rfl⟩⟩⟩
  all_goals decide +kernel

/-- A block that was full is smaller after it was asked for more than fits. -/
theorem length_lt_overflowing :
    ∃ k m, Block.afterCalls? 8 (overflowing.take 1) = some k ∧
      Block.afterCalls? 8 overflowing = some m ∧ m.data.length < k.data.length := by
  have hfront : (Block.afterCalls? 8 (overflowing.take 1)).map (fun k => k.data.length) =
      some 8 := by
    decide +kernel
  have hall : (Block.afterCalls? 8 overflowing).map (fun k => k.data.length) = some 7 := by
    decide +kernel
  obtain ⟨k, hk, hlength⟩ := Option.map_eq_some_iff.1 hfront
  obtain ⟨m, hm, hlength'⟩ := Option.map_eq_some_iff.1 hall
  refine ⟨k, m, hk, hm, ?_⟩
  rw [hlength, hlength']
  decide

end Connection

end HttpServer
