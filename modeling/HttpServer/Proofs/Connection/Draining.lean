import HttpServer.Connection
import HttpServer.Proofs.Buffer.Queue

/-!
# Reading all that has arrived

How many bytes one read takes depends on the room in the buffer, and so does the number of reads.
What they come to together does not: `Script.gather` says it for a script alone, and
`drained_readAll` that a connection reads just that. Two buffers with the same unread bytes are
therefore left with the same unread bytes by the same script, and the answer is the same.

`Script.Brings` says what a script brings without reading it: the pieces in front of its end, one
behind the other, with interruptions anywhere between them. `read_brings` says that a connection takes
in what its script brings, so of two scripts that bring the same none can be told from the other.
-/

namespace HttpServer

namespace Script

/-- How the reads of a script come to their end. -/
inductive Ending where
  /-- A read would block. -/
  | blocked
  /-- The other end has stopped sending. -/
  | ended
  | broken (e : IoError)

/-- The bytes that arrive before a script comes to its end, and what that end is. -/
def gather : Script → Bytes × Ending
  | [] => ([], .blocked)
  | .error e :: rest =>
    match e.kind with
    | .wouldBlock => ([], .blocked)
    | .interrupted => gather rest
    | _ => ([], .broken e)
  | .ok bs :: rest => if bs = [] then ([], .ended) else (bs ++ (gather rest).1, (gather rest).2)

/-- What reading answers that came to this end after so many bytes. -/
def Ending.answer (total : Nat) : Ending → Except IoError Nat
  | .blocked => .ok total
  | .ended => if total = 0 then .error .peerClosed else .ok total
  | .broken e => .error e

theorem gather_nil : gather [] = ([], .blocked) := by
  rw [gather]

theorem gather_of_wouldBlock {e : IoError} (h : e.kind = .wouldBlock) (rest : Script) :
    gather (.error e :: rest) = ([], .blocked) := by
  rw [gather, h]

theorem gather_of_interrupted {e : IoError} (h : e.kind = .interrupted) (rest : Script) :
    gather (.error e :: rest) = gather rest := by
  rw [gather, h]

theorem gather_of_broken {e : IoError} (hw : e.kind ≠ .wouldBlock) (hi : e.kind ≠ .interrupted)
    (rest : Script) : gather (.error e :: rest) = ([], .broken e) := by
  rw [gather]
  cases hk : e.kind with
  | wouldBlock => exact absurd hk hw
  | interrupted => exact absurd hk hi
  | _ => rfl

theorem gather_ok {bs : Bytes} (h : bs ≠ []) (rest : Script) :
    gather (.ok bs :: rest) = (bs ++ (gather rest).1, (gather rest).2) := by
  rw [gather, if_neg h]

/-- A read takes its bytes from the front of what a script gathers. -/
theorem gather_of_next_ok {room : Nat} (hroom : 0 < room) {script : Script} {bs : Bytes}
    (h : (next room script).1 = .ok bs) (hne : bs ≠ []) :
    gather script = (bs ++ (gather (next room script).2).1, (gather (next room script).2).2) := by
  cases script with
  | nil => cases h
  | cons r rest =>
      cases r with
      | error e => cases h
      | ok cs =>
          rcases Nat.lt_or_ge room cs.length with hlt | hle
          · rw [next_ok_of_lt hlt] at h ⊢
            cases h
            have hcs : cs ≠ [] := List.ne_nil_of_length_pos (by omega)
            have hrest : cs.drop room ≠ [] := by
              rw [ne_eq, List.drop_eq_nil_iff]
              omega
            rw [gather_ok hcs, gather_ok hrest, ← List.append_assoc, List.take_append_drop]
          · rw [next_ok_of_le hle] at h ⊢
            cases h
            exact gather_ok hne rest

/-- No bytes are read only at the end of what the other end sends. -/
theorem gather_of_next_nil {room : Nat} (hroom : 0 < room) {script : Script}
    (h : (next room script).1 = .ok []) : gather script = ([], .ended) := by
  cases script with
  | nil => cases h
  | cons r rest =>
      cases r with
      | error e => cases h
      | ok cs =>
          rcases Nat.lt_or_ge room cs.length with hlt | hle
          · rw [next_ok_of_lt hlt, Except.ok.injEq, List.take_eq_nil_iff] at h
            rcases h with h | h
            · omega
            · rw [h, List.length_nil] at hlt
              omega
          · rw [next_ok_of_le hle, Except.ok.injEq] at h
            rw [h, gather, if_pos rfl]

/-- A read comes to the end of a script. -/
inductive Ends : Except IoError Bytes → Ending → Prop where
  | blocked {e : IoError} : e.kind = .wouldBlock → Ends (.error e) .blocked
  | ended : Ends (.ok []) .ended
  | broken {e : IoError} : e.kind ≠ .wouldBlock → e.kind ≠ .interrupted →
      Ends (.error e) (.broken e)

/-- A script brings some bytes and then comes to an end. What is behind the end does not matter. -/
inductive Brings : Script → Bytes → Ending → Prop where
  /-- Nothing more has arrived. -/
  | silence : Brings [] [] .blocked
  | stop {r : Except IoError Bytes} {ending : Ending} (rest : Script) : Ends r ending →
      Brings (r :: rest) [] ending
  | interrupted {e : IoError} {rest : Script} {bs : Bytes} {ending : Ending} :
      e.kind = .interrupted → Brings rest bs ending → Brings (.error e :: rest) bs ending
  | piece {new : Bytes} {rest : Script} {bs : Bytes} {ending : Ending} : new ≠ [] →
      Brings rest bs ending → Brings (.ok new :: rest) (new ++ bs) ending

theorem Ends.gather_eq {r : Except IoError Bytes} {ending : Ending} (h : Ends r ending)
    (rest : Script) : gather (r :: rest) = ([], ending) := by
  cases h with
  | blocked hw => exact gather_of_wouldBlock hw rest
  | ended => rw [gather, if_pos rfl]
  | broken hw hi => exact gather_of_broken hw hi rest

theorem Brings.gather_eq {script : Script} {bs : Bytes} {ending : Ending}
    (h : Brings script bs ending) : script.gather = (bs, ending) := by
  induction h with
  | silence => exact gather_nil
  | stop rest hends => exact hends.gather_eq rest
  | interrupted hi _ ih => rw [gather_of_interrupted hi, ih]
  | piece hne _ ih => rw [gather_ok hne, ih]

/-- Every script brings something. -/
theorem brings_gather (script : Script) : Brings script script.gather.1 script.gather.2 := by
  induction script with
  | nil =>
      rw [gather_nil]
      exact .silence
  | cons r rest ih =>
      cases r with
      | error e =>
          by_cases hw : e.kind = .wouldBlock
          · rw [gather_of_wouldBlock hw]
            exact .stop rest (.blocked hw)
          · by_cases hi : e.kind = .interrupted
            · rw [gather_of_interrupted hi]
              exact .interrupted hi ih
            · rw [gather_of_broken hw hi]
              exact .stop rest (.broken hw hi)
      | ok bs =>
          by_cases hne : bs = []
          · subst hne
            rw [gather, if_pos rfl]
            exact .stop rest .ended
          · rw [gather_ok hne]
            exact .piece hne ih

theorem eq_of_next_error {room : Nat} {r : Except IoError Bytes} {rest : Script} {e : IoError}
    (h : (next room (r :: rest)).1 = .error e) :
    r = .error e ∧ (next room (r :: rest)).2 = rest := by
  cases r with
  | error e' =>
      cases h
      exact ⟨rfl, rfl⟩
  | ok cs =>
      exfalso
      rcases Nat.lt_or_ge room cs.length with hlt | hle
      · rw [next_ok_of_lt hlt] at h
        cases h
      · rw [next_ok_of_le hle] at h
        cases h

end Script

namespace Connection

/-- A buffer after reading all that a script brings, `total` bytes having been read before. -/
structure Drained (b : ByteBuffer) (total : Nat) (script : Script)
    (r : Except IoError Nat × ByteBuffer) : Prop where
  answer_eq : r.1 = script.gather.2.answer (total + script.gather.1.length)
  wellFormed : r.2.WellFormed
  unread_eq : r.2.unread = b.unread ++ script.gather.1

/-- Reading lets the buffer take in what the script gathers, piece by piece. -/
structure Pieced (b : ByteBuffer) (total : Nat) (script : Script)
    (r : Except IoError Nat × ByteBuffer) (pieces : List Bytes) : Prop where
  flatten_eq : pieces.flatten = script.gather.1
  answer_eq : r.1 = script.gather.2.answer (total + script.gather.1.length)
  buffer_eq : r.2 = pieces.foldl ByteBuffer.accept b

theorem pieced_stop {b : ByteBuffer} {total : Nat} {script : Script} {ending : Script.Ending}
    (h : script.gather = ([], ending)) :
    Pieced b total script (ending.answer total, b) [] := by
  refine ⟨?_, ?_, rfl⟩
  · rw [h]
    rfl
  · rw [h]
    rfl

theorem exists_pieced_readAll (b : ByteBuffer) (total : Nat) (script : Script) :
    ∃ pieces, Pieced b total script (readAll b total script) pieces := by
  -- the reading ends with the script, or takes bytes off its front and goes on
  induction b, total, script using readAll.induct with
  | case1 b total =>
      rw [readAll]
      exact ⟨[], pieced_stop Script.gather_nil⟩
  | case2 b total r rest arrival e he hk =>
      obtain ⟨rfl, -⟩ := Script.eq_of_next_error he
      rw [readAll]
      simp only [Script.next, hk]
      exact ⟨[], pieced_stop (Script.gather_of_wouldBlock hk rest)⟩
  | case3 b total r rest arrival e he hk ih =>
      obtain ⟨rfl, -⟩ := Script.eq_of_next_error he
      rw [readAll]
      simp only [arrival, Script.next, hk] at ih ⊢
      obtain ⟨pieces, hflatten, hanswer, hbuffer⟩ := ih
      rw [← Script.gather_of_interrupted hk rest] at hflatten hanswer
      exact ⟨pieces, hflatten, hanswer, hbuffer⟩
  | case4 b total r rest arrival e he hw hi =>
      obtain ⟨rfl, -⟩ := Script.eq_of_next_error he
      rw [readAll]
      simp only [Script.next]
      exact ⟨[], pieced_stop (Script.gather_of_broken hw hi rest)⟩
  | case5 b total r rest arrival he =>
      rw [readAll]
      simp only [arrival] at he
      simp only [he, if_true]
      exact ⟨[], pieced_stop (Script.gather_of_next_nil b.total_room_pos he)⟩
  | case6 b total r rest arrival bs he hne ih =>
      simp only [arrival] at he ih
      have hgather := Script.gather_of_next_ok b.total_room_pos he hne
      obtain ⟨pieces, hflatten, hanswer, hbuffer⟩ := ih
      rw [readAll]
      simp only [he]
      rw [if_neg hne]
      refine ⟨bs :: pieces, ?_, ?_, hbuffer⟩
      · rw [List.flatten_cons, hflatten, hgather]
      · rw [hanswer, hgather, List.length_append, Nat.add_assoc]

theorem drained_readAll {b : ByteBuffer} (hb : b.WellFormed) (total : Nat) (script : Script) :
    Drained b total script (readAll b total script) := by
  obtain ⟨pieces, hflatten, hanswer, hbuffer⟩ := exists_pieced_readAll b total script
  refine ⟨hanswer, ?_, ?_⟩
  · rw [hbuffer]
    exact ByteBuffer.wellFormed_foldl_accept hb pieces
  · rw [hbuffer, ByteBuffer.unread_foldl_accept hb, hflatten]

/-- A connection has taken in what a script brings, and has changed in nothing else. -/
structure TakesIn (c : Connection) (bs : Bytes) (ending : Script.Ending)
    (r : Except IoError Nat × Connection) : Prop where
  connection_eq : r.2 = { c with inbound := r.2.inbound }
  wellFormed : r.2.inbound.WellFormed
  unread_eq : r.2.inbound.unread = c.inbound.unread ++ bs
  of_blocked : ending = .blocked → r.1 = .ok bs.length
  of_ended : ending = .ended → bs ≠ [] → r.1 = .ok bs.length
  /-- Only an error of the stream itself can pass for an end before any byte. -/
  unexpectedEof_iff : (∃ e, r.1 = .error e ∧ e.kind = .unexpectedEof) ↔
    ending = .ended ∧ bs = [] ∨ ∃ e, ending = .broken e ∧ e.kind = .unexpectedEof
  of_broken : ∀ e, ending = .broken e → r.1 = .error e

theorem takesIn_read {c : Connection} (ho : c.closed = false) (hb : c.inbound.WellFormed)
    {script : Script} {bs : Bytes} {ending : Script.Ending} (h : script.Brings bs ending) :
    TakesIn c bs ending (c.read script) ∧ (c.read script).1 = ending.answer bs.length := by
  obtain ⟨hanswer, hwell, hunread⟩ := drained_readAll hb 0 script
  rw [h.gather_eq, Nat.zero_add] at hanswer
  rw [h.gather_eq] at hunread
  rw [read_eq c script ho]
  refine ⟨⟨rfl, hwell, hunread, ?_, ?_, ?_, ?_⟩, hanswer⟩
  · rintro rfl
    exact hanswer
  · rintro rfl hne
    rw [hanswer, Script.Ending.answer, if_neg (by rwa [List.length_eq_zero_iff])]
  · simp only [hanswer]
    cases ending with
    | blocked => simp [Script.Ending.answer]
    | ended =>
        by_cases hne : bs = []
        · simp [Script.Ending.answer, hne, IoError.peerClosed, IoError.kind]
        · simp [Script.Ending.answer, hne]
    | broken e => simp [Script.Ending.answer]
  · rintro e rfl
    exact hanswer

/-- Whatever capacity and cursors the inbound buffer has, reading takes in all that the script
brings, and answers how that ended. Only the unread bytes, the bytes that are brought and the end of
them show in the outcome: neither the room in the buffer, nor how the bytes were divided, nor where
reads were interrupted. -/
theorem read_brings {c : Connection} (ho : c.closed = false) (hb : c.inbound.WellFormed)
    (script : Script) :
    (∃ bs ending, script.Brings bs ending) ∧
    ∀ bs ending, script.Brings bs ending →
      TakesIn c bs ending (c.read script) ∧
      ∀ (d : Connection) (script' : Script), d.closed = false → d.inbound.WellFormed →
        d.inbound.unread = c.inbound.unread → script'.Brings bs ending →
        (d.read script').1 = (c.read script).1 ∧
          (d.read script').2.inbound.unread = (c.read script).2.inbound.unread := by
  refine ⟨⟨_, _, script.brings_gather⟩, ?_⟩
  intro bs ending hbrings
  obtain ⟨htakes, hanswer⟩ := takesIn_read ho hb hbrings
  refine ⟨htakes, ?_⟩
  intro d script' hod hbd hsame hbrings'
  obtain ⟨htakes', hanswer'⟩ := takesIn_read hod hbd hbrings'
  refine ⟨hanswer'.trans hanswer.symm, ?_⟩
  rw [htakes'.unread_eq, htakes.unread_eq, hsame]

/-- Two pieces with an interruption between them, and the end. -/
def twoPieces : Script :=
  [.ok (Bytes.ascii "GET "), .error (.raised .interrupted "interrupted"),
    .ok (Bytes.ascii "/a"), .ok []]

/-- The same bytes in one piece. -/
def onePiece : Script :=
  [.ok (Bytes.ascii "GET /a"), .ok []]

theorem brings_twoPieces : twoPieces.Brings (Bytes.ascii "GET /a") .ended :=
  twoPieces.brings_gather

theorem brings_onePiece : onePiece.Brings (Bytes.ascii "GET /a") .ended :=
  onePiece.brings_gather

/-- A buffer without room takes in two pieces as one with room takes in one. -/
theorem read_brings_twoPieces :
    ((fresh 0).read twoPieces).1 = .ok 6 ∧
      ((fresh 0).read twoPieces).2.inbound.unread = Bytes.ascii "GET /a" ∧
      ((fresh 1024).read onePiece).1 = ((fresh 0).read twoPieces).1 ∧
      ((fresh 1024).read onePiece).2.inbound.unread =
        ((fresh 0).read twoPieces).2.inbound.unread := by
  have hempty (capacity : Nat) : (fresh capacity).inbound.WellFormed :=
    ByteBuffer.wellFormed_empty capacity
  obtain ⟨-, hread⟩ := read_brings (c := fresh 0) rfl (hempty 0) twoPieces
  obtain ⟨htakes, hsame⟩ := hread _ _ brings_twoPieces
  exact ⟨htakes.of_ended rfl (by decide), htakes.unread_eq,
    hsame (fresh 1024) onePiece rfl (hempty 1024) rfl brings_onePiece⟩

end Connection

end HttpServer
