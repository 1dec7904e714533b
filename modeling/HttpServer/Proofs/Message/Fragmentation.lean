import HttpServer.Proofs.Message.Lines
import Mathlib.Algebra.Group.Nat.Defs
import Mathlib.Data.List.Induction

/-!
# Requests in pieces

A text can reach a reader at once or in pieces, and the reader reads on after each piece. `feed`
does this in a buffer and `pour` on the bytes alone. Where the text is cut makes no difference
while the head is read, and none behind a request that is done or has failed. It can make one in
the body, which is looked at as a whole: a text that is longer than announced is refused, unless a
piece ends exactly where the body and its line break end, since the request is done at that moment.
-/

namespace HttpServer

namespace RequestReader

/-- What the last attempt to read on came to, and the buffer that it left. -/
structure Progress where
  outcome : Outcome
  reader : RequestReader
  buffer : ByteBuffer

/-- One more piece arrives, and the reader reads on. -/
def Progress.receive (p : Progress) (piece : Bytes) : Progress :=
  let (outcome, reader, buffer) := p.reader.read (p.buffer.append piece)
  ⟨outcome, reader, buffer⟩

/-- The pieces of a text arrive one by one in an empty buffer. -/
def feed (capacity : Nat) (pieces : List Bytes) : Progress :=
  pieces.foldl Progress.receive ⟨.incomplete, .start, .empty capacity⟩

/-- One more piece stands behind the bytes that were not taken. -/
def Stop.receive (s : Stop) (piece : Bytes) : Stop :=
  s.reader.advance (s.rest ++ piece)

/-- The pieces of a text, without a buffer. -/
def pour (pieces : List Bytes) : Stop :=
  pieces.foldl Stop.receive ⟨.incomplete, .start, []⟩

/-- Some piece ends at a position of the text. -/
def EndsAt (pieces : List Bytes) (position : Nat) : Prop :=
  ∃ early, early <+: pieces ∧ early.flatten.length = position

/-- The length of the head of a text, the empty line included. -/
def headLength (s : Bytes) : Nat :=
  s.length - (start.takeLines s).2.length

/-- Behind the head of a text a body of `n` bytes is awaited. -/
structure Announces (s : Bytes) (n : Nat) : Prop where
  phase_eq : (start.takeLines s).1.phase = .body
  length?_eq : (start.takeLines s).1.request.length? = some n

/-- More stands behind the head than the announced body and its line break. -/
structure Overlong (s : Bytes) (n : Nat) : Prop extends Announces s n where
  lt_length : n + 2 < (start.takeLines s).2.length

/-- A body is JSON, if the request says so. -/
def Accepts (r : Request) (body : Bytes) : Prop :=
  r.isJson = true → ∃ v, Json.parse body = .ok v

theorem store_eq (r : RequestReader) (body : Bytes) :
    r.store body =
      if r.request.isJson then
        match Json.parse body with
        | .ok v => ⟨.done, { r.request with body := body, json := some v }⟩
        | .error _ => ⟨.failed, { r.request with body := body }⟩
      else ⟨.done, { r.request with body := body }⟩ := rfl

theorem isFinished_store (r : RequestReader) (body : Bytes) : (r.store body).isFinished = true := by
  rw [store_eq]
  split
  · split <;> rfl
  · rfl

theorem phase_store_eq_done_iff (r : RequestReader) (body : Bytes) :
    (r.store body).phase = .done ↔ Accepts r.request body := by
  rw [store_eq]
  unfold Accepts
  split
  · rename_i h
    cases Json.parse body with
    | ok v => simp
    | error e => simp [h]
  · rename_i h
    simp [h]

theorem phase_eq_of_isFinished {r : RequestReader} (h : r.isFinished = true)
    (hd : r.phase ≠ .done) : r.phase = .failed := by
  unfold isFinished at h
  simp only [Bool.or_eq_true, beq_iff_eq] at h
  exact h.resolve_left hd

/-- A text that fits into memory never meets the cap on what is expected. -/
theorem body?_eq {r : RequestReader} {n : Nat} {available : Bytes}
    (hn : r.request.length? = some n) (hlen : available.length < 2 ^ 63) :
    r.body? available =
      if available.length < n + 2 then none
      else if n + 2 < available.length then some r.fail
      else some (r.store (available.take n)) := by
  have hexp : expectedBytes n = min (n + 2) Request.greatestLength := rfl
  have hcap : (2 : Nat) ^ 63 < Request.greatestLength := by decide
  unfold body?
  rw [hn]
  simp only
  rcases Nat.lt_or_ge available.length (n + 2) with hlt | hge
  · rw [if_pos hlt, if_pos (show available.length < expectedBytes n by omega)]
  · have hn : expectedBytes n = n + 2 := by omega
    rw [hn]

@[simp] theorem rest_settle (r : RequestReader) (rest : Bytes) : (r.settle rest).rest = rest := by
  unfold settle
  cases r.phase with
  | body => cases r.body? rest <;> rfl
  | startLine | headers | done | failed => rfl

/-- What an attempt leaves is the end of what was there. -/
theorem rest_advance_suffix (r : RequestReader) (bs : Bytes) : (r.advance bs).rest <:+ bs := by
  rw [advance_eq_settle, rest_settle]
  exact takeLines_suffix r bs

/-- A buffer shows what reading on in its bytes comes to. -/
structure Progress.Shows (p : Progress) (s : Stop) : Prop where
  wellFormed : p.buffer.WellFormed
  outcome_eq : p.outcome = s.outcome
  reader_eq : p.reader = s.reader
  unread_eq : p.buffer.unread = s.rest

theorem Progress.Shows.receive {p : Progress} {s : Stop} (h : p.Shows s) (piece : Bytes) :
    (p.receive piece).Shows (s.receive piece) := by
  have hw : (p.buffer.append piece).WellFormed := h.wellFormed.append piece
  have hu : (p.buffer.append piece).unread = s.rest ++ piece := by
    rw [ByteBuffer.unread_append h.wellFormed, h.unread_eq]
  unfold Progress.receive Stop.receive
  rw [read_eq hw, hu, h.reader_eq]
  refine ⟨hw.consume _, rfl, rfl, ?_⟩
  have hsuffix := rest_advance_suffix s.reader (s.rest ++ piece)
  rw [ByteBuffer.unread_consume, ← ByteBuffer.length_unread, hu]
  exact (List.suffix_iff_eq_drop.1 hsuffix).symm

/-- The buffer and its capacity do not show in what is read. -/
theorem feed_shows (capacity : Nat) (pieces : List Bytes) :
    (feed capacity pieces).Shows (pour pieces) := by
  induction pieces using List.reverseRecOn with
  | nil => exact ⟨ByteBuffer.wellFormed_empty capacity, rfl, rfl, rfl⟩
  | append_singleton pieces piece ih =>
      unfold feed pour
      rw [List.foldl_append, List.foldl_append]
      exact ih.receive piece

theorem pour_concat (pieces : List Bytes) (piece : Bytes) :
    pour (pieces ++ [piece]) = (pour pieces).receive piece := by
  unfold pour
  rw [List.foldl_append]
  rfl

theorem endsAt_concat_iff {pieces : List Bytes} {piece : Bytes} {position : Nat} :
    EndsAt (pieces ++ [piece]) position ↔
      EndsAt pieces position ∨ (pieces.flatten ++ piece).length = position := by
  unfold EndsAt
  constructor
  · rintro ⟨early, hearly, hposition⟩
    rcases List.prefix_concat_iff.1 hearly with rfl | hold
    · right
      rw [← hposition, List.flatten_append, List.flatten_singleton]
    · exact Or.inl ⟨early, hold, hposition⟩
  · rintro (⟨early, hearly, hposition⟩ | hposition)
    · exact ⟨early, hearly.trans (List.prefix_append _ _), hposition⟩
    · refine ⟨pieces ++ [piece], List.prefix_refl _, ?_⟩
      rw [← hposition, List.flatten_append, List.flatten_singleton]

theorem EndsAt.le_length {pieces : List Bytes} {position : Nat} (h : EndsAt pieces position) :
    position ≤ pieces.flatten.length := by
  obtain ⟨early, ⟨late, rfl⟩, rfl⟩ := h
  rw [List.flatten_append, List.length_append]
  exact Nat.le_add_right _ _

theorem headLength_add_length (s : Bytes) :
    headLength s + (start.takeLines s).2.length = s.length := by
  have := (takeLines_suffix start s).length_le
  unfold headLength
  omega

/-- Behind the head a text only grows longer. -/
theorem takeLines_start_append {s : Bytes} (h : (start.takeLines s).1.inHead = false)
    (piece : Bytes) :
    start.takeLines (s ++ piece) = ((start.takeLines s).1, (start.takeLines s).2 ++ piece) := by
  rw [takeLines_append, takeLines_of_not_inHead h]

theorem headLength_append {s : Bytes} (h : (start.takeLines s).1.inHead = false) (piece : Bytes) :
    headLength (s ++ piece) = headLength s := by
  unfold headLength
  rw [takeLines_start_append h]
  simp only [List.length_append]
  omega

theorem settle_of_inHead {r : RequestReader} (h : r.inHead = true) (rest : Bytes) :
    r.settle rest = ⟨.incomplete, r, rest⟩ := by
  unfold settle
  cases hp : r.phase with
  | startLine | headers => rfl
  | body | done | failed => simp [inHead, hp] at h

theorem settle_of_isFinished {r : RequestReader} (h : r.isFinished = true) (rest : Bytes) :
    r.settle rest = ⟨r.verdict, r, rest⟩ := by
  unfold settle verdict
  cases hp : r.phase with
  | done | failed => rfl
  | startLine | headers | body => simp [isFinished, hp] at h

theorem settle_of_body {r : RequestReader} (h : r.phase = .body) (rest : Bytes) :
    r.settle rest = ((r.body? rest).elim ⟨.incomplete, r, rest⟩ fun s => ⟨s.verdict, s, rest⟩) := by
  unfold settle
  rw [h]
  cases r.body? rest <;> rfl

theorem inHead_of_body {r : RequestReader} (h : r.phase = .body) : r.inHead = false := by
  simp [inHead, h]

/-- A reader that is at its end stays as it is. -/
theorem receive_of_isFinished {r : RequestReader} (h : r.isFinished = true) (rest piece : Bytes) :
    Stop.receive ⟨r.verdict, r, rest⟩ piece = ⟨r.verdict, r, rest ++ piece⟩ :=
  advance_of_isFinished h (rest ++ piece)

/-- Behind the head the pieces may be looked at together, unless the body was complete between
them. -/
theorem receive_settle {r : RequestReader} {rest piece : Bytes}
    (hlen : (rest ++ piece).length < 2 ^ 63) (hr : r.inHead = false)
    (hbody : ∀ n, r.phase = .body → r.request.length? = some n → rest.length ≠ n + 2) :
    (r.settle rest).receive piece = r.settle (rest ++ piece) := by
  have hrest : rest.length < 2 ^ 63 := by
    rw [List.length_append] at hlen
    omega
  cases hp : r.phase with
  | startLine | headers => simp [inHead, hp] at hr
  | done | failed =>
      have hf : r.isFinished = true := by simp [isFinished, hp]
      rw [settle_of_isFinished hf, settle_of_isFinished hf, receive_of_isFinished hf]
  | body =>
      have hfail : ∀ bs, r.body? bs = some r.fail → r.settle bs = ⟨.error, r.fail, bs⟩ := by
        intro bs hbs
        rw [settle_of_body hp, hbs]
        rfl
      cases hn : r.request.length? with
      | none =>
          have hnone : ∀ bs, r.body? bs = some r.fail := by
            intro bs
            unfold body?
            rw [hn]
          rw [hfail _ (hnone rest), hfail _ (hnone (rest ++ piece))]
          exact receive_of_isFinished rfl rest piece
      | some n =>
          rcases Nat.lt_trichotomy rest.length (n + 2) with hlt | heq | hgt
          · have hwait : r.settle rest = ⟨.incomplete, r, rest⟩ := by
              rw [settle_of_body hp, body?_eq hn hrest, if_pos hlt]
              rfl
            rw [hwait]
            unfold Stop.receive
            rw [advance_eq_settle, takeLines_of_not_inHead hr]
          · exact absurd heq (hbody n hp hn)
          · have hmore : n + 2 < (rest ++ piece).length := by
              rw [List.length_append]
              omega
            have hold : r.body? rest = some r.fail := by
              rw [body?_eq hn hrest, if_neg (by omega), if_pos hgt]
            have hnew : r.body? (rest ++ piece) = some r.fail := by
              rw [body?_eq hn hlen, if_neg (by omega), if_pos hmore]
            rw [hfail _ hold, hfail _ hnew]
            exact receive_of_isFinished rfl rest piece

/-- The stop at which a body of `n` bytes was stored. -/
def filled (s : Bytes) (n : Nat) : Stop :=
  let r := (start.takeLines s).1.store ((start.takeLines s).2.take n)
  ⟨r.verdict, r, (start.takeLines s).2⟩

/-- Some piece ended exactly where the announced body and its line break end. -/
structure Completes (pieces : List Bytes) (n : Nat) : Prop extends
    Announces pieces.flatten n where
  endsAt : EndsAt pieces (headLength pieces.flatten + (n + 2))

/-- A body that is there to the byte is stored. -/
theorem advance_eq_filled {s : Bytes} {n : Nat} (hs : s.length < 2 ^ 63) (h : Announces s n)
    (hlen : (start.takeLines s).2.length = n + 2) : start.advance s = filled s n := by
  have hrest : (start.takeLines s).2.length < 2 ^ 63 :=
    Nat.lt_of_le_of_lt (takeLines_suffix start s).length_le hs
  rw [advance_eq_settle, settle_of_body h.phase_eq, body?_eq h.length?_eq hrest,
    if_neg (by omega), if_neg (by omega)]
  rfl

theorem advance_append_of_inHead {s : Bytes} (h : (start.takeLines s).1.inHead = true)
    (piece : Bytes) : (start.advance s).receive piece = start.advance (s ++ piece) := by
  rw [advance_eq_settle start s, settle_of_inHead h, advance_eq_settle start (s ++ piece),
    takeLines_append, ← advance_eq_settle]
  rfl

theorem advance_append_of_not_inHead {s piece : Bytes} (hs : (s ++ piece).length < 2 ^ 63)
    (h : (start.takeLines s).1.inHead = false)
    (hbody : ∀ n, Announces s n → (start.takeLines s).2.length ≠ n + 2) :
    (start.advance s).receive piece = start.advance (s ++ piece) := by
  have hlen : ((start.takeLines s).2 ++ piece).length < 2 ^ 63 := by
    have := (takeLines_suffix start s).length_le
    simp only [List.length_append] at hs ⊢
    omega
  rw [advance_eq_settle start s, advance_eq_settle start (s ++ piece), takeLines_start_append h]
  exact receive_settle hlen h fun n hp hn => hbody n ⟨hp, hn⟩

/-- A body that was complete between two pieces is all that the reader ever sees. -/
theorem filled_receive {s : Bytes} {n : Nat} (h : Announces s n)
    (hlen : n ≤ (start.takeLines s).2.length) (piece : Bytes) :
    (filled s n).receive piece = filled (s ++ piece) n := by
  unfold filled
  rw [takeLines_start_append (inHead_of_body h.phase_eq)]
  simp only
  rw [List.take_append_of_le_length hlen]
  exact receive_of_isFinished (isFinished_store _ _) _ _

theorem Announces.append {s : Bytes} {n : Nat} (h : Announces s n) (piece : Bytes) :
    Announces (s ++ piece) n := by
  have htake := takeLines_start_append (inHead_of_body h.phase_eq) piece
  refine ⟨?_, ?_⟩
  · rw [htake]
    exact h.phase_eq
  · rw [htake]
    exact h.length?_eq

theorem Announces.of_append {s piece : Bytes} {n : Nat}
    (hs : (start.takeLines s).1.inHead = false) (h : Announces (s ++ piece) n) :
    Announces s n := by
  obtain ⟨hp, hn⟩ := h
  rw [takeLines_start_append hs] at hp hn
  exact ⟨hp, hn⟩

theorem Announces.unique {s : Bytes} {m n : Nat} (hm : Announces s m) (hn : Announces s n) :
    m = n :=
  Option.some.inj (hm.length?_eq.symm.trans hn.length?_eq)

theorem Completes.add_two_le {pieces : List Bytes} {n : Nat} (h : Completes pieces n) :
    n + 2 ≤ (start.takeLines pieces.flatten).2.length := by
  have := h.endsAt.le_length
  have := headLength_add_length pieces.flatten
  omega

/-- Unless the body was complete before, it is complete with the last piece or not at all. -/
theorem length_rest_of_completes_concat {pieces : List Bytes} {piece : Bytes} {n : Nat}
    (hold : ¬ Completes pieces n) (h : Completes (pieces ++ [piece]) n) :
    (start.takeLines (pieces.flatten ++ piece)).2.length = n + 2 := by
  have hflat : (pieces ++ [piece]).flatten = pieces.flatten ++ piece := by
    rw [List.flatten_append, List.flatten_singleton]
  have hhead := headLength_add_length (pieces.flatten ++ piece)
  obtain ⟨hannounces, hends⟩ := h
  rw [hflat] at hannounces hends
  rcases endsAt_concat_iff.1 hends with hearly | hlast
  · exfalso
    cases hr : (start.takeLines pieces.flatten).1.inHead with
    | true =>
        -- the head ended within the last piece, so no earlier piece reaches behind it
        have hshort : (start.takeLines (pieces.flatten ++ piece)).2.length < piece.length := by
          have hbody := inHead_of_body hannounces.phase_eq
          rw [takeLines_append] at hbody ⊢
          exact length_takeLines_lt hr (lineEnd?_takeLines hr) hbody
        have := hearly.le_length
        rw [List.length_append] at hhead
        omega
    | false =>
        rw [headLength_append hr] at hearly
        exact hold ⟨hannounces.of_append hr, hearly⟩
  · omega

/-- What the pieces of a text come to: the body as it was complete between two pieces, or else what
the whole text comes to. -/
theorem pour_eq (pieces : List Bytes) (hlen : pieces.flatten.length < 2 ^ 63) :
    (∀ n, Completes pieces n → pour pieces = filled pieces.flatten n) ∧
      ((∀ n, ¬ Completes pieces n) → pour pieces = start.advance pieces.flatten) := by
  induction pieces using List.reverseRecOn with
  | nil =>
      have hnil : start.takeLines [] = (start, []) := takeLines_of_none rfl
      constructor
      · intro n h
        have hp := h.phase_eq
        rw [List.flatten_nil, hnil] at hp
        cases hp
      · intro _
        rw [List.flatten_nil, advance_eq_settle, hnil]
        rfl
  | append_singleton pieces piece ih =>
      have hflat : (pieces ++ [piece]).flatten = pieces.flatten ++ piece := by
        rw [List.flatten_append, List.flatten_singleton]
      rw [hflat] at hlen ⊢
      obtain ⟨ihfilled, ihwhole⟩ := ih (by rw [List.length_append] at hlen; omega)
      rw [pour_concat]
      by_cases hold : ∃ n, Completes pieces n
      · obtain ⟨m, hm⟩ := hold
        have hle : m ≤ (start.takeLines pieces.flatten).2.length := by
          have := hm.add_two_le
          omega
        have hhead := headLength_append (inHead_of_body hm.phase_eq) piece
        have hnew : Completes (pieces ++ [piece]) m := by
          refine ⟨?_, ?_⟩
          · rw [hflat]
            exact hm.toAnnounces.append piece
          · rw [hflat, hhead]
            exact endsAt_concat_iff.2 (Or.inl hm.endsAt)
        rw [ihfilled m hm, filled_receive hm.toAnnounces hle]
        constructor
        · intro n hn
          rw [hn.toAnnounces.unique hnew.toAnnounces]
        · intro hnone
          exact absurd hnew (hnone m)
      · have hold : ∀ n, ¬ Completes pieces n := fun n h => hold ⟨n, h⟩
        have hstep : (start.advance pieces.flatten).receive piece =
            start.advance (pieces.flatten ++ piece) := by
          cases hr : (start.takeLines pieces.flatten).1.inHead with
          | true => exact advance_append_of_inHead hr piece
          | false =>
              refine advance_append_of_not_inHead hlen hr fun n hn hexact => ?_
              refine hold n ⟨hn, pieces, List.prefix_refl _, ?_⟩
              have := headLength_add_length pieces.flatten
              omega
        rw [ihwhole hold, hstep]
        constructor
        · intro n hn
          have hannounces := hn.toAnnounces
          rw [hflat] at hannounces
          exact advance_eq_filled hlen hannounces (length_rest_of_completes_concat (hold n) hn)
        · intro _
          rfl

theorem feed_whole_shows (capacity : Nat) (s : Bytes) :
    (feed capacity [s]).Shows (start.advance s) :=
  feed_shows capacity [s]

theorem rest_advance (s : Bytes) : (start.advance s).rest = (start.takeLines s).2 := by
  rw [advance_eq_settle, rest_settle]

/-- A body that is longer than announced fails the request when it is seen at once. -/
theorem advance_of_overlong {s : Bytes} {n : Nat} (hs : s.length < 2 ^ 63) (h : Overlong s n) :
    start.advance s = ⟨.error, (start.takeLines s).1.fail, (start.takeLines s).2⟩ := by
  have hlt := h.lt_length
  have hrest : (start.takeLines s).2.length < 2 ^ 63 :=
    Nat.lt_of_le_of_lt (takeLines_suffix start s).length_le hs
  rw [advance_eq_settle, settle_of_body h.phase_eq, body?_eq h.length?_eq hrest,
    if_neg (by omega), if_pos hlt]
  rfl

/-- The outcome goes with the phase in which a finished reader is. -/
theorem outcome_filled (s : Bytes) (n : Nat) :
    ((filled s n).outcome = .success ∧ (filled s n).reader.phase = .done) ∨
      ((filled s n).outcome = .error ∧ (filled s n).reader.phase = .failed) := by
  have hf : (filled s n).reader.isFinished = true := isFinished_store _ _
  have hv : (filled s n).outcome = (filled s n).reader.verdict := rfl
  rw [hv]
  by_cases hd : (filled s n).reader.phase = .done
  · exact Or.inl ⟨verdict_of_done hd, hd⟩
  · have hp := phase_eq_of_isFinished hf hd
    refine Or.inr ⟨?_, hp⟩
    simp [verdict, hp]

/-- Reading a text in pieces leaves the same bytes, and comes to the same outcome and the same
request, as reading it at once, unless the body is longer than announced. Such a text fails at once;
in pieces it is done if a piece ends exactly behind the body's line break and the body is accepted,
and fails otherwise. -/
theorem feed_pieces_eq_feed_whole (capacity capacity' : Nat) (pieces : List Bytes)
    (hlen : pieces.flatten.length < 2 ^ 63) :
    let cut := feed capacity pieces
    let whole := feed capacity' [pieces.flatten]
    cut.buffer.unread = whole.buffer.unread ∧
      ((∀ n, ¬ Overlong pieces.flatten n) →
        cut.outcome = whole.outcome ∧ cut.reader = whole.reader) ∧
      ∀ n, Overlong pieces.flatten n →
        (whole.outcome = .error ∧ whole.reader.phase = .failed) ∧
        ((cut.outcome = .success ∧ cut.reader.phase = .done) ∨
          (cut.outcome = .error ∧ cut.reader.phase = .failed)) ∧
        (cut.reader.phase = .done ↔
          EndsAt pieces (headLength pieces.flatten + (n + 2)) ∧
            Accepts (start.takeLines pieces.flatten).1.request
              ((start.takeLines pieces.flatten).2.take n)) := by
  intro cut whole
  have hcut : cut.Shows (pour pieces) := feed_shows capacity pieces
  have hwhole : whole.Shows (start.advance pieces.flatten) := feed_whole_shows capacity' _
  obtain ⟨hfilled, hrest⟩ := pour_eq pieces hlen
  refine ⟨?_, ?_, ?_⟩
  · rw [hcut.unread_eq, hwhole.unread_eq]
    by_cases h : ∃ n, Completes pieces n
    · obtain ⟨n, hn⟩ := h
      rw [hfilled n hn, rest_advance]
      rfl
    · rw [hrest fun n hn => h ⟨n, hn⟩]
  · intro hover
    have hsame : pour pieces = start.advance pieces.flatten := by
      by_cases h : ∃ n, Completes pieces n
      · obtain ⟨n, hn⟩ := h
        have hexact : (start.takeLines pieces.flatten).2.length = n + 2 := by
          have := hn.add_two_le
          have : ¬ n + 2 < (start.takeLines pieces.flatten).2.length :=
            fun hlt => hover n ⟨hn.toAnnounces, hlt⟩
          omega
        rw [hfilled n hn, advance_eq_filled hlen hn.toAnnounces hexact]
      · exact hrest fun n hn => h ⟨n, hn⟩
    rw [hcut.outcome_eq, hcut.reader_eq, hwhole.outcome_eq, hwhole.reader_eq, hsame]
    exact ⟨rfl, rfl⟩
  · intro n hn
    rw [hcut.outcome_eq, hcut.reader_eq, hwhole.outcome_eq, hwhole.reader_eq]
    refine ⟨?_, ?_⟩
    · rw [advance_of_overlong hlen hn]
      exact ⟨rfl, rfl⟩
    · by_cases hends : EndsAt pieces (headLength pieces.flatten + (n + 2))
      · rw [hfilled n ⟨hn.toAnnounces, hends⟩]
        refine ⟨outcome_filled _ _, ?_⟩
        constructor
        · intro hd
          exact ⟨hends, (phase_store_eq_done_iff _ _).1 hd⟩
        · intro h
          exact (phase_store_eq_done_iff _ _).2 h.2
      · have hnone : ∀ m, ¬ Completes pieces m := by
          intro m hm
          rw [hm.toAnnounces.unique hn.toAnnounces] at hm
          exact hends hm.endsAt
        rw [hrest hnone, advance_of_overlong hlen hn]
        refine ⟨Or.inr ⟨rfl, rfl⟩, ?_⟩
        constructor
        · intro hd
          cases hd
        · intro h
          exact absurd h.1 hends

/-- A request cut inside its empty line and inside the line break behind its body, with a byte more
than announced. -/
def splitPost : List Bytes :=
  [Bytes.ascii "POST / HTTP/1.1\r\nContent-Length: 1\r\n\r", Bytes.ascii "\nx\r",
    Bytes.ascii "\n", Bytes.ascii "y"]

theorem overlong_splitPost : Overlong splitPost.flatten 1 := by
  refine ⟨⟨?_, ?_⟩, ?_⟩
  · decide +kernel
  · decide +kernel
  · decide +kernel

theorem endsAt_splitPost : EndsAt splitPost (headLength splitPost.flatten + 3) := by
  refine ⟨splitPost.take 3, List.take_prefix 3 splitPost, ?_⟩
  decide +kernel

/-- In pieces the request is done, and at once it fails. -/
theorem feed_splitPost :
    splitPost.flatten.length < 2 ^ 63 ∧ Overlong splitPost.flatten 1 ∧
      (feed 0 splitPost).reader.phase = .done ∧
      (feed 0 [splitPost.flatten]).reader.phase = .failed := by
  have hlen : splitPost.flatten.length < 2 ^ 63 := by decide +kernel
  have haccepts : Accepts (start.takeLines splitPost.flatten).1.request
      ((start.takeLines splitPost.flatten).2.take 1) := by
    intro hjson
    have hplain : (start.takeLines splitPost.flatten).1.request.isJson = false := by decide +kernel
    rw [hplain] at hjson
    cases hjson
  obtain ⟨-, -, hover⟩ := feed_pieces_eq_feed_whole 0 0 splitPost hlen
  obtain ⟨hwhole, -, hcut⟩ := hover 1 overlong_splitPost
  exact ⟨hlen, overlong_splitPost, hcut.2 ⟨endsAt_splitPost, haccepts⟩, hwhole.2⟩

end RequestReader

end HttpServer
