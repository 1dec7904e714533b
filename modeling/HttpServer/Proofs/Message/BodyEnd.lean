import HttpServer.Proofs.Message.Fragmentation
import HttpServer.Proofs.Message.Length

/-!
# What stands behind a body

A body is recognised by its length: a request that carries one is done when its body and two more
bytes have arrived, and these bytes are unread then (`exists_ending_of_done`). The two bytes are
counted and not looked at. Put any others in their place, and cut the text anywhere: the same
request is done (`Ending.pour_replace`). The two bytes are fewer only for lengths at the very limit
of 64 bits, where the count ends.
-/

namespace HttpServer

namespace RequestReader

section Pieces

variable {r : RequestReader} {s rest piece : Bytes} {pieces : List Bytes}

/-- What is read of a text while more is awaited. -/
def awaiting (s : Bytes) : Stop :=
  ⟨.incomplete, (start.takeLines s).1, (start.takeLines s).2⟩

theorem isFinished_of_body? {r' : RequestReader} (h : r.body? rest = some r') :
    r'.isFinished = true := by
  unfold body? at h
  split at h
  · cases h
    rfl
  · split at h
    · cases h
    · split at h
      · cases h
        rfl
      · cases h
        exact isFinished_store r _

/-- A reader that is not at its end has not moved behind the lines. -/
theorem settle_of_not_isFinished (h : (r.settle rest).reader.isFinished = false) :
    r.settle rest = ⟨.incomplete, r, rest⟩ := by
  cases hp : r.phase with
  | startLine | headers => exact settle_of_inHead (by simp [inHead, hp]) rest
  | done | failed =>
      have hfinished : r.isFinished = true := by simp [isFinished, hp]
      rw [settle_of_isFinished hfinished, hfinished] at h
      cases h
  | body =>
      rw [settle_of_body hp] at h ⊢
      cases hbody : r.body? rest with
      | none => rfl
      | some r' =>
          rw [hbody] at h
          rw [← Bool.not_eq_true] at h
          exact absurd (isFinished_of_body? hbody) h

theorem receive_awaiting (s piece : Bytes) :
    (awaiting s).receive piece = start.advance (s ++ piece) := by
  rw [advance_eq_settle start, takeLines_append, ← advance_eq_settle]
  rfl

theorem advance_of_not_isFinished (h : (start.advance s).reader.isFinished = false) :
    start.advance s = awaiting s := by
  rw [advance_eq_settle] at h ⊢
  exact settle_of_not_isFinished h

theorem reader_receive_of_isFinished {t : Stop} (h : t.reader.isFinished = true) (piece : Bytes) :
    (t.receive piece).reader = t.reader := by
  rw [Stop.receive, advance_of_isFinished h]

/-- Until a request is at its end, it does not matter how it is cut. -/
theorem pour_of_not_isFinished (h : (pour pieces).reader.isFinished = false) :
    pour pieces = awaiting pieces.flatten := by
  induction pieces using List.reverseRecOn with
  | nil =>
      rw [List.flatten_nil, awaiting, takeLines_of_none rfl]
      rfl
  | append_singleton pieces piece ih =>
      rw [pour_concat] at h ⊢
      rw [List.flatten_concat]
      have hbefore : (pour pieces).reader.isFinished = false := by
        rw [← Bool.not_eq_true]
        intro hfinished
        rw [reader_receive_of_isFinished hfinished, hfinished] at h
        cases h
      rw [ih hbefore, receive_awaiting] at h ⊢
      exact advance_of_not_isFinished h

/-- The piece with which a request ends might have come with all pieces before it. -/
theorem pour_concat_of_not_isFinished (h : (pour pieces).reader.isFinished = false)
    (piece : Bytes) : pour (pieces ++ [piece]) = start.advance (pieces.flatten ++ piece) := by
  rw [pour_concat, pour_of_not_isFinished h, receive_awaiting]

end Pieces

section Ends

variable {r : RequestReader} {s t u front behind other bs : Bytes} {n : Nat} {pieces : List Bytes}

/-- A text ends with the body that it announces and the bytes that are counted behind the body. -/
structure Ending (s : Bytes) (n : Nat) : Prop extends Announces s n where
  length_eq : (start.takeLines s).2.length = expectedBytes n

theorem Ending.advance_eq (h : Ending s n) : start.advance s = filled s n := by
  rw [advance_eq_settle, settle_of_body h.phase_eq, body?, h.length?_eq]
  simp only [h.length_eq, Nat.lt_irrefl, if_false]
  rfl

theorem isFinished_filled (s : Bytes) (n : Nat) : (filled s n).reader.isFinished = true :=
  isFinished_store _ _

/-- Before its last byte a request is not at its end. -/
theorem Ending.not_isFinished (h : Ending (t ++ u) n) (hu : u ≠ []) :
    (start.advance t).reader.isFinished = false := by
  rw [advance_eq_settle]
  cases hr : (start.takeLines t).1.inHead with
  | true =>
      rw [settle_of_inHead hr]
      unfold inHead at hr
      unfold isFinished
      cases hp : (start.takeLines t).1.phase with
      | startLine | headers => rfl
      | body | done | failed => simp [hp] at hr
  | false =>
      have hannounces := h.toAnnounces.of_append hr
      have hlength := h.length_eq
      rw [takeLines_start_append hr, List.length_append] at hlength
      have hpos := List.length_pos_iff.2 hu
      have hwaits : (start.takeLines t).1.body? (start.takeLines t).2 = none := by
        rw [body?, hannounces.length?_eq]
        exact if_pos (by omega)
      rw [settle_of_body hannounces.phase_eq, hwaits]
      simp [isFinished, hannounces.phase_eq]

/-- However a request is cut, it is at its end with its last byte and not before. -/
theorem Ending.pour_of_append (h : Ending (pieces.flatten ++ u) n) :
    (u = [] → pour pieces = filled pieces.flatten n) ∧
      (u ≠ [] → (pour pieces).reader.isFinished = false) := by
  induction pieces using List.reverseRecOn generalizing u with
  | nil =>
      refine ⟨fun hu => ?_, fun _ => rfl⟩
      have hphase := h.phase_eq
      rw [hu, List.flatten_nil, List.append_nil, takeLines_of_none rfl] at hphase
      cases hphase
  | append_singleton pieces piece ih =>
      rw [List.flatten_concat] at h ⊢
      obtain ⟨ihend, ihbefore⟩ := ih (by rwa [List.append_assoc] at h)
      by_cases hmore : piece ++ u = []
      · -- the pieces were the whole text already
        obtain ⟨hpiece, hu⟩ := List.append_eq_nil_iff.1 hmore
        refine ⟨fun _ => ?_, fun hne => absurd hu hne⟩
        rw [pour_concat, ihend hmore, hpiece, List.append_nil]
        have hstays := advance_of_isFinished (isFinished_filled pieces.flatten n)
          ((filled pieces.flatten n).rest ++ [])
        rw [List.append_nil] at hstays
        rw [Stop.receive, List.append_nil]
        exact hstays
      · rw [pour_concat_of_not_isFinished (ihbefore hmore)]
        constructor
        · rintro rfl
          rw [List.append_nil] at h
          exact h.advance_eq
        · exact h.not_isFinished

theorem Ending.pour_eq (h : Ending pieces.flatten n) : pour pieces = filled pieces.flatten n :=
  (Ending.pour_of_append (u := []) (by rwa [List.append_nil])).1 rfl

theorem isPost_of_line_done (h : (r.line bs).phase = .done) :
    (r.line bs).request.isPost = false := by
  unfold RequestReader.line at h ⊢
  split at h
  · rename_i hvalid
    rw [if_pos hvalid]
    split at h
    · unfold RequestReader.startLine at h
      split at h
      · split at h <;> cases h
      · cases h
    · rename_i hstart
      rw [if_neg hstart]
      unfold headerLine at h ⊢
      split at h
      · rename_i hempty
        rw [if_pos hempty]
        cases hpost : r.request.isPost with
        | false => rfl
        | true =>
            rw [hpost] at h
            cases h
      · split at h <;> cases h
  · cases h

/-- A request that is done with its head carries no body. -/
theorem isPost_of_takeLines_done (h : (r.takeLines bs).1.phase = .done) (hr : r.phase ≠ .done) :
    (r.takeLines bs).1.request.isPost = false := by
  induction r, bs using takeLines.induct with
  | case1 r bs _ hn =>
      rw [takeLines_of_none hn] at h
      exact absurd h hr
  | case2 r bs hhead n hn ih =>
      rw [takeLines_of_some hhead hn] at h ⊢
      by_cases hdone : (r.line (bs.take n)).phase = .done
      · rw [takeLines_of_not_inHead (by simp [inHead, hdone])]
        exact isPost_of_line_done hdone
      · exact ih h hdone
  | case3 r bs hhead =>
      rw [takeLines_of_not_inHead (Bool.eq_false_iff.2 hhead)] at h
      exact absurd h hr

/-- A request with a body is done only where the body and what is counted behind it end. -/
theorem exists_ending (hdone : (start.advance s).reader.phase = .done)
    (hpost : (start.advance s).reader.request.isPost = true) : ∃ n, Ending s n := by
  rw [advance_eq_settle] at hdone hpost
  cases hp : (start.takeLines s).1.phase with
  | startLine | headers =>
      rw [settle_of_inHead (by simp [inHead, hp]), hp] at hdone
      cases hdone
  | failed =>
      rw [settle_of_isFinished (by simp [isFinished, hp]), hp] at hdone
      cases hdone
  | done =>
      rw [settle_of_isFinished (by simp [isFinished, hp])] at hpost
      rw [isPost_of_takeLines_done hp (by decide)] at hpost
      cases hpost
  | body =>
      rw [settle_of_body hp, body?] at hdone
      split at hdone
      · cases hdone
      · rename_i n hn
        refine ⟨n, ⟨hp, hn⟩, ?_⟩
        split at hdone
        · rw [Option.elim_none, hp] at hdone
          cases hdone
        · split at hdone
          · cases hdone
          · omega

/-- Bytes behind the head do not show in it. -/
theorem inHead_takeLines_front (hhead : (start.takeLines (front ++ behind)).1.inHead = false)
    (hlen : behind.length ≤ (start.takeLines (front ++ behind)).2.length) :
    (start.takeLines front).1.inHead = false := by
  cases hr : (start.takeLines front).1.inHead with
  | false => rfl
  | true =>
      rw [takeLines_append] at hhead hlen
      exact absurd hlen (Nat.not_le_of_lt (length_takeLines_lt hr (lineEnd?_takeLines hr) hhead))

theorem le_greatestLength {q : Request} (h : q.length? = some n) : n ≤ Request.greatestLength := by
  obtain ⟨value, -, hvalue⟩ := Option.bind_eq_some_iff.1 h
  obtain ⟨before, count, after, -, -, hcount, -⟩ := Request.lengthOf?_eq_some_iff.1 hvalue
  obtain ⟨sign, ds, -, -, -, -, -, hlt⟩ := hcount
  exact Nat.le_of_lt_succ hlt

/-- The bytes that are counted behind a body of `n` bytes: two, as far as the count goes. -/
def breakLength (n : Nat) : Nat :=
  min Bytes.crlf.length (Request.greatestLength - n)

theorem expectedBytes_eq (h : n ≤ Request.greatestLength) :
    expectedBytes n = n + breakLength n := by
  rw [expectedBytes, breakLength]
  omega

/-- Where a text with a body is cut so that the counted bytes are behind the cut. -/
structure Cuts (s front body behind : Bytes) (n : Nat) : Prop where
  text_eq : s = front ++ behind
  length_behind : behind.length = breakLength n
  length_body : body.length = n
  takeLines_front : start.takeLines front = ((start.takeLines s).1, body)

theorem Ending.exists_cuts (h : Ending s n) : ∃ front body behind, Cuts s front body behind n := by
  have hexpected := expectedBytes_eq (le_greatestLength h.length?_eq)
  have hrest := h.length_eq
  have hsuffix := (takeLines_suffix start s).length_le
  let k := s.length - breakLength n
  have hbehind : (s.drop k).length = breakLength n := by
    rw [List.length_drop]
    omega
  have hwhole : start.takeLines (s.take k ++ s.drop k) = start.takeLines s := by
    rw [List.take_append_drop]
  have hhead : (start.takeLines (s.take k ++ s.drop k)).1.inHead = false := by
    rw [hwhole]
    exact inHead_of_body h.phase_eq
  have hlong : (s.drop k).length ≤ (start.takeLines (s.take k ++ s.drop k)).2.length := by
    rw [hwhole]
    omega
  have hfront := inHead_takeLines_front hhead hlong
  rw [takeLines_start_append hfront] at hwhole
  refine ⟨s.take k, (start.takeLines (s.take k)).2, s.drop k, (List.take_append_drop k s).symm,
    hbehind, ?_, ?_⟩
  · rw [← hwhole, List.length_append] at hrest
    omega
  · rw [← hwhole]

/-- The bytes behind the body may be any others. -/
theorem Cuts.takeLines_replace {body : Bytes} (h : Cuts s front body behind n)
    (hhead : (start.takeLines s).1.inHead = false) (other : Bytes) :
    start.takeLines (front ++ other) = ((start.takeLines s).1, body ++ other) := by
  have hfront : (start.takeLines front).1.inHead = false := by
    rw [h.takeLines_front]
    exact hhead
  rw [takeLines_start_append hfront, h.takeLines_front]

theorem Ending.replace {body : Bytes} (h : Ending s n) (hcuts : Cuts s front body behind n)
    (hother : other.length = breakLength n) :
    Ending (front ++ other) n ∧ filled (front ++ other) n =
      ⟨((start.takeLines s).1.store body).verdict, (start.takeLines s).1.store body,
        body ++ other⟩ := by
  have htake := hcuts.takeLines_replace (inHead_of_body h.phase_eq) other
  refine ⟨⟨⟨?_, ?_⟩, ?_⟩, ?_⟩
  · rw [htake]
    exact h.phase_eq
  · rw [htake]
    exact h.length?_eq
  · rw [htake, List.length_append, hcuts.length_body, hother,
      expectedBytes_eq (le_greatestLength h.length?_eq)]
  · have hbody : (body ++ other).take n = body := by
      rw [← hcuts.length_body, List.take_left]
    rw [filled, htake]
    simp only [hbody]

/-- With other bytes behind the body, and cut in any way, a text comes to the same request. -/
theorem Ending.pour_replace {body : Bytes} (h : Ending s n) (hcuts : Cuts s front body behind n)
    (hother : other.length = breakLength n) (htext : pieces.flatten = front ++ other) :
    pour pieces = ⟨((start.takeLines s).1.store body).verdict, (start.takeLines s).1.store body,
      body ++ other⟩ := by
  obtain ⟨hends, hfilled⟩ := h.replace hcuts hother
  rw [Ending.pour_eq (n := n) (by rwa [htext]), htext, hfilled]

theorem request_store (r : RequestReader) (body : Bytes) :
    (r.store body).request.body = body ∧ (r.store body).request.headers = r.request.headers := by
  rw [store_eq]
  split
  · split
    · exact ⟨rfl, rfl⟩
    · exact ⟨rfl, rfl⟩
  · exact ⟨rfl, rfl⟩

theorem length?_store (r : RequestReader) (body : Bytes) :
    (r.store body).request.length? = r.request.length? := by
  rw [Request.length?, Request.lengthText?, Request.header?, Request.header?,
    (request_store r body).2]
  rfl

/-- The piece with which a request with a body is done ends where the text does. -/
theorem exists_ending_of_done {piece : Bytes} (hbefore : (pour pieces).reader.phase ≠ .done)
    (hdone : (pour (pieces ++ [piece])).reader.phase = .done)
    (hpost : (pour (pieces ++ [piece])).reader.request.isPost = true) :
    ∃ n, Ending (pieces ++ [piece]).flatten n := by
  have hopen : (pour pieces).reader.isFinished = false := by
    rw [← Bool.not_eq_true]
    intro hfinished
    rw [pour_concat, reader_receive_of_isFinished hfinished] at hdone
    exact hbefore hdone
  have hwhole : pour (pieces ++ [piece]) = start.advance (pieces ++ [piece]).flatten := by
    rw [pour_concat_of_not_isFinished hopen piece, List.flatten_concat]
  rw [hwhole] at hdone hpost
  exact exists_ending hdone hpost

end Ends

section Results

variable {pieces : List Bytes} {piece : Bytes}

/-- When a request with a body is done, the bytes that are unread are its body, as long as it was
announced, and the bytes that are counted behind it. What these are makes no difference: with any
others in their place, and cut in any way, the text comes to the same request. -/
theorem unread_of_done (capacity : Nat)
    (hbefore : (feed capacity pieces).reader.phase ≠ .done)
    (hdone : (feed capacity (pieces ++ [piece])).reader.phase = .done)
    (hpost : (feed capacity (pieces ++ [piece])).reader.request.isPost = true) :
    let p := feed capacity (pieces ++ [piece])
    ∃ n front behind, (pieces ++ [piece]).flatten = front ++ behind ∧
      p.reader.request.length? = some n ∧ p.reader.request.body.length = n ∧
      behind.length = min 2 (Request.greatestLength - n) ∧
      p.buffer.unread = p.reader.request.body ++ behind ∧
      ∀ other, other.length = behind.length → ∀ capacity' cut, cut.flatten = front ++ other →
        (feed capacity' cut).outcome = .success ∧ (feed capacity' cut).reader = p.reader ∧
          (feed capacity' cut).buffer.unread = p.reader.request.body ++ other := by
  intro p
  have hshows : p.Shows (pour (pieces ++ [piece])) := feed_shows capacity _
  rw [(feed_shows capacity pieces).reader_eq] at hbefore
  rw [hshows.reader_eq] at hdone hpost
  obtain ⟨n, hending⟩ := exists_ending_of_done hbefore hdone hpost
  obtain ⟨front, body, behind, hcuts⟩ := hending.exists_cuts
  have hp := hending.pour_replace hcuts hcuts.length_behind hcuts.text_eq
  have hreader := hshows.reader_eq
  rw [hp] at hdone hreader
  have hbody : p.reader.request.body = body := by rw [hreader, (request_store _ body).1]
  refine ⟨n, front, behind, hcuts.text_eq, ?_, ?_, hcuts.length_behind, ?_, ?_⟩
  · rw [hreader, length?_store, hending.length?_eq]
  · rw [hbody, hcuts.length_body]
  · rw [hshows.unread_eq, hp, hbody]
  · intro other hother capacity' cut hcut
    have hcutShows : (feed capacity' cut).Shows (pour cut) := feed_shows capacity' cut
    rw [hending.pour_replace hcuts (hother.trans hcuts.length_behind) hcut] at hcutShows
    refine ⟨?_, ?_, ?_⟩
    · rw [hcutShows.outcome_eq]
      exact verdict_of_done hdone
    · rw [hcutShows.reader_eq, hreader]
    · rw [hcutShows.unread_eq, hbody]

/-- A request with a body of one byte, up to the byte behind its body. -/
def openPost : Bytes :=
  Bytes.ascii "POST / HTTP/1.1\r\nContent-Length: 1\r\n\r\nxy"

theorem unread_openPost :
    ∃ front behind, openPost ++ Bytes.ascii "z" = front ++ behind ∧ behind.length = 2 ∧
      (feed 0 [openPost]).reader.phase ≠ .done ∧
      (feed 0 [openPost, Bytes.ascii "z"]).reader.phase = .done ∧
      (feed 0 [openPost, Bytes.ascii "z"]).buffer.unread = Bytes.ascii "x" ++ behind ∧
      (feed 0 [front ++ Bytes.crlf]).reader = (feed 0 [openPost, Bytes.ascii "z"]).reader := by
  have hbefore : (feed 0 [openPost]).reader.phase ≠ .done := by decide +kernel
  have hdone : (feed 0 [openPost, Bytes.ascii "z"]).reader.phase = .done := by decide +kernel
  have hpost : (feed 0 [openPost, Bytes.ascii "z"]).reader.request.isPost = true := by
    decide +kernel
  have hlength : (feed 0 [openPost, Bytes.ascii "z"]).reader.request.length? = some 1 := by
    decide +kernel
  have hbody : (feed 0 [openPost, Bytes.ascii "z"]).reader.request.body = Bytes.ascii "x" := by
    decide +kernel
  obtain ⟨n, front, behind, htext, hn, -, hbehind, hunread, hother⟩ :=
    unread_of_done 0 hbefore hdone hpost
  obtain rfl := Option.some.inj (hlength.symm.trans hn)
  rw [← hbody]
  exact ⟨front, behind, htext, hbehind, hbefore, hdone, hunread,
    (hother Bytes.crlf hbehind.symm 0 [front ++ Bytes.crlf] (List.append_nil _)).2.1⟩

/-- A request is done though no line break stands behind its body. -/
theorem unread_without_crlf :
    (feed 0 [openPost ++ Bytes.ascii "z"]).outcome = .success ∧
      (feed 0 [openPost ++ Bytes.ascii "z"]).reader.request.isPost = true ∧
      (feed 0 [openPost ++ Bytes.ascii "z"]).reader.request.length? = some 1 ∧
      (feed 0 [openPost ++ Bytes.ascii "z"]).reader.request.body = Bytes.ascii "x" ∧
      (feed 0 [openPost ++ Bytes.ascii "z"]).buffer.unread ≠ Bytes.ascii "x" ++ Bytes.crlf := by
  decide +kernel

end Results

end RequestReader

end HttpServer
