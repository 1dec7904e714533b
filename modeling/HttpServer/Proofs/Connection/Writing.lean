import HttpServer.Connection.History
import HttpServer.Proofs.Buffer.Block
import HttpServer.Proofs.Connection.Processing
import HttpServer.Proofs.Site.Disclosure

/-!
# What is handed to the stream

A write hands the stream two segments, what is left of the head and what is left of the attached file,
and then moves one cursor or the other. Other acts give the response up, put another one in its place
or let go of the file, and the content of an attached file may change under it. `Reachable` is
whatever can come of a connection in this way, in any order.

The cursors stand in order all the time (`Reachable.orderly`). So a write in which every access is
checked never fails a check and is the write of the connection (`Orderly.exists_writes`,
`Writes.write_eq`), and a write that succeeds takes exactly its bytes from the front of what is
left.
-/

namespace HttpServer

namespace Connection

open ByteBuffer

section Checked

/-- What is left of a response, as a stream is handed it. -/
structure Offer where
  head : Bytes
  file : Bytes

/-- The bytes that are offered, in order. -/
def Offer.bytes (o : Offer) : Bytes := o.head ++ o.file

/-- A stream that takes some of what it is offered, from the front, or fails. -/
structure Taker where
  outcome : Offer → Except IoError Nat
  le_length : ∀ o n, outcome o = .ok n → n ≤ o.bytes.length

/-- What is left of the response. -/
def offer (c : Connection) : Offer := ⟨c.outbound.unread, c.response.fileBytes.drop c.fileSent⟩

/-- What is left of the response, unless a cursor stands outside. -/
def offer? (c : Connection) : Option Offer :=
  (slice? c.outbound.storage.bytes c.outbound.readPos c.outbound.writePos).bind fun head =>
    (slice? c.response.fileBytes c.fileSent c.response.fileBytes.length).map fun file =>
      ⟨head, file⟩

/-- The number of bytes that are still to be written, unless it would be negative. -/
def pending? (c : Connection) : Option Nat :=
  (minus? c.outbound.writePos c.outbound.readPos).bind fun readable =>
    minus? (readable + c.response.fileBytes.length) c.fileSent

/-- What a write came to. -/
structure WriteEnd where
  /-- What the stream was offered, once for each time that it was asked. -/
  offers : List Offer
  /-- The number of bytes that it took. -/
  answer : Except IoError Nat
  connection : Connection

/-- One write, unless it leaves what it points into. -/
def write? (c : Connection) (t : Taker) : Option WriteEnd :=
  if c.closed then some ⟨[], .error .notConnected, c⟩
  else
    c.offer?.bind fun o =>
      if o.head.length + o.file.length = 0 then some ⟨[], .ok 0, c⟩
      else
        match t.outcome o with
        | .error e => some ⟨[o], .error e, c⟩
        | .ok n =>
          if n = 0 then some ⟨[o], .error .tookNothing, c⟩
          else if o.head.length ≤ n then
            (minus? n o.head.length).map fun more =>
              ⟨[o], .ok n, { c with
                outbound := c.outbound.clear, fileSent := c.fileSent + more }⟩
          else some ⟨[o], .ok n, { c with outbound := c.outbound.consume n }⟩

end Checked

section Orderly

/-- What can come of a connection, whatever is done to it, for whichever site, and whatever becomes
of the files meanwhile. -/
inductive Reachable : Connection → Prop where
  | fresh (bufferSize : Nat) : Reachable (fresh bufferSize)
  | act {c : Connection} (site : Site) (stats : Stats) (a : Act) : Reachable c →
      Reachable (act site c stats a).1
  | refresh {c : Connection} (files : FileTree) : Reachable c →
      Reachable { c with response := Site.refresh files c.response }

theorem Reachable.acts {c : Connection} (h : Reachable c) (site : Site) (stats : Stats)
    (as : List Act) : Reachable (acts site c stats as).1 := by
  induction as generalizing c stats with
  | nil => exact h
  | cons a as ih =>
      rw [acts_cons]
      exact ih (h.act site stats a) _

/-- All cursors of a response stand in order. -/
structure Orderly (c : Connection) : Prop where
  aligned : c.Aligned
  wellFormed : c.outbound.WellFormed

variable {c : Connection}

/-- A response of which nothing was written yet, or nothing is left. -/
theorem orderly_of_fileSent_eq_zero (h : c.fileSent = 0) (hw : c.outbound.WellFormed) :
    c.Orderly := by
  refine ⟨⟨?_, fun _ => h⟩, hw⟩
  rw [h]
  exact Nat.zero_le _

/-- Reading does not touch the response. -/
theorem Orderly.setInbound (h : c.Orderly) (reader : RequestReader) (inbound : ByteBuffer) :
    Orderly { c with reader := reader, inbound := inbound } :=
  ⟨⟨h.aligned.fileSent_le, h.aligned.fileSent_eq_zero⟩, h.wellFormed⟩

theorem Orderly.advance (h : c.Orderly) {n : Nat} (hn : n ≤ c.unsent.length) :
    (c.advance n).Orderly := by
  refine ⟨h.aligned.advance hn, ?_⟩
  unfold Connection.advance
  split
  · exact .clear _
  · exact h.wellFormed.consume n

theorem Orderly.write (h : c.Orderly) (taking : Except IoError Nat) :
    (c.write taking).2.Orderly := by
  unfold Connection.write
  split
  · exact h
  · split
    · exact h
    · cases taking with
      | error e => exact h
      | ok n =>
          simp only
          split
          · exact h
          · exact h.advance (List.length_take_le' _ _)

theorem Orderly.act (h : c.Orderly) (site : Site) (stats : Stats) (a : Act) :
    (act site c stats a).1.Orderly := by
  cases a with
  | read arrivals =>
      change (c.read arrivals).2.Orderly
      unfold Connection.read
      split
      · exact h
      · exact h.setInbound _ _
  | process files =>
      change (c.process site files stats).connection.Orderly
      rw [process_eq]
      split
      · exact h.setInbound _ _
      · split
        · exact h.setInbound _ _
        · exact orderly_of_fileSent_eq_zero rfl ((WellFormed.clear _).append _)
  | write taking => exact h.write taking
  | reset => exact orderly_of_fileSent_eq_zero rfl (.clear _)
  | close =>
      change (c.close stats).2.1.Orderly
      unfold Connection.close
      split
      · exact h
      · exact orderly_of_fileSent_eq_zero rfl (.clear _)

/-- An attached file stays as long as it was when it was attached. -/
theorem length_fileBytes_refresh (files : FileTree) (r : Response) :
    (Site.refresh files r).fileBytes.length = r.fileBytes.length := by
  unfold Site.refresh Response.fileBytes
  cases r.attached with
  | none => rfl
  | some a =>
      simp only [Option.map_some]
      split
      · exact a.length_overwrite _
      · rfl

theorem Orderly.refresh (h : c.Orderly) (files : FileTree) :
    Orderly { c with response := Site.refresh files c.response } := by
  refine ⟨⟨?_, h.aligned.fileSent_eq_zero⟩, h.wellFormed⟩
  rw [length_fileBytes_refresh]
  exact h.aligned.fileSent_le

theorem Reachable.orderly (h : Reachable c) : c.Orderly := by
  induction h with
  | fresh size => exact orderly_of_fileSent_eq_zero rfl (wellFormed_empty size)
  | act site stats a _ ih => exact ih.act site stats a
  | refresh files _ ih => exact ih.refresh files

end Orderly

section Writes

variable {c : Connection}

theorem Orderly.offer?_eq (h : c.Orderly) : c.offer? = some c.offer := by
  have hread := h.wellFormed.readPos_le
  have hwrite : c.outbound.storage.bytes.length = c.outbound.writePos := Storage.length_bytes _
  have hhead : slice? c.outbound.storage.bytes c.outbound.readPos c.outbound.writePos =
      some c.outbound.unread := by
    rw [slice?, if_pos ⟨hread, Nat.le_of_eq hwrite.symm⟩, ← hwrite, List.take_length, unread_eq]
  have hfile : slice? c.response.fileBytes c.fileSent c.response.fileBytes.length =
      some (c.response.fileBytes.drop c.fileSent) := by
    rw [slice?, if_pos ⟨h.aligned.fileSent_le, Nat.le_refl _⟩, List.take_length]
  rw [offer?, hhead, Option.bind_some, hfile]
  rfl

theorem Orderly.pending?_eq (h : c.Orderly) : c.pending? = some c.pending := by
  have hle := h.aligned.fileSent_le
  rw [pending?, Block.minus?_eq h.wellFormed.readPos_le, Option.bind_some, Block.minus?_eq]
  · rfl
  · exact Nat.le_trans hle (Nat.le_add_left _ _)

theorem offer_bytes (c : Connection) : c.offer.bytes = c.unsent := rfl

/-- What a write comes to when it is handed all that is left. -/
inductive Writes (c : Connection) (t : Taker) : WriteEnd → Prop where
  | closed : c.closed = true → Writes c t ⟨[], .error .notConnected, c⟩
  /-- Nothing is left, and the stream is not asked. -/
  | idle : c.closed = false → c.unsent = [] → Writes c t ⟨[], .ok 0, c⟩
  | failed {e : IoError} : c.closed = false → c.unsent ≠ [] → t.outcome c.offer = .error e →
      Writes c t ⟨[c.offer], .error e, c⟩
  | refused : c.closed = false → c.unsent ≠ [] → t.outcome c.offer = .ok 0 →
      Writes c t ⟨[c.offer], .error .tookNothing, c⟩
  | taken {n : Nat} : c.closed = false → c.unsent ≠ [] → t.outcome c.offer = .ok n → n ≠ 0 →
      Writes c t ⟨[c.offer], .ok n, c.advance n⟩

/-- On cursors that stand in order no check of a write fails. -/
theorem Orderly.exists_writes (h : c.Orderly) (t : Taker) :
    ∃ e, c.write? t = some e ∧ Writes c t e := by
  cases hc : c.closed with
  | true =>
      refine ⟨_, ?_, .closed hc⟩
      rw [write?, if_pos hc]
  | false =>
      have hlength : c.offer.head.length + c.offer.file.length = c.unsent.length := by
        rw [← offer_bytes, Offer.bytes, List.length_append]
      have hhead : c.offer.head.length = c.outbound.readable := length_unread _
      rw [write?, if_neg (hc ▸ Bool.false_ne_true), h.offer?_eq, Option.bind_some, hlength]
      by_cases hnil : c.unsent = []
      · rw [if_pos (List.length_eq_zero_iff.2 hnil)]
        exact ⟨_, rfl, .idle hc hnil⟩
      · rw [if_neg (mt List.length_eq_zero_iff.1 hnil)]
        cases ht : t.outcome c.offer with
        | error e => exact ⟨_, rfl, .failed hc hnil ht⟩
        | ok n =>
            by_cases hn : n = 0
            · subst hn
              exact ⟨_, rfl, .refused hc hnil ht⟩
            · refine ⟨_, ?_, .taken hc hnil ht hn⟩
              simp only [if_neg hn, Connection.advance, hhead]
              -- the head is out, or the stream has not come to its end
              split
              · rename_i hle
                rw [Block.minus?_eq hle]
                rfl
              · rfl

/-- The checked write is the write of the connection. -/
theorem Writes.write_eq {t : Taker} {e : WriteEnd} (h : Writes c t e) :
    c.write (t.outcome c.offer) = (e.answer.map c.unsent.take, e.connection) := by
  cases h with
  | closed hc =>
      rw [write_of_closed hc]
      rfl
  | idle hc hnil =>
      simp only [write, hc, hnil, Bool.false_eq_true, if_false, if_true]
      rfl
  | failed hc hne ht =>
      simp only [write, hc, hne, ht, Bool.false_eq_true, if_false]
      rfl
  | refused hc hne ht =>
      simp only [write, hc, hne, ht, Bool.false_eq_true, if_false, List.take_zero, if_true]
      rfl
  | taken hc hne ht hn =>
      rename_i n
      have hlength : (c.unsent.take n).length = n := List.length_take_of_le (t.le_length _ _ ht)
      have htake : c.unsent.take n ≠ [] := by
        rwa [ne_eq, ← List.length_eq_zero_iff, hlength]
      simp only [write, hc, hne, ht, htake, Bool.false_eq_true, if_false, hlength]
      rfl

section Ends

variable {t : Taker} {e : WriteEnd} (h : Writes c t e)

include h

/-- If the stream of an open connection takes some bytes, the write has handed them over. -/
theorem Writes.eq_of_taken (ho : c.closed = false) {n : Nat} (ht : t.outcome c.offer = .ok n)
    (hn : n ≠ 0) : e = ⟨[c.offer], .ok n, c.advance n⟩ := by
  cases h with
  | closed hclosed =>
      rw [ho] at hclosed
      cases hclosed
  | idle _ hnil =>
      have hle := t.le_length _ _ ht
      rw [offer_bytes, hnil] at hle
      exact absurd (Nat.le_zero.1 hle) hn
  | failed _ _ hfailed =>
      rw [ht] at hfailed
      cases hfailed
  | refused _ _ hrefused =>
      rw [ht] at hrefused
      cases hrefused
      exact absurd rfl hn
  | taken _ _ htaken _ =>
      rw [ht] at htaken
      cases htaken
      rfl

/-- A write that succeeds takes its bytes from the front of what is left. -/
theorem Writes.of_ok (hc : c.Orderly) {n : Nat} (hn : e.answer = .ok n) :
    n ≤ c.unsent.length ∧ e.connection.unsent = c.unsent.drop n ∧
      e.connection.pending + n = c.pending := by
  cases h with
  | idle _ _ =>
      cases hn
      exact ⟨Nat.zero_le _, rfl, rfl⟩
  | taken _ _ ht _ =>
      cases hn
      have hle : n ≤ c.unsent.length := t.le_length _ _ ht
      refine ⟨hle, unsent_advance c n, ?_⟩
      rw [pending_eq_length_unsent (hc.advance hle).aligned, pending_eq_length_unsent hc.aligned,
        unsent_advance, List.length_drop]
      omega
  | _ => cases hn

/-- A write that fails leaves everything as it was. -/
theorem Writes.of_error {error : IoError} (herror : e.answer = .error error) :
    e.connection = c := by
  cases h with
  | taken _ _ _ _ => cases herror
  | _ => rfl

/-- Where nothing is left, the stream is not asked. -/
theorem Writes.of_pending_eq_zero (hc : c.Orderly) (ho : c.closed = false)
    (hpending : c.pending = 0) : e = ⟨[], .ok 0, c⟩ := by
  have hnil := (pending_eq_zero_iff hc.aligned).1 hpending
  cases h with
  | closed hclosed =>
      rw [ho] at hclosed
      cases hclosed
  | idle _ _ => rfl
  | failed _ hne _ => exact absurd hnil hne
  | refused _ hne _ => exact absurd hnil hne
  | taken _ hne _ _ => exact absurd hnil hne

end Ends

/-- Whatever was done to a connection, and in whichever order: the cursor of the file stands within
the file, and at its front while the head is not out, so no access of a write leaves what it points
into. A write that succeeds hands over the next bytes of what is left and counts them off, one that
fails changes nothing, and where nothing is left the stream is not asked. -/
theorem cursors_of_reachable (h : Reachable c) :
    c.Aligned ∧ c.offer? = some c.offer ∧ c.offer.bytes = c.unsent ∧
      c.pending? = some c.pending ∧ c.pending = c.unsent.length ∧
    ∀ t : Taker, ∃ e, c.write? t = some e ∧ Writes c t e ∧
      c.write (t.outcome c.offer) = (e.answer.map c.unsent.take, e.connection) ∧
      (∀ n, e.answer = .ok n → n ≤ c.unsent.length ∧ e.connection.unsent = c.unsent.drop n ∧
        e.connection.pending + n = c.pending) ∧
      (∀ error, e.answer = .error error → e.connection = c) ∧
      (c.closed = false → c.pending = 0 → e = ⟨[], .ok 0, c⟩) := by
  have hc := h.orderly
  refine ⟨hc.aligned, hc.offer?_eq, offer_bytes c, hc.pending?_eq,
    pending_eq_length_unsent hc.aligned, ?_⟩
  intro t
  obtain ⟨e, he, hwrites⟩ := hc.exists_writes t
  exact ⟨e, he, hwrites, hwrites.write_eq, fun _ hn => hwrites.of_ok hc hn,
    fun _ herror => hwrites.of_error herror, hwrites.of_pending_eq_zero hc⟩

/-- A stream that takes up to `limit` bytes at a time. -/
def takingUpTo (limit : Nat) : Taker where
  outcome o := .ok (min limit o.bytes.length)
  le_length o n h := by
    cases h
    exact Nat.min_le_right _ _

/-- A file is asked for, and the answer is built. -/
def askForFile (f : File) : List Act :=
  [.read [.ok (Bytes.ascii "GET /a HTTP/1.1\r\n\r\n")],
    .process (Site.shelf (Bytes.ascii "a") f)]

/-- The head stands in the buffer and the file behind it, and nothing of them is written. -/
theorem answered_askForFile {f : File} (hmode : Site.worldReadable f.mode = true)
    (howner : f.isReadable = true) :
    let c := (acts Site.shelfSite (Connection.fresh 0) .zero (askForFile f)).1
    c.outbound.unread = Response.head ⟨some Status.ok.code, false, Bytes.ascii "/a", none⟩ ++
        Response.lengthLine f.data.length ∧
      c.response.fileBytes = f.data ∧ c.fileSent = 0 ∧ c.closed = false := by
  have hasked :
      let c := ((Connection.fresh 0).read [.ok (Bytes.ascii "GET /a HTTP/1.1\r\n\r\n")]).2
      c.inbound.isEmpty = false ∧ (c.resumed.read c.inbound).1 = .success ∧
        (c.resumed.read c.inbound).2.1.request.path = Bytes.ascii "/a" ∧
        (c.resumed.read c.inbound).2.1.request.isKeepAlive = false := by decide +kernel
  have hanswer (request : Request) :
      Site.shelfSite.answer (Site.shelf (Bytes.ascii "a") f) request
        (Response.blank.begin (Bytes.ascii "/a") false none) = _ :=
    Site.answer_of_finds rfl rfl (Site.finds_shelf_a f) hmode howner request
  obtain ⟨hempty, houtcome, hpath, hkeep⟩ := hasked
  simp only [askForFile, acts_cons, acts_nil, Connection.act]
  rw [process_eq, hempty, houtcome]
  simp only [Bool.false_eq_true, if_false, reduceCtorEq, respond, prepared, hpath, hkeep,
    Bool.and_false, settledCode]
  have hblank : ((Connection.fresh 0).read
      [.ok (Bytes.ascii "GET /a HTTP/1.1\r\n\r\n")]).2.response = Response.blank := rfl
  rw [hblank, hanswer]
  exact ⟨ByteBuffer.unread_clear_append _ _, Site.fileBytes_attachmentOf (Response.mk
    (some Status.ok.code) false (Bytes.ascii "/a") none) f, trivial, rfl⟩

/-- The first write ends inside of the file. -/
theorem cursors_askForFile :
    let c := (acts Site.shelfSite (Connection.fresh 0) .zero
      (askForFile (Site.note "hello" 0o644))).1
    Reachable c ∧ c.pending = 88 ∧
      ∃ e, c.write? (takingUpTo 85) = some e ∧ e.answer = .ok 85 ∧
        e.connection.outbound.unread = [] ∧ e.connection.fileSent = 2 ∧
        e.connection.unsent = Bytes.ascii "llo" ∧ e.connection.pending + 85 = 88 := by
  intro c
  have hreachable : Reachable c := (Reachable.fresh 0).acts Site.shelfSite .zero _
  obtain ⟨hhead, hfile, hsent, ho⟩ :=
    answered_askForFile (f := Site.note "hello" 0o644) (by decide) (by decide)
  have hunsent : c.unsent = Response.head ⟨some Status.ok.code, false, Bytes.ascii "/a", none⟩ ++
      Response.lengthLine 5 ++ Bytes.ascii "hello" := by
    rw [unsent, hhead, hfile, hsent]
    rfl
  have hreadable : c.outbound.readable = 83 := by
    rw [← length_unread, hhead]
    decide +kernel
  obtain ⟨-, -, hbytes, -, hpending, hwrite⟩ := cursors_of_reachable hreachable
  have hlength : c.unsent.length = 88 := by
    rw [hunsent]
    decide +kernel
  obtain ⟨e, he, hwrites, -, hok, -, -⟩ := hwrite (takingUpTo 85)
  have htaking : (takingUpTo 85).outcome c.offer = .ok 85 := by
    change Except.ok (min 85 c.offer.bytes.length) = _
    rw [hbytes, hlength]
    rfl
  obtain rfl := hwrites.eq_of_taken ho htaking (by decide)
  obtain ⟨-, hrest, hcount⟩ := hok 85 rfl
  rw [hpending, hlength] at hcount
  rw [hunsent] at hrest
  have hadvance : c.advance 85 = { c with outbound := c.outbound.clear, fileSent := 0 + 2 } := by
    rw [Connection.advance, hreadable, hsent, if_pos (by decide)]
  refine ⟨hreachable, hpending.trans hlength, _, he, rfl, ?_, ?_, ?_, hcount⟩
  · rw [hadvance]
    exact unread_clear _
  · rw [hadvance]
  · rw [hrest]
    decide +kernel

end Writes

end Connection

end HttpServer
