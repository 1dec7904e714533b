import HttpServer.Proofs.Message.Fragmentation
import HttpServer.Proofs.Message.Grammar

/-!
# Which texts are accepted

A reader that gets a text at once comes to one of three outcomes, and the grammar has three kinds of
texts. `feed_whole_outcome_iff` says that they are the same. The head is read line by line: `Holds`
is what a reader knows behind some field lines, one more line keeps it, and so a row of lines does.
The body is looked at once, by `settle`.
-/

namespace HttpServer

namespace RequestReader

open Message

section Lines

variable {l name value : Bytes}

theorem breakOn_append {sep : UInt8} {a r : Bytes} (h : sep ∉ a) :
    Bytes.breakOn sep (a ++ sep :: r) = some (a, r) := by
  have hne : ∀ b ∈ a, (b != sep) = true := by
    intro b hb
    rw [bne_iff_ne]
    rintro rfl
    exact h hb
  have hmem : sep ∈ a ++ sep :: r := List.mem_append_right a List.mem_cons_self
  unfold Bytes.breakOn
  rw [if_pos hmem, List.takeWhile_append_of_pos hne, List.dropWhile_append_of_pos hne]
  simp

theorem headerValue_space (raw : Bytes) : headerValue (Bytes.space :: raw) = raw := by
  rw [headerValue, if_pos rfl]

theorem headerValue_of_ne {raw : Bytes} (h : raw.head? ≠ some Bytes.space) :
    headerValue raw = raw := by
  cases raw with
  | nil => rfl
  | cons b raw =>
      rw [List.head?_cons, ne_eq, Option.some.injEq] at h
      rw [headerValue, if_neg h]

theorem headerValue_eq_iff {raw : Bytes} :
    headerValue raw = value ↔
      raw = Bytes.space :: value ∨ raw = value ∧ value.head? ≠ some Bytes.space := by
  by_cases h : raw.head? = some Bytes.space
  · obtain ⟨raw, rfl⟩ := List.head?_eq_some_iff.1 h
    rw [headerValue_space, List.cons.injEq]
    constructor
    · rintro rfl
      exact Or.inl ⟨rfl, rfl⟩
    · rintro (⟨-, rfl⟩ | ⟨rfl, hne⟩)
      · rfl
      · exact absurd rfl hne
  · rw [headerValue_of_ne h]
    constructor
    · rintro rfl
      exact Or.inr ⟨rfl, h⟩
    · rintro (rfl | ⟨rfl, -⟩)
      · exact absurd rfl h
      · rfl

theorem names_iff (hname : Bytes.colon ∉ name) :
    Names l name ↔ ∃ raw, Bytes.breakOn Bytes.colon l = some (name, raw) := by
  constructor
  · rintro ⟨raw, rfl⟩
    rw [List.append_assoc, List.singleton_append]
    exact ⟨raw, breakOn_append hname⟩
  · rintro ⟨raw, h⟩
    refine ⟨raw, ?_⟩
    rw [(Bytes.eq_of_breakOn_eq_some h).1, List.append_assoc, List.singleton_append]

/-- A field line is cut at its first colon. -/
theorem gives_iff (hname : Bytes.colon ∉ name) :
    Gives l name value ↔
      ∃ raw, Bytes.breakOn Bytes.colon l = some (name, raw) ∧ headerValue raw = value := by
  constructor
  · rintro (rfl | ⟨rfl, hne⟩)
    · exact ⟨Bytes.space :: value, breakOn_append hname, headerValue_space value⟩
    · exact ⟨value, breakOn_append hname, headerValue_of_ne hne⟩
  · rintro ⟨raw, h, hvalue⟩
    rw [(Bytes.eq_of_breakOn_eq_some h).1]
    rcases headerValue_eq_iff.1 hvalue with rfl | ⟨rfl, hne⟩
    · exact Or.inl rfl
    · exact Or.inr ⟨rfl, hne⟩

theorem not_mem_of_mem_splitOn {sep : UInt8} {bs part : Bytes} (h : part ∈ bs.splitOn sep) :
    sep ∉ part := by
  rw [List.splitOn_eq_splitOnP] at h
  induction bs generalizing part with
  | nil =>
      rw [List.splitOnP_nil, List.mem_singleton] at h
      rw [h]
      exact List.not_mem_nil
  | cons b bs ih =>
      rw [List.splitOnP_cons_eq_if_modifyHead] at h
      split at h
      · rcases List.mem_cons.1 h with rfl | h
        · exact List.not_mem_nil
        · exact ih h
      · rename_i hb
        obtain ⟨first, parts, hparts⟩ := List.exists_cons_of_ne_nil
          (List.splitOnP_ne_nil (fun x => x == sep) bs)
        rw [hparts] at h ih
        rcases List.mem_cons.1 h with rfl | h
        · rw [List.mem_cons, not_or]
          exact ⟨fun e => hb (beq_iff_eq.2 e.symm), ih List.mem_cons_self⟩
        · exact ih (List.mem_cons_of_mem first h)

/-- A line has three tokens exactly if it is three texts without the separator, with one between. -/
theorem splitOn_eq_triple_iff {sep : UInt8} {bs x y z : Bytes} :
    bs.splitOn sep = [x, y, z] ↔
      bs = x ++ sep :: (y ++ sep :: z) ∧ sep ∉ x ∧ sep ∉ y ∧ sep ∉ z := by
  constructor
  · intro h
    have hjoin : [sep].intercalate (bs.splitOn sep) = bs := List.intercalate_splitOn sep
    have hparts : ∀ part ∈ bs.splitOn sep, sep ∉ part := fun _ => not_mem_of_mem_splitOn
    rw [h] at hjoin hparts
    refine ⟨?_, hparts x ?_, hparts y ?_, hparts z ?_⟩
    · rw [← hjoin]
      simp [List.intercalate]
    all_goals simp
  · rintro ⟨rfl, hx, hy, hz⟩
    have hjoin : [sep].intercalate [x, y, z] = x ++ sep :: (y ++ sep :: z) := by
      simp [List.intercalate]
    rw [← hjoin]
    refine List.splitOn_intercalate sep ?_ (List.cons_ne_nil _ _)
    simp [hx, hy, hz]

theorem isText_iff {bs : Bytes} : IsText bs ↔ Utf8.isValid bs = true :=
  Utf8.valid_iff.symm

theorem line_of_isText {r : RequestReader} {bs : Bytes} (h : IsText bs) :
    r.line bs = if r.phase = .startLine then r.startLine bs else r.headerLine bs := by
  rw [RequestReader.line, if_pos (isText_iff.1 h)]

theorem line_of_not_isText {r : RequestReader} {bs : Bytes} (h : ¬ IsText bs) :
    r.line bs = r.fail := by
  rw [RequestReader.line, if_neg fun hv => h (isText_iff.2 hv)]

end Lines

section Head

variable {r : RequestReader} {s l rest method : Bytes}

theorem takeLines_of_cut (hr : r.inHead = true) (h : Cut s l rest) :
    r.takeLines s = (r.line l).takeLines rest := by
  rw [takeLines_of_some hr h.lineEnd?, h.take, h.drop]

/-- What is known of a request behind its start line and some field lines. -/
structure Knows (q : Request) (method : Bytes) (fields : List Bytes) : Prop where
  method_eq : q.method = method
  header?_iff : ∀ name value, Bytes.colon ∉ name →
    (q.header? name = some value ↔ Carries fields name value)

/-- A reader behind a start line and some field lines. -/
structure Holds (r : RequestReader) (method : Bytes) (fields : List Bytes) : Prop extends
    Knows r.request method fields where
  phase_eq : r.phase = .headers

theorem Holds.inHead {fields : List Bytes} (h : Holds r method fields) : r.inHead = true := by
  rw [RequestReader.inHead, h.phase_eq]
  rfl

/-- A field line is read as a field. -/
theorem Holds.line {fields : List Bytes} (h : Holds r method fields) (hline : FieldLine l) :
    Holds (r.line l) method (fields ++ [l]) := by
  obtain ⟨htext, hcolon⟩ := hline
  have hne : l ≠ [] := List.ne_nil_of_mem hcolon
  cases hbreak : Bytes.breakOn Bytes.colon l with
  | none => exact absurd hcolon (Bytes.breakOn_eq_none_iff.1 hbreak)
  | some parts =>
      obtain ⟨name, raw⟩ := parts
      have hread : r.line l = ⟨.headers, r.request.setHeader name (headerValue raw)⟩ := by
        rw [line_of_isText htext, h.phase_eq, if_neg (by decide), headerLine, if_neg hne, hbreak]
      rw [hread]
      refine ⟨⟨h.method_eq, fun n value hn => ?_⟩, rfl⟩
      -- a later field hides one of the same name and leaves the others
      rw [Request.header?_setHeader, carries_concat_iff, gives_iff hn, names_iff hn, hbreak,
        ← h.header?_iff n value hn]
      by_cases hname : n = name
      · subst hname
        simp
      · simp [hname, Ne.symm hname]

theorem takeLines_fields {fields more : List Bytes} (hr : Holds r method fields)
    (h : Fields s more rest) :
    ∃ r', r.takeLines s = RequestReader.takeLines r' rest ∧ Holds r' method (fields ++ more) := by
  -- each line leaves another reader behind, with one more field
  induction h generalizing r fields with
  | nil s => exact ⟨r, rfl, by rwa [List.append_nil]⟩
  | cons hcut hline _ ih =>
      obtain ⟨r', htake, hr'⟩ := ih (hr.line hline)
      refine ⟨r', ?_, ?_⟩
      · rw [takeLines_of_cut hr.inHead hcut, htake]
      · rw [List.append_assoc] at hr'
        exact hr'

theorem takeLines_of_isFinished (h : r.isFinished = true) (s : Bytes) : r.takeLines s = (r, s) := by
  refine takeLines_of_not_inHead ?_ s
  unfold RequestReader.isFinished at h
  unfold RequestReader.inHead
  cases hp : r.phase with
  | done | failed => rfl
  | startLine | headers | body => simp [hp] at h

theorem phase_start : start.phase = .startLine := rfl

theorem holds_startLine {target version : Bytes} (h : StartLine l method target version) :
    Holds (start.line l) method [] := by
  have hversion : Bytes.space ∉ protocolName ++ version := by
    rw [List.mem_append, not_or]
    exact ⟨by decide, h.version⟩
  have hsplit := splitOn_eq_triple_iff.2 ⟨h.line_eq, h.method, h.target, hversion⟩
  have hstrip : Bytes.strip? protocolName (protocolName ++ version) = some version :=
    Bytes.strip?_eq_some_iff.2 rfl
  have hread : start.line l = ⟨.headers,
      { Request.blank with method := method, target := target, version := version }⟩ := by
    rw [line_of_isText h.isText, if_pos phase_start, RequestReader.startLine, hsplit]
    simp only [hstrip]
    rfl
  rw [hread]
  refine ⟨⟨rfl, fun name value _ => ?_⟩, rfl⟩
  constructor
  · intro hnone
    cases hnone
  · rintro ⟨before, line, after, hnil, -⟩
    exact absurd hnil.symm (List.append_ne_nil_of_right_ne_nil _ (List.cons_ne_nil _ _))

theorem startLine_of_not (h : ∀ method target version, ¬ StartLine l method target version) :
    start.line l = start.fail := by
  by_cases htext : IsText l
  · rw [line_of_isText htext, if_pos phase_start, RequestReader.startLine]
    split
    · rename_i method target protocol hsplit
      split
      · rename_i version hstrip
        obtain ⟨hl, hmethod, htarget, hversion⟩ := splitOn_eq_triple_iff.1 hsplit
        rw [Bytes.strip?_eq_some_iff] at hstrip
        subst hstrip
        rw [List.mem_append, not_or] at hversion
        exact absurd ⟨htext, hl, hmethod, htarget, hversion.2⟩ (h method target version)
      · rfl
    · rfl
  · exact line_of_not_isText htext

theorem Holds.line_of_not {fields : List Bytes} (h : Holds r method fields) (hne : l ≠ [])
    (hline : ¬ FieldLine l) : r.line l = r.fail := by
  by_cases htext : IsText l
  · have hcolon : Bytes.breakOn Bytes.colon l = none :=
      Bytes.breakOn_eq_none_iff.2 fun hmem => hline ⟨htext, hmem⟩
    rw [line_of_isText htext, h.phase_eq, if_neg (by decide), headerLine, if_neg hne, hcolon]
  · exact line_of_not_isText htext

/-- The empty line ends the head. -/
theorem Holds.line_nil {fields : List Bytes} (h : Holds r method fields) :
    r.line [] = { r with phase := if r.request.isPost then .body else .done } := by
  have htext : IsText [] := ⟨"", rfl⟩
  rw [line_of_isText htext, h.phase_eq, if_neg (by decide), headerLine, if_pos rfl]

theorem takeLines_opening {fields : List Bytes} (h : Opening s method fields rest) :
    ∃ r, start.takeLines s = RequestReader.takeLines r rest ∧ Holds r method fields := by
  obtain ⟨line, target, version, more, hcut, hstart, hfields⟩ := h
  obtain ⟨r, htake, hr⟩ := takeLines_fields (holds_startLine hstart) hfields
  exact ⟨r, by rw [takeLines_of_cut rfl hcut, htake], hr⟩

theorem outcome_of_headBegun (h : HeadBegun s) : (start.advance s).outcome = .incomplete := by
  rw [advance_eq_settle]
  rcases h with hnone | ⟨method, fields, rest, hopening, hnone⟩
  · rw [takeLines_of_none (Bytes.lineEnd?_eq_none_iff.2 hnone), settle_of_inHead rfl]
  · obtain ⟨r, htake, hr⟩ := takeLines_opening hopening
    rw [htake, takeLines_of_none (Bytes.lineEnd?_eq_none_iff.2 hnone), settle_of_inHead hr.inHead]

theorem outcome_of_headBroken (h : HeadBroken s) : (start.advance s).outcome = .error := by
  have hfail : ∀ (r : RequestReader) bs,
      ((r.fail.takeLines bs).1.settle (r.fail.takeLines bs).2).outcome = .error := by
    intro r bs
    rw [takeLines_of_isFinished rfl, settle_of_isFinished rfl]
    rfl
  rw [advance_eq_settle]
  rcases h with ⟨line, rest, hcut, hline⟩ |
    ⟨method, fields, rest, line, more, hopening, hcut, hne, hline⟩
  · rw [takeLines_of_cut rfl hcut, startLine_of_not hline]
    exact hfail start rest
  · obtain ⟨r, htake, hr⟩ := takeLines_opening hopening
    rw [htake, takeLines_of_cut hr.inHead hcut, hr.line_of_not hne hline]
    exact hfail r more

end Head

section Body

variable {q : Request} {s method behind : Bytes} {fields : List Bytes} {n : Nat}

theorem Knows.isPost_iff (h : Knows q method fields) : q.isPost = true ↔ HasBody method := by
  rw [Request.isPost, Bool.or_eq_true, beq_iff_eq, beq_iff_eq, h.method_eq]
  exact Iff.rfl

theorem Knows.length?_eq_some_iff (h : Knows q method fields) :
    q.length? = some n ↔ Announced fields n := by
  have hfirst := fun v => h.header?_iff (Bytes.ascii "Content-Length") v (by decide)
  have hsecond := fun v => h.header?_iff (Bytes.ascii "content-length") v (by decide)
  have hnone : q.header? (Bytes.ascii "Content-Length") = none ↔
      ∀ v, ¬ Carries fields (Bytes.ascii "Content-Length") v := by
    rw [Option.eq_none_iff_forall_ne_some]
    exact forall_congr' fun v => not_congr (hfirst v)
  rw [Request.length?, Option.bind_eq_some_iff]
  refine exists_congr fun value => and_congr ?_ Request.lengthOf?_eq_some_iff
  rw [Request.lengthText?, Option.or_eq_some_iff, hfirst, hnone, hsecond]

theorem Knows.isJson_iff (h : Knows q method fields) : q.isJson = true ↔ AnnouncedJson fields := by
  rw [Request.isJson, Bool.or_eq_true, beq_iff_eq, beq_iff_eq, h.header?_iff _ _ (by decide),
    h.header?_iff _ _ (by decide)]
  exact Iff.rfl

theorem Knows.accepts_iff (h : Knows q method fields) (body : Bytes) :
    Accepts q body ↔ (AnnouncedJson fields → IsJson body) := by
  unfold Accepts IsJson
  rw [h.isJson_iff]

/-- Behind the head a request is done, or its body is looked at. -/
theorem takeLines_of_head (h : Head s method fields behind) :
    ∃ q, Knows q method fields ∧
      start.takeLines s = (⟨if q.isPost then .body else .done, q⟩, behind) := by
  obtain ⟨rest, hopening, hcut⟩ := h
  obtain ⟨r, htake, hr⟩ := takeLines_opening hopening
  refine ⟨r.request, hr.toKnows, ?_⟩
  rw [htake, takeLines_of_cut hr.inHead hcut, hr.line_nil, takeLines_of_not_inHead]
  by_cases hpost : r.request.isPost = true
  · simp [inHead, hpost]
  · simp [inHead, hpost]

theorem takeLines_of_not_hasBody (h : Head s method fields behind) (hbody : ¬ HasBody method) :
    ∃ q, Knows q method fields ∧ start.takeLines s = (⟨.done, q⟩, behind) := by
  obtain ⟨q, hq, htake⟩ := takeLines_of_head h
  rw [if_neg fun hpost => hbody (hq.isPost_iff.1 hpost)] at htake
  exact ⟨q, hq, htake⟩

theorem takeLines_of_hasBody (h : Head s method fields behind) (hbody : HasBody method) :
    ∃ q, Knows q method fields ∧ start.takeLines s = (⟨.body, q⟩, behind) := by
  obtain ⟨q, hq, htake⟩ := takeLines_of_head h
  rw [if_pos (hq.isPost_iff.2 hbody)] at htake
  exact ⟨q, hq, htake⟩

theorem outcome_of_not_hasBody (h : Head s method fields behind) (hbody : ¬ HasBody method) :
    (start.advance s).outcome = .success := by
  obtain ⟨q, -, htake⟩ := takeLines_of_not_hasBody h hbody
  rw [advance_eq_settle, htake]
  rfl

theorem exists_settle_of_hasBody (h : Head s method fields behind) (hbody : HasBody method) :
    ∃ q, Knows q method fields ∧ start.advance s = settle ⟨.body, q⟩ behind := by
  obtain ⟨q, hq, htake⟩ := takeLines_of_hasBody h hbody
  exact ⟨q, hq, by rw [advance_eq_settle, htake]⟩

section Announced

variable (hq : Knows q method fields) (hn : Announced fields n) (hlen : behind.length < 2 ^ 63)

include hq hn hlen

theorem body?_of_announced :
    body? ⟨.body, q⟩ behind =
      if behind.length < n + 2 then none
      else if n + 2 < behind.length then some (fail ⟨.body, q⟩)
      else some (store ⟨.body, q⟩ (behind.take n)) :=
  body?_eq (r := ⟨.body, q⟩) (hq.length?_eq_some_iff.2 hn) hlen

theorem settle_of_short (hlt : behind.length < n + 2) :
    (settle ⟨.body, q⟩ behind).outcome = .incomplete := by
  rw [settle_of_body rfl, body?_of_announced hq hn hlen, if_pos hlt]
  rfl

theorem settle_of_long (hgt : n + 2 < behind.length) :
    (settle ⟨.body, q⟩ behind).outcome = .error := by
  rw [settle_of_body rfl, body?_of_announced hq hn hlen, if_neg (by omega), if_pos hgt]
  rfl

theorem settle_of_exact (heq : behind.length = n + 2) :
    (settle ⟨.body, q⟩ behind).outcome = (store ⟨.body, q⟩ (behind.take n)).verdict := by
  rw [settle_of_body rfl, body?_of_announced hq hn hlen, if_neg (by omega), if_neg (by omega)]
  rfl

theorem settle_of_accepted (heq : behind.length = n + 2)
    (hjson : AnnouncedJson fields → IsJson (behind.take n)) :
    (settle ⟨.body, q⟩ behind).outcome = .success := by
  rw [settle_of_exact hq hn hlen heq]
  exact verdict_of_done ((phase_store_eq_done_iff _ _).2 ((hq.accepts_iff _).2 hjson))

theorem settle_of_refused (heq : behind.length = n + 2)
    (hjson : AnnouncedJson fields ∧ ¬ IsJson (behind.take n)) :
    (settle ⟨.body, q⟩ behind).outcome = .error := by
  have hrefused : ¬ Accepts q (behind.take n) := fun haccepts =>
    hjson.2 ((hq.accepts_iff _).1 haccepts hjson.1)
  rw [settle_of_exact hq hn hlen heq, verdict,
    if_neg fun hdone => hrefused ((phase_store_eq_done_iff _ _).1 hdone)]

end Announced

theorem settle_of_not_announced (hq : Knows q method fields) (hn : ∀ n, ¬ Announced fields n) :
    (settle ⟨.body, q⟩ behind).outcome = .error := by
  have hnone : q.length? = none := by
    rw [Option.eq_none_iff_forall_ne_some]
    exact fun n h => hn n (hq.length?_eq_some_iff.1 h)
  rw [settle_of_body rfl, body?]
  simp only [hnone]
  rfl

end Body

section Outcomes

variable {s : Bytes}

/-- The texts that come to an outcome, by the grammar. -/
def Deserves (s : Bytes) : Outcome → Prop
  | .success => Complete s
  | .incomplete => Begun s
  | .error => Broken s

theorem outcome_of_complete (hlen : s.length < 2 ^ 63) (h : Complete s) :
    (start.advance s).outcome = .success := by
  obtain ⟨method, fields, behind, hhead, hbehind⟩ := h
  by_cases hbody : HasBody method
  · obtain ⟨n, hn, heq, hjson⟩ := hbehind hbody
    obtain ⟨q, hq, hadvance⟩ := exists_settle_of_hasBody hhead hbody
    rw [hadvance]
    exact settle_of_accepted hq hn (Nat.lt_trans hhead.length_lt hlen) heq hjson
  · exact outcome_of_not_hasBody hhead hbody

theorem outcome_of_begun (hlen : s.length < 2 ^ 63) (h : Begun s) :
    (start.advance s).outcome = .incomplete := by
  rcases h with hbegun | ⟨method, fields, behind, n, hhead, hbody, hn, hlt⟩
  · exact outcome_of_headBegun hbegun
  · obtain ⟨q, hq, hadvance⟩ := exists_settle_of_hasBody hhead hbody
    rw [hadvance]
    exact settle_of_short hq hn (Nat.lt_trans hhead.length_lt hlen) hlt

theorem outcome_of_broken (hlen : s.length < 2 ^ 63) (h : Broken s) :
    (start.advance s).outcome = .error := by
  rcases h with hbroken | ⟨method, fields, behind, hhead, hbody, hbehind⟩
  · exact outcome_of_headBroken hbroken
  · have hlen' : behind.length < 2 ^ 63 := Nat.lt_trans hhead.length_lt hlen
    obtain ⟨q, hq, hadvance⟩ := exists_settle_of_hasBody hhead hbody
    rw [hadvance]
    rcases hbehind with hnone | ⟨n, hn, hgt | ⟨heq, hjson⟩⟩
    · exact settle_of_not_announced hq hnone
    · exact settle_of_long hq hn hlen' hgt
    · exact settle_of_refused hq hn hlen' heq hjson

/-- A text comes to the outcome that it deserves, and deserves only that one. -/
theorem outcome_eq_iff_deserves (hlen : s.length < 2 ^ 63) (o : Outcome) :
    (start.advance s).outcome = o ↔ Deserves s o := by
  have hcomes : ∀ o, Deserves s o → (start.advance s).outcome = o := by
    intro o h
    cases o with
    | success => exact outcome_of_complete hlen h
    | incomplete => exact outcome_of_begun hlen h
    | error => exact outcome_of_broken hlen h
  -- so two outcomes that a text deserves are equal, and it deserves one
  have hsome : ∃ o, Deserves s o := by
    rcases complete_or_begun_or_broken s with h | h | h
    · exact ⟨.success, h⟩
    · exact ⟨.incomplete, h⟩
    · exact ⟨.error, h⟩
  constructor
  · obtain ⟨o', h⟩ := hsome
    rintro rfl
    rwa [hcomes o' h]
  · exact hcomes o

/-- A text that reaches a reader at once is done exactly if it is a request, waits for more exactly
if it is the beginning of one, and fails exactly if it is neither. -/
theorem feed_whole_outcome_iff (capacity : Nat) (hlen : s.length < 2 ^ 63) :
    ((feed capacity [s]).outcome = .success ↔ Complete s) ∧
      ((feed capacity [s]).outcome = .incomplete ↔ Begun s) ∧
      ((feed capacity [s]).outcome = .error ↔ Broken s) := by
  rw [(feed_whole_shows capacity s).outcome_eq]
  exact ⟨outcome_eq_iff_deserves hlen .success, outcome_eq_iff_deserves hlen .incomplete,
    outcome_eq_iff_deserves hlen .error⟩

/-- A request with empty tokens, a length behind a plus sign, and bytes behind its body that are no
line break. -/
def oddPost : Bytes :=
  Bytes.ascii "post  HTTP/\r\nContent-Type: application/json\r\n:\r\n" ++
    Bytes.ascii "content-length:  +2 \r\n\r\n\x7b\x7d__"

/-- A byte less is waited for, and a byte more fails. -/
theorem complete_oddPost :
    (oddPost.length < 2 ^ 63 ∧ Complete oddPost) ∧
      (oddPost.dropLast.length < 2 ^ 63 ∧ Begun oddPost.dropLast) ∧
      (oddPost ++ [Bytes.lf]).length < 2 ^ 63 ∧ Broken (oddPost ++ [Bytes.lf]) := by
  have hlen : oddPost.length < 2 ^ 63 := by decide +kernel
  have hless : oddPost.dropLast.length < 2 ^ 63 := by decide +kernel
  have hmore : (oddPost ++ [Bytes.lf]).length < 2 ^ 63 := by decide +kernel
  refine ⟨⟨hlen, ?_⟩, ⟨hless, ?_⟩, hmore, ?_⟩
  · exact (feed_whole_outcome_iff 0 hlen).1.1 (by decide +kernel)
  · exact (feed_whole_outcome_iff 0 hless).2.1.1 (by decide +kernel)
  · exact (feed_whole_outcome_iff 0 hmore).2.2.1 (by decide +kernel)

end Outcomes

end RequestReader

end HttpServer
