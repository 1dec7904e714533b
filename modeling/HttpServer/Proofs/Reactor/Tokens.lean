import HttpServer.Proofs.Connection.Turns
import HttpServer.Proofs.Reactor.Upkeep
import HttpServer.Reactor.Handoff

/-!
# The hands in which connections are

A connection may be in several hands: the kernel watches it for a direction, a report for it stands
in the batch, or it has a job. The last hand is nobody's: it has the connections that were abandoned.
The ids that are in these hands are the tokens of a state. `Placed` says that no token is there
twice, and that whatever is in a hand is there for its own connection: a connection that is watched
for reading has nothing left to write, one that is watched for writing has, and reports and jobs are
of the direction that was watched.

A token is taken out of one hand and put into another. Here are these moves, each with what it does
to the tokens and with the condition on which it keeps `Placed`.
-/

namespace HttpServer

namespace Reactor

/-- A connection is open, has a descriptor, and waits for a direction. -/
def Stands (r : Reactor) (id : Nat) (descriptor : Int) (d : Direction) : Prop :=
  ∃ l, r.link? id = some l ∧ l.descriptor = descriptor ∧ l.connection.closed = false ∧
    l.connection.Waits d

variable {r q : Reactor} {id : Nat} {d : Direction} {descriptor : Int}

theorem Stands.isOpen (h : r.Stands id descriptor d) : r.isOpen id = true := by
  obtain ⟨l, hl, -, hc, -⟩ := h
  exact isOpen_eq_true_iff.2 ⟨l, hl, hc⟩

theorem Stands.descriptor?_eq (h : r.Stands id descriptor d) :
    r.descriptor? id = some descriptor := by
  obtain ⟨l, hl, rfl, -, -⟩ := h
  exact Reactor.descriptor?_eq hl

/-- No two connections stand under one descriptor. -/
theorem Stands.eq (h : r.Stands id descriptor d) (hk : r.Kept) {x : Nat} {e : Direction}
    (hx : r.Stands x descriptor e) : x = id := by
  have hid := hk.seated id descriptor h.isOpen h.descriptor?_eq
  rw [hk.seated x descriptor hx.isOpen hx.descriptor?_eq] at hid
  exact Option.some.inj hid

/-- A connection that is as it was stands as it stood. -/
theorem Stands.of_same (h : r.Stands id descriptor d) (hopen : q.isOpen id = true)
    (hsame : ∀ l, q.link? id = some l → l.connection.closed = false → r.link? id = some l) :
    q.Stands id descriptor d := by
  obtain ⟨l, hl, hd, hc, hw⟩ := h
  obtain ⟨m, hm, hmc⟩ := isOpen_eq_true_iff.1 hopen
  have hml := hsame m hm hmc
  rw [hl] at hml
  obtain rfl := Option.some.inj hml
  exact ⟨l, hm, hd, hc, hw⟩

end Reactor

namespace Handoff

/-- The connections that are in some hand, once for each hand. -/
def tokens (h : Handoff) : List Nat :=
  h.armed.map Arming.id ++
    (h.batch.map Report.id ++ ((h.queued ++ h.running).map Job.id ++ h.abandoned))

/-- Whatever is in a hand is there for its own connection. -/
structure Placed (settings : ReactorSettings) (h : Handoff) : Prop where
  reachable : Reactor.Reachable settings h.reactor
  nodup : h.tokens.Nodup
  armed : ∀ a ∈ h.armed, h.reactor.Stands a.id a.descriptor a.direction
  batch : ∀ p ∈ h.batch, ∃ d, h.reactor.Stands p.id p.event.descriptor d ∧
    (p.event.isHangup = false → p.event.direction? = some d)
  jobs : ∀ j ∈ h.queued ++ h.running, j.id < h.reactor.links.length ∧
    ∀ l, h.reactor.link? j.id = some l → l.connection.closed = false →
      l.connection.Waits j.direction
  abandoned : ∀ id ∈ h.abandoned, id < h.reactor.links.length

/-- Every open connection is in a hand. -/
def Held (h : Handoff) : Prop := ∀ id, h.reactor.isOpen id = true → id ∈ h.tokens

variable {settings : ReactorSettings} {h k : Handoff}

section Moves

theorem tokens_batch {p : Report} {rest : List Report} (hb : h.batch = p :: rest) :
    h.tokens.Perm (p.id :: { h with batch := rest }.tokens) := by
  rw [tokens, hb]
  exact List.perm_middle

theorem tokens_running {job : Job} (hj : job ∈ h.running) (leaving : List Job) :
    h.tokens.Perm
      (job.id :: { h with running := h.running.erase job, leaving := leaving }.tokens) := by
  have hjobs : ((h.queued ++ h.running).map Job.id).Perm
      (job.id :: (h.queued ++ h.running.erase job).map Job.id) := by
    rw [← List.map_cons]
    apply List.Perm.map
    exact ((List.perm_cons_erase hj).append_left h.queued).trans List.perm_middle
  refine (((hjobs.append_right _).append_left _).append_left _).trans ?_
  exact (List.perm_middle.append_left _).trans List.perm_middle

theorem tokens_enqueue (h : Handoff) (job : Job) :
    { h with queued := h.queued ++ [job] }.tokens.Perm (job.id :: h.tokens) := by
  have hjobs : ((h.queued ++ [job] ++ h.running).map Job.id).Perm
      (job.id :: (h.queued ++ h.running).map Job.id) := by
    rw [← List.map_cons, List.append_assoc]
    exact List.perm_middle.map _
  refine (((hjobs.append_right _).append_left _).append_left _).trans ?_
  exact (List.perm_middle.append_left _).trans List.perm_middle

theorem tokens_abandon (h : Handoff) (id : Nat) :
    { h with abandoned := id :: h.abandoned }.tokens.Perm (id :: h.tokens) := by
  refine ((List.perm_middle.append_left _).append_left _).trans ?_
  exact (List.perm_middle.append_left _).trans List.perm_middle

theorem tokens_collect (h : Handoff) (p : Report) :
    { h with batch := h.batch ++ [p] }.tokens.Perm (p.id :: h.tokens) := by
  have hbatch : ((h.batch ++ [p]).map Report.id).Perm (p.id :: h.batch.map Report.id) := by
    rw [← List.map_cons]
    exact (List.perm_append_singleton p h.batch).map _
  exact ((hbatch.append_right _).append_left _).trans List.perm_middle

theorem tokens_take {job : Job} {rest : List Job} (hq : h.queued = job :: rest) :
    { h with queued := rest, running := h.running ++ [job] }.tokens.Perm h.tokens := by
  rw [tokens, tokens, hq]
  refine (((List.Perm.map _ ?_).append_right _).append_left _).append_left _
  rw [← List.append_assoc]
  exact List.perm_append_singleton job (rest ++ h.running)

end Moves

section Reports

theorem and_or_distrib (m b c : UInt32) : m &&& (b ||| c) = m &&& b ||| m &&& c :=
  UInt32.toBitVec_inj.1 BitVec.and_or_distrib_left

/-- A mask without other bits than those of two sets, and without those of the second. -/
theorem mask_eq_and {m b c : UInt32} (hother : m &&& ~~~(b ||| c) = 0) (hc : m &&& c = 0) :
    m &&& b = m := by
  calc m &&& b = m &&& b ||| m &&& c := by rw [hc, UInt32.or_zero]
    _ = m &&& (b ||| c) := (and_or_distrib m b c).symm
    _ = m &&& (b ||| c) ||| m &&& ~~~(b ||| c) := by rw [hother, UInt32.or_zero]
    _ = m &&& (b ||| c ||| ~~~(b ||| c)) := (and_or_distrib _ _ _).symm
    _ = m := by rw [UInt32.or_not_self, UInt32.and_neg_one]

/-- What is reported and no hangup is of the direction that was watched. -/
theorem direction?_of_reportable {a : Arming} {e : Event} (h : reportable a e = true)
    (hh : e.isHangup = false) : e.direction? = some a.direction := by
  rw [reportable, Bool.and_eq_true, Bool.and_eq_true, bne_iff_ne, beq_iff_eq, beq_iff_eq] at h
  obtain ⟨⟨-, hne⟩, hother⟩ := h
  rw [Event.isHangup, bne_eq_false_iff_eq] at hh
  have hmask := mask_eq_and hother hh
  rw [Event.direction?, Event.isReadable, Event.isWritable]
  cases hd : a.direction with
  | reading =>
      rw [hd] at hmask
      have hreadable : e.mask &&& Interest.readable.bits = e.mask := hmask
      rw [hreadable, if_pos (bne_iff_ne.2 hne)]
  | writing =>
      rw [hd] at hmask
      have hwritable : e.mask &&& Interest.writable.bits = e.mask := hmask
      have hreadable : e.mask &&& Interest.readable.bits = 0 := by
        rw [← hwritable, UInt32.and_assoc]
        exact UInt32.and_zero
      rw [hreadable, hwritable, if_pos (bne_iff_ne.2 hne)]
      rfl

end Reports

section Places

theorem mem_tokens_of_armed {a : Arming} (ha : a ∈ h.armed) : a.id ∈ h.tokens :=
  List.mem_append_left _ (List.mem_map_of_mem ha)

theorem mem_tokens_of_batch {p : Report} (hp : p ∈ h.batch) : p.id ∈ h.tokens :=
  List.mem_append_right _ (List.mem_append_left _ (List.mem_map_of_mem hp))

theorem mem_tokens_of_job {j : Job} (hj : j ∈ h.queued ++ h.running) : j.id ∈ h.tokens :=
  List.mem_append_right _
    (List.mem_append_right _ (List.mem_append_left _ (List.mem_map_of_mem hj)))

theorem mem_tokens_of_abandoned {id : Nat} (hid : id ∈ h.abandoned) : id ∈ h.tokens :=
  List.mem_append_right _ (List.mem_append_right _ (List.mem_append_right _ hid))

theorem mem_tokens_iff {id : Nat} :
    id ∈ h.tokens ↔ (∃ a ∈ h.armed, a.id = id) ∨ (∃ p ∈ h.batch, p.id = id) ∨
      (∃ j ∈ h.queued ++ h.running, j.id = id) ∨ id ∈ h.abandoned := by
  rw [tokens, List.mem_append, List.mem_append, List.mem_append, List.mem_map, List.mem_map,
    List.mem_map]

/-- Dropping what is closed loses no open connection. -/
theorem mem_tokens_dropClosed {id : Nat} (hmem : id ∈ h.tokens)
    (hopen : h.reactor.isOpen id = true) : id ∈ h.dropClosed.tokens := by
  rcases mem_tokens_iff.1 hmem with ⟨a, ha, rfl⟩ | hother
  · exact mem_tokens_of_armed (List.mem_filter.2 ⟨ha, hopen⟩)
  · exact mem_tokens_iff.2 (Or.inr hother)

theorem tokens_dropClosed (h : Handoff) : h.dropClosed.tokens.Sublist h.tokens :=
  (List.filter_sublist.map _).append (List.Sublist.refl _)

namespace Placed

variable {q : Reactor}

/-- Connections were closed, or those changed that are in no hand. -/
theorem react (hp : h.Placed settings) (hq : Reactor.Reachable settings q)
    (hlength : h.reactor.links.length ≤ q.links.length)
    (hsame : ∀ id ∈ h.tokens, ∀ l, q.link? id = some l → l.connection.closed = false →
      h.reactor.link? id = some l)
    (hbatch : ∀ p ∈ h.batch, q.isOpen p.id = true) :
    Placed settings { h with reactor := q }.dropClosed := by
  refine ⟨hq, ?_, ?_, ?_, ?_, ?_⟩
  · exact hp.nodup.sublist (tokens_dropClosed { h with reactor := q })
  · intro a ha
    obtain ⟨ha, hopen⟩ := List.mem_filter.1 ha
    exact (hp.armed a ha).of_same hopen (hsame a.id (mem_tokens_of_armed ha))
  · intro p hpb
    obtain ⟨d, hstands, hd⟩ := hp.batch p hpb
    exact ⟨d, hstands.of_same (hbatch p hpb) (hsame p.id (mem_tokens_of_batch hpb)), hd⟩
  · intro j hj
    obtain ⟨hlt, hw⟩ := hp.jobs j hj
    exact ⟨Nat.lt_of_lt_of_le hlt hlength,
      fun l hl hc => hw l (hsame j.id (mem_tokens_of_job hj) l hl hc) hc⟩
  · exact fun id hid => Nat.lt_of_lt_of_le (hp.abandoned id hid) hlength

/-- Connections were made at most. -/
theorem extend (hp : h.Placed settings) (hq : Reactor.Reachable settings q)
    (hlinks : ∀ id l, h.reactor.link? id = some l → q.link? id = some l) :
    Placed settings { h with reactor := q } := by
  have hstands {id : Nat} {descriptor : Int} {d : Direction}
      (hs : h.reactor.Stands id descriptor d) : q.Stands id descriptor d := by
    obtain ⟨l, hl, hrest⟩ := hs
    exact ⟨l, hlinks id l hl, hrest⟩
  have hstays {id : Nat} (hlt : id < h.reactor.links.length) :
      q.link? id = some h.reactor.links[id] := hlinks _ _ (List.getElem?_eq_getElem hlt)
  refine ⟨hq, hp.nodup, fun a ha => hstands (hp.armed a ha), ?_, ?_, ?_⟩
  · intro p hpb
    obtain ⟨d, hs, hd⟩ := hp.batch p hpb
    exact ⟨d, hstands hs, hd⟩
  · intro j hj
    obtain ⟨hlt, hw⟩ := hp.jobs j hj
    refine ⟨(List.getElem?_eq_some_iff.1 (hstays hlt)).1, ?_⟩
    intro l hql hc
    rw [hstays hlt] at hql
    obtain rfl := Option.some.inj hql
    exact hw _ (List.getElem?_eq_getElem hlt) hc
  · intro id hid
    exact (List.getElem?_eq_some_iff.1 (hstays (hp.abandoned id hid))).1

/-- The first report leaves the batch. -/
theorem unbatch (hp : h.Placed settings) {p : Report} {rest : List Report}
    (hb : h.batch = p :: rest) :
    Placed settings { h with batch := rest } ∧ p.id ∉ { h with batch := rest }.tokens := by
  obtain ⟨hnew, hnodup⟩ := List.nodup_cons.1 ((tokens_batch hb).nodup hp.nodup)
  refine ⟨⟨hp.reachable, hnodup, hp.armed, ?_, hp.jobs, hp.abandoned⟩, hnew⟩
  intro x hx
  exact hp.batch x (hb ▸ List.mem_cons_of_mem p hx)

/-- A job leaves the workers. -/
theorem unrun (hp : h.Placed settings) {job : Job} (hj : job ∈ h.running) (leaving : List Job) :
    Placed settings { h with running := h.running.erase job, leaving := leaving } ∧
      job.id ∉ { h with running := h.running.erase job, leaving := leaving }.tokens := by
  obtain ⟨hnew, hnodup⟩ := List.nodup_cons.1 ((tokens_running hj leaving).nodup hp.nodup)
  refine ⟨⟨hp.reachable, hnodup, hp.armed, hp.batch, ?_, hp.abandoned⟩, hnew⟩
  intro x hx
  apply hp.jobs x
  rcases List.mem_append.1 hx with hx | hx
  · exact List.mem_append_left _ hx
  · exact List.mem_append_right _ (List.mem_of_mem_erase hx)

/-- A job is queued for a connection that was in no hand. -/
theorem enqueue (hp : h.Placed settings) {job : Job} {descriptor : Int} (hnew : job.id ∉ h.tokens)
    (hs : h.reactor.Stands job.id descriptor job.direction) :
    Placed settings { h with queued := h.queued ++ [job] } := by
  refine ⟨hp.reachable, ?_, hp.armed, hp.batch, ?_, hp.abandoned⟩
  · exact (tokens_enqueue h job).symm.nodup (List.nodup_cons.2 ⟨hnew, hp.nodup⟩)
  · intro j hj
    have hcases : j ∈ h.queued ++ h.running ∨ j = job := by
      rw [List.append_assoc, List.mem_append, List.mem_append, List.mem_singleton] at hj
      rw [List.mem_append]
      rcases hj with hj | hj | hj
      · exact Or.inl (Or.inl hj)
      · exact Or.inr hj
      · exact Or.inl (Or.inr hj)
    rcases hcases with hj | rfl
    · exact hp.jobs j hj
    · obtain ⟨l, hl, -, -, hw⟩ := hs
      refine ⟨(List.getElem?_eq_some_iff.1 hl).1, ?_⟩
      intro m hm _
      rw [hl] at hm
      obtain rfl := Option.some.inj hm
      exact hw

/-- A connection that was in no hand is abandoned. -/
theorem abandon (hp : h.Placed settings) {id : Nat} (hnew : id ∉ h.tokens)
    (hlt : id < h.reactor.links.length) :
    Placed settings { h with abandoned := id :: h.abandoned } := by
  refine ⟨hp.reachable, ?_, hp.armed, hp.batch, hp.jobs, List.forall_mem_cons.2 ⟨hlt, hp.abandoned⟩⟩
  exact (tokens_abandon h id).symm.nodup (List.nodup_cons.2 ⟨hnew, hp.nodup⟩)

theorem tokens_arm (hp : h.Placed settings) {a : Arming} (hnew : a.id ∉ h.tokens)
    (hs : h.reactor.Stands a.id a.descriptor a.direction) :
    (h.arm a).tokens = a.id :: h.tokens := by
  have hfilter : (h.armed.filter fun x => x.descriptor != a.descriptor) = h.armed := by
    rw [List.filter_eq_self]
    intro x hx
    rw [bne_iff_ne]
    intro hd
    -- another connection does not stand under this descriptor
    have hx' := hp.armed x hx
    rw [hd] at hx'
    have hid := hs.eq (Reactor.kept_of_reachable hp.reachable) hx'
    exact hnew (hid ▸ mem_tokens_of_armed hx)
  rw [tokens, arm, hfilter]
  rfl

/-- A connection that was in no hand is watched. -/
theorem arm (hp : h.Placed settings) {a : Arming} (hnew : a.id ∉ h.tokens)
    (hs : h.reactor.Stands a.id a.descriptor a.direction) : Placed settings (h.arm a) := by
  refine ⟨hp.reachable, ?_, ?_, hp.batch, hp.jobs, hp.abandoned⟩
  · rw [hp.tokens_arm hnew hs]
    exact List.nodup_cons.2 ⟨hnew, hp.nodup⟩
  · intro x hx
    rcases List.mem_cons.1 hx with rfl | hx
    · exact hs
    · exact hp.armed x (List.mem_filter.1 hx).1

/-- A watching that ends is the only one of its descriptor. -/
theorem tokens_disarm (hp : h.Placed settings) {a : Arming} (ha : a ∈ h.armed) :
    h.tokens.Perm (a.id ::
      { h with armed := h.armed.filter fun x => x.descriptor != a.descriptor }.tokens) := by
  have hids : (h.armed.map Arming.id).Nodup := (List.nodup_append.1 hp.nodup).1
  have harmed : h.armed.Nodup := hids.of_map
  have hperm : h.armed.Perm (a :: h.armed.filter fun x => x.descriptor != a.descriptor) := by
    have hnodup : (a :: h.armed.filter fun x => x.descriptor != a.descriptor).Nodup := by
      refine List.nodup_cons.2 ⟨?_, harmed.sublist List.filter_sublist⟩
      intro hmem
      simpa using (List.mem_filter.1 hmem).2
    rw [List.perm_ext_iff_of_nodup harmed hnodup]
    intro x
    rw [List.mem_cons, List.mem_filter, bne_iff_ne]
    constructor
    · intro hx
      by_cases hd : x.descriptor = a.descriptor
      · have hx' := hp.armed x hx
        rw [hd] at hx'
        have hid := (hp.armed a ha).eq (Reactor.kept_of_reachable hp.reachable) hx'
        exact Or.inl (List.inj_on_of_nodup_map hids hx ha hid)
      · exact Or.inr ⟨hx, hd⟩
    · rintro (rfl | ⟨hx, -⟩)
      · exact ha
      · exact hx
  exact (hperm.map Arming.id).append_right _

/-- A report comes of a watching, which ends. -/
theorem tokens_report (hp : h.Placed settings) {a : Arming} (ha : a ∈ h.armed) (e : Event) :
    { h with
      armed := h.armed.filter fun x => x.descriptor != a.descriptor
      batch := h.batch ++ [Report.mk e a.id] }.tokens.Perm h.tokens :=
  (tokens_collect { h with armed := h.armed.filter fun x => x.descriptor != a.descriptor }
    (Report.mk e a.id)).trans (hp.tokens_disarm ha).symm

theorem report (hp : h.Placed settings) {a : Arming} (ha : a ∈ h.armed) {e : Event}
    (hd : e.descriptor = a.descriptor) (he : reportable a e = true) :
    Placed settings { h with
      armed := h.armed.filter fun x => x.descriptor != a.descriptor
      batch := h.batch ++ [Report.mk e a.id] } := by
  refine ⟨hp.reachable, (hp.tokens_report ha e).symm.nodup hp.nodup, ?_, ?_, hp.jobs,
    hp.abandoned⟩
  · exact fun x hx => hp.armed x (List.mem_filter.1 hx).1
  · intro p hpb
    rcases List.mem_append.1 hpb with hpb | hpb
    · exact hp.batch p hpb
    · rw [List.mem_singleton.1 hpb]
      refine ⟨a.direction, ?_, direction?_of_reportable he⟩
      rw [hd]
      exact hp.armed a ha

theorem lt_length (hp : h.Placed settings) {id : Nat} (hid : id ∈ h.tokens) :
    id < h.reactor.links.length := by
  rcases mem_tokens_iff.1 hid with ⟨a, ha, rfl⟩ | ⟨p, hpb, rfl⟩ | ⟨j, hj, rfl⟩ | hid
  · exact Reactor.lt_length_of_isOpen (hp.armed a ha).isOpen
  · obtain ⟨d, hs, -⟩ := hp.batch p hpb
    exact Reactor.lt_length_of_isOpen hs.isOpen
  · exact (hp.jobs j hj).1
  · exact hp.abandoned id hid

theorem dropClosed (hp : h.Placed settings) : h.dropClosed.Placed settings := by
  refine hp.react hp.reachable (Nat.le_refl _) (fun _ _ _ hl _ => hl) ?_
  intro p hpb
  obtain ⟨d, hs, -⟩ := hp.batch p hpb
  exact hs.isOpen

end Placed

end Places

end Handoff

end HttpServer
