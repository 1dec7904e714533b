import HttpServer.Proofs.Connection.Turns
import HttpServer.Proofs.Reactor.Upkeep
import Mathlib.Data.Finset.Card

/-!
# The account of connections

Making a connection counts up, and closing one counts down; the two stand far apart, and a connection
can be closed by any of several parties. `Balanced` says that the counters agree with the
connections: every connection is closed once at most, and the open ones are as many as the counter
says. A client that comes while the server is full is turned away, so the counter stays within the
limit and does not wrap.

The reactor closes at its end only what is still in the table. That is enough, since an open
connection always stands there.
-/

namespace HttpServer

namespace Reactor

/-- A connection was made and is watched. -/
def Admission.isAdmitted : Admission → Bool
  | .admitted _ => true
  | _ => false

/-- The connections that are open. -/
def openIds (r : Reactor) : Finset Nat :=
  (Finset.range r.links.length).filter fun id => r.isOpen id = true

/-- The counters agree with what became of the clients and of their connections. -/
structure Balanced (r : Reactor) (admissions : List Admission) : Prop where
  live : r.stats.live.value.toNat = r.openIds.card
  live_le : r.stats.live.value.toNat ≤ r.settings.maxConnections.toNat
  /-- Everything that was counted down had been counted up. -/
  live_add : r.stats.live.value.toNat + r.closings.length = r.links.length
  nodup : (r.closings.map Prod.fst).Nodup
  mem_closings_iff : ∀ id, id ∈ r.closings.map Prod.fst ↔
    id < r.links.length ∧ r.isOpen id = false
  timeouts : r.stats.timeouts.value =
    UInt64.ofNat (r.closings.countP fun c => c.2 == .timer)
  accepted : r.stats.accepted.value = UInt64.ofNat (admissions.countP Admission.isAdmitted)
  rejected : r.stats.rejected.value = UInt64.ofNat (admissions.count .rejected)
  length_links : r.links.length = admissions.countP fun a => a != .rejected

variable {r q : Reactor} {id : Nat} {admissions : List Admission}

@[simp] theorem mem_openIds : id ∈ r.openIds ↔ r.isOpen id = true := by
  rw [openIds, Finset.mem_filter, Finset.mem_range]
  exact ⟨And.right, fun h => ⟨lt_length_of_isOpen h, h⟩⟩

theorem openIds_congr (h : q.isOpen = r.isOpen) : q.openIds = r.openIds := by
  ext id
  rw [mem_openIds, mem_openIds, h]

theorem openIds_of_shut (h : q.isOpen = Function.update r.isOpen id false) :
    q.openIds = r.openIds.erase id := by
  ext x
  rw [mem_openIds, Finset.mem_erase, mem_openIds, h]
  by_cases hx : x = id
  · rw [hx, Function.update_self]
    simp
  · rw [Function.update_of_ne hx, and_iff_right hx]

theorem openIds_of_made (h : q.isOpen = Function.update r.isOpen r.links.length true) :
    q.openIds.card = r.openIds.card + 1 := by
  have hnew : r.links.length ∉ r.openIds := by
    rw [mem_openIds, isOpen_eq_false_of_none r.link?_length]
    exact Bool.false_ne_true
  have hinsert : q.openIds = insert r.links.length r.openIds := by
    ext x
    rw [mem_openIds, Finset.mem_insert, mem_openIds, h]
    by_cases hx : x = r.links.length
    · rw [hx, Function.update_self]
      simp
    · rw [Function.update_of_ne hx, or_iff_right hx]
  rw [hinsert, Finset.card_insert_of_notMem hnew]

theorem value_increment {c : Counter} {n : Nat} (h : c.value = UInt64.ofNat n) :
    (c.increment 1).value = UInt64.ofNat (n + 1) := by
  rw [Counter.increment, h, UInt64.ofNat_add]
  rfl

/-- Below its end a counter counts up by one. -/
theorem toNat_increment_of_lt {c : Counter} {n : UInt64} (h : c.value < n) :
    (c.increment 1).value.toNat = c.value.toNat + 1 := by
  have hlt := UInt64.lt_iff_toNat_lt.1 h
  have hn := n.toNat_lt
  rw [Counter.toNat_increment, UInt64.toNat_one, Nat.mod_eq_of_lt]
  exact Nat.lt_of_le_of_lt hlt hn

theorem balanced_fresh (settings : ReactorSettings) : (fresh settings).Balanced [] := by
  refine ⟨rfl, Nat.zero_le _, rfl, List.nodup_nil, ?_, rfl, rfl, rfl, rfl⟩
  intro id
  constructor
  · intro h
    cases h
  · rintro ⟨h, -⟩
    cases h

namespace Balanced

/-- Nothing is counted but requests. -/
theorem congr (h : r.Balanced admissions) (hsettings : q.settings = r.settings)
    (hlength : q.links.length = r.links.length) (hclosings : q.closings = r.closings)
    (hopen : q.isOpen = r.isOpen) {requests : Counter}
    (hstats : q.stats = { r.stats with requests := requests }) : q.Balanced admissions := by
  refine ⟨?_, ?_, ?_, ?_, ?_, ?_, ?_, ?_, ?_⟩
  · rw [hstats, openIds_congr hopen]
    exact h.live
  · rw [hstats, hsettings]
    exact h.live_le
  · rw [hstats, hclosings, hlength]
    exact h.live_add
  · rw [hclosings]
    exact h.nodup
  · rw [hclosings, hlength, hopen]
    exact h.mem_closings_iff
  · rw [hstats, hclosings]
    exact h.timeouts
  · rw [hstats]
    exact h.accepted
  · rw [hstats]
    exact h.rejected
  · rw [hlength]
    exact h.length_links

/-- While a connection is open there is something to count down. -/
theorem live_pos (h : r.Balanced admissions) (hopen : r.isOpen id = true) :
    0 < r.stats.live.value.toNat := by
  rw [h.live]
  exact Finset.card_pos.2 ⟨id, mem_openIds.2 hopen⟩

/-- A connection that had not been closed may be. -/
theorem nodup_append (h : r.Balanced admissions) {closer : Closer}
    (hnew : id ∉ r.closings.map Prod.fst) :
    ((r.closings ++ [(id, closer)]).map Prod.fst).Nodup := by
  rw [List.map_append, List.map_singleton, ← List.concat_eq_append]
  exact h.nodup.concat hnew

/-- A connection that was open is closed. -/
theorem shut (h : r.Balanced admissions) {closer : Closer} (hsettings : q.settings = r.settings)
    (hlength : q.links.length = r.links.length)
    (hclosings : q.closings = r.closings ++ [(id, closer)]) (hwas : r.isOpen id = true)
    (hopen : q.isOpen = Function.update r.isOpen id false) {requests : Counter}
    (hstats : q.stats = { r.stats with
      live := r.stats.live.decrement 1
      requests := requests
      timeouts := if closer = .timer then r.stats.timeouts.increment 1 else r.stats.timeouts }) :
    q.Balanced admissions := by
  have hpos := h.live_pos hwas
  have hlive : q.stats.live.value.toNat = r.stats.live.value.toNat - 1 := by
    rw [hstats]
    exact Counter.toNat_decrement _ _
  have hnew : id ∉ r.closings.map Prod.fst := by
    rw [h.mem_closings_iff, hwas]
    rintro ⟨-, hfalse⟩
    cases hfalse
  refine ⟨?_, ?_, ?_, ?_, ?_, ?_, ?_, ?_, ?_⟩
  · rw [hlive, openIds_of_shut hopen, Finset.card_erase_of_mem (mem_openIds.2 hwas), h.live]
  · rw [hlive, hsettings]
    exact Nat.le_trans (Nat.sub_le _ _) h.live_le
  · have hadd := h.live_add
    rw [hlive, hclosings, hlength, List.length_append, List.length_singleton]
    omega
  · rw [hclosings]
    exact h.nodup_append hnew
  · intro x
    rw [hclosings, List.map_append, List.mem_append, h.mem_closings_iff, hlength, hopen,
      List.map_singleton, List.mem_singleton]
    by_cases hx : x = id
    · rw [hx, Function.update_self]
      exact ⟨fun _ => ⟨lt_length_of_isOpen hwas, rfl⟩, fun _ => Or.inr rfl⟩
    · rw [Function.update_of_ne hx, or_iff_left hx]
  · rw [hclosings, List.countP_append, hstats]
    by_cases hcloser : closer = .timer
    · simp only [hcloser, if_true]
      exact value_increment h.timeouts
    · simp only [hcloser, if_false]
      rw [h.timeouts, List.countP_singleton]
      simp [hcloser]
  · rw [hstats]
    exact h.accepted
  · rw [hstats]
    exact h.rejected
  · rw [hlength]
    exact h.length_links

/-- A connection is made and watched. -/
theorem made (h : r.Balanced admissions) (hlt : r.stats.live.value < r.settings.maxConnections)
    (hsettings : q.settings = r.settings) (hlength : q.links.length = r.links.length + 1)
    (hclosings : q.closings = r.closings)
    (hopen : q.isOpen = Function.update r.isOpen r.links.length true)
    (hstats : q.stats = { r.stats with
      live := r.stats.live.increment 1
      accepted := r.stats.accepted.increment 1 }) :
    q.Balanced (admissions ++ [.admitted id]) := by
  have hlive : q.stats.live.value.toNat = r.stats.live.value.toNat + 1 := by
    rw [hstats]
    exact toNat_increment_of_lt hlt
  refine ⟨?_, ?_, ?_, ?_, ?_, ?_, ?_, ?_, ?_⟩
  · rw [hlive, openIds_of_made hopen, h.live]
  · rw [hlive, hsettings]
    exact UInt64.lt_iff_toNat_lt.1 hlt
  · rw [hlive, hclosings, hlength, Nat.add_right_comm, h.live_add]
  · rw [hclosings]
    exact h.nodup
  · intro x
    rw [hclosings, h.mem_closings_iff, hlength, hopen, Nat.lt_succ_iff_lt_or_eq]
    by_cases hx : x = r.links.length
    · rw [hx, Function.update_self]
      simp
    · rw [Function.update_of_ne hx, or_iff_left hx]
  · rw [hstats, hclosings]
    exact h.timeouts
  · rw [hstats, List.countP_append]
    exact value_increment h.accepted
  · rw [hstats, List.count_append]
    exact h.rejected
  · rw [hlength, List.countP_append, h.length_links]
    rfl

/-- A connection is made that cannot be watched, and closed at once. -/
theorem refused (h : r.Balanced admissions) (hlt : r.stats.live.value < r.settings.maxConnections)
    (hsettings : q.settings = r.settings) (hlength : q.links.length = r.links.length + 1)
    (hclosings : q.closings = r.closings ++ [(r.links.length, .refusal)])
    (hopen : q.isOpen = r.isOpen)
    (hstats : q.stats = { r.stats with live := (r.stats.live.increment 1).decrement 1 }) :
    q.Balanced (admissions ++ [.failed]) := by
  have hlive : q.stats.live.value.toNat = r.stats.live.value.toNat := by
    rw [hstats, Counter.toNat_decrement, toNat_increment_of_lt hlt]
    rfl
  have hnew : r.links.length ∉ r.closings.map Prod.fst := by
    rw [h.mem_closings_iff]
    exact fun hmem => absurd hmem.1 (Nat.lt_irrefl _)
  refine ⟨?_, ?_, ?_, ?_, ?_, ?_, ?_, ?_, ?_⟩
  · rw [hlive, openIds_congr hopen]
    exact h.live
  · rw [hlive, hsettings]
    exact h.live_le
  · rw [hlive, hclosings, hlength, List.length_append, ← Nat.add_assoc, h.live_add]
    rfl
  · rw [hclosings]
    exact h.nodup_append hnew
  · intro x
    rw [hclosings, List.map_append, List.mem_append, h.mem_closings_iff, hlength, hopen,
      List.map_singleton, List.mem_singleton, Nat.lt_succ_iff_lt_or_eq]
    by_cases hx : x = r.links.length
    · rw [hx, isOpen_eq_false_of_none r.link?_length]
      simp
    · rw [or_iff_left hx, or_iff_left hx]
  · rw [hstats, hclosings, List.countP_append]
    exact h.timeouts
  · rw [hstats, List.countP_append]
    exact h.accepted
  · rw [hstats, List.count_append]
    exact h.rejected
  · rw [hlength, List.countP_append, h.length_links]
    rfl

/-- A client is turned away. -/
theorem turnedAway (h : r.Balanced admissions) :
    Balanced { r with stats := { r.stats with rejected := r.stats.rejected.increment 1 } }
      (admissions ++ [.rejected]) := by
  refine ⟨h.live, h.live_le, h.live_add, h.nodup, h.mem_closings_iff, h.timeouts, ?_, ?_, ?_⟩
  · rw [List.countP_append]
    exact h.accepted
  · rw [List.count_append]
    exact value_increment h.rejected
  · rw [List.countP_append]
    exact h.length_links

end Balanced

section Steps

theorem balanced_accept (h : r.Balanced admissions) (now : Nat) (d : Int) (registers : Bool) :
    (r.accept now d registers).2.Balanced
      (admissions ++ [(r.accept now d registers).1]) := by
  rw [accept]
  split
  · exact h.turnedAway
  · rename_i hfull
    have hlt : r.stats.live.value < r.settings.maxConnections := by
      rw [isFull, decide_eq_true_iff] at hfull
      exact UInt64.not_le.1 hfull
    rcases r.connect_cases now d registers with ⟨-, hq⟩ | ⟨-, c, hc, hq⟩
    · rw [hq]
      refine h.made hlt rfl List.length_append rfl ?_ rfl
      exact isOpen_append (l := ⟨d, .fresh r.settings.bufferSize⟩) rfl
    · rw [hq]
      have hopen := isOpen_append (r := r) (q := { r with links := r.links ++ [⟨d, c⟩] }) rfl
      simp only [hc, Bool.not_true] at hopen
      rw [update_isOpen_eq_self (isOpen_eq_false_of_none r.link?_length)] at hopen
      exact h.refused hlt rfl List.length_append rfl hopen rfl

/-- Closing a connection, but for its being idle. -/
theorem balanced_closeLink (h : r.Balanced admissions) (id : Nat) {closer : Closer}
    (hcloser : closer ≠ .timer) : (r.closeLink id closer).2.Balanced admissions := by
  rcases r.closeLink_cases id closer with ⟨-, hq⟩ | ⟨l, hl, hc, hq⟩
  · rw [hq]
    exact h
  · have hwas : r.isOpen id = true := isOpen_eq_true_iff.2 ⟨l, hl, hc⟩
    have hopen := isOpen_update hl (r.shutLink l) r.countClosed
    rw [closed_shutLink] at hopen
    have hstats : r.countClosed = { r.stats with
        live := r.stats.live.decrement 1
        requests := r.stats.requests
        timeouts := if closer = .timer then r.stats.timeouts.increment 1
          else r.stats.timeouts } := by
      rw [if_neg hcloser]
      rfl
    rw [hq]
    exact h.shut rfl (List.length_set ..) rfl hwas hopen hstats

theorem balanced_expireOne (h : r.Balanced admissions) (id : Nat) :
    (r.expireOne id).Balanced admissions := by
  cases hl : r.link? id with
  | none =>
      rw [expireOne, hl]
      exact h
  | some l =>
      rcases r.closeLink_cases id .timer with ⟨-, hq⟩ | ⟨m, hm, hc, hq⟩
      · rw [expireOne, hl]
        simp only [hq]
        exact h.congr rfl rfl rfl rfl rfl
      · have hwas : r.isOpen id = true := isOpen_eq_true_iff.2 ⟨m, hm, hc⟩
        have hopen := isOpen_update hm (r.shutLink m) r.countClosed
        rw [closed_shutLink] at hopen
        rw [expireOne, hl]
        simp only [hq]
        exact h.shut rfl (List.length_set ..) rfl hwas hopen rfl

theorem balanced_applyOne (h : r.Balanced admissions) (n : ClosedNotice) :
    (r.applyOne n).Balanced admissions := by
  rw [applyOne_eq]
  exact h.congr rfl rfl rfl rfl rfl

theorem balanced_extendTimer (h : r.Balanced admissions) (now id : Nat) :
    (r.extendTimer now id).Balanced admissions := by
  rw [extendTimer]
  split
  · exact h
  · exact h.congr rfl rfl rfl rfl rfl

theorem balanced_dispatch (h : r.Balanced admissions) (now : Nat) (e : Event) :
    (r.dispatch now e).2.Balanced admissions := by
  rcases r.dispatch_cases now e with ⟨-, hq⟩ | ⟨id, -, ⟨-, hq⟩ | ⟨d, -, -, hq⟩⟩
  · rw [hq]
    exact h
  · rw [hq]
    cases hl : r.link? id with
    | none =>
        rw [hangUp, hl]
        exact h
    | some l =>
        rw [hangUp_eq hl]
        exact balanced_closeLink (balanced_applyOne h _) id (by decide)
  · rw [hq]
    exact balanced_extendTimer h now id

theorem balanced_perform (h : r.Balanced admissions) (files : FileTree) (job : Job)
    (conduct : Conduct) : (r.perform files job conduct).2.Balanced admissions := by
  rcases r.perform_cases files job conduct with ⟨-, hq, -⟩ | ⟨l, t, hl, hc, ht, -, hend⟩
  · rw [hq]
    exact h
  · have hturn := Connection.turn_task hc r.settings.site files job.direction conduct r.stats
    have hopen := isOpen_update hl t.connection t.stats
    have hwas : r.isOpen job.id = true := isOpen_eq_true_iff.2 ⟨l, hl, hc⟩
    rw [← ht] at hturn
    obtain ⟨requests, ⟨hclosed, -, hstats⟩ | ⟨hclosed, -, hstats⟩⟩ := hturn
    · obtain ⟨hfalse, -⟩ | ⟨-, hq⟩ := hend
      · rw [hclosed] at hfalse
        cases hfalse
      · rw [hq]
        rw [hclosed] at hopen
        exact h.shut rfl (List.length_set ..) rfl hwas hopen hstats
    · obtain ⟨-, hq⟩ | ⟨htrue, -⟩ := hend
      · rw [hq]
        rw [hclosed, Bool.not_false, ← hwas, Function.update_eq_self] at hopen
        exact h.congr rfl (List.length_set ..) rfl hopen hstats
      · rw [hclosed] at htrue
        cases htrue

theorem balanced_unwind (h : r.Balanced admissions) {job : Job} {conduct : Conduct}
    (hq : r.unwind job conduct = some q) : q.Balanced admissions := by
  obtain ⟨hopen, -⟩ := isOpen_unwind hq
  obtain ⟨l, c, -, -, -, rfl⟩ := unwind_cases hq
  exact h.congr rfl (List.length_set ..) rfl hopen rfl

theorem balanced_expireNext (h : r.Balanced admissions) {now : Nat}
    (hq : r.expireNext now = some q) : q.Balanced admissions := by
  obtain ⟨⟨n, rest⟩, -, rfl⟩ := Option.map_eq_some_iff.1 hq
  simp only [expireOne_timers]
  exact (balanced_expireOne h n.action).congr rfl rfl rfl rfl rfl

theorem balanced_applyNext (h : r.Balanced admissions) (hq : r.applyNext = some q) :
    q.Balanced admissions := by
  rw [applyNext] at hq
  split at hq
  · cases hq
  · cases hq
    rw [applyOne_notices]
    exact (balanced_applyOne h _).congr rfl rfl rfl rfl rfl

/-- Every step keeps the account. -/
theorem balanced_step (h : r.Balanced admissions) {s : Step} (hs : r.step s = some q) :
    q.Balanced (admissions ++ (r.admission? s).toList) := by
  cases s with
  | accept now d registers =>
      rw [step] at hs
      split at hs
      · cases hs
      · cases hs
        exact balanced_accept h now d registers
  | dispatch now e =>
      cases hs
      simpa [admission?] using balanced_dispatch h now e
  | perform files job conduct =>
      cases hs
      simpa [admission?] using balanced_perform h files job conduct
  | unwind job conduct => simpa [admission?] using balanced_unwind h hs
  | expireNext now => simpa [admission?] using balanced_expireNext h hs
  | expire now =>
      cases hs
      have hall : (r.expire now).2.Balanced admissions :=
        expire_induction (P := fun p => p.Balanced admissions)
          (fun _ _ h hs => balanced_expireNext h hs) h
      simpa [admission?] using hall
  | applyNext => simpa [admission?] using balanced_applyNext h hs
  | applyClosed =>
      cases hs
      have hall := applyClosed_induction (P := fun p => p.Balanced admissions)
        (fun _ _ h hs => balanced_applyNext h hs) h
      simpa [admission?] using hall.1

theorem balanced_of_logged {settings : ReactorSettings} (h : Logged settings admissions r) :
    r.Balanced admissions := by
  induction h with
  | start => exact balanced_fresh settings
  | step s _ hs ih => exact balanced_step ih hs

end Steps

section Answers

/-- A call that closes a connection succeeds while none has. -/
theorem fst_closeLink (h : r.Balanced admissions) (id : Nat) (closer : Closer) :
    (r.closeLink id closer).1 = true ↔
      id < r.links.length ∧ id ∉ r.closings.map Prod.fst := by
  rw [h.mem_closings_iff]
  rcases r.closeLink_cases id closer with ⟨hclosed, hq⟩ | ⟨l, hl, hc, hq⟩
  · rw [hq, hclosed]
    simp
  · have hopen : r.isOpen id = true := isOpen_eq_true_iff.2 ⟨l, hl, hc⟩
    rw [hq, hopen]
    simp [lt_length_of_isOpen hopen]

/-- A client is turned away when the limit is reached, and only then. -/
theorem fst_accept (h : r.Balanced admissions) (now : Nat) (d : Int) (registers : Bool) :
    (r.accept now d registers).1 = .rejected ↔
      r.stats.live.value = r.settings.maxConnections := by
  have hle : r.stats.live.value ≤ r.settings.maxConnections := UInt64.le_iff_toNat_le.2 h.live_le
  rw [accept]
  split
  · rename_i hfull
    rw [isFull, decide_eq_true_iff] at hfull
    exact ⟨fun _ => UInt64.le_antisymm hle hfull, fun _ => rfl⟩
  · rename_i hfull
    rw [isFull, decide_eq_true_iff] at hfull
    constructor
    · rcases r.connect_cases now d registers with ⟨-, hq⟩ | ⟨-, c, -, hq⟩
      · rw [hq]
        intro hrejected
        cases hrejected
      · rw [hq]
        intro hrejected
        cases hrejected
    · intro heq
      exact absurd (heq ▸ UInt64.le_refl _) hfull

end Answers

section Stopping

theorem logged_performs {settings : ReactorSettings} (h : Logged settings admissions r)
    (rest : List (FileTree × Job × Conduct)) :
    Logged settings admissions (rest.foldl (fun r t => (r.perform t.1 t.2.1 t.2.2).2) r) := by
  induction rest generalizing r with
  | nil => exact h
  | cons t rest ih =>
      rw [List.foldl_cons]
      apply ih
      have hstep := Logged.step (.perform t.1 t.2.1 t.2.2) h rfl
      simpa [admission?] using hstep

/-- The connections of some rows, one after the other. -/
def closeRows (r : Reactor) (rows : List (Int × Nat)) : Reactor :=
  rows.foldl (fun r row => (r.closeLink row.2 .stopping).2) r

theorem closeRows_cons (r : Reactor) (row : Int × Nat) (rows : List (Int × Nat)) :
    r.closeRows (row :: rows) = (r.closeLink row.2 .stopping).2.closeRows rows := rfl

theorem balanced_closeRows (h : r.Balanced admissions) (rows : List (Int × Nat)) :
    (r.closeRows rows).Balanced admissions := by
  induction rows generalizing r with
  | nil => exact h
  | cons row rows ih =>
      rw [closeRows_cons]
      exact ih (balanced_closeLink h row.2 (by decide))

/-- What is open then was open before, and has none of the rows. -/
theorem isOpen_closeRows (rows : List (Int × Nat)) (h : (r.closeRows rows).isOpen id = true) :
    r.isOpen id = true ∧ id ∉ rows.map Prod.snd := by
  induction rows generalizing r with
  | nil => exact ⟨h, List.not_mem_nil⟩
  | cons row rows ih =>
      rw [closeRows_cons] at h
      obtain ⟨hopen, hrows⟩ := ih h
      obtain ⟨hne, hopen⟩ := isOpen_of_shut (isOpen_closeLink r row.2 .stopping) hopen
      refine ⟨hopen, ?_⟩
      rw [List.map_cons, List.mem_cons]
      rintro (heq | hmem)
      · exact hne heq
      · exact hrows hmem

/-- Nothing is left of the connections. -/
structure Ended (r : Reactor) : Prop where
  closed : ∀ l ∈ r.links, l.connection.closed = true
  live : r.stats.live.value = 0
  table : r.table = []
  timers : r.timers = .empty

theorem stop_eq (r : Reactor) :
    r.stop = { r.closeRows r.table with table := [], timers := .empty, notices := [] } := rfl

theorem balanced_stop (h : r.Balanced admissions) : r.stop.Balanced admissions := by
  rw [stop_eq]
  exact (balanced_closeRows h r.table).congr rfl rfl rfl rfl rfl

/-- Every open connection is in the table, so stopping closes them all. -/
theorem isOpen_stop (h : r.Kept) (id : Nat) : r.stop.isOpen id = false := by
  rw [← Bool.not_eq_true]
  intro hopen
  obtain ⟨hopen, hrows⟩ := isOpen_closeRows r.table hopen
  obtain ⟨d, hd⟩ := exists_descriptor?_of_isOpen hopen
  have hrow := mem_of_occupant? (h.seated id d hopen hd)
  exact hrows (List.mem_map.2 ⟨_, hrow, rfl⟩)

theorem ended_stop (hk : r.Kept) (hb : r.Balanced admissions) : r.stop.Ended := by
  have hopen := isOpen_stop hk
  refine ⟨?_, ?_, rfl, rfl⟩
  · intro l hl
    obtain ⟨id, hid⟩ := List.mem_iff_getElem?.1 hl
    have hclosed := hopen id
    rw [isOpen_eq hid, Bool.not_eq_false'] at hclosed
    exact hclosed
  · have hnone : r.stop.openIds = ∅ := by
      ext id
      rw [mem_openIds, hopen]
      simp
    apply UInt64.toNat_inj.1
    rw [(balanced_stop hb).live, hnone]
    rfl

/-- Whatever a reactor has been through, its account is right, and when it returns nothing is left
of the connections and every one of them was closed once. -/
theorem accounted_of_logged {settings : ReactorSettings} (h : Logged settings admissions r) :
    r.settings = settings ∧ r.Balanced admissions ∧
      (∀ id, r.isOpen id = true → 0 < r.stats.live.value.toNat) ∧
      (∀ id closer, (r.closeLink id closer).1 = true ↔
        id < r.links.length ∧ id ∉ r.closings.map Prod.fst) ∧
      (∀ now d registers, (r.accept now d registers).1 = .rejected ↔
        r.stats.live.value = settings.maxConnections) ∧
      ∀ result q, Returned r result q → q.Balanced admissions ∧ q.Ended := by
  have hbalanced := balanced_of_logged h
  have hsettings := settings_of_reachable h.reachable
  refine ⟨hsettings, hbalanced, fun _ => hbalanced.live_pos, fst_closeLink hbalanced, ?_, ?_⟩
  · intro now d registers
    rw [← hsettings]
    exact fst_accept hbalanced now d registers
  · intro result q hq
    have hwound (rest : List (FileTree × Job × Conduct)) :
        (r.windUp rest).Balanced admissions ∧ (r.windUp rest).Ended := by
      have hrest := logged_performs h rest
      exact ⟨balanced_stop (balanced_of_logged hrest),
        ended_stop (kept_of_reachable hrest.reachable) (balanced_of_logged hrest)⟩
    cases hq with
    | shutDown rest => exact hwound rest
    | pollFailed rest e => exact hwound rest

/-- One client may be connected at a time. -/
def narrow : ReactorSettings := ⟨⟨[], .empty⟩, some 10, 1, 64⟩

/-- One client is connected, and a second one has come. -/
def filled : Reactor := (((fresh narrow).accept 0 5 true).2.accept 1 6 true).2

theorem logged_filled : Logged narrow [.admitted 0, .rejected] filled := by
  have hfresh : Logged narrow [] (fresh narrow) := .start
  have hlogged := Logged.step (.accept 1 6 true) (Logged.step (.accept 0 5 true) hfresh rfl) rfl
  have hadmissions : ([] ++ ((fresh narrow).admission? (.accept 0 5 true)).toList) ++
      (((fresh narrow).accept 0 5 true).2.admission? (.accept 1 6 true)).toList =
        [.admitted 0, .rejected] := by
    decide +kernel
  rw [← hadmissions]
  exact hlogged

/-- The second client was turned away, and the server that is stopped has closed one connection. -/
theorem accounted_filled :
    filled.Balanced [.admitted 0, .rejected] ∧ filled.stats.rejected.value = 1 ∧
      ∀ result q, Returned filled result q → q.Balanced [.admitted 0, .rejected] ∧ q.Ended := by
  obtain ⟨-, hbalanced, -, -, -, hreturned⟩ := accounted_of_logged logged_filled
  exact ⟨hbalanced, hbalanced.rejected, hreturned⟩

end Stopping

end Reactor

end HttpServer
