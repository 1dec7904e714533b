import HttpServer.Proofs.Time.Strict
import Mathlib.Data.List.Induction

/-!
# A heap of timers is a finite map

`Entries` gives for an id its deadline and its action. A call changes entries by its `effect`,
which knows of no slots, and `Answers` says what it may answer; where deadlines are equal the order
of firing is open. `call` is the same call on a heap. After any calls, from no timers on, the heap
represents the entries that the effects lead to, its answer to any further call is one of those,
and no call looks at a slot that is not taken.
-/

namespace HttpServer

/-- Deadlines and actions by id. -/
abbrev Entries (α : Type) := Nat → Option (Nat × α)

/-- A call on a set of timers. `now` is the time that the call reads from the clock, or is given. -/
inductive TimerCall (α : Type) where
  | scheduleAt (id deadline : Nat) (action : α)
  | schedule (now id delay : Nat) (action : α)
  | adjust (now id delay : Nat)
  | cancel (id : Nat)
  | remove (id : Nat)
  | fireDue (now : Nat)
  | nextWait (now : Nat)
  | clear

/-- What a call tells. -/
inductive Told where
  | nothing
  | found (present : Bool)
  | count (fired : Nat)
  | wait (time : Option Nat)

/-- The actions that a call runs, in order, and what it tells. -/
structure TimerAnswer (α : Type) where
  ran : List α
  told : Told

/-- All due entries, each of them once, the earliest first. -/
structure Fires {α : Type} (m : Entries α) (now : Nat) (fired : List (Timer α)) : Prop where
  mem_iff : ∀ n, n ∈ fired ↔ m n.id = some (n.deadline, n.action) ∧ n.deadline ≤ now
  nodup : (fired.map Timer.id).Nodup
  sorted : fired.Pairwise fun a b => a.deadline ≤ b.deadline

/-- The time from `now` to the least deadline of some entries, all of which are later. -/
def IsWait {α : Type} (m : Entries α) (now : Nat) : Option Nat → Prop
  | none => ∀ id, m id = none
  | some w =>
    ∃ id e, m id = some e ∧ (∀ id' e', m id' = some e' → e.1 ≤ e'.1) ∧ now + w = e.1

namespace TimerCall

variable {α : Type}

/-- The entries that are later than `now`. -/
def later (m : Entries α) (now : Nat) : Entries α :=
  fun id => (m id).filter fun e => now < e.1

/-- What a call does to entries. -/
def effect : TimerCall α → Entries α → Entries α
  | .scheduleAt id deadline action, m => Function.update m id (some (deadline, action))
  | .schedule now id delay action, m => Function.update m id (some (now + delay, action))
  | .adjust now id delay, m =>
    Function.update m id ((m id).map fun e => (now + delay, e.2))
  | .cancel id, m => Function.update m id none
  | .remove id, m => Function.update m id none
  | .fireDue now, m => later m now
  | .nextWait now, m => later m now
  | .clear, _ => fun _ => none

/-- What a call may answer where there are some entries. -/
def Answers (m : Entries α) : TimerCall α → TimerAnswer α → Prop
  | .scheduleAt _ _ _, r => r = ⟨[], .nothing⟩
  | .schedule _ _ _ _, r => r = ⟨[], .nothing⟩
  | .adjust _ id _, r => r = ⟨[], .found (m id).isSome⟩
  | .cancel id, r => r = ⟨((m id).map Prod.snd).toList, .found (m id).isSome⟩
  | .remove id, r => r = ⟨[], .found (m id).isSome⟩
  | .fireDue now, r =>
    ∃ fired, Fires m now fired ∧ r = ⟨fired.map Timer.action, .count fired.length⟩
  | .nextWait now, r =>
    ∃ fired w, Fires m now fired ∧ IsWait (later m now) now w ∧
      r = ⟨fired.map Timer.action, .wait w⟩
  | .clear, r => r = ⟨[], .nothing⟩

end TimerCall

namespace TimerHeap

variable {α : Type} {s t : TimerHeap α}

/-- A call on a heap. -/
def call (t : TimerHeap α) : TimerCall α → TimerAnswer α × TimerHeap α
  | .scheduleAt id deadline action => (⟨[], .nothing⟩, t.scheduleAt id deadline action)
  | .schedule now id delay action => (⟨[], .nothing⟩, t.schedule now id delay action)
  | .adjust now id delay =>
    let (present, s) := t.adjust now id delay
    (⟨[], .found present⟩, s)
  | .cancel id =>
    let (action, s) := t.cancel id
    (⟨action.toList, .found action.isSome⟩, s)
  | .remove id =>
    let (present, s) := t.remove id
    (⟨[], .found present⟩, s)
  | .fireDue now =>
    let (fired, s) := t.fireDue now
    (⟨fired.map Timer.action, .count fired.length⟩, s)
  | .nextWait now =>
    let (fired, w, s) := t.nextWait now
    (⟨fired.map Timer.action, .wait w⟩, s)
  | .clear => (⟨[], .nothing⟩, t.clear)

namespace Strict

/-- A call on a heap that fails at a slot that is not taken. -/
def call (t : TimerHeap α) : TimerCall α → Option (TimerAnswer α × TimerHeap α)
  | .scheduleAt id deadline action =>
    (scheduleAt t id deadline action).map fun s => (⟨[], .nothing⟩, s)
  | .schedule now id delay action =>
    (scheduleAt t id (now + delay) action).map fun s => (⟨[], .nothing⟩, s)
  | .adjust now id delay =>
    (adjustTo t id (now + delay)).map fun r => (⟨[], .found r.1⟩, r.2)
  | .cancel id =>
    (take t id).map fun
      | some (n, s) => (⟨[n.action], .found true⟩, s)
      | none => (⟨[], .found false⟩, t)
  | .remove id =>
    (take t id).map fun
      | some (_, s) => (⟨[], .found true⟩, s)
      | none => (⟨[], .found false⟩, t)
  | .fireDue now =>
    (fireDue t now).map fun r => (⟨r.1.map Timer.action, .count r.1.length⟩, r.2)
  | .nextWait now =>
    (fireDue t now).map fun r =>
      (⟨r.1.map Timer.action, .wait (r.2.nodes[0]?.map fun n => n.deadline - now)⟩, r.2)
  | .clear => some (⟨[], .nothing⟩, t.clear)

theorem call_eq (h : t.Indexed) (c : TimerCall α) : call t c = some (t.call c) := by
  cases c with
  | scheduleAt id deadline action =>
      rw [call, scheduleAt_eq h]
      rfl
  | schedule now id delay action =>
      rw [call, scheduleAt_eq h]
      rfl
  | adjust now id delay =>
      rw [call, adjustTo_eq h]
      rfl
  | cancel id =>
      rw [call, take_eq h, TimerHeap.call, TimerHeap.cancel]
      cases t.take? id with
      | none => rfl
      | some r => rfl
  | remove id =>
      rw [call, take_eq h, TimerHeap.call, TimerHeap.remove]
      cases t.take? id with
      | none => rfl
      | some r => rfl
  | fireDue now =>
      rw [call, fireDue_eq]
      rfl
  | nextWait now =>
      rw [call, fireDue_eq]
      rfl
  | clear => rfl

end Strict

/-- What is found under each id. -/
def entries (t : TimerHeap α) : Entries α :=
  fun id => (t.find? id).map fun n => (n.deadline, n.action)

theorem Indexed.entries_eq_some_iff (h : t.Indexed) {id : Nat} {e : Nat × α} :
    t.entries id = some e ↔ (⟨id, e.1, e.2⟩ : Timer α) ∈ t.nodes := by
  unfold entries
  rw [Option.map_eq_some_iff]
  constructor
  · rintro ⟨n, hn, rfl⟩
    obtain ⟨hmem, rfl⟩ := h.find?_eq_some_iff.1 hn
    exact hmem
  · intro hmem
    exact ⟨_, h.find?_eq_some_iff.2 ⟨hmem, rfl⟩, rfl⟩

theorem Indexed.mem_nodes_iff_entries (h : t.Indexed) (n : Timer α) :
    n ∈ t.nodes ↔ t.entries n.id = some (n.deadline, n.action) := by
  rw [h.entries_eq_some_iff]

theorem isSome_entries (t : TimerHeap α) (id : Nat) :
    (t.entries id).isSome = (t.find? id).isSome :=
  Option.isSome_map

@[simp] theorem entries_empty : (empty : TimerHeap α).entries = fun _ => none := by
  funext id
  rw [entries, find?_empty]
  rfl

theorem entries_of_update {id : Nat} {o : Option (Timer α)}
    (h : s.find? = Function.update t.find? id o) :
    s.entries = Function.update t.entries id (o.map fun n => (n.deadline, n.action)) := by
  funext id'
  unfold entries
  rw [h]
  by_cases hid : id' = id
  · rw [hid, Function.update_self, Function.update_self]
  · rw [Function.update_of_ne hid, Function.update_of_ne hid]

section Fire

variable {now : Nat} {fired : List (Timer α)}

theorem Fired.mem_nodes_iff (h : Fired t now fired s) (n : Timer α) :
    n ∈ t.nodes ↔ n ∈ fired ∨ n ∈ s.nodes := by
  rw [Array.mem_def, Array.mem_def, ← h.perm.mem_iff, List.mem_append]

/-- What is left after firing are the later entries. -/
theorem Fired.entries_eq (h : Fired t now fired s) (ht : t.Indexed) :
    s.entries = TimerCall.later t.entries now := by
  funext id
  ext e
  unfold TimerCall.later
  rw [Option.filter_eq_some_iff, h.consistent.indexed.entries_eq_some_iff,
    ht.entries_eq_some_iff, h.mem_nodes_iff, decide_eq_true_iff]
  constructor
  · intro hmem
    exact ⟨Or.inr hmem, h.later _ hmem⟩
  · rintro ⟨hmem | hmem, hlater⟩
    · exact absurd (h.due _ hmem) (Nat.not_le.2 hlater)
    · exact hmem

theorem Fired.fires (h : Fired t now fired s) (ht : t.Indexed) : Fires t.entries now fired := by
  refine ⟨?_, ?_, h.sorted⟩
  · intro n
    rw [← ht.mem_nodes_iff_entries, h.mem_nodes_iff]
    constructor
    · intro hmem
      exact ⟨Or.inl hmem, h.due n hmem⟩
    · rintro ⟨hmem | hmem, hdue⟩
      · exact hmem
      · exact absurd hdue (Nat.not_le.2 (h.later n hmem))
  · have hnodup := (h.perm.map Timer.id).nodup_iff.2 ht.nodup_ids
    rw [List.map_append] at hnodup
    exact (List.nodup_append.1 hnodup).1

/-- After firing, the root tells the time that is left. -/
theorem Fired.isWait (h : Fired t now fired s) :
    IsWait s.entries now (s.nodes[0]?.map fun n => n.deadline - now) := by
  have hindexed := h.consistent.indexed
  cases hroot : s.nodes[0]? with
  | none =>
      intro id
      rw [Option.eq_none_iff_forall_ne_some]
      intro e he
      obtain ⟨slot, hslot⟩ := TimerHeap.mem_nodes_iff.1 (hindexed.entries_eq_some_iff.1 he)
      have hpos : 0 < s.size := Nat.lt_of_le_of_lt (Nat.zero_le slot) (lt_size_of_nodes_eq hslot)
      obtain ⟨n, hn⟩ := exists_nodes_eq hpos
      rw [hroot] at hn
      cases hn
  | some root =>
      have hmem : root ∈ s.nodes := TimerHeap.mem_nodes_iff.2 ⟨0, hroot⟩
      refine ⟨root.id, _, (hindexed.mem_nodes_iff_entries root).1 hmem, ?_, ?_⟩
      · intro id' e' he'
        obtain ⟨slot, hslot⟩ := TimerHeap.mem_nodes_iff.1 (hindexed.entries_eq_some_iff.1 he')
        exact h.consistent.ordered.root_le hroot hslot
      · exact Nat.add_sub_of_le (Nat.le_of_lt (h.later root hmem))

end Fire

/-- A heap shows the entries, and nothing else. -/
structure Represents (t : TimerHeap α) (m : Entries α) : Prop where
  entries_eq : t.entries = m
  size_eq : ∃ ids : List Nat, ids.Nodup ∧ (∀ id, id ∈ ids ↔ (m id).isSome = true) ∧
    t.size = ids.length
  isEmpty_iff : t.isEmpty = true ↔ ∀ id, m id = none
  contains_eq : ∀ id, t.contains id = (m id).isSome
  deadline?_eq : ∀ id, t.deadline? id = (m id).map Prod.fst

theorem Indexed.contains_eq (h : t.Indexed) (id : Nat) :
    t.contains id = (t.entries id).isSome := by
  rw [isSome_entries, TimerHeap.contains, Std.HashMap.contains_eq_isSome_getElem?]
  cases hs : t.slots[id]? with
  | none =>
      rw [h.find?_eq_none_iff.2 hs]
      rfl
  | some slot =>
      obtain ⟨n, hn, rfl⟩ := h.nodes_eq hs
      rw [h.find?_eq_some_iff.2 ⟨TimerHeap.mem_nodes_iff.2 ⟨slot, hn⟩, rfl⟩]
      rfl

theorem Indexed.represents (h : t.Indexed) : t.Represents t.entries := by
  refine ⟨rfl, ⟨t.nodes.toList.map Timer.id, h.nodup_ids, ?_, ?_⟩, ?_, h.contains_eq, ?_⟩
  · intro id
    rw [List.mem_map, Option.isSome_iff_exists]
    constructor
    · rintro ⟨n, hn, rfl⟩
      exact ⟨_, (h.mem_nodes_iff_entries n).1 (Array.mem_def.2 hn)⟩
    · rintro ⟨e, he⟩
      exact ⟨_, Array.mem_def.1 (h.entries_eq_some_iff.1 he), rfl⟩
  · rw [List.length_map]
    rfl
  · unfold isEmpty
    rw [beq_iff_eq]
    constructor
    · intro hzero id
      rw [Option.eq_none_iff_forall_ne_some]
      intro e he
      obtain ⟨slot, hslot⟩ := TimerHeap.mem_nodes_iff.1 (h.entries_eq_some_iff.1 he)
      have hlt := lt_size_of_nodes_eq hslot
      omega
    · intro hnone
      by_contra hne
      obtain ⟨n, hn⟩ := exists_nodes_eq (Nat.pos_of_ne_zero hne)
      have he := (h.mem_nodes_iff_entries n).1 (TimerHeap.mem_nodes_iff.2 ⟨0, hn⟩)
      rw [hnone] at he
      cases he
  · intro id
    unfold deadline? entries
    rw [Option.map_map]
    rfl

section Calls

theorem take?_entries_cases (h : t.Consistent) (id : Nat) :
    (∃ n r, t.take? id = some (n, r) ∧ t.entries id = some (n.deadline, n.action) ∧
      r.Consistent ∧ r.entries = Function.update t.entries id none) ∨
    (t.take? id = none ∧ t.entries id = none) := by
  rcases h.take?_cases id with ⟨n, r, hn, hr, hconsistent, hfind⟩ | ⟨hn, hr⟩
  · left
    refine ⟨n, r, hr, ?_, hconsistent, entries_of_update hfind⟩
    rw [entries, hn]
    rfl
  · right
    refine ⟨hr, ?_⟩
    rw [entries, hn]
    rfl

/-- One call keeps a heap consistent, changes its entries by the effect, and answers as it may. -/
theorem call_refines_effect (h : t.Consistent) (c : TimerCall α) :
    (t.call c).2.Consistent ∧ (t.call c).2.entries = c.effect t.entries ∧
      c.Answers t.entries (t.call c).1 := by
  cases c with
  | scheduleAt id deadline action =>
      obtain ⟨hconsistent, hfind⟩ := h.scheduleAt id deadline action
      exact ⟨hconsistent, entries_of_update hfind, rfl⟩
  | schedule now id delay action =>
      obtain ⟨hconsistent, hfind⟩ := h.scheduleAt id (now + delay) action
      exact ⟨hconsistent, entries_of_update hfind, rfl⟩
  | adjust now id delay =>
      obtain ⟨hpresent, hconsistent, hfind⟩ := h.adjustTo id (now + delay)
      refine ⟨hconsistent, (entries_of_update hfind).trans ?_, ?_⟩
      · rw [TimerCall.effect, entries, Option.map_map, Option.map_map]
        rfl
      · change (⟨[], .found (t.adjustTo id (now + delay)).1⟩ : TimerAnswer α) = _
        rw [hpresent, isSome_entries]
  | cancel id =>
      rw [call, TimerHeap.cancel, TimerCall.Answers, TimerCall.effect]
      rcases take?_entries_cases h id with ⟨n, r, hr, he, hconsistent, hentries⟩ | ⟨hr, he⟩
      · rw [hr, he]
        exact ⟨hconsistent, hentries, rfl⟩
      · rw [hr, he]
        refine ⟨h, ?_, rfl⟩
        rw [← he, Function.update_eq_self]
  | remove id =>
      rw [call, TimerHeap.remove, TimerCall.Answers, TimerCall.effect]
      rcases take?_entries_cases h id with ⟨n, r, hr, he, hconsistent, hentries⟩ | ⟨hr, he⟩
      · rw [hr, he]
        exact ⟨hconsistent, hentries, rfl⟩
      · rw [hr, he]
        refine ⟨h, ?_, rfl⟩
        rw [← he, Function.update_eq_self]
  | fireDue now =>
      have hfired := h.fireDue now
      exact ⟨hfired.consistent, hfired.entries_eq h.indexed, _, hfired.fires h.indexed, rfl⟩
  | nextWait now =>
      have hfired := h.fireDue now
      have hwait := hfired.isWait
      rw [hfired.entries_eq h.indexed] at hwait
      exact ⟨hfired.consistent, hfired.entries_eq h.indexed, _, _, hfired.fires h.indexed, hwait,
        rfl⟩
  | clear =>
      exact ⟨consistent_empty, entries_empty, rfl⟩

/-- The heap after some calls, from no timers on. -/
def afterCalls (calls : List (TimerCall α)) : TimerHeap α :=
  calls.foldl (fun t c => (t.call c).2) empty

/-- The entries after some calls, from none on. -/
def entriesAfter (calls : List (TimerCall α)) : Entries α :=
  calls.foldl (fun m c => c.effect m) fun _ => none

theorem consistent_afterCalls (calls : List (TimerCall α)) :
    (afterCalls calls).Consistent ∧ (afterCalls calls).entries = entriesAfter calls := by
  induction calls using List.reverseRecOn with
  | nil => exact ⟨consistent_empty, entries_empty⟩
  | append_singleton calls c ih =>
      obtain ⟨hconsistent, hentries, -⟩ := call_refines_effect ih.1 c
      rw [afterCalls, entriesAfter, List.foldl_append, List.foldl_append]
      refine ⟨hconsistent, hentries.trans ?_⟩
      rw [ih.2]
      rfl

/-- After any calls a heap is the map of its entries, answers as the map does, and every call comes
through without a look at a slot that is not taken. -/
theorem represents_entriesAfter (calls : List (TimerCall α)) :
    (afterCalls calls).Represents (entriesAfter calls) ∧
      (∀ c : TimerCall α, c.Answers (entriesAfter calls) ((afterCalls calls).call c).1) ∧
      (∀ c, Strict.call (afterCalls calls) c = some ((afterCalls calls).call c)) ∧
      ∀ id, Strict.deadline (afterCalls calls) id = some ((afterCalls calls).deadline? id) := by
  obtain ⟨hconsistent, hentries⟩ := consistent_afterCalls calls
  have hindexed := hconsistent.indexed
  rw [← hentries]
  refine ⟨hindexed.represents, ?_, Strict.call_eq hindexed, Strict.deadline_eq hindexed⟩
  intro c
  exact (call_refines_effect hconsistent c).2.2

example : ((afterCalls [.scheduleAt 1 5 'a', .scheduleAt 2 3 'b', .adjust 0 1 2]).call
    (.fireDue 4)).1.ran = ['a', 'b'] := by cbv

end Calls

end TimerHeap

end HttpServer
