import HttpServer.Proofs.Reactor.Oneshot

/-!
# What becomes of a connection whose handler panics

The connections that are left behind in a run are those of the jobs whose handlers panicked. Such a
connection is in nobody's hand, so no step reads from it, writes to it or closes it, except that its
idle timer may expire: as long as it is open it is as the handler left it.

In a run without panics nothing is left behind, and every open connection is in one situation.
-/

namespace HttpServer

namespace Handoff

variable {settings : ReactorSettings} {h k : Handoff} {id : Nat}

section Marks

/-! Only a panic leaves a connection behind. -/

theorem accept_frame (h : Handoff) (now : Nat) (d : Int) (registers : Bool) :
    (h.accept now d registers).2.reactor = (h.reactor.accept now d registers).2 ∧
      (h.accept now d registers).2.abandoned = h.abandoned := by
  rw [Handoff.accept]
  generalize h.reactor.accept now d registers = admitted
  obtain ⟨admission, q⟩ := admitted
  cases admission <;> exact ⟨rfl, rfl⟩

theorem report_frame {events : List Event} (hk : h.report events = some k) :
    k.reactor = h.reactor ∧ k.abandoned = h.abandoned := by
  induction events generalizing h with
  | nil =>
      cases hk
      exact ⟨rfl, rfl⟩
  | cons e rest ih =>
      rw [Handoff.report] at hk
      split at hk
      · cases hk
      · split at hk
        · obtain ⟨hreactor, habandoned⟩ := ih hk
          exact ⟨hreactor, habandoned⟩
        · cases hk

theorem complete_frame {files : FileTree} {job : Job} {conduct : Conduct}
    (hk : (h.complete files job conduct).map Prod.snd = some k) :
    job ∈ h.running ∧ k.reactor = (h.reactor.perform files job conduct).2 ∧
      k.abandoned = h.abandoned := by
  rw [Handoff.complete] at hk
  split at hk
  · rename_i hj
    rw [Option.map_some] at hk
    cases hk
    refine ⟨hj, ?_⟩
    split <;> exact ⟨rfl, rfl⟩
  · cases hk

/-- The connection that a step leaves behind. -/
def Step.forsaken? : Step → Option Nat
  | .unwind job _ => some job.id
  | _ => none

theorem abandoned_step {s : Step} (hs : h.step s = some k) :
    k.abandoned = s.forsaken?.toList ++ h.abandoned := by
  cases s with
  | accept now d registers =>
      obtain ⟨-, rfl⟩ := of_step_accept hs
      exact (accept_frame h now d registers).2
  | poll events => exact (report_frame (of_poll hs).2).2
  | dispatch now =>
      obtain ⟨p, rest, -, rfl⟩ := of_dispatch hs
      rfl
  | take =>
      obtain ⟨job, rest, -, rfl⟩ := of_take hs
      rfl
  | complete files job conduct => exact (complete_frame hs).2.2
  | unwind job conduct =>
      obtain ⟨-, q, -, rfl⟩ := of_unwind hs
      rfl
  | leave job =>
      obtain rfl := of_leave hs
      rfl
  | expireNext now =>
      obtain ⟨-, q, -, rfl⟩ := of_expireNext hs
      rfl
  | expire now =>
      obtain ⟨-, rfl⟩ := of_expire hs
      rfl
  | applyNext =>
      obtain ⟨q, -, rfl⟩ := of_applyNext hs
      rfl
  | applyClosed =>
      obtain rfl := of_applyClosed hs
      rfl

end Marks

section Steps

/-- A connection that was left behind is not the one that a report is for. -/
theorem Handed.ne_of_batch (hh : h.Handed settings) (hid : id ∈ h.abandoned) {p : Report}
    {rest : List Report} (hb : h.batch = p :: rest) : id ≠ p.id := by
  rintro rfl
  exact (hh.placed.unbatch hb).2 (mem_tokens_of_abandoned hid)

/-- A connection that was left behind is not the one that a job is of. -/
theorem Handed.ne_of_running (hh : h.Handed settings) (hid : id ∈ h.abandoned) {job : Job}
    (hj : job ∈ h.running) : id ≠ job.id := by
  rintro rfl
  exact (hh.placed.vacate hj).2 (mem_tokens_of_abandoned hid)

theorem Handed.link?_accept (hh : h.Handed settings) (hid : id ∈ h.abandoned) (now : Nat) (d : Int)
    (registers : Bool) :
    (h.reactor.accept now d registers).2.link? id = h.reactor.link? id := by
  have hne : id ≠ h.reactor.links.length := Nat.ne_of_lt (hh.placed.abandoned id hid)
  rw [Reactor.accept]
  split
  · rfl
  · rcases h.reactor.connect_cases now d registers with ⟨-, hq⟩ | ⟨-, c, -, hq⟩
    · rw [hq, Reactor.link?_append rfl, Function.update_of_ne hne]
    · rw [hq, Reactor.link?_append rfl, Function.update_of_ne hne]

theorem Handed.link?_dispatch (hh : h.Handed settings) (hid : id ∈ h.abandoned) (now : Nat)
    {p : Report} {rest : List Report} (hb : h.batch = p :: rest) :
    (h.reactor.dispatch now p.event).2.link? id = h.reactor.link? id := by
  rcases h.reactor.dispatch_cases now p.event with ⟨-, hq⟩ | ⟨x, hx, ⟨-, hq⟩ | ⟨d, -, -, hq⟩⟩
  · rw [hq]
  · rw [hh.placed.occupant?_eq (hb ▸ List.mem_cons_self)] at hx
    obtain rfl := Option.some.inj hx
    rw [hq]
    exact Reactor.link?_hangUp_of_ne h.reactor (hh.ne_of_batch hid hb)
  · rw [hq, Reactor.link?, Reactor.links_extendTimer]
    rfl

/-- A step leaves a connection alone that was left behind, unless it lets timers expire, which may
close the connection. -/
theorem Handed.spared (hh : h.Handed settings) (hid : id ∈ h.abandoned) {s : Step}
    (hs : h.step s = some k) :
    k.reactor.link? id = h.reactor.link? id ∨
      k.reactor.isOpen id = false ∧ ∃ now, s = .expireNext now ∨ s = .expire now := by
  have hlinks {q : Reactor} (hq : q.links = h.reactor.links) : q.link? id = h.reactor.link? id := by
    rw [Reactor.link?, Reactor.link?, hq]
  cases s with
  | accept now d registers =>
      obtain ⟨-, rfl⟩ := of_step_accept hs
      rw [(accept_frame h now d registers).1]
      exact Or.inl (hh.link?_accept hid now d registers)
  | poll events =>
      rw [(report_frame (of_poll hs).2).1]
      exact Or.inl rfl
  | dispatch now =>
      obtain ⟨p, rest, hb, rfl⟩ := of_dispatch hs
      exact Or.inl (hh.link?_dispatch hid now hb)
  | take =>
      obtain ⟨job, rest, -, rfl⟩ := of_take hs
      exact Or.inl rfl
  | complete files job conduct =>
      obtain ⟨hj, hk, -⟩ := complete_frame hs
      rw [hk]
      exact Or.inl
        (Reactor.link?_perform_of_ne h.reactor files conduct (hh.ne_of_running hid hj))
  | unwind job conduct =>
      obtain ⟨hj, q, hq, rfl⟩ := of_unwind hs
      exact Or.inl (Reactor.link?_unwind_of_ne hq (hh.ne_of_running hid hj))
  | leave job =>
      obtain rfl := of_leave hs
      exact Or.inl rfl
  | expireNext now =>
      obtain ⟨-, q, hq, rfl⟩ := of_expireNext hs
      refine ((Reactor.narrows_expireNext hq).link?_eq_or id).imp_right ?_
      exact fun hc => ⟨hc, now, Or.inl rfl⟩
  | expire now =>
      obtain ⟨-, rfl⟩ := of_expire hs
      refine ((Reactor.narrows_expire h.reactor now).link?_eq_or id).imp_right ?_
      exact fun hc => ⟨hc, now, Or.inr rfl⟩
  | applyNext =>
      obtain ⟨q, hq, rfl⟩ := of_applyNext hs
      exact Or.inl (hlinks (Reactor.links_applyNext hq))
  | applyClosed =>
      obtain rfl := of_applyClosed hs
      exact Or.inl (hlinks (Reactor.links_applyClosed h.reactor))

end Steps

section Runs

variable {steps : List Step}

theorem run_cons_eq_some_iff {s : Step} {rest : List Step} :
    h.run (s :: rest) = some k ↔ ∃ q, h.step s = some q ∧ q.run rest = some k := by
  rw [run, List.foldlM_cons]
  exact Option.bind_eq_some_iff

/-- What a run leaves behind, the last connection first. -/
theorem abandoned_run (hk : h.run steps = some k) :
    k.abandoned = (steps.filterMap Step.forsaken?).reverse ++ h.abandoned := by
  induction steps generalizing h with
  | nil =>
      cases hk
      rfl
  | cons s rest ih =>
      obtain ⟨q, hq, hk⟩ := run_cons_eq_some_iff.1 hk
      rw [ih hk, abandoned_step hq, List.filterMap_cons]
      cases s.forsaken? with
      | none => rfl
      | some x => simp

/-- A connection that was left behind stays so, and as it is, until a timer closes it. -/
theorem spared_of_run (hr : Reachable settings h) (hid : id ∈ h.abandoned)
    (hk : h.run steps = some k) :
    id ∈ k.abandoned ∧ (k.reactor.link? id = h.reactor.link? id ∨
      k.reactor.isOpen id = false ∧ ∃ now, .expireNext now ∈ steps ∨ .expire now ∈ steps) := by
  refine ⟨abandoned_run hk ▸ List.mem_append_right _ hid, ?_⟩
  induction steps generalizing h with
  | nil =>
      cases hk
      exact Or.inl rfl
  | cons s rest ih =>
      obtain ⟨q, hq, hk⟩ := run_cons_eq_some_iff.1 hk
      have hqid : id ∈ q.abandoned := abandoned_step hq ▸ List.mem_append_right _ hid
      rcases ih (.step s hr hq) hqid hk with hlink | ⟨hc, now, hnow⟩
      · rcases (handed_of_reachable hr).spared hid hq with hstep | ⟨hc, now, hnow⟩
        · exact Or.inl (hlink.trans hstep)
        · refine Or.inr ⟨?_, now, ?_⟩
          · rw [Reactor.isOpen, hlink]
            exact hc
          · rcases hnow with rfl | rfl
            · exact Or.inl List.mem_cons_self
            · exact Or.inr List.mem_cons_self
      · exact Or.inr ⟨hc, now, hnow.imp (List.mem_cons_of_mem s) (List.mem_cons_of_mem s)⟩

end Runs

end Handoff

end HttpServer
