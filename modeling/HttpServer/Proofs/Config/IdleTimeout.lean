import HttpServer.Config
import Mathlib.Algebra.Group.Nat.Defs

/-!
# Which idle timeouts are kept

A configuration keeps an idle timeout as whole milliseconds in 64 bits, and zero switches expiry
off. So a timeout is kept up to less than a millisecond if it is a millisecond at least and its
milliseconds fit. Below a millisecond it is lost, and expiry is off. Beyond 64 bits only the rest of
its milliseconds is kept, which may be anything: `idleTimeout_slight_and_vast` has one of each.
-/

namespace HttpServer

namespace Duration

/-- A span of whole milliseconds is as long as it says. -/
theorem toNanos_ofMillis (n : UInt64) : (ofMillis n).toNanos = n.toNat * nanosPerMilli := by
  have hn := n.toNat_lt
  have hseconds : (UInt64.ofNat (n.toNat / 1000)).toNat = n.toNat / 1000 := by
    rw [UInt64.toNat_ofNat']
    omega
  have hnanos : (UInt32.ofNat (n.toNat % 1000 * (nanosPerSecond / 1000))).toNat =
      n.toNat % 1000 * nanosPerMilli := by
    rw [UInt32.toNat_ofNat', nanosPerSecond, nanosPerMilli]
    omega
  have hsplit : (ofMillis n).toNanos =
      n.toNat / 1000 * nanosPerSecond + n.toNat % 1000 * nanosPerMilli := by
    rw [← hseconds, ← hnanos]
    rfl
  rw [hsplit, nanosPerSecond, nanosPerMilli]
  omega

/-- The span `t` is the span `d` up to less than a millisecond. -/
structure Rounds (d t : Duration) : Prop where
  le : t.toNanos ≤ d.toNanos
  lt_add : d.toNanos < t.toNanos + nanosPerMilli

end Duration

namespace ServerConfig

variable {c : ServerConfig} {d t : Duration}

theorem idleTimeout_withIdleTimeout (c : ServerConfig) (d : Duration) :
    (c.withIdleTimeout d).idleTimeout =
      if d.toMillis % 2 ^ 64 = 0 then none
      else some (Duration.ofMillis (UInt64.ofNat d.toMillis)) := by
  have hzero : UInt64.ofNat d.toMillis = 0 ↔ d.toMillis % 2 ^ 64 = 0 :=
    UInt64.ofNat_eq_iff_mod_eq_toNat d.toMillis 0
  by_cases h : d.toMillis % 2 ^ 64 = 0
  · rw [if_pos h]
    exact if_pos (hzero.2 h)
  · rw [if_neg h]
    exact if_neg (mt hzero.1 h)

theorem idleTimeout_eq_none_iff :
    (c.withIdleTimeout d).idleTimeout = none ↔ 2 ^ 64 ∣ d.toMillis := by
  rw [idleTimeout_withIdleTimeout, Nat.dvd_iff_mod_eq_zero, ite_eq_left_iff]
  simp

theorem toNanos_of_idleTimeout (h : (c.withIdleTimeout d).idleTimeout = some t) :
    t.toNanos = d.toMillis % 2 ^ 64 * nanosPerMilli := by
  rw [idleTimeout_withIdleTimeout, Option.ite_none_left_eq_some] at h
  obtain ⟨-, h⟩ := h
  rw [← Option.some.inj h, Duration.toNanos_ofMillis, UInt64.toNat_ofNat']

/-- Where the milliseconds fit, a timeout is kept up to less than one. -/
theorem rounds_of_idleTimeout (hd : d.toMillis < 2 ^ 64)
    (h : (c.withIdleTimeout d).idleTimeout = some t) : d.Rounds t := by
  have ht := toNanos_of_idleTimeout h
  rw [Nat.mod_eq_of_lt hd, d.toMillis_eq] at ht
  refine ⟨?_, ?_⟩
  · rw [ht]
    exact Nat.div_mul_le_self _ _
  · rw [ht]
    exact Nat.lt_div_mul_add (by decide)

theorem idleTimeout_mono {e u : Duration} (hd : d.toMillis < 2 ^ 64) (hle : e.toNanos ≤ d.toNanos)
    (ht : (c.withIdleTimeout d).idleTimeout = some t)
    (hu : (c.withIdleTimeout e).idleTimeout = some u) : u.toNanos ≤ t.toNanos := by
  have hmillis : e.toMillis ≤ d.toMillis := by
    rw [e.toMillis_eq, d.toMillis_eq]
    exact Nat.div_le_div_right hle
  rw [toNanos_of_idleTimeout ht, toNanos_of_idleTimeout hu, Nat.mod_eq_of_lt hd,
    Nat.mod_eq_of_lt (Nat.lt_of_le_of_lt hmillis hd)]
  exact Nat.mul_le_mul_right _ hmillis

/-- Expiry is off exactly if the lowest 64 bits of the whole milliseconds are zero, and otherwise
the timeout is what these bits say. Where all milliseconds fit, expiry is off exactly below a
millisecond, a timeout is kept up to less than a millisecond, and a shorter one is not kept as a
longer one. -/
theorem idleTimeout_kept (c : ServerConfig) (d : Duration) :
    ((c.withIdleTimeout d).idleTimeout = none ↔ 2 ^ 64 ∣ d.toMillis) ∧
    (∀ t, (c.withIdleTimeout d).idleTimeout = some t →
      t.toNanos = d.toMillis % 2 ^ 64 * nanosPerMilli) ∧
    (d.toMillis < 2 ^ 64 →
      ((c.withIdleTimeout d).idleTimeout = none ↔ d.toNanos < nanosPerMilli) ∧
      ∀ t, (c.withIdleTimeout d).idleTimeout = some t → d.Rounds t ∧
        ∀ e u, e.toNanos ≤ d.toNanos → (c.withIdleTimeout e).idleTimeout = some u →
          u.toNanos ≤ t.toNanos) := by
  refine ⟨idleTimeout_eq_none_iff, fun t => toNanos_of_idleTimeout, fun hd => ⟨?_, ?_⟩⟩
  · rw [idleTimeout_eq_none_iff, Nat.dvd_iff_mod_eq_zero, Nat.mod_eq_of_lt hd, d.toMillis_eq,
      Nat.div_eq_zero_iff_lt (by decide)]
  · intro t ht
    exact ⟨rounds_of_idleTimeout hd ht, fun e u hle hu => idleTimeout_mono hd hle ht hu⟩

/-- A millisecond and a half is kept as a millisecond. -/
theorem idleTimeout_kept_milli :
    ∃ t, ((default 1).withIdleTimeout (.ofMicros 1500)).idleTimeout = some t ∧
      (Duration.ofMicros 1500).toMillis < 2 ^ 64 ∧ (Duration.ofMicros 1500).Rounds t ∧
      t.toNanos = nanosPerMilli := by
  have hkept : ((default 1).withIdleTimeout (.ofMicros 1500)).idleTimeout =
      some (.ofMillis 1) := by
    decide +kernel
  obtain ⟨-, hnanos, hrounds⟩ := idleTimeout_kept (default 1) (.ofMicros 1500)
  have hfits : (Duration.ofMicros 1500).toMillis < 2 ^ 64 := by decide +kernel
  exact ⟨_, hkept, hfits, ((hrounds hfits).2 _ hkept).1, hnanos _ hkept⟩

/-- Half a millisecond is not zero, and switches expiry off. Of a span whose milliseconds need more
than 64 bits so little is kept that a timeout of one second is kept as a longer one. -/
theorem idleTimeout_slight_and_vast :
    ((Duration.ofMicros 500).toNanos ≠ 0 ∧
      ((default 1).withIdleTimeout (.ofMicros 500)).idleTimeout = none) ∧
    ∃ t u, ((default 1).withIdleTimeout (.ofSeconds 18446744073709552)).idleTimeout = some t ∧
      ((default 1).withIdleTimeout (.ofSeconds 1)).idleTimeout = some u ∧
      ¬ (Duration.ofSeconds 18446744073709552).Rounds t ∧
      (Duration.ofSeconds 1).toNanos ≤ (Duration.ofSeconds 18446744073709552).toNanos ∧
      ¬ u.toNanos ≤ t.toNanos := by
  refine ⟨by decide +kernel, .ofMillis 384, .ofMillis 1000, by decide +kernel, by decide +kernel,
    fun h => absurd h.lt_add (by decide +kernel), by decide +kernel, by decide +kernel⟩

end ServerConfig

end HttpServer
