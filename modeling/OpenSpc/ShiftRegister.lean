import Mathlib.Dynamics.PeriodicPts.Lemmas
import Mathlib.Tactic

/-!
# Linear shift registers

A register of `w` bits is clocked by a map that moves every bit one place down
and fills the top bit.  What leaves at the bottom is a stream of bits; the state
is a window of `w` bits of it, so that the state repeats exactly when the
stream does.  When the bit fed back is a sum of two bits of the window, the
stream satisfies a recurrence with three terms, and squaring the recurrence
doubles its distances.
-/

namespace ShiftRegister

/-! ## Recurrences with three terms -/

/-- The bit `p` places on is the sum of the bits `q` and `r` places on. -/
def Recurs (p q r : Nat) (b : Nat → Bool) : Prop := ∀ n, b (n + p) = (b (n + q) ^^ b (n + r))

section Recurrence

variable {p q r : Nat} {b : Nat → Bool}

/-- The square of a recurrence: the two mixed terms cancel. -/
theorem Recurs.double (h : Recurs p q r b) : Recurs (2 * p) (2 * q) (2 * r) b := by
  intro n
  have hq : b (n + p + q) = (b (n + 2 * q) ^^ b (n + q + r)) := by
    have hstep := h (n + q)
    rw [show n + p + q = n + q + p by omega, hstep, show n + q + q = n + 2 * q by omega]
  have hr : b (n + p + r) = (b (n + q + r) ^^ b (n + 2 * r)) := by
    have hstep := h (n + r)
    rw [show n + p + r = n + r + p by omega, hstep, show n + r + q = n + q + r by omega,
      show n + r + r = n + 2 * r by omega]
  calc b (n + 2 * p) = b (n + p + p) := by rw [show n + 2 * p = n + p + p by omega]
    _ = (b (n + p + q) ^^ b (n + p + r)) := h (n + p)
    _ = (b (n + 2 * q) ^^ b (n + 2 * r)) := by
        rw [hq, hr]
        cases b (n + q + r) <;> simp

theorem Recurs.pow (h : Recurs p q r b) (k : Nat) :
    Recurs (2 ^ k * p) (2 ^ k * q) (2 ^ k * r) b := by
  induction k with
  | zero => simpa using h
  | succ k ih =>
      have hdouble := ih.double
      rw [show 2 ^ (k + 1) * p = 2 * (2 ^ k * p) by ring,
        show 2 ^ (k + 1) * q = 2 * (2 ^ k * q) by ring,
        show 2 ^ (k + 1) * r = 2 * (2 ^ k * r) by ring]
      exact hdouble

/-- Every term moved `k` places on. -/
theorem Recurs.shift (h : Recurs p q r b) (k : Nat) : Recurs (p + k) (q + k) (r + k) b := by
  intro n
  have hstep := h (n + k)
  rw [show n + (p + k) = n + k + p by omega, show n + (q + k) = n + k + q by omega,
    show n + (r + k) = n + k + r by omega]
  exact hstep

/-- **The trinomial `x ^ 15 + x + 1`.**  In the powers `2 ^ k` its recurrence
reads `a (k + 4) = a (k + 1) + a k`, and that of exponent 15 is the identity:
the shift by one is undone by the recurrence itself. -/
theorem Recurs.period (h : Recurs 15 1 0 b) (n : Nat) : b (n + 32767) = b n := by
  have hpow (k : Nat) (m : Nat) : b (m + 2 ^ (k + 4)) = (b (m + 2 ^ (k + 1)) ^^ b (m + 2 ^ k)) := by
    have hk := (h.shift 1).pow k m
    rw [show 2 ^ (k + 4) = 2 ^ k * (15 + 1) by ring, show 2 ^ (k + 1) = 2 ^ k * (1 + 1) by ring]
    simpa using hk
  have hfrob (m : Nat) : b (m + 2 ^ 15) = b (m + 1) := by
    have h15 : b (m + 2 ^ 15) = (b (m + 2 ^ 9) ^^ b (m + 2 ^ 7)) := by
      rw [hpow 11 m, hpow 8 m, hpow 7 m]
      cases b (m + 2 ^ 8) <;> simp
    have h9 : b (m + 2 ^ 9) = (b (m + 2 ^ 3) ^^ b (m + 2 ^ 1)) := by
      rw [hpow 5 m, hpow 2 m, hpow 1 m]
      cases b (m + 2 ^ 2) <;> simp
    have h7 : b (m + 2 ^ 7) = (b (m + 2 ^ 1) ^^ b (m + 2 ^ 0) ^^ b (m + 2 ^ 3)) := by
      rw [hpow 3 m, hpow 0 m]
    rw [h15, h9, h7]
    cases b (m + 2 ^ 3) <;> cases b (m + 2 ^ 1) <;> simp
  have hback (m : Nat) : b m = (b (m + 15) ^^ b (m + 1)) := by
    rw [h m]
    cases b (m + 1) <;> simp
  have hlast : n + 32767 + 15 = n + 14 + 2 ^ 15 ∧ n + 32767 + 1 = n + 2 ^ 15 := by omega
  rw [hback (n + 32767), hlast.1, hlast.2, hfrob, hfrob, hback n]

end Recurrence

/-! ## Registers -/

/-- A clock of a register of `w` bits: all bits but the top one are moved one
place down. -/
structure Shifts (w : Nat) (f : Nat → Nat) : Prop where
  lt : ∀ x < 2 ^ w, f x < 2 ^ w
  shift : ∀ x i, i + 1 < w → (f x).testBit i = x.testBit (i + 1)

/-- What leaves the register in clock `n`. -/
def stream (f : Nat → Nat) (s n : Nat) : Bool := (f^[n] s).testBit 0

section Register

variable {w : Nat} {f : Nat → Nat} {s : Nat}

theorem Shifts.iterate_lt (h : Shifts w f) (hs : s < 2 ^ w) (n : Nat) : f^[n] s < 2 ^ w := by
  induction n with
  | zero => exact hs
  | succ n ih =>
      rw [Function.iterate_succ_apply']
      exact h.lt _ ih

/-- The state is a window of the stream. -/
theorem Shifts.testBit_iterate (h : Shifts w f) {i : Nat} (hi : i < w) (n : Nat) :
    (f^[n] s).testBit i = stream f s (n + i) := by
  induction i generalizing n with
  | zero => rfl
  | succ i ih =>
      have hnext := ih (by omega) (n + 1)
      rw [Function.iterate_succ_apply', h.shift _ _ hi] at hnext
      rw [hnext, show n + 1 + i = n + (i + 1) by omega]

/-- Equal windows, equal states. -/
theorem Shifts.iterate_eq (h : Shifts w f) (hs : s < 2 ^ w) {m n : Nat}
    (hwin : ∀ i < w, stream f s (m + i) = stream f s (n + i)) : f^[m] s = f^[n] s := by
  apply Nat.eq_of_testBit_eq
  intro i
  by_cases hi : i < w
  · rw [h.testBit_iterate hi, h.testBit_iterate hi, hwin i hi]
  · have hpow : 2 ^ w ≤ 2 ^ i := Nat.pow_le_pow_right (by omega) (by omega)
    rw [Nat.testBit_lt_two_pow (lt_of_lt_of_le (h.iterate_lt hs m) hpow),
      Nat.testBit_lt_two_pow (lt_of_lt_of_le (h.iterate_lt hs n) hpow)]

/-- A top bit fed from two bits of the register is a recurrence of the stream. -/
theorem Shifts.recurs (h : Shifts (w + 1) f) {q r : Nat} (hq : q ≤ w) (hr : r ≤ w)
    (hs : s < 2 ^ (w + 1))
    (hfeed : ∀ x < 2 ^ (w + 1), (f x).testBit w = (x.testBit q ^^ x.testBit r)) :
    Recurs (w + 1) q r (stream f s) := by
  intro n
  have htop := hfeed _ (h.iterate_lt hs n)
  rw [← Function.iterate_succ_apply' f, h.testBit_iterate (by omega),
    h.testBit_iterate (by omega), h.testBit_iterate (by omega)] at htop
  rw [← htop, show n + (w + 1) = n + 1 + w by omega]

end Register

/-! ## The period of a point -/

section Period

open Function

variable {α : Type*} {f : α → α} {x : α} {n : Nat}

/-- A period no maximal proper divisor of which is one is the minimal period. -/
theorem minimalPeriod_eq (hper : f^[n] x = x)
    (hprime : ∀ p, p.Prime → p ∣ n → f^[n / p] x ≠ x) : minimalPeriod f x = n := by
  obtain ⟨c, hc⟩ := IsPeriodicPt.minimalPeriod_dvd (f := f) (x := x) hper
  by_contra hne
  obtain ⟨p, hp, d, rfl⟩ := Nat.exists_prime_and_dvd (n := c) (by rintro rfl; omega)
  have hdiv : n / p = minimalPeriod f x * d := by
    rw [hc, Nat.mul_left_comm, Nat.mul_div_cancel_left _ hp.pos]
  apply hprime p hp ⟨minimalPeriod f x * d, by rw [hc]; ring⟩
  rw [hdiv]
  exact (isPeriodicPt_minimalPeriod f x).mul_const d

/-- The iterates of a periodic point repeat with its minimal period and not
before. -/
theorem iterate_eq_iff (hpos : 0 < minimalPeriod f x) (k k' : Nat) :
    f^[k] x = f^[k'] x ↔ k ≡ k' [MOD minimalPeriod f x] := by
  rw [← iterate_mod_minimalPeriod_eq (n := k), ← iterate_mod_minimalPeriod_eq (n := k'),
    iterate_eq_iterate_iff_of_lt_minimalPeriod (Nat.mod_lt _ hpos) (Nat.mod_lt _ hpos)]
  rfl

/-- A periodic point never comes to another point that is fixed. -/
theorem iterate_ne_fixed {z : α} (hz : f z = z) (hper : f^[n] x = x) (hne : x ≠ z)
    (hpos : 0 < n) (k : Nat) : f^[k] x ≠ z := by
  intro hk
  have hround : f^[n * k] x = x := IsPeriodicPt.mul_const hper k
  have hle : k ≤ n * k := Nat.le_mul_of_pos_left k hpos
  rw [← Nat.sub_add_cancel hle, iterate_add_apply, hk, iterate_fixed hz] at hround
  exact hne hround.symm

end Period

end ShiftRegister
