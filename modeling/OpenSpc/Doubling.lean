import Mathlib.Tactic

/-!
# Division by doubling

A value is doubled again and again, and a constant taken off whenever that is
possible.  The number of times it was, read as bits, is a quotient, and what is
left determines the remainder.  Two choices of the constant give two divisions,
with `B` a power of two: `B * x - 1` for the quotient by `x`, and `B * e + 1` for
its complement.
-/

namespace Doubling

/-- Doubled, less `D` if that is possible. -/
def double (D w : Nat) : Nat := if 2 * w ≤ D then 2 * w else 2 * w - D

/-- Doubling stays in its range. -/
theorem double_le {D w : Nat} (h : w ≤ D) : double D w ≤ D := by
  unfold double
  split <;> omega

/-- Doubling modulo an odd number keeps off its multiples. -/
theorem double_between {D w : Nat} (hD : D % 2 = 1) (hpos : 0 < w) (hlt : w < D) :
    0 < double D w ∧ double D w < D := by
  unfold double
  split <;> omega

/-- Where the modulus is odd, doubling stays off the ends of its range. -/
theorem iterate_between {D w : Nat} (hD : D % 2 = 1) (hpos : 0 < w) (hlt : w < D) (n : Nat) :
    0 < (double D)^[n] w ∧ (double D)^[n] w < D := by
  induction n with
  | zero => exact ⟨hpos, hlt⟩
  | succ n ih =>
      rw [Function.iterate_succ_apply']
      exact double_between hD ih.1 ih.2

/-- **What is taken off**, by induction on the number of doublings. -/
theorem iterate_double {D : Nat} (n : Nat) :
    ∀ {w : Nat}, w ≤ D → ∃ k < 2 ^ n,
      2 ^ n * w = (double D)^[n] w + k * D ∧ (double D)^[n] w ≤ D := by
  induction n with
  | zero =>
      intro w h
      exact ⟨0, by simp, by simp, h⟩
  | succ n ih =>
      intro w h
      obtain ⟨k, hk, hsum, hle⟩ := ih h
      rw [Function.iterate_succ_apply']
      generalize (double D)^[n] w = u at *
      have htwice : 2 ^ (n + 1) * w = 2 * u + 2 * k * D := by
        rw [pow_succ, mul_right_comm, hsum]
        ring
      by_cases hfits : 2 * u ≤ D
      · refine ⟨2 * k, by rw [pow_succ]; omega, ?_, double_le hle⟩
        unfold double
        rw [if_pos hfits, htwice]
      · refine ⟨2 * k + 1, by rw [pow_succ]; omega, ?_, double_le hle⟩
        unfold double
        rw [if_neg hfits, htwice, add_mul, one_mul]
        omega

/-- **The quotient**: `B * x - 1` has been taken off. -/
theorem quotient {B x a v k : Nat} (hk : k < B) (hx : 0 < x)
    (hsum : B * a = v + k * (B * x - 1)) (hv : v ≤ B * x - 1) :
    k = a / x ∧ v = B * (a % x) + k := by
  have hpos : 0 < B * x := Nat.mul_pos (by omega) hx
  zify [Nat.one_le_iff_ne_zero.mpr hpos.ne'] at hsum hv
  have hrest : (v : ℤ) = B * (a - k * x) + k := by linear_combination -hsum
  have hnonneg : (0 : ℤ) ≤ a - k * x := by
    by_contra hneg
    have hle : (B : ℤ) * (a - k * x) ≤ B * (-1) :=
      mul_le_mul_of_nonneg_left (by omega) (by omega)
    omega
  have hlt : (a : ℤ) - k * x < x := by
    by_contra hge
    have hle : (B : ℤ) * x ≤ B * (a - k * x) :=
      mul_le_mul_of_nonneg_left (by omega) (by omega)
    omega
  obtain ⟨m, hm⟩ := Int.eq_ofNat_of_zero_le hnonneg
  rw [hm] at hrest hlt
  have ha : a = m + x * k := by
    zify
    linear_combination hm
  have hmlt : m < x := by omega
  obtain ⟨hdiv, hmod⟩ := (Nat.div_mod_unique hx).mpr ⟨ha.symm, hmlt⟩
  rw [hdiv, hmod]
  exact ⟨rfl, by exact_mod_cast hrest⟩

/-- **The complement of a quotient**: `B * e + 1` has been taken off. -/
theorem complement {B e z w k : Nat} (hk : k < B) (he : 0 < e)
    (hsum : B * (z + 1) = w + k * (B * e + 1)) (hpos : 0 < w) (hw : w ≤ B * e) :
    k = z / e ∧ w + k = B * (z % e + 1) := by
  zify at hsum hw
  have hrest : (w : ℤ) + k = B * (z + 1 - k * e) := by linear_combination -hsum
  have hnonneg : (0 : ℤ) ≤ z - k * e := by
    by_contra hneg
    have hle : (B : ℤ) * (z + 1 - k * e) ≤ B * 0 :=
      mul_le_mul_of_nonneg_left (by omega) (by omega)
    omega
  have hlt : (z : ℤ) - k * e < e := by
    by_contra hge
    have hle : (B : ℤ) * (e + 1) ≤ B * (z + 1 - k * e) :=
      mul_le_mul_of_nonneg_left (by omega) (by omega)
    rw [mul_add, mul_one] at hle
    omega
  obtain ⟨m, hm⟩ := Int.eq_ofNat_of_zero_le hnonneg
  rw [hm] at hlt
  have hz : z = m + e * k := by
    zify
    linear_combination hm
  have hmlt : m < e := by omega
  obtain ⟨hdiv, hmod⟩ := (Nat.div_mod_unique he).mpr ⟨hz.symm, hmlt⟩
  rw [hdiv, hmod]
  refine ⟨rfl, ?_⟩
  zify
  linear_combination hrest + (B : ℤ) * hm

end Doubling
