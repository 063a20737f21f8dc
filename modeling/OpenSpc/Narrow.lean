import Mathlib.Tactic

/-!
# Narrowing and saturation of exact integers

Two ways of forcing an exact integer into `n + 1` bits of two's complement:
`narrow` keeps the low bits (a C conversion to a shorter signed type),
`saturate` moves to the nearest representable value.
-/

namespace Narrow

/-- Conversion to a signed type of `n + 1` bits: the low bits are kept. -/
def narrow (n : Nat) (x : Int) : Int :=
  (x + 2 ^ n) % 2 ^ (n + 1) - 2 ^ n

/-- The nearest value that fits `n + 1` bits of two's complement. -/
def saturate (n : Nat) (x : Int) : Int :=
  if x > 2 ^ n - 1 then 2 ^ n - 1 else if x < -2 ^ n then -2 ^ n else x

/-- `x` is representable in `n + 1` bits of two's complement. -/
def Fits (n : Nat) (x : Int) : Prop :=
  -2 ^ n ≤ x ∧ x ≤ 2 ^ n - 1

instance (n : Nat) (x : Int) : Decidable (Fits n x) :=
  inferInstanceAs (Decidable (_ ∧ _))

/-- A narrowed value fits. -/
theorem narrow_fits (n : Nat) (x : Int) : Fits n (narrow n x) := by
  have hpos : (0 : Int) < 2 ^ (n + 1) := by positivity
  have hlo := Int.emod_nonneg (x + 2 ^ n) hpos.ne'
  have hhi := Int.emod_lt_of_pos (x + 2 ^ n) hpos
  have hdbl : (2 : Int) ^ (n + 1) = 2 * 2 ^ n := by rw [pow_succ, mul_comm]
  unfold Fits narrow
  omega

/-- A saturated value fits. -/
theorem saturate_fits (n : Nat) (x : Int) : Fits n (saturate n x) := by
  have hpos : (0 : Int) < 2 ^ n := by positivity
  unfold Fits saturate
  split
  · omega
  · split <;> omega

/-- A value that already fits is not changed by narrowing. -/
theorem narrow_of_fits {n : Nat} {x : Int} (h : Fits n x) : narrow n x = x := by
  have hdbl : (2 : Int) ^ (n + 1) = 2 * 2 ^ n := by rw [pow_succ, mul_comm]
  obtain ⟨hlo, hhi⟩ := h
  unfold narrow
  rw [Int.emod_eq_of_lt (by omega) (by omega)]
  omega

/-- Narrowing changes a value by a multiple of `2 ^ (n + 1)` only. -/
theorem narrow_dvd (n : Nat) (x : Int) : (2 : Int) ^ (n + 1) ∣ x - narrow n x := by
  refine ⟨(x + 2 ^ n) / 2 ^ (n + 1), ?_⟩
  have h := Int.emod_add_mul_ediv (x + 2 ^ n) (2 ^ (n + 1))
  unfold narrow
  omega

/-! ## Magnitudes -/

/-- The size of a value that fits. -/
theorem Fits.abs_le_pow {n : Nat} {x : Int} (h : Fits n x) : |x| ≤ 2 ^ n := by
  obtain ⟨hlo, hhi⟩ := h
  rw [abs_le]
  omega

/-- A value of less than that size fits. -/
theorem fits_of_abs_le {n : Nat} {x b : Int} (h : |x| ≤ b) (hb : b < 2 ^ n) : Fits n x := by
  obtain ⟨hlo, hhi⟩ := abs_le.mp h
  unfold Fits
  omega

/-- The magnitude of a product. -/
theorem abs_mul_le {x y a b : Int} (hx : |x| ≤ a) (hy : |y| ≤ b) : |x * y| ≤ a * b := by
  rw [abs_mul]
  exact mul_le_mul hx hy (abs_nonneg y) ((abs_nonneg x).trans hx)

/-- The magnitude of a sum. -/
theorem abs_add_le_add {x y a b : Int} (hx : |x| ≤ a) (hy : |y| ≤ b) : |x + y| ≤ a + b :=
  (abs_add_le x y).trans (add_le_add hx hy)

/-- An arithmetic shift to the right does not raise a magnitude. -/
theorem abs_ediv_le {x a d : Int} (hx : |x| ≤ a) : |x / d| ≤ a := (Int.abs_ediv_le_abs x d).trans hx

/-- It scales it down. -/
theorem abs_ediv_le_of_mul {x a d : Int} (hd : 0 < d) (hx : |x| ≤ a * d) : |x / d| ≤ a := by
  obtain ⟨hlo, hhi⟩ := abs_le.mp hx
  rw [abs_le]
  constructor
  · apply Int.le_ediv_of_mul_le hd
    rwa [neg_mul]
  · exact Int.ediv_le_of_le_mul hd hhi

end Narrow
