import Mathlib.Tactic

/-!
# A counter that reloads without carry

A counter starts at `init` and loses `r` in each step; a step that would bring
it to zero or below reloads it to `init` and counts as one firing.  Whatever
falls short of zero is dropped at a reload, but when `r` divides `init` nothing
ever does, and after `n` steps the counter has fired `n * r / init` times.
-/

namespace ReloadCounter

/-- Firings in the first `n` steps. -/
def fired (init r : Int) (n : Nat) : Int := n * r / init

/-- What the counter holds after `n` steps. -/
def left (init r : Int) (n : Nat) : Int := init - n * r % init

variable {init r : Int}

@[simp] theorem fired_zero (init r : Int) : fired init r 0 = 0 := by simp [fired]

@[simp] theorem left_zero (init r : Int) : left init r 0 = init := by simp [left]

/-- The step count in units of the period. -/
theorem fired_add_left (init r : Int) (n : Nat) :
    init * fired init r n + (init - left init r n) = n * r := by
  unfold fired left
  have h := Int.mul_ediv_add_emod (n * r) init
  omega

/-- A counter is never 0: it is reloaded in the step that empties it. -/
theorem left_pos (hpos : 0 < init) (n : Nat) : 0 < left init r n := by
  have hlt := Int.emod_lt_of_pos (n * r) hpos
  unfold left
  omega

/-- A rate that divides the period never overshoots. -/
theorem le_left (hpos : 0 < init) (hdvd : r = 0 ∨ r ∣ init) (n : Nat) : r ≤ left init r n := by
  have hleft := left_pos (r := r) hpos n
  rcases hdvd with hzero | hdvd
  · omega
  · apply Int.le_of_dvd hleft
    unfold left
    exact dvd_sub hdvd ((EuclideanDomain.dvd_mod_iff hdvd).mpr (dvd_mul_left r n))

/-- The state after `n` steps, read off from whole periods and a rest. -/
theorem of_rest {n : Nat} {q m : Int} (h : n * r = init * q + m) (h0 : 0 ≤ m) (h1 : m < init) :
    left init r n = init - m ∧ fired init r n = q := by
  have hunique : n * r / init = q ∧ n * r % init = m :=
    (Int.ediv_emod_unique (by omega)).mpr ⟨by omega, h0, h1⟩
  unfold left fired
  rw [hunique.1, hunique.2]
  exact ⟨rfl, rfl⟩

/-- The next step in units of the period. -/
theorem next_sum (init r : Int) (n : Nat) :
    ((n + 1 : Nat) : Int) * r = init * fired init r n + (init - (left init r n - r)) := by
  have hsum := fired_add_left init r n
  push_cast
  rw [add_mul, one_mul, ← hsum]
  ring

/-- A counter never holds more than its period. -/
theorem left_le (hpos : 0 < init) (n : Nat) : left init r n ≤ init := by
  have hlow := Int.emod_nonneg (n * r) hpos.ne'
  unfold left
  omega

/-- A step that does not exhaust the counter. -/
theorem wait (hpos : 0 < init) (hr : 0 ≤ r) {n : Nat} (h : left init r n - r > 0) :
    left init r (n + 1) = left init r n - r ∧ fired init r (n + 1) = fired init r n := by
  have hle := left_le (r := r) hpos n
  obtain ⟨hleft, hfired⟩ := of_rest (next_sum init r n) (by omega) (by omega)
  exact ⟨by omega, hfired⟩

/-- A step that exhausts the counter. -/
theorem fire (hpos : 0 < init) (hdvd : r = 0 ∨ r ∣ init) {n : Nat}
    (h : left init r n - r ≤ 0) :
    left init r (n + 1) = init ∧ fired init r (n + 1) = fired init r n + 1 := by
  have hge := le_left hpos hdvd n
  have hsum := next_sum init r n
  have hdue : left init r n - r = 0 := by omega
  rw [hdue] at hsum
  obtain ⟨hleft, hfired⟩ := of_rest (q := fired init r n + 1) (m := 0)
    (by rw [hsum]; ring) le_rfl hpos
  exact ⟨by omega, hfired⟩

/-- After `n` steps the counter has fired less than `k` times as long as it
has not gone down by `k` periods. -/
theorem fired_lt_iff (hpos : 0 < init) {n : Nat} {k : Int} :
    fired init r n < k ↔ n * r < k * init :=
  Int.ediv_lt_iff_lt_mul hpos

end ReloadCounter
