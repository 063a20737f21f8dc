import Mathlib.Tactic

/-!
# A counter of periods

A position moves on by one in each tick; at the target it starts over at 0 and
one more period is counted.  It may start below 0, which delays the first
period.  After `n` ticks position and count are remainder and quotient of the
distance from 0, once that has been reached.
-/

namespace TickCounter

/-- One tick of a position and the periods counted so far. -/
def tick (target : Int) (s : Int × Nat) : Int × Nat :=
  if s.1 + 1 = target then (0, s.2 + 1) else (s.1 + 1, s.2)

/-- The state at a distance `x` from 0, `c` periods having been counted before. -/
def atDistance (target : Int) (c : Nat) (x : Int) : Int × Nat :=
  if x < 0 then (x, c) else (x % target, c + (x / target).toNat)

variable {target : Int}

theorem atDistance_of_lt (c : Nat) {x : Int} (hx : x < target) :
    atDistance target c x = (x, c) := by
  unfold atDistance
  split
  · rfl
  · rw [Int.emod_eq_of_lt (by omega) hx, Int.ediv_eq_zero_of_lt (by omega) hx]
    rfl

/-- **A tick moves on by one.** -/
theorem tick_atDistance (hpos : 0 < target) (c : Nat) (x : Int) :
    tick target (atDistance target c x) = atDistance target c (x + 1) := by
  by_cases hneg : x < 0
  · rw [atDistance_of_lt c (by omega : x < target), atDistance_of_lt c (by omega : x + 1 < target)]
    exact if_neg (by dsimp only; omega)
  · have hlow := Int.emod_nonneg x hpos.ne'
    have hhigh := Int.emod_lt_of_pos x hpos
    have hsum := Int.emod_add_mul_ediv x target
    have hcount := Int.ediv_nonneg (not_lt.mp hneg) hpos.le
    have hnext : ¬ x + 1 < 0 := by omega
    unfold atDistance tick
    rw [if_neg hneg, if_neg hnext]
    dsimp only
    by_cases hfull : x % target + 1 = target
    · obtain ⟨hdiv, hmod⟩ := (Int.ediv_emod_unique (a := x + 1) (r := 0) (q := x / target + 1)
        hpos).mpr ⟨by linarith, le_rfl, hpos⟩
      rw [if_pos hfull, hdiv, hmod]
      congr 1
      omega
    · obtain ⟨hdiv, hmod⟩ := (Int.ediv_emod_unique (a := x + 1) (r := x % target + 1)
        (q := x / target) hpos).mpr ⟨by linarith, by omega, by omega⟩
      rw [if_neg hfull, hdiv, hmod]

/-- **The state after `n` ticks**, by induction on the ticks. -/
theorem iterate_tick (hpos : 0 < target) {p : Int} (hp : p < target) (c n : Nat) :
    (tick target)^[n] (p, c) = atDistance target c (p + n) := by
  induction n with
  | zero =>
      rw [Nat.cast_zero, add_zero, atDistance_of_lt c hp]
      rfl
  | succ n ih =>
      rw [Function.iterate_succ_apply', ih, tick_atDistance hpos, Nat.cast_succ, add_assoc]

end TickCounter
