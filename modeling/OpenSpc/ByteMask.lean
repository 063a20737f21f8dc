import Mathlib.Tactic

/-!
# Single-bit masks over a machine word

A word used as a set of flags is read by testing one bit, and updated by
or-ing a one-bit mask into it or and-ing the complement of a mask.  The lemmas
below say what each operation does to each bit, so that later proofs speak
about bits and never about words.
-/

namespace ByteMask

variable {w : Nat}

/-- Bit `i` of a word: the test `x & (1 << i)`. -/
def bit (x : BitVec w) (i : Nat) : Bool := x.getLsbD i

/-- The word with exactly bit `i` set. -/
def single (w i : Nat) : BitVec w := 1#w <<< i

/-- Only bit `i` of the mask is set. -/
theorem bit_single {i j : Nat} (hi : i < w) : bit (single w i) j = decide (j = i) := by
  unfold bit single
  rw [BitVec.getLsbD_shiftLeft, BitVec.getLsbD_one]
  by_cases hj : j = i
  · subst j
    simp [hi]
    omega
  · by_cases hlt : j < i
    · simp [hlt, hj]
    · have hne : j - i ≠ 0 := by omega
      simp [hne, hj]

/-- Or-ing the mask in sets bit `i` and keeps the others. -/
theorem bit_or_single {i j : Nat} (hi : i < w) (x : BitVec w) :
    bit (x ||| single w i) j = (bit x j || decide (j = i)) := by
  rw [← bit_single hi]
  exact BitVec.getLsbD_or

/-- And-ing the complement of a word clears its bits and keeps the others. -/
theorem bit_and_not {j : Nat} (x y : BitVec w) :
    bit (x &&& ~~~ y) j = (bit x j && !bit y j) := by
  unfold bit
  rw [BitVec.getLsbD_and, BitVec.getLsbD_not]
  by_cases hj : j < w
  · simp [hj]
  · simp [BitVec.getLsbD_of_ge x j (by omega)]

/-- And-ing the complement of the mask clears bit `i` and keeps the others. -/
theorem bit_and_not_single {i j : Nat} (hi : i < w) (x : BitVec w) :
    bit (x &&& ~~~ single w i) j = (bit x j && !decide (j = i)) := by
  rw [bit_and_not, bit_single hi]

end ByteMask
