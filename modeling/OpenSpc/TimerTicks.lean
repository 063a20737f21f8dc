import Mathlib.Data.BitVec
import OpenSpc.TickCounter
import OpenSpc.SpcTimer

/-!
# A timer that catches up

What a timer stands for is a counter that is ticked along with the CPU.  The
update that makes up for all ticks at once gives what these ticks would have
given, with one exception: in the delay after a target has been set below the
position, the position is still negative, and read as an unsigned number it is
far beyond every target.  Outside the delay it does not matter how often a timer
catches up.
-/

namespace OpenSpc

open TickCounter (tick atDistance iterate_tick)

/-- Ticks since the last update. -/
def Timer.ticks (timer : Fin 3) (total : BitVec 32) (t : Timer) : Nat :=
  ((total - t.cycleLatch) >>> timerShift timer).toNat

theorem Timer.ticks_lt (timer : Fin 3) (total : BitVec 32) (t : Timer) :
    t.ticks timer total < 2 ^ 28 := by
  have hlt := (total - t.cycleLatch).isLt
  have hshift : 2 ^ 4 ≤ 2 ^ timerShift timer := by
    apply Nat.pow_le_pow_right (by decide)
    unfold timerShift
    split <;> decide
  unfold Timer.ticks
  rw [BitVec.toNat_ushiftRight, Nat.shiftRight_eq_div_pow, Nat.div_lt_iff_lt_mul (by positivity)]
  calc (total - t.cycleLatch).toNat < 2 ^ 28 * 2 ^ 4 := hlt
    _ ≤ 2 ^ 28 * 2 ^ timerShift timer := Nat.mul_le_mul_left _ hshift

variable {t : Timer}

/-- The advanced position as a number: below 0 it is off by 2 ^ 32. -/
theorem TimerInv.advanced_toNat (h : TimerInv t) (timer : Fin 3) (total : BitVec 32) :
    ((t.advanced timer total).toNat : Int) =
      if 0 ≤ t.position + t.ticks timer total then t.position + t.ticks timer total
      else t.position + t.ticks timer total + 2 ^ 32 := by
  have hlow := h.position_gt
  have hhigh := h.position_lt
  have hle := h.target_le
  have hticks := t.ticks_lt timer total
  unfold Timer.advanced
  rw [BitVec.toNat_add, ← Timer.ticks, BitVec.toNat_ofInt]
  split <;> omega

/-- What the ticks since the last update make of position and counter. -/
def Timer.ticked (timer : Fin 3) (total : BitVec 32) (t : Timer) : Int × Nat :=
  let s := (tick t.target)^[t.ticks timer total] (t.position, t.counter.toNat)
  (s.1, s.2 % 16)

/-- **An update is its ticks**, unless it comes within the delay after a target
has been set below the position: a remainder is not negative, the position in
the delay is. -/
theorem update_ticked_iff (h : TimerInv t) (timer : Fin 3) (total : BitVec 32) :
    (∃ u, t.update timer true total = some u ∧
      (u.position, u.counter.toNat) = t.ticked timer total) ↔
      0 ≤ t.position + t.ticks timer total := by
  have hpos := h.target_pos
  obtain ⟨u, hu, -, -, hposition, hcounter⟩ := h.update timer true total
  rw [if_pos rfl, h.advanced_toNat] at hposition hcounter
  unfold Timer.ticked
  rw [iterate_tick (by omega) h.position_lt]
  unfold atDistance
  constructor
  · rintro ⟨u', hu', hticked⟩
    rw [hu] at hu'
    cases hu'
    by_contra hdelay
    rw [if_neg hdelay] at hposition
    rw [if_pos (not_le.mp hdelay)] at hticked
    have hnonneg := Int.emod_nonneg (t.position + t.ticks timer total + 2 ^ 32)
      (by omega : t.target ≠ 0)
    have hsame : u.position = t.position + t.ticks timer total := congrArg Prod.fst hticked
    omega
  · intro hover
    rw [if_pos hover] at hposition hcounter
    rw [if_neg (not_lt.mpr hover)]
    exact ⟨u, hu, by rw [hposition, hcounter]⟩

/-- The delay is lost at once.  Timer 0 is at position 100 when its target is
set to 50, and its counter, 0 then, reads 14 in the same cycle. -/
example :
    let t : Timer := { cycleLatch := 12800, position := 100, target := 256, counter := 0 }
    ((t.writeTarget 0 true 12800 50).bind (·.readCounter 0 true 12800)).map Prod.fst = some 14 := by
  decide

/-! ## Updates in between -/

/-- The mask keeps whole ticks. -/
theorem and_timerMask (timer : Fin 3) (x : BitVec 32) :
    (x &&& timerMask timer).toNat = x.toNat / 2 ^ timerShift timer * 2 ^ timerShift timer := by
  have hmask : ∀ (timer : Fin 3) (i : Fin 32),
      (timerMask timer).getLsbD i = decide (timerShift timer ≤ i) := by decide
  have hbits : x &&& timerMask timer = (x >>> timerShift timer) <<< timerShift timer := by
    apply BitVec.eq_of_getLsbD_eq
    intro i hi
    rw [BitVec.getLsbD_and, hmask timer ⟨i, hi⟩, BitVec.getLsbD_shiftLeft, BitVec.getLsbD_ushiftRight]
    by_cases hshift : timerShift timer ≤ i
    · simp [hshift, hi]
    · simp [hshift]
  have hle := Nat.div_mul_le_self x.toNat (2 ^ timerShift timer)
  rw [hbits, BitVec.toNat_shiftLeft, BitVec.toNat_ushiftRight, Nat.shiftRight_eq_div_pow,
    Nat.shiftLeft_eq, Nat.mod_eq_of_lt (by have hlt := x.isLt; omega)]

/-- Whole ticks taken off, whole ticks are left. -/
theorem masked_split (timer : Fin 3) {x y : BitVec 32} (hle : x.toNat ≤ y.toNat) :
    ((y - (x &&& timerMask timer)) >>> timerShift timer).toNat +
        (x >>> timerShift timer).toNat = (y >>> timerShift timer).toNat ∧
      (x &&& timerMask timer) + ((y - (x &&& timerMask timer)) &&& timerMask timer) =
        y &&& timerMask timer := by
  have hx := and_timerMask timer x
  have hy := and_timerMask timer y
  have hrest := and_timerMask timer (y - (x &&& timerMask timer))
  generalize x &&& timerMask timer = m at *
  have hpos : 0 < 2 ^ timerShift timer := by positivity
  simp only [BitVec.toNat_ushiftRight, Nat.shiftRight_eq_div_pow]
  generalize 2 ^ timerShift timer = k at *
  have hm : m.toNat ≤ y.toNat := by
    rw [hx]
    exact le_trans (Nat.div_mul_le_self _ _) hle
  have hmono := Nat.div_le_div_right (c := k) hle
  have hdiv : (y - m).toNat / k = y.toNat / k - x.toNat / k := by
    rw [BitVec.toNat_sub_of_le hm, hx, Nat.mul_comm, Nat.sub_mul_div]
  refine ⟨by omega, ?_⟩
  apply BitVec.eq_of_toNat_eq
  have hlt := (y &&& timerMask timer).isLt
  rw [BitVec.toNat_add, hrest, hdiv, hx, ← Nat.add_mul, Nat.add_sub_cancel' hmono, ← hy,
    Nat.mod_eq_of_lt hlt]

theorem Timer.update_cycleLatch {timer : Fin 3} {on : Bool} {total : BitVec 32} {u : Timer}
    (hu : t.update timer on total = some u) :
    u.cycleLatch = t.cycleLatch + ((total - t.cycleLatch) &&& timerMask timer) := by
  unfold Timer.update Timer.wrap at hu
  dsimp only at hu
  split at hu
  · cases hu
    rfl
  · split at hu
    · cases hu
      rfl
    · split at hu
      · cases hu
      · cases hu
        rfl

/-- The ticks of two updates are those of the second alone. -/
theorem Timer.ticks_split {timer : Fin 3} {total total' : BitVec 32} {u : Timer}
    (hu : t.update timer true total = some u)
    (hle : (total - t.cycleLatch).toNat ≤ (total' - t.cycleLatch).toNat) :
    u.ticks timer total' + t.ticks timer total = t.ticks timer total' ∧
      u.cycleLatch + ((total' - u.cycleLatch) &&& timerMask timer) =
        t.cycleLatch + ((total' - t.cycleLatch) &&& timerMask timer) := by
  have hlatch := Timer.update_cycleLatch hu
  have hsince : total' - u.cycleLatch =
      (total' - t.cycleLatch) - ((total - t.cycleLatch) &&& timerMask timer) := by
    rw [hlatch]
    exact sub_add_eq_sub_sub total' t.cycleLatch _
  obtain ⟨hticks, hmask⟩ := masked_split timer hle
  rw [← hsince] at hticks hmask
  exact ⟨hticks, by rw [← hmask, ← add_assoc, ← hlatch]⟩

/-- The update of a timer that is not in the delay, in exact numbers. -/
theorem TimerInv.update_exact (h : TimerInv t) (hstart : 0 ≤ t.position) (timer : Fin 3)
    (total : BitVec 32) :
    Returns (t.update timer true total) fun u =>
      TimerInv u ∧ u.target = t.target ∧ 0 ≤ u.position ∧
        u.position = (t.position + t.ticks timer total) % t.target ∧
        u.counter.toNat =
          (t.counter.toNat + ((t.position + t.ticks timer total) / t.target).toNat) % 16 := by
  refine (h.update timer true total).mono fun u hu => ?_
  obtain ⟨hinv, htarget, hposition, hcounter⟩ := hu
  rw [if_pos rfl, h.advanced_toNat, if_pos (by omega)] at hposition hcounter
  refine ⟨hinv, htarget, ?_, hposition, hcounter⟩
  rw [hposition]
  exact (h.mod_target _).1

/-- **An update in between changes nothing.**  When a timer catches up is only
seen through its counter, as long as the cycle counter does not go round and
the timer is not in the delay.  The two updates cover the distance of the one in
two parts. -/
theorem update_update (h : TimerInv t) (hstart : 0 ≤ t.position) (timer : Fin 3)
    {total total' : BitVec 32}
    (hle : (total - t.cycleLatch).toNat ≤ (total' - t.cycleLatch).toNat) :
    (t.update timer true total).bind (Timer.update timer true total') =
      t.update timer true total' := by
  obtain ⟨u, hu, hinv, htarget, hrest, hposition, hcounter⟩ := h.update_exact hstart timer total
  obtain ⟨w, hw, -, htarget', -, hposition', hcounter'⟩ := hinv.update_exact hrest timer total'
  obtain ⟨w', hw', -, htarget'', -, hposition'', hcounter''⟩ := h.update_exact hstart timer total'
  obtain ⟨hticks, hlatch⟩ := Timer.ticks_split hu hle
  rw [hu, hw', Option.bind_some, hw]
  have hpos := h.target_pos
  have hdistance : t.position + t.ticks timer total' =
      t.target * ((t.position + t.ticks timer total) / t.target) +
        (u.position + u.ticks timer total') := by
    have hsum := Int.emod_add_mul_ediv (t.position + t.ticks timer total) t.target
    omega
  have hwhole : w'.position = w.position := by
    rw [hposition'', hposition', htarget, hdistance, Int.mul_add_emod_self_left]
  have hcount : w'.counter.toNat = w.counter.toNat := by
    have hfirst : 0 ≤ (t.position + t.ticks timer total) / t.target :=
      Int.ediv_nonneg (by omega) (by omega)
    have hsecond : 0 ≤ (u.position + u.ticks timer total') / t.target :=
      Int.ediv_nonneg (by omega) (by omega)
    rw [hcounter'', hcounter', hcounter, htarget, hdistance, Int.mul_add_ediv_left _ _ (by omega)]
    omega
  have hcaught : w'.cycleLatch = w.cycleLatch := by
    rw [Timer.update_cycleLatch hw, Timer.update_cycleLatch hw', hlatch]
  obtain ⟨latch, position, target, counter⟩ := w
  obtain ⟨latch', position', target', counter'⟩ := w'
  dsimp only at *
  rw [hcaught, hwhole, htarget', htarget, htarget'', BitVec.eq_of_toNat_eq hcount]

end OpenSpc
