import OpenSpc.Returns
import OpenSpc.SpcCpu

/-!
# The timers of the CPU core

A timer is not run along with the CPU; it catches up when its counter is read,
and before its target changes (`Update_SPC_Timer`).  The cycles it has missed
are counted in 32 bits, and so is its position, which may be negative while it
is stored: a target that is set at or below the position moves the position
back by 256.  Dividing by the target is the one thing here that C may leave
undefined; it is `none`.
-/

namespace OpenSpc

open ByteMask (bit)
open Narrow (narrow Fits narrow_of_fits)

/-- Timers are numbered modulo 3. -/
instance neZero_three : NeZero (3 : Nat) := ⟨by decide⟩

/-- `shift`: cycles for each tick, as a power of two. -/
def timerShift (timer : Fin 3) : Nat := if timer ≠ 2 then 7 else 4

/-- `mask`, which is `-BIT( shift )`. -/
def timerMask (timer : Fin 3) : BitVec 32 := -(1#32 <<< timerShift timer)

namespace Timer

/-- The local `position` of `Update_SPC_Timer`: the stored one, sign-extended,
and the ticks since the last update. -/
def advanced (timer : Fin 3) (total : BitVec 32) (t : Timer) : BitVec 32 :=
  BitVec.ofInt 32 t.position + ((total - t.cycleLatch) >>> timerShift timer)

/-- The end of `Update_SPC_Timer`: whole periods go to the counter, which has
four bits, the rest to the position. -/
def wrap (position : BitVec 32) (t : Timer) : Option Timer :=
  let target := BitVec.ofInt 32 t.target
  if target = 0 then none
  else
    some { t with
      counter := (t.counter.setWidth 32 + position / target).setWidth 8 &&& 0x0F
      position := narrow 15 (position % target).toNat }

/-- `Update_SPC_Timer`, for a timer that is on or off. -/
def update (timer : Fin 3) (on : Bool) (total : BitVec 32) (t : Timer) : Option Timer :=
  let position := t.advanced timer total
  let t := { t with
    cycleLatch := t.cycleLatch + ((total - t.cycleLatch) &&& timerMask timer) }
  if !on then some t
  else
    let t := { t with position := narrow 15 position.toNat }
    if position < BitVec.ofInt 32 t.target then some t
    else t.wrap position

/-- `spc_start_timer`. -/
def start (timer : Fin 3) (total : BitVec 32) (t : Timer) : Timer :=
  { t with cycleLatch := total &&& timerMask timer, position := 0, counter := 0 }

/-- `SPC_WRITE_TIMER`. -/
def writeTarget (timer : Fin 3) (on : Bool) (total : BitVec 32) (data : Byte) (t : Timer) :
    Option Timer :=
  if BitVec.ofInt 8 t.target = data then some t
  else
    let target : Int := if data ≠ 0 then data.toNat else 256
    (t.update timer on total).map fun t =>
      let t := { t with target := target }
      if target ≤ t.position then { t with position := narrow 15 (t.position - 256) } else t

/-- `SPC_READ_COUNTER`. -/
def readCounter (timer : Fin 3) (on : Bool) (total : BitVec 32) (t : Timer) :
    Option (Byte × Timer) :=
  (t.update timer on total).map fun t => (t.counter, { t with counter := 0 })

end Timer

/-- What the timer code relies on. -/
structure TimerInv (t : Timer) : Prop where
  target_pos : 1 ≤ t.target
  target_le : t.target ≤ 256
  counter_le : t.counter.toNat ≤ 15
  position_gt : -256 < t.position
  position_lt : t.position < t.target

namespace TimerInv

variable {t : Timer}

/-- As an unsigned number the target is itself. -/
theorem target_toNat (h : TimerInv t) : ((BitVec.ofInt 32 t.target).toNat : Int) = t.target := by
  have hpos := h.target_pos
  have hle := h.target_le
  rw [BitVec.toNat_ofInt]
  omega

/-- **No zero divisor.** -/
theorem target_ne_zero (h : TimerInv t) : BitVec.ofInt 32 t.target ≠ 0 := by
  intro hzero
  have hpos := h.target_pos
  have htarget := h.target_toNat
  rw [hzero] at htarget
  simp at htarget
  omega

theorem lt_target_iff (h : TimerInv t) (position : BitVec 32) :
    position < BitVec.ofInt 32 t.target ↔ (position.toNat : Int) < t.target := by
  have htarget := h.target_toNat
  rw [BitVec.lt_def]
  omega

/-- A number below the target is a position, and is stored as it is. -/
theorem narrow_position (h : TimerInv t) {x : Int} (h0 : -256 ≤ x) (hx : x < t.target) :
    narrow 15 x = x := by
  have hle := h.target_le
  apply narrow_of_fits
  unfold Fits
  omega

/-- A remainder by the target fits the position. -/
theorem mod_target (h : TimerInv t) (x : Int) : 0 ≤ x % t.target ∧ x % t.target < t.target := by
  have hpos := h.target_pos
  exact ⟨Int.emod_nonneg x (by omega), Int.emod_lt_of_pos x (by omega)⟩

/-- What moves within the target keeps the rest. -/
theorem move (h : TimerInv t) {x : Int} (h0 : -256 < x) (hx : x < t.target) (latch : BitVec 32) :
    TimerInv { t with cycleLatch := latch, position := x } :=
  ⟨h.target_pos, h.target_le, h.counter_le, h0, hx⟩

theorem setCounter (h : TimerInv t) {counter : Byte} (hle : counter.toNat ≤ 15) :
    TimerInv { t with counter := counter } :=
  ⟨h.target_pos, h.target_le, hle, h.position_gt, h.position_lt⟩

/-- Four bits are left of any byte. -/
theorem low_nybble (b : Byte) : (b &&& 0x0F).toNat = b.toNat % 16 := by
  rw [BitVec.toNat_and]
  exact Nat.and_two_pow_sub_one_eq_mod b.toNat 4

/-- The counter counts modulo 16. -/
theorem low_nybble_add (b : Byte) (n : BitVec 32) :
    ((b.setWidth 32 + n).setWidth 8 &&& 0x0F).toNat = (b.toNat + n.toNat) % 16 := by
  have hlt := b.isLt
  rw [low_nybble, BitVec.toNat_setWidth, BitVec.toNat_add, BitVec.toNat_setWidth]
  omega

/-- The division at the end of an update, whatever was stored before it. -/
theorem wrap (h : TimerInv t) (latch : BitVec 32) (x : Int) (position : BitVec 32) :
    Returns (Timer.wrap position { t with cycleLatch := latch, position := x }) fun u =>
      TimerInv u ∧ u.target = t.target ∧ u.position = (position.toNat : Int) % t.target ∧
        u.counter.toNat = (t.counter.toNat + (position.toNat / t.target).toNat) % 16 := by
  obtain ⟨hlow, hhigh⟩ := h.mod_target position.toNat
  have hmod : ((position % BitVec.ofInt 32 t.target).toNat : Int) =
      (position.toNat : Int) % t.target := by
    rw [BitVec.toNat_umod, Int.natCast_mod, h.target_toNat]
  have hstored : narrow 15 (position % BitVec.ofInt 32 t.target).toNat =
      (position.toNat : Int) % t.target := by
    rw [hmod]
    exact h.narrow_position (by omega) hhigh
  have hdiv : (position / BitVec.ofInt 32 t.target).toNat = (position.toNat / t.target).toNat := by
    rw [BitVec.toNat_udiv, ← h.target_toNat, ← Int.natCast_div, Int.toNat_natCast,
      BitVec.ofInt_natCast, BitVec.ofNat_toNat, BitVec.setWidth_eq]
  have hcounter := low_nybble_add t.counter (position / BitVec.ofInt 32 t.target)
  have hfour : ((t.counter.setWidth 32 + position / BitVec.ofInt 32 t.target).setWidth 8 &&&
      0x0F).toNat ≤ 15 := by
    rw [hcounter]
    omega
  unfold Timer.wrap
  dsimp only
  rw [if_neg h.target_ne_zero, hstored]
  refine Returns.ret ⟨(h.setCounter hfour).move (by omega) hhigh _, rfl, rfl, ?_⟩
  rw [← hdiv]
  exact hcounter

/-- **An update.**  The timer stays in shape, and when it is on it is left at
the remainder of the advanced position, whichever path the update took: if
nothing is due the position is stored directly, otherwise what is stored in
between is overwritten. -/
theorem update (h : TimerInv t) (timer : Fin 3) (on : Bool) (total : BitVec 32) :
    Returns (t.update timer on total) fun u =>
      TimerInv u ∧ u.target = t.target ∧
        (u.position = if on then ((t.advanced timer total).toNat : Int) % t.target
          else t.position) ∧
        u.counter.toNat = if on then
            (t.counter.toNat + ((t.advanced timer total).toNat / t.target).toNat) % 16
          else t.counter.toNat := by
  unfold Timer.update
  cases on
  · exact Returns.ret ⟨h.move h.position_gt h.position_lt _, rfl, rfl, rfl⟩
  · dsimp only
    generalize t.advanced timer total = position
    generalize t.cycleLatch + _ = latch
    by_cases hlt : (position.toNat : Int) < t.target
    · have hstored := h.narrow_position (x := position.toNat) (by omega) hlt
      have hsame : (position.toNat : Int) % t.target = position.toNat :=
        Int.emod_eq_of_lt (by omega) hlt
      have hnone : (position.toNat : Int) / t.target = 0 := Int.ediv_eq_zero_of_lt (by omega) hlt
      have hcounter := h.counter_le
      rw [Bool.not_true, if_neg Bool.false_ne_true, if_pos ((h.lt_target_iff _).mpr hlt), hstored]
      refine Returns.ret ⟨h.move (by omega) hlt _, rfl, hsame.symm, ?_⟩
      rw [if_pos rfl, hnone, Int.toNat_zero]
      dsimp only
      omega
    · rw [Bool.not_true, if_neg Bool.false_ne_true, if_neg (fun hp => hlt ((h.lt_target_iff _).mp hp))]
      exact h.wrap _ _ position

/-- Starting a timer keeps the invariant. -/
theorem start (h : TimerInv t) (timer : Fin 3) (total : BitVec 32) :
    TimerInv (t.start timer total) := by
  have hcleared : TimerInv { t with counter := 0 } := h.setCounter (Nat.zero_le 15)
  exact hcleared.move (by decide) h.target_pos _

/-- **A new target.**  A position at or above it goes back by 256, to a negative
number that sixteen bits hold. -/
theorem setTarget (h : TimerInv t) {target : Int} (hpos : 1 ≤ target) (hle : target ≤ 256) :
    let u := { t with target := target }
    let w := if target ≤ t.position then { u with position := narrow 15 (t.position - 256) } else u
    TimerInv w ∧ w.target = target ∧
      w.position = if target ≤ t.position then t.position - 256 else t.position := by
  have hlow := h.position_gt
  dsimp only
  by_cases hat : target ≤ t.position
  · have hstored := h.narrow_position (x := t.position - 256) (by omega)
      (by linarith [h.position_lt])
    rw [if_pos hat, if_pos hat, hstored]
    have hback : t.position - 256 < target := by linarith [h.position_lt, h.target_le]
    exact ⟨⟨hpos, hle, h.counter_le, by simp only; omega, hback⟩, rfl, rfl⟩
  · rw [if_neg hat, if_neg hat]
    exact ⟨⟨hpos, hle, h.counter_le, hlow, not_le.mp hat⟩, rfl, rfl⟩

/-- Writing a target keeps the invariant, and moves the position only from
beyond the new target. -/
theorem writeTarget (h : TimerInv t) (timer : Fin 3) (on : Bool) (total : BitVec 32)
    (data : Byte) :
    Returns (t.writeTarget timer on total data) fun w =>
      TimerInv w ∧ (w = t ∨ ∃ u, t.update timer on total = some u ∧
        w.position = if w.target ≤ u.position then u.position - 256 else u.position) := by
  unfold Timer.writeTarget
  split
  · exact Returns.ret ⟨h, Or.inl rfl⟩
  · obtain ⟨u, hu, hinv, -⟩ := h.update timer on total
    rw [hu]
    have htarget : 1 ≤ (if data ≠ 0 then (data.toNat : Int) else 256) ∧
        (if data ≠ 0 then (data.toNat : Int) else 256) ≤ 256 := by
      have hlt := data.isLt
      split
      · rename_i hdata
        have hne : data.toNat ≠ 0 := fun hz => hdata (BitVec.eq_of_toNat_eq hz)
        omega
      · omega
    obtain ⟨hw, hset, hposition⟩ := hinv.setTarget htarget.1 htarget.2
    refine Returns.ret ⟨hw, Or.inr ⟨u, rfl, ?_⟩⟩
    rw [hposition, hset]

/-- Reading a counter keeps the invariant. -/
theorem readCounter (h : TimerInv t) (timer : Fin 3) (on : Bool) (total : BitVec 32) :
    Returns (t.readCounter timer on total) fun p => TimerInv p.2 := by
  unfold Timer.readCounter
  obtain ⟨u, hu, hinv, -⟩ := h.update timer on total
  rw [hu]
  exact Returns.ret (hinv.setCounter (Nat.zero_le 15))

end TimerInv

end OpenSpc
