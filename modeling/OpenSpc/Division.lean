import Mathlib.Data.Nat.Bitwise
import OpenSpc.CpuArith
import OpenSpc.Doubling

/-!
# DIV

DIV rotates a word of 17 bits nine times and subtracts X from its upper half
whenever an exclusive or says so.  When the quotient fits in nine bits, the
halves are the quotient and the remainder.  When it does not, the passes divide
something else, and the result is still determined.
-/

namespace OpenSpc

open Doubling (double)

/-! ## One pass -/

/-- The rotation. -/
theorem divRotate_toNat {v : BitVec 32} (hv : v.toNat < 2 ^ 17) :
    (if (v <<< 1) &&& 0x20000 ≠ 0 then ((v <<< 1) &&& 0x1FFFF) ||| 1 else v <<< 1).toNat =
      if 2 ^ 16 ≤ v.toNat then 2 * v.toNat - 2 ^ 17 + 1 else 2 * v.toNat := by
  have hshift : (v <<< 1).toNat = 2 * v.toNat := by
    rw [BitVec.toNat_shiftLeft, Nat.shiftLeft_eq, pow_one, Nat.mul_comm, Nat.mod_eq_of_lt (by omega)]
  generalize v <<< 1 = u at *
  have htop : u &&& 0x20000 ≠ 0 ↔ 2 ^ 16 ≤ v.toNat := by
    rw [ne_eq, ← BitVec.toNat_inj, BitVec.toNat_and]
    change ¬ u.toNat &&& 2 ^ 17 = 0 ↔ _
    rw [Nat.and_two_pow, Nat.testBit_eq_decide_div_mod_eq]
    by_cases h : u.toNat / 2 ^ 17 % 2 = 1
    · rw [decide_eq_true h, Bool.toNat_true]
      omega
    · rw [decide_eq_false h, Bool.toNat_false]
      omega
  have hmask : (u &&& 0x1FFFF).toNat = u.toNat % 2 ^ 17 := by
    rw [BitVec.toNat_and]
    exact Nat.and_two_pow_sub_one_eq_mod _ 17
  have hor : (u &&& 0x1FFFF) ||| 1 = (u &&& 0x1FFFF) + 1 := by
    rw [eq_comm]
    apply BitVec.add_eq_or_of_and_eq_zero
    apply BitVec.eq_of_toNat_eq
    rw [BitVec.toNat_and, hmask]
    change _ &&& 1 = 0
    rw [Nat.and_one_is_mod]
    omega
  by_cases h : 2 ^ 16 ≤ v.toNat
  · rw [if_pos (htop.mpr h), if_pos h, hor, BitVec.toNat_add, hmask]
    change (_ + 1) % _ = _
    omega
  · rw [if_neg fun h' => h (htop.mp h'), if_neg h]
    exact hshift

/-- The exclusive or. -/
theorem divToggle_toNat (workX u : BitVec 32) :
    (if u ≥ workX then u ^^^ 1 else u).toNat =
      if workX.toNat ≤ u.toNat then if u.toNat % 2 = 0 then u.toNat + 1 else u.toNat - 1
      else u.toNat := by
  have htoggle : (u ^^^ 1).toNat = if u.toNat % 2 = 0 then u.toNat + 1 else u.toNat - 1 := by
    rw [BitVec.toNat_xor]
    change u.toNat ^^^ 1 = _
    split
    · rename_i heven
      exact Nat.xor_one_of_even (Nat.even_iff.mpr heven)
    · rename_i hodd
      exact Nat.xor_one_of_odd (Nat.odd_iff.mpr (Nat.mod_two_ne_zero.mp hodd))
  by_cases h : workX.toNat ≤ u.toNat
  · have hge : u ≥ workX := BitVec.le_def.mpr h
    rw [if_pos h, if_pos hge, htoggle]
  · have hlt : ¬ u ≥ workX := fun hge => h (BitVec.le_def.mp hge)
    rw [if_neg h, if_neg hlt]

/-- The subtraction. -/
theorem divSubtract_toNat {workX u : BitVec 32} (hx : workX.toNat < 2 ^ 17) :
    (if u &&& 1 ≠ 0 then (u - workX) &&& 0x1FFFF else u).toNat =
      if u.toNat % 2 = 1 then (u.toNat + 2 ^ 17 - workX.toNat) % 2 ^ 17 else u.toNat := by
  have hbit : u &&& 1 ≠ 0 ↔ u.toNat % 2 = 1 := by
    rw [ne_eq, ← BitVec.toNat_inj, BitVec.toNat_and]
    change ¬ u.toNat &&& 1 = 0 ↔ _
    rw [Nat.and_one_is_mod]
    omega
  by_cases h : u.toNat % 2 = 1
  · rw [if_pos (hbit.mpr h), if_pos h, BitVec.toNat_and, BitVec.toNat_sub]
    change _ &&& (2 ^ 17 - 1) = _
    rw [Nat.and_two_pow_sub_one_eq_mod]
    omega
  · rw [if_neg fun h' => h (hbit.mp h'), if_neg h]

section Pass

variable {w v : BitVec 32} (hx : w.toNat < 2 ^ 17)

include hx

/-- **A pass below the divisor** doubles modulo the divisor less one. -/
theorem divPass_below (hv : v.toNat < w.toNat) :
    (divPass w v).toNat = double (w.toNat - 1) v.toNat := by
  unfold divPass
  dsimp only
  rw [divSubtract_toNat hx, divToggle_toNat, divRotate_toNat (by omega)]
  unfold double
  generalize w.toNat = m at *
  generalize v.toNat = n at *
  by_cases htop : 2 ^ 16 ≤ n
  · rw [if_pos htop, if_neg (show ¬ m ≤ 2 * n - 2 ^ 17 + 1 by omega), if_pos (by omega),
      if_neg (by omega)]
    omega
  · rw [if_neg htop]
    split_ifs <;> omega

/-- **A pass above it** doubles what is above, modulo what the divisor leaves of
the word. -/
theorem divPass_above (heven : w.toNat % 2 = 0) (hv : v.toNat < 2 ^ 17)
    (hle : w.toNat ≤ v.toNat) :
    (divPass w v).toNat + 1 =
      w.toNat + double (2 ^ 17 + 1 - w.toNat) (v.toNat + 1 - w.toNat) := by
  unfold divPass
  dsimp only
  rw [divSubtract_toNat hx, divToggle_toNat, divRotate_toNat hv]
  unfold double
  generalize w.toNat = m at *
  generalize v.toNat = n at *
  by_cases htop : 2 ^ 16 ≤ n
  · rw [if_pos htop]
    split_ifs <;> omega
  · rw [if_neg htop, if_pos (show m ≤ 2 * n by omega), if_pos (show 2 * n % 2 = 0 by omega),
      if_pos (show (2 * n + 1) % 2 = 1 by omega),
      if_pos (show 2 * (n + 1 - m) ≤ 2 ^ 17 + 1 - m by omega)]
    omega

end Pass

/-! ## Nine passes -/

/-- The divisor in place. -/
theorem workX_toNat (x : Byte) : (x.setWidth 32 <<< 9 : BitVec 32).toNat = 512 * x.toNat := by
  have hx := x.isLt
  rw [BitVec.toNat_shiftLeft, BitVec.toNat_setWidth, Nat.shiftLeft_eq]
  omega

section Loop

variable {x : Byte} {n : Nat}

/-- Below `512 x` the passes double modulo `512 x - 1`. -/
theorem divLoop_below (n : Nat) :
    ∀ {v : BitVec 32}, v.toNat < 512 * x.toNat →
      (divLoop (x.setWidth 32 <<< 9) n v).toNat = (double (512 * x.toNat - 1))^[n] v.toNat := by
  have hx := x.isLt
  have hw := workX_toNat x
  induction n with
  | zero => intro v _; rfl
  | succ n ih =>
      intro v hv
      have hpass := divPass_below (w := x.setWidth 32 <<< 9) (v := v) (by omega) (by omega)
      have hle := Doubling.double_le (D := 512 * x.toNat - 1) (w := v.toNat) (by omega)
      rw [hw] at hpass
      rw [Function.iterate_succ_apply, ← hpass]
      exact ih (by omega)

/-- From `512 x` on the passes double the distance to it. -/
theorem divLoop_above (n : Nat) :
    ∀ {v : BitVec 32}, 512 * x.toNat ≤ v.toNat → v.toNat < 2 ^ 17 →
      (divLoop (x.setWidth 32 <<< 9) n v).toNat + 1 =
        512 * x.toNat + (double (2 ^ 17 + 1 - 512 * x.toNat))^[n] (v.toNat + 1 - 512 * x.toNat) := by
  have hx := x.isLt
  have hw := workX_toNat x
  induction n with
  | zero =>
      intro v hv _
      change v.toNat + 1 = _ + (v.toNat + 1 - _)
      omega
  | succ n ih =>
      intro v hv hlt
      have hpass := divPass_above (w := x.setWidth 32 <<< 9) (v := v) (by omega) (by omega) hlt
        (by omega)
      rw [hw] at hpass
      have hbetween := Doubling.double_between (D := 2 ^ 17 + 1 - 512 * x.toNat)
        (w := v.toNat + 1 - 512 * x.toNat) (by omega) (by omega) (by omega)
      have hnext : double (2 ^ 17 + 1 - 512 * x.toNat) (v.toNat + 1 - 512 * x.toNat) =
          (divPass (x.setWidth 32 <<< 9) v).toNat + 1 - 512 * x.toNat := by omega
      rw [Function.iterate_succ_apply, hnext]
      exact ih (by omega) (by omega)

end Loop

/-! ## The instruction -/

/-- The number in Y and A. -/
theorem ya_toNat (r : CpuRegs) : r.ya.toNat = 256 * r.y.toNat + r.a.toNat := by
  have ha := r.a.isLt
  unfold CpuRegs.ya
  rw [BitVec.toNat_append, ← Nat.shiftLeft_add_eq_or_of_lt ha, Nat.shiftLeft_eq]
  omega

/-- What is read off the word behind the passes. -/
theorem opDiv_halves (r : CpuRegs) :
    let v := divLoop (r.x.setWidth 32 <<< 9) 9 (r.ya.setWidth 32)
    (opDiv r).y.toNat = v.toNat / 512 % 256 ∧ (opDiv r).a.toNat = v.toNat % 256 ∧
      ((opDiv r).flag .v = true ↔ v.toNat / 256 % 2 = 1) := by
  intro v
  have hlow : (v &&& 0xFF).toNat = v.toNat % 256 := by
    rw [BitVec.toNat_and]
    exact Nat.and_two_pow_sub_one_eq_mod _ 8
  have hhigh : ((v >>> 9) &&& 0xFF).toNat = v.toNat / 512 % 256 := by
    rw [BitVec.toNat_and, BitVec.toNat_ushiftRight, Nat.shiftRight_eq_div_pow]
    exact Nat.and_two_pow_sub_one_eq_mod _ 8
  have hword : ((((v >>> 9) &&& 0xFF) <<< 8) + (v &&& 0xFF)).toNat =
      v.toNat / 512 % 256 * 256 + v.toNat % 256 := by
    rw [BitVec.toNat_add, BitVec.toNat_shiftLeft, hlow, hhigh, Nat.shiftLeft_eq]
    omega
  have hy : (opDiv r).y =
      (((((v >>> 9) &&& 0xFF) <<< 8) + (v &&& 0xFF)).setWidth 16).extractLsb' 8 8 := rfl
  have ha : (opDiv r).a =
      (((((v >>> 9) &&& 0xFF) <<< 8) + (v &&& 0xFF)).setWidth 16).setWidth 8 := rfl
  have hbit : v &&& 0x100 ≠ 0 ↔ v.toNat / 256 % 2 = 1 := by
    rw [ne_eq, ← BitVec.toNat_inj, BitVec.toNat_and]
    change ¬ v.toNat &&& 2 ^ 8 = 0 ↔ _
    rw [Nat.and_two_pow, Nat.testBit_eq_decide_div_mod_eq]
    by_cases h : v.toNat / 2 ^ 8 % 2 = 1
    · rw [decide_eq_true h, Bool.toNat_true]
      omega
    · rw [decide_eq_false h, Bool.toNat_false]
      omega
  refine ⟨?_, ?_, ?_⟩
  · rw [hy, BitVec.extractLsb'_toNat, BitVec.toNat_setWidth, hword, Nat.shiftRight_eq_div_pow]
    omega
  · rw [ha, BitVec.toNat_setWidth, BitVec.toNat_setWidth, hword]
    omega
  · rw [← hbit]
    change CpuRegs.flag .v (if v &&& 0x100 ≠ 0 then CpuRegs.setFlagSpc .v _
      else CpuRegs.clrFlagSpc .v _) = true ↔ _
    by_cases h : v &&& 0x100 ≠ 0
    · rw [if_pos h]
      exact iff_of_true rfl h
    · rw [if_neg h]
      exact iff_of_false Bool.false_ne_true h

/-- DIV divides, if the quotient has nine bits: A is its low byte, V its
high bit and Y the remainder. -/
theorem opDiv_below (r : CpuRegs) (h : r.y.toNat < 2 * r.x.toNat) :
    (opDiv r).y.toNat = r.ya.toNat % r.x.toNat ∧
      (opDiv r).a.toNat = r.ya.toNat / r.x.toNat % 256 ∧
      ((opDiv r).flag .v = true ↔ 256 ≤ r.ya.toNat / r.x.toNat) := by
  have ha := r.a.isLt
  have hx := r.x.isLt
  have hya := ya_toNat r
  have hwide : (r.ya.setWidth 32).toNat = r.ya.toNat := by
    rw [BitVec.toNat_setWidth]
    omega
  have hloop := divLoop_below (x := r.x) 9 (v := r.ya.setWidth 32) (by omega)
  rw [hwide] at hloop
  obtain ⟨k, hk, hsum, hle⟩ := Doubling.iterate_double (D := 512 * r.x.toNat - 1) 9
    (w := r.ya.toNat) (by omega)
  obtain ⟨rfl, hv⟩ := Doubling.quotient (B := 512) hk (by omega) hsum hle
  rw [← hloop] at hv
  have hmod : r.ya.toNat % r.x.toNat < r.x.toNat := Nat.mod_lt _ (by omega)
  obtain ⟨hy, hal, hflag⟩ := opDiv_halves r
  rw [hflag, hy, hal, hv]
  generalize r.ya.toNat % r.x.toNat = m at *
  generalize r.ya.toNat / r.x.toNat = q at *
  omega

/-- DIV beyond nine bits divides what is too much by what X leaves of 256,
and counts A down and Y up. -/
theorem opDiv_above (r : CpuRegs) (h : 2 * r.x.toNat ≤ r.y.toNat) :
    (opDiv r).y.toNat = r.x.toNat + (r.ya.toNat - 512 * r.x.toNat) % (256 - r.x.toNat) ∧
      (opDiv r).a.toNat = 255 - (r.ya.toNat - 512 * r.x.toNat) / (256 - r.x.toNat) ∧
      (opDiv r).flag .v = true := by
  have ha := r.a.isLt
  have hx := r.x.isLt
  have hyl := r.y.isLt
  have hya := ya_toNat r
  have hwide : (r.ya.setWidth 32).toNat = r.ya.toNat := by
    rw [BitVec.toNat_setWidth]
    omega
  have hloop := divLoop_above (x := r.x) 9 (v := r.ya.setWidth 32) (by omega) (by omega)
  rw [hwide] at hloop
  have hD : 2 ^ 17 + 1 - 512 * r.x.toNat = 512 * (256 - r.x.toNat) + 1 := by omega
  have hw : r.ya.toNat + 1 - 512 * r.x.toNat = r.ya.toNat - 512 * r.x.toNat + 1 := by omega
  rw [hD, hw] at hloop
  obtain ⟨k, hk, hsum, -⟩ := Doubling.iterate_double (D := 512 * (256 - r.x.toNat) + 1) 9
    (w := r.ya.toNat - 512 * r.x.toNat + 1) (by omega)
  obtain ⟨hpos, hlt⟩ := Doubling.iterate_between (D := 512 * (256 - r.x.toNat) + 1)
    (w := r.ya.toNat - 512 * r.x.toNat + 1) (by omega) (by omega) (by omega) 9
  obtain ⟨rfl, hv⟩ := Doubling.complement (B := 512) hk (by omega) hsum hpos (by omega)
  have hmod : (r.ya.toNat - 512 * r.x.toNat) % (256 - r.x.toNat) < 256 - r.x.toNat :=
    Nat.mod_lt _ (by omega)
  have hdiv : (r.ya.toNat - 512 * r.x.toNat) / (256 - r.x.toNat) < 256 := by
    rw [Nat.div_lt_iff_lt_mul (by omega)]
    omega
  obtain ⟨hy, hal, hflag⟩ := opDiv_halves r
  rw [hflag, hy, hal]
  generalize (r.ya.toNat - 512 * r.x.toNat) % (256 - r.x.toNat) = m at *
  generalize (r.ya.toNat - 512 * r.x.toNat) / (256 - r.x.toNat) = q at *
  omega

/-- **DIV on every input**: the quotient and the remainder of YA by X if Y is
less than 2 X.  Otherwise what YA exceeds 512 X by is divided by 256 - X; A is
255 minus the quotient, Y is X plus the remainder. -/
theorem opDiv_spec (r : CpuRegs) :
    if r.y.toNat < 2 * r.x.toNat then
      (opDiv r).y.toNat = r.ya.toNat % r.x.toNat ∧
        (opDiv r).a.toNat = r.ya.toNat / r.x.toNat % 256 ∧
        ((opDiv r).flag .v = true ↔ 256 ≤ r.ya.toNat / r.x.toNat)
    else
      (opDiv r).y.toNat = r.x.toNat + (r.ya.toNat - 512 * r.x.toNat) % (256 - r.x.toNat) ∧
        (opDiv r).a.toNat = 255 - (r.ya.toNat - 512 * r.x.toNat) / (256 - r.x.toNat) ∧
        (opDiv r).flag .v = true := by
  split
  · rename_i h
    exact opDiv_below r h
  · rename_i h
    exact opDiv_above r (not_lt.mp h)

end OpenSpc
