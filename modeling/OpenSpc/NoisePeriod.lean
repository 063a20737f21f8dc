import OpenSpc.DspRun
import OpenSpc.ShiftRegister
import Mathlib.Data.Nat.Count

/-!
# The noise generator

The noise level is a shift register of fifteen bits whose top bit is the sum of
the two bits that leave it.  That is the recurrence of `x ^ 15 + x + 1`, and
since 32767 is 7 * 31 * 151, three iterates that do not come back show that it
runs through every non-zero state before it repeats.  FLG sets how often the
register is clocked; nothing but a reset sets the level.
-/

namespace OpenSpc

open ByteMask (bit)
open ShiftRegister

/-! ## The register -/

/-- The level has 15 bits. -/
theorem noiseNext_lt {x : Nat} (h : x < 2 ^ 15) : noiseNext x < 2 ^ 15 := by
  unfold noiseNext
  apply Nat.or_lt_two_pow
  · exact Nat.and_lt_two_pow _ (by decide)
  · rw [Nat.shiftRight_eq_div_pow]
    omega

/-- The bits of the next level: the masked part is the top bit alone. -/
theorem noiseNext_testBit (x i : Nat) :
    (noiseNext x).testBit i =
      (decide (i = 14) && (x.testBit 1 ^^ x.testBit 0) || x.testBit (i + 1)) := by
  have hmask : Nat.testBit 0x4000 i = decide (14 = i) := Nat.testBit_two_pow (n := 14)
  unfold noiseNext
  rw [Nat.testBit_or, Nat.testBit_and, Nat.testBit_xor, Nat.testBit_shiftLeft,
    Nat.testBit_shiftLeft, Nat.testBit_shiftRight, hmask, Nat.add_comm 1 i]
  by_cases hi : i = 14
  · subst hi
    simp
  · simp [hi, Ne.symm hi]

/-- The noise is a shift register of 15 bits. -/
theorem noiseNext_shifts : Shifts 15 noiseNext where
  lt := fun _ => noiseNext_lt
  shift := by
    intro x i hi
    rw [noiseNext_testBit, decide_eq_false (by omega), Bool.false_and, Bool.false_or]

/-- The bit fed back. -/
theorem noiseNext_top {x : Nat} (h : x < 2 ^ 15) :
    (noiseNext x).testBit 14 = (x.testBit 1 ^^ x.testBit 0) := by
  rw [noiseNext_testBit, Nat.testBit_lt_two_pow h]
  simp

/-- What `k` clocks make of the level a reset leaves. -/
def noiseAfter (k : Nat) : Nat := noiseNext^[k] 0x4000

/-- The level has 15 bits after any number of clocks. -/
theorem noiseAfter_lt (k : Nat) : noiseAfter k < 2 ^ 15 :=
  noiseNext_shifts.iterate_lt (by decide) k

/-- After 32767 clocks the register is back. -/
theorem noiseAfter_period : noiseNext^[32767] 0x4000 = 0x4000 := by
  have hrecurs : Recurs 15 1 0 (stream noiseNext 0x4000) :=
    noiseNext_shifts.recurs (w := 14) (by decide) (by decide) (by decide)
      fun x hx => noiseNext_top hx
  apply noiseNext_shifts.iterate_eq (n := 0) (by decide)
  intro i _
  rw [Nat.add_comm 32767 i, hrecurs.period, Nat.zero_add]

/-- After none of the largest proper divisors of that many it is. -/
theorem noiseNext_minimalPeriod : Function.minimalPeriod noiseNext 0x4000 = 32767 := by
  apply minimalPeriod_eq noiseAfter_period
  intro p hp hdvd
  have hfactor : p = 7 ∨ p = 31 ∨ p = 151 := by
    rw [show 32767 = 7 * 31 * 151 by decide, hp.dvd_mul, hp.dvd_mul,
      Nat.prime_dvd_prime_iff_eq hp (by decide), Nat.prime_dvd_prime_iff_eq hp (by decide),
      Nat.prime_dvd_prime_iff_eq hp (by norm_num)] at hdvd
    omega
  rcases hfactor with rfl | rfl | rfl <;> decide +kernel

/-- Two levels are the same exactly if the clocks between them are a multiple of
the period. -/
theorem noiseAfter_eq_iff (k k' : Nat) :
    noiseAfter k = noiseAfter k' ↔ k ≡ k' [MOD 32767] := by
  rw [← noiseNext_minimalPeriod]
  exact iterate_eq_iff (by rw [noiseNext_minimalPeriod]; decide) k k'

/-- The register never empties. -/
theorem noiseAfter_pos (k : Nat) : 0 < noiseAfter k :=
  Nat.pos_of_ne_zero
    (iterate_ne_fixed (z := 0) (by decide) noiseAfter_period (by decide) (by decide) k)

/-! ## The generator in a run -/

section Update

variable (host : Nat → Byte) (s : Dsp)

/-- What the counter is left at in this update, unless that clocks the register. -/
def noiseLeft : Int := (noiseEntry s).1 - envCnt (((prelude s).dspRegs 0x6C).toNat % 2 ^ 5)

/-- This update clocks the register. -/
def NoiseTick : Prop := noiseLeft s ≤ 0

instance : Decidable (NoiseTick s) := inferInstanceAs (Decidable (_ ≤ _))

/-- Nothing after the prelude touches the generator. -/
theorem dspNext_noise :
    ((dspNext host s).noiseCnt, (dspNext host s).noiseLev) =
      if NoiseTick s then (cntInit, noiseNext (noiseEntry s).2)
      else (noiseLeft s, (noiseEntry s).2) := by
  have hloop := voiceLoop_frame host (prelude s, freshLocals) 8
  obtain ⟨-, -, -, -, hcnt, hlev, -⟩ := echoUnit_frame host true
    (voiceLoop host (prelude s, freshLocals) 8).1 (voiceLoop host (prelude s, freshLocals) 8).2
  have hcnt' : (dspNext host s).noiseCnt = (prelude s).noiseCnt := hcnt.trans hloop.noiseCnt
  have hlev' : (dspNext host s).noiseLev = (prelude s).noiseLev := hlev.trans hloop.noiseLev
  rw [hcnt', hlev']
  exact prelude_noise s

/-- The level moves on by a clock or not at all. -/
theorem dspNext_noiseLev :
    (dspNext host s).noiseLev = noiseNext^[if NoiseTick s then 1 else 0] (noiseEntry s).2 := by
  have hlev := congrArg Prod.snd (dspNext_noise host s)
  split
  · rename_i htick
    rw [if_pos htick] at hlev
    exact hlev
  · rename_i htick
    rw [if_neg htick] at hlev
    exact hlev

/-- The counter stays in its range. -/
theorem dspNext_noiseCnt (h : 0 ≤ s.noiseCnt ∧ s.noiseCnt ≤ cntInit) :
    0 ≤ (dspNext host s).noiseCnt ∧ (dspNext host s).noiseCnt ≤ cntInit := by
  have hentry : 0 ≤ (noiseEntry s).1 ∧ (noiseEntry s).1 ≤ cntInit := by
    unfold noiseEntry
    split
    · decide
    · exact h
  have hrate := (envCnt_bounds (((prelude s).dspRegs 0x6C).toNat % 2 ^ 5)).1
  have hcnt : (dspNext host s).noiseCnt = if NoiseTick s then cntInit else noiseLeft s := by
    have hnoise := congrArg Prod.fst (dspNext_noise host s)
    rw [apply_ite Prod.fst] at hnoise
    exact hnoise
  rw [hcnt]
  split
  · decide
  · rename_i htick
    have hleft : noiseLeft s ≤ (noiseEntry s).1 := Int.sub_le_self _ hrate
    unfold NoiseTick at htick
    omega

end Update

/-- Clocks of the register in the updates from `r` to `t`. -/
def noiseTicks (s : Nat → Dsp) (r t : Nat) : Nat := Nat.count (fun d => NoiseTick (s (r + d))) (t + 1 - r)

/-- The clocks of the first update. -/
theorem noiseTicks_self (s : Nat → Dsp) (r : Nat) :
    noiseTicks s r r = if NoiseTick (s r) then 1 else 0 := by
  unfold noiseTicks
  rw [Nat.add_sub_cancel_left, Nat.count_succ, Nat.count_zero, Nat.zero_add, Nat.add_zero]

/-- The clocks of one update more. -/
theorem noiseTicks_succ (s : Nat → Dsp) {r t : Nat} (h : r ≤ t) :
    noiseTicks s r (t + 1) =
      (if NoiseTick (s (t + 1)) then 1 else 0) + noiseTicks s r t := by
  unfold noiseTicks
  rw [show t + 1 + 1 - r = t + 1 - r + 1 by omega, Nat.count_succ,
    show r + (t + 1 - r) = t + 1 by omega, Nat.add_comm]

section Runs

variable {host : Nat → Byte} {s : Nat → Dsp} {r t : Nat}

/-- **The level counts clocks**, by induction on the updates since the reset, of
which the first clocks the level that the reset left. -/
theorem noiseLev_after (hrun : IsDspRun host s) (h : SinceReset s r t) :
    (dspNext host (s t)).noiseLev = noiseAfter (noiseTicks s r t) := by
  unfold noiseAfter
  refine h.induction (P := fun t =>
    (dspNext host (s t)).noiseLev = noiseNext^[noiseTicks s r t] 0x4000) ?_ fun u hle hquiet ih => ?_
  · have hentry : (noiseEntry (s r)).2 = 0x4000 := by
      unfold noiseEntry
      rcases h.reset with hset | ⟨rfl, s₀, hw⟩
      · rw [if_pos hset]
      · rw [hw.noise.2]
        split <;> rfl
    rw [dspNext_noiseLev, noiseTicks_self, hentry]
  · have hentry : (noiseEntry (s (u + 1))).2 = (dspNext host (s u)).noiseLev := by
      unfold noiseEntry
      rw [if_neg (by simp [hquiet])]
      exact (hrun u).noise.2
    rw [dspNext_noiseLev, noiseTicks_succ s hle, Function.iterate_add_apply, hentry, ih]

/-- The counter in every state of a run. -/
theorem noiseCnt_bounds (hrun : IsDspRun host s) (h0 : ∃ s₀, BusWrite (dspReset s₀) (s 0))
    (t : Nat) : 0 ≤ (s t).noiseCnt ∧ (s t).noiseCnt ≤ cntInit := by
  refine hrun.invariant (I := fun s => 0 ≤ s.noiseCnt ∧ s.noiseCnt ≤ cntInit)
    (fun s h => dspNext_noiseCnt host s h) (fun s s' hw h => ?_) ?_ t
  · rw [hw.noise.1]
    exact h
  · obtain ⟨s₀, hw⟩ := h0
    have hreset : (dspReset s₀).noiseCnt = 0 := rfl
    rw [hw.noise.1, hreset]
    decide

end Runs

/-- A noise generator that never locks up and has full period. -/
structure NoiseGenerator (host : Nat → Byte) (s : Nat → Dsp) : Prop where
  level : ∀ t, 0 < (dspNext host (s t)).noiseLev ∧ (dspNext host (s t)).noiseLev < 2 ^ 15
  started : ∀ t, ∃ r, SinceReset s r t
  clocked : ∀ r t, SinceReset s r t →
    (dspNext host (s t)).noiseLev = noiseAfter (noiseTicks s r t)
  period : ∀ k k', noiseAfter k = noiseAfter k' ↔ k ≡ k' [MOD 32767]
  counter : ∀ t, 0 ≤ (s t).noiseCnt ∧ (s t).noiseCnt ≤ 0x7800

/-- **The noise has full period.**  In every run from a reset, whatever rates the
program sets. -/
theorem noise_full_period {host : Nat → Byte} {s : Nat → Dsp} (hrun : IsDspRun host s)
    (h0 : ∃ s₀, BusWrite (dspReset s₀) (s 0)) : NoiseGenerator host s where
  level := by
    intro t
    obtain ⟨r, hr⟩ := SinceReset.exists_start h0 t
    rw [noiseLev_after hrun hr]
    exact ⟨noiseAfter_pos _, noiseAfter_lt _⟩
  started := SinceReset.exists_start h0
  clocked := fun _ _ hr => noiseLev_after hrun hr
  period := noiseAfter_eq_iff
  counter := noiseCnt_bounds hrun h0

/-! ## The fastest noise -/

/-- FLG asks for a clock in every update. -/
def hissWrite (_ : Nat) (s : Dsp) : Dsp := s.setReg 0x6C 0x1F

/-- The run with this traffic. -/
def hissRun (host : Nat → Byte) : Nat → Dsp := drivenRun host hissWrite

section Hiss

variable (host : Nat → Byte)

/-- The states follow one another as in a run of the DSP. -/
theorem hissRun_isRun : IsDspRun host (hissRun host) := drivenRun_isRun fun _ _ => rfl

/-- FLG asks for the highest rate. -/
theorem hissRun_flg (t : Nat) : (hissRun host t).dspRegs 0x6C = 0x1F :=
  drivenRun_reg (f := fun _ => 0x1F) (fun _ s => Function.update_self 0x6C 0x1F s.dspRegs) t

/-- No update of this run resets. -/
theorem hissRun_sinceReset (t : Nat) : SinceReset (hissRun host) 0 t where
  le := Nat.zero_le t
  reset := Or.inr ⟨rfl, zeroDsp, rfl⟩
  quiet := by
    intro u _ _
    rw [hissRun_flg]
    decide

/-- A whole period is counted off in each update. -/
theorem hissRun_ticks (t : Nat) : noiseTicks (hissRun host) 0 t = t + 1 := by
  have htick (u : Nat) : NoiseTick (hissRun host u) := by
    have hcnt := (noiseCnt_bounds (hissRun_isRun host) ⟨zeroDsp, rfl⟩ u).2
    have hrate : envCnt ((0x1F : Byte).toNat % 2 ^ 5) = cntInit := rfl
    have hquiet : bit (0x1F : Byte) 7 = false := rfl
    unfold NoiseTick noiseLeft noiseEntry
    rw [prelude_flg, hissRun_flg, hquiet, if_neg (by decide), if_neg (by decide), hrate]
    exact sub_nonpos.mpr hcnt
  unfold noiseTicks
  rw [Nat.sub_zero]
  exact Nat.count_of_forall fun n _ => htick (0 + n)

end Hiss

/-- Clocked in every update, the level comes back after 32767 updates, not after
one. -/
theorem hissRun_period :
    (dspNext (fun _ => 0) (hissRun (fun _ => 0) 32767)).noiseLev =
        (dspNext (fun _ => 0) (hissRun (fun _ => 0) 0)).noiseLev ∧
      (dspNext (fun _ => 0) (hissRun (fun _ => 0) 1)).noiseLev ≠
        (dspNext (fun _ => 0) (hissRun (fun _ => 0) 0)).noiseLev := by
  have hnoise := noise_full_period (hissRun_isRun fun _ => 0) ⟨zeroDsp, rfl⟩
  have hlevel (t : Nat) : (dspNext (fun _ => 0) (hissRun (fun _ => 0) t)).noiseLev =
      noiseAfter (t + 1) := by
    rw [hnoise.clocked 0 t (hissRun_sinceReset _ t), hissRun_ticks]
  rw [hlevel, hlevel, hlevel, Ne, hnoise.period, hnoise.period]
  decide

end OpenSpc
