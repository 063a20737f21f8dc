import OpenSpc.MixerInvariant
import OpenSpc.Resampler
import OpenSpc.VoiceMix

/-!
# The integers of the mixer

After the voices are decoded, `DSP_Update` computes in `int`: the interpolation,
the envelope and volumes of each voice, the accumulators, the filter of the
echo and its gains.  All of it stays far below 32 bits but for the last step.
The filter is not saturated, so that its sum can reach 25 bits on top of the
sign, and seven more from EVOL or EFB are too many.
-/

namespace OpenSpc

open ByteMask (bit)
open Narrow (Fits)

/-! ## What is computed -/

/-- `x`, `x >> 11` and `( x >> 11 ) & ~1`. -/
def shiftInts (x : Int) : List Int := [x, x / 2 ^ 11, shiftEven x]

/-- The interpolation: the position, the four products with their shifts, and
the sums. -/
def gaussInts (vp : VoiceState) : List Int :=
  let vl := vp.mixfrac / 2 ^ 4
  let vr := shiftEven (gaussTap vp 0) + shiftEven (gaussTap vp 1)
  let vr' := vr + shiftEven (gaussTap vp 2)
  [vl, -vl] ++ shiftInts (gaussTap vp 0) ++ shiftInts (gaussTap vp 1) ++ shiftInts (gaussTap vp 2)
    ++ shiftInts (gaussTap vp 3) ++ [vr, vr', short vr' + shiftEven (gaussTap vp 3)]

/-- What the source of a voice is computed from. -/
def sourceInts (s : Dsp) (v : Fin 8) (vp : VoiceState) : List Int :=
  if bit (s.dspRegs 0x3D) v then [(s.noiseLev : Int) * 2] else gaussInts vp

/-- The products of a voice with its volumes, and the accumulators after it. -/
def mixInts (v : Fin 8) (s : Dsp) (outx : Int) (x : Locals) : List Int :=
  let y := mixVoice v s outx x
  [(s.dspRegs (16 * v)).toInt * outx, voiceVolume s (16 * v) outx,
    (s.dspRegs (16 * v + 1)).toInt * outx, voiceVolume s (16 * v + 1) outx,
    y.outl, y.outr, y.echol, y.echor]

/-- What `playVoice` computes after the decode loop. -/
def playInts (host : Nat → Byte) (v : Fin 8) (envx : Int) (s : Dsp) (x : Locals) : List Int :=
  let pitch := voicePitch s v x.outx
  let vp := { s.voiceState v with pitch := pitch }
  let d := brrDecode ⟨host, s.spcRam⟩ (dirEntry s v) v vp
  let s := applyDecode v d s
  let src := voiceSource s v d.vp
  let s := s.setVoice v { d.vp with mixfrac := d.vp.mixfrac + pitch }
  let outx := shiftEven (src * envx)
  let s := s.setReg (16 * v + 9) (BitVec.ofInt 8 (outx / 2 ^ 8))
  sourceInts s v d.vp ++ shiftInts (src * envx) ++ [outx / 2 ^ 8] ++ mixInts v s outx x

/-- What a pass computes after the decode loop: nothing, if the voice is silent. -/
def bodyInts (host : Nat → Byte) (v : Fin 8) (p : Dsp × Locals) : List Int :=
  let s := (keyOnVoice host v p.1).1
  let s := (acceptVoice v s).1
  let s := (keyOffVoice v s).1
  if bit s.keys v then
    match advanceEnvelope (s.dspRegs (16 * v + 5)) (s.dspRegs (16 * v + 6))
        (s.dspRegs (16 * v + 7)) (s.voiceState v) with
    | none => []
    | some (vp, envxReg) =>
        if vp.envx < 0 then []
        else playInts host v vp.envx ((s.setVoice v vp).setReg (16 * v + 8) envxReg) p.2
  else []

/-- The eight taps of the filter, and the sum after each. -/
def firInts (s : Dsp) (buf : Fin 8 → Int) : List Int :=
  (List.range 8).flatMap fun k =>
    [buf (s.firPtr + Fin.ofNat 8 k) * (s.dspRegs (0x7F - 16 * k)).toInt, firAcc s buf k]

/-- One side of the output: master volume and echo volume. -/
def mainInts (s : Dsp) (acc fir : Int) (mvol evol : Nat) : List Int :=
  [acc * (s.dspRegs mvol).toInt, acc * (s.dspRegs mvol).toInt / 2 ^ 7,
    fir * (s.dspRegs evol).toInt, fir * (s.dspRegs evol).toInt / 2 ^ 14,
    mainOut s acc fir mvol evol]

/-- One side of the feedback. -/
def feedbackInts (s : Dsp) (acc fir : Int) : List Int :=
  [fir * (s.dspRegs 0x0D).toInt, fir * (s.dspRegs 0x0D).toInt / 2 ^ 14,
    acc + fir * (s.dspRegs 0x0D).toInt / 2 ^ 14]

/-- What the echo unit computes. -/
def echoInts (host : Nat → Byte) (s : Dsp) (x : Locals) : List Int :=
  let s := echoRead host s
  let vl := firAcc s s.firLbuf 7
  let vr := firAcc s s.firRbuf 7
  firInts s s.firLbuf ++ firInts s s.firRbuf ++ mainInts s x.outl vl 0x0C 0x2C
    ++ mainInts s x.outr vr 0x1C 0x3C
    ++ if !bit (s.dspRegs 0x6C) 5 then feedbackInts s x.echol vl ++ feedbackInts s x.echor vr
      else []

/-- Every `int` of an update after the voices are decoded. -/
def mixerInts (host : Nat → Byte) (s : Dsp) : List Int :=
  let p := voiceLoop host (prelude s, freshLocals)
  (List.finRange 8).flatMap (fun v => bodyInts host v (p v)) ++ echoInts host (p 8).1 (p 8).2

/-! ## A voice -/

/-- The size of a signed byte. -/
theorem byte_abs_le (b : Byte) : |b.toInt| ≤ 2 ^ 7 := by
  have hlo := BitVec.le_toInt b
  have hhi := BitVec.toInt_lt (x := b)
  rw [abs_le]
  omega

/-- The size of a value shifted to an even one. -/
theorem shiftEven_abs_le {x a : Int} (h : |x| ≤ a) : |shiftEven x| ≤ a + 1 := by
  have hshift := abs_le.mp (Narrow.abs_ediv_le (d := 2 ^ 11) h)
  unfold shiftEven
  rw [abs_le]
  omega

/-- The steps of such a shift. -/
theorem shiftInts_fit {x a : Int} (h : |x| ≤ a) (ha : a + 1 < 2 ^ 31) :
    ∀ y ∈ shiftInts x, Fits 31 y := by
  have hle : a < 2 ^ 31 := by omega
  unfold shiftInts
  simp only [List.forall_mem_cons, List.not_mem_nil, false_imp_iff, implies_true, and_true]
  exact ⟨Narrow.fits_of_abs_le h hle, Narrow.fits_of_abs_le (Narrow.abs_ediv_le h) hle,
    Narrow.fits_of_abs_le (shiftEven_abs_le h) ha⟩

/-- No entry of the table has more than eleven bits. -/
theorem gaussAt_abs_le (i : Int) : |gaussAt i| ≤ 2 ^ 11 := by
  have hall : ∀ x ∈ gaussTable, |x| ≤ 2 ^ 11 := by decide +kernel
  unfold gaussAt
  split
  · rw [List.getD_eq_getElem?_getD]
    cases h : gaussTable[i.toNat]? with
    | none => decide
    | some x => exact hall x (List.mem_of_getElem? h)
  · decide

/-- The size of a product of the interpolation. -/
theorem gaussTap_abs_le {vp : VoiceState} (h : RingFits vp) (k : Fin 4) :
    |gaussTap vp k| ≤ 2 ^ 11 * 2 ^ 15 := by
  rw [gaussTap_index]
  exact Narrow.abs_mul_le (gaussAt_abs_le _) (h _).abs_le_pow

/-- The steps of the interpolation. -/
theorem gaussInts_fit {vp : VoiceState} (hring : RingFits vp) (hlo : -4096 ≤ vp.mixfrac)
    (hhi : vp.mixfrac < 0) : ∀ y ∈ gaussInts vp, Fits 31 y := by
  have htap (k : Fin 4) : |gaussTap vp k| ≤ 2 ^ 26 := gaussTap_abs_le hring k
  have hints (k : Fin 4) : ∀ y ∈ shiftInts (gaussTap vp k), Fits 31 y :=
    shiftInts_fit (htap k) (by norm_num)
  have heven (k : Fin 4) : |shiftEven (gaussTap vp k)| ≤ 2 ^ 26 + 1 := shiftEven_abs_le (htap k)
  have hshort (x : Int) : |short x| ≤ 2 ^ 15 := (Narrow.narrow_fits 15 x).abs_le_pow
  have htwo := Narrow.abs_add_le_add (heven 0) (heven 1)
  have hthree := Narrow.abs_add_le_add htwo (heven 2)
  have hfour := Narrow.abs_add_le_add
    (hshort (shiftEven (gaussTap vp 0) + shiftEven (gaussTap vp 1) + shiftEven (gaussTap vp 2)))
    (heven 3)
  have hvl : Fits 31 (vp.mixfrac / 2 ^ 4) ∧ Fits 31 (-(vp.mixfrac / 2 ^ 4)) := by
    unfold Fits
    omega
  unfold gaussInts
  dsimp only
  simp only [List.forall_mem_append, List.forall_mem_cons, List.not_mem_nil, false_imp_iff,
    implies_true, and_true]
  exact ⟨⟨⟨⟨⟨⟨hvl.1, hvl.2⟩, hints 0⟩, hints 1⟩, hints 2⟩, hints 3⟩,
    Narrow.fits_of_abs_le htwo (by norm_num), Narrow.fits_of_abs_le hthree (by norm_num),
    Narrow.fits_of_abs_le hfour (by norm_num)⟩

/-- The accumulators after `n` voices. -/
structure MixBound (n : Nat) (x : Locals) : Prop where
  outl : |x.outl| ≤ n * 2 ^ 15
  outr : |x.outr| ≤ n * 2 ^ 15
  echol : |x.echol| ≤ n * 2 ^ 15
  echor : |x.echor| ≤ n * 2 ^ 15

section Voice

variable {v : Fin 8} {s : Dsp} {outx : Int} {x : Locals}

/-- The size of an output times a volume. -/
theorem volume_abs_le (hout : Fits 15 outx) (i : Nat) :
    |(s.dspRegs i).toInt * outx| ≤ 2 ^ 15 * 2 ^ 7 := by
  rw [mul_comm]
  exact Narrow.abs_mul_le hout.abs_le_pow (byte_abs_le _)

/-- The size of what a voice adds to one side. -/
theorem voiceVolume_abs_le (hout : Fits 15 outx) (i : Nat) : |voiceVolume s i outx| ≤ 2 ^ 15 :=
  Narrow.abs_ediv_le_of_mul (by norm_num) (volume_abs_le hout i)

/-- A voice adds at most 15 bits to each accumulator. -/
theorem MixBound.mixVoice {n : Nat} (h : MixBound n x) (hout : Fits 15 outx) :
    MixBound (n + 1) (mixVoice v s outx x) := by
  have hvol (i : Nat) := voiceVolume_abs_le (s := s) hout i
  have hkeep {y : Int} (hy : |y| ≤ n * 2 ^ 15) : |y| ≤ (n + 1 : Nat) * 2 ^ 15 := by
    push_cast
    linarith
  have hadd {y : Int} (hy : |y| ≤ n * 2 ^ 15) (i : Nat) :
      |y + voiceVolume s i outx| ≤ (n + 1 : Nat) * 2 ^ 15 := by
    have hsum := Narrow.abs_add_le_add hy (hvol i)
    push_cast
    linarith
  obtain ⟨hl, hr, hel, her⟩ := h
  unfold OpenSpc.mixVoice
  dsimp only
  split
  · exact ⟨hkeep hl, hkeep hr, hkeep hel, hkeep her⟩
  · split
    · exact ⟨hadd hl _, hadd hr _, hadd hel _, hadd her _⟩
    · exact ⟨hadd hl _, hadd hr _, hkeep hel, hkeep her⟩

/-- The steps of mixing a voice. -/
theorem mixInts_fit {n : Nat} (hn : n < 8) (h : MixBound n x) (hout : Fits 15 outx) :
    ∀ y ∈ mixInts v s outx x, Fits 31 y := by
  obtain ⟨hl, hr, hel, her⟩ := h.mixVoice (v := v) (s := s) hout
  have hacc : ((n + 1 : Nat) : Int) * 2 ^ 15 < 2 ^ 31 := by
    push_cast
    omega
  have hvol (i : Nat) : Fits 31 (voiceVolume s i outx) :=
    Narrow.fits_of_abs_le (voiceVolume_abs_le hout i) (by norm_num)
  have hprod (i : Nat) : Fits 31 ((s.dspRegs i).toInt * outx) :=
    Narrow.fits_of_abs_le (volume_abs_le hout i) (by norm_num)
  unfold mixInts
  dsimp only
  simp only [List.forall_mem_cons, List.not_mem_nil, false_imp_iff, implies_true, and_true]
  exact ⟨hprod _, hvol _, hprod _, hvol _, Narrow.fits_of_abs_le hl hacc,
    Narrow.fits_of_abs_le hr hacc, Narrow.fits_of_abs_le hel hacc, Narrow.fits_of_abs_le her hacc⟩

end Voice

section Pass

variable {host : Nat → Byte} {v : Fin 8} {s : Dsp} {x : Locals} {envx : Int}

/-- The output of a voice before its envelope has 16 bits. -/
theorem voiceSource_fits (s : Dsp) (v : Fin 8) (vp : VoiceState) : Fits 15 (voiceSource s v vp) := by
  unfold voiceSource
  split
  · exact Narrow.narrow_fits 15 _
  · exact interpolate_fits vp

/-- The steps of that output. -/
theorem sourceInts_fit {vp : VoiceState} (hnoise : s.noiseLev < 2 ^ 15) (hring : RingFits vp)
    (hmix : -4096 ≤ vp.mixfrac ∧ vp.mixfrac < 0) : ∀ y ∈ sourceInts s v vp, Fits 31 y := by
  unfold sourceInts
  split
  · have hdouble : Fits 31 ((s.noiseLev : Int) * 2) := by
      unfold Fits
      omega
    simpa using hdouble
  · exact gaussInts_fit hring hmix.1 hmix.2

/-- **A sounding voice.** -/
theorem playInts_fit {n : Nat} (hn : n < 8) (hring : RingFits (s.voiceState v))
    (hmix : -4096 ≤ (s.voiceState v).mixfrac) (hnoise : s.noiseLev < 2 ^ 15)
    (h0 : 0 ≤ envx) (h1 : envx ≤ 0x7FF) (hx : MixBound n x) :
    ∀ y ∈ playInts host v envx s x, Fits 31 y := by
  unfold playInts
  dsimp only
  have hpitch : RingFits { s.voiceState v with pitch := voicePitch s v x.outx } := hring
  have hring' := hpitch.brrDecode ⟨host, s.spcRam⟩ (dirEntry s v) v
  have hbounds : -4096 ≤ (brrDecode ⟨host, s.spcRam⟩ (dirEntry s v) v
        { s.voiceState v with pitch := voicePitch s v x.outx }).vp.mixfrac ∧
      (brrDecode ⟨host, s.spcRam⟩ (dirEntry s v) v
        { s.voiceState v with pitch := voicePitch s v x.outx }).vp.mixfrac < 0 :=
    brrDecode_mixfrac_bounds _ _ _ hmix
  generalize brrDecode _ _ _ _ = d at *
  have hlev := (applyDecode_frame v s d).noiseLev
  generalize applyDecode v d s = t at *
  have hsrc := voiceSource_fits t v d.vp
  have hout : Fits 15 (shiftEven (voiceSource t v d.vp * envx)) := shiftEven_fits hsrc h0 h1
  have henv : |envx| ≤ 2 ^ 11 := by
    rw [abs_le]
    omega
  have hhigh : Fits 31 (shiftEven (voiceSource t v d.vp * envx) / 2 ^ 8) :=
    Narrow.fits_of_abs_le (Narrow.abs_ediv_le hout.abs_le_pow) (by norm_num)
  have hshift := shiftInts_fit (Narrow.abs_mul_le hsrc.abs_le_pow henv) (by norm_num)
  simp only [List.forall_mem_append, List.forall_mem_cons, List.not_mem_nil, false_imp_iff,
    implies_true, and_true]
  exact ⟨⟨⟨sourceInts_fit (hlev.trans_lt hnoise) hring' hbounds, hshift⟩, hhigh⟩,
    mixInts_fit hn hx hout⟩

/-- **A pass.** -/
theorem bodyInts_fit {p : Dsp × Locals} {n : Nat} (hn : n < 8) (hvoice : VoiceInv (p.1.voiceState v))
    (hring : RingFits (p.1.voiceState v)) (hnoise : p.1.noiseLev < 2 ^ 15) (hx : MixBound n p.2) :
    ∀ y ∈ bodyInts host v p, Fits 31 y := by
  have hcell := congrArg VoiceCell.vp (keyRules_cell host v p.1)
  have hframe := (keyRules_frame host v p.1).noiseLev
  have hvoice' : VoiceInv ((voiceCell v p.1).keyRules (voiceInput host v p.1)).vp :=
    VoiceInv.keyRules (c := voiceCell v p.1) hvoice
  have hring' : RingFits ((voiceCell v p.1).keyRules (voiceInput host v p.1)).vp :=
    RingFits.keyRules (c := voiceCell v p.1) hring _
  unfold bodyInts
  dsimp only
  generalize (keyOffVoice v (acceptVoice v (keyOnVoice host v p.1).1).1).1 = s at *
  rw [← hcell] at hvoice' hring'
  split
  · split
    · simp
    · rename_i vp b hadv
      have hvp := hvoice'.advanceEnvelope hadv
      have hself : ((s.setVoice v vp).setReg (16 * v + 8) b).voiceState v = vp := by
        change Function.update s.voiceState v vp v = vp
        rw [Function.update_self]
      rw [if_neg hvp.envx_nonneg.not_gt]
      apply playInts_fit hn
      · rw [hself]
        exact hring'.advanceEnvelope hadv
      · rw [hself]
        exact hvp.mixfrac_ge
      · exact hframe.trans_lt hnoise
      · exact hvp.envx_nonneg
      · exact hvp.envx_le
      · exact hx
  · simp

/-- The accumulators before each pass. -/
theorem loopLocals_bound (hinv : DspInv s) (n : Nat) (hn : n ≤ 8) :
    MixBound n (loopLocals host s n) := by
  induction n with
  | zero => refine ⟨?_, ?_, ?_, ?_⟩ <;> exact le_of_eq abs_zero
  | succ n ih =>
      have hsucc := loopLocals_succ host s ⟨n, hn⟩
      have hout : Fits 15 (prevOut host s (n + 1)) := hinv.prevOut_fits (n + 1) hn
      have hprev := prevOut_succ host s ⟨n, hn⟩
      dsimp only at hsucc hprev
      rw [hprev] at hout
      have hmix := (ih (by omega)).mixVoice (v := ⟨n, hn⟩) (s := prelude s) hout
      rw [hsucc]
      exact ⟨hmix.outl, hmix.outr, hmix.echol, hmix.echor⟩

/-- **The voices.** -/
theorem loopInts_fit (hinv : DspInv s) (hmix : MixerInv s) (v : Fin 8) :
    ∀ y ∈ bodyInts host v (voiceLoop host (prelude s, freshLocals) v), Fits 31 y := by
  have hcell : (voiceLoop host (prelude s, freshLocals) v).1.voiceState v =
      (voiceCell v (prelude s)).vp :=
    congrArg VoiceCell.vp (voiceLoop_cell_before host (prelude s, freshLocals) v v le_rfl)
  have hnoise : (voiceLoop host (prelude s, freshLocals) v).1.noiseLev < 2 ^ 15 := by
    have hnext := hmix.next_noise host
    have hlev : (prelude s).noiseLev = (dspNext host s).noiseLev :=
      congrArg Prod.snd ((prelude_noise s).trans (dspNext_noise host s).symm)
    rw [(voiceLoop_frame host (prelude s, freshLocals) v).noiseLev]
    exact hlev.trans_lt hnext
  apply bodyInts_fit v.isLt
  · rw [hcell]
    exact hinv.prelude_voice v
  · rw [hcell]
    exact hmix.prelude_voice v
  · exact hnoise
  · exact loopLocals_bound hinv v (by omega)

end Pass

/-! ## The echo -/

/-- The pair tap `k` meets: the newest is the one in RAM, the others are in the
FIR buffers, unless a reset clears them. -/
def echoTap (host : Nat → Byte) (s : Dsp) (k : Nat) : Int × Int :=
  if k = 0 then echoSample host s else firBuf (prelude s) ((prelude s).firPtr + Fin.ofNat 8 k)

/-- The last eight echo pairs, weighted with the filter coefficients. -/
def echoDot (host : Nat → Byte) (s : Dsp) : Int × Int :=
  (∑ k ∈ Finset.range 8, (echoTap host s k).1 * (s.dspRegs (0x10 * (7 - k) + 0x0F)).toInt,
    ∑ k ∈ Finset.range 8, (echoTap host s k).2 * (s.dspRegs (0x10 * (7 - k) + 0x0F)).toInt)

/-- The echo volumes, and where the echo is written also EFB, are not too much for
the last eight echo pairs. -/
structure EchoGainsFit (host : Nat → Byte) (s : Dsp) : Prop where
  left : Fits 31 ((echoDot host s).1 * (s.dspRegs 0x2C).toInt)
  right : Fits 31 ((echoDot host s).2 * (s.dspRegs 0x3C).toInt)
  feedback : bit (s.dspRegs 0x6C) 5 = false → bit (s.dspRegs 0x6C) 7 = false →
    Fits 31 ((echoDot host s).1 * (s.dspRegs 0x0D).toInt) ∧
      Fits 31 ((echoDot host s).2 * (s.dspRegs 0x0D).toInt)

section Echo

variable {host : Nat → Byte} {s : Dsp} {x : Locals}

/-- The filter meets the pairs `echoTap` names. -/
theorem firOut_eq_echoDot (host : Nat → Byte) (s : Dsp) : firOut host s = echoDot host s := by
  have htap (k : Nat) (hk : k ∈ Finset.range 8) :
      firBuf (dspNext host s) ((prelude s).firPtr + Fin.ofNat 8 k) = echoTap host s k := by
    rw [(dspNext_fir host s).1]
    unfold echoTap
    split
    · rename_i hzero
      rw [hzero]
      change Function.update _ _ _ ((prelude s).firPtr + 0) = _
      rw [add_zero, Function.update_self]
    · rename_i hzero
      apply Function.update_of_ne
      intro heq
      have hofNat : Fin.ofNat 8 k = 0 := add_eq_left.mp heq
      have hval := congrArg Fin.val hofNat
      rw [Fin.val_ofNat, Nat.mod_eq_of_lt (Finset.mem_range.mp hk)] at hval
      exact hzero hval
  rw [firOut_eq_sum]
  refine congrArg₂ Prod.mk (Finset.sum_congr rfl fun k hk => ?_)
    (Finset.sum_congr rfl fun k hk => ?_)
  · rw [htap k hk]
  · rw [htap k hk]

/-- The size of a product of the filter. -/
theorem firProduct_abs_le {buf : Fin 8 → Int} (hbuf : ∀ k, Fits 15 (buf k)) (k : Fin 8) (i : Nat) :
    |buf k * (s.dspRegs i).toInt| ≤ 2 ^ 15 * 2 ^ 7 :=
  Narrow.abs_mul_le (hbuf k).abs_le_pow (byte_abs_le _)

/-- Each tap adds at most 22 bits. -/
theorem firAcc_abs_le {buf : Fin 8 → Int} (hbuf : ∀ k, Fits 15 (buf k)) (k : Nat) :
    |firAcc s buf k| ≤ (k + 1 : Nat) * 2 ^ 22 := by
  induction k with
  | zero => exact firProduct_abs_le hbuf _ _
  | succ k ih =>
      have hsum := Narrow.abs_add_le_add ih
        (firProduct_abs_le (s := s) hbuf (s.firPtr + Fin.ofNat 8 (k + 1)) (0x7F - 16 * (k + 1)))
      unfold firAcc
      push_cast at hsum ⊢
      linarith

/-- The steps of the filter. -/
theorem firInts_fit {buf : Fin 8 → Int} (hbuf : ∀ k, Fits 15 (buf k)) :
    ∀ y ∈ firInts s buf, Fits 31 y := by
  intro y hy
  unfold firInts at hy
  obtain ⟨k, hk, hmem⟩ := List.mem_flatMap.mp hy
  have hlt := List.mem_range.mp hk
  rcases List.mem_pair.mp hmem with rfl | rfl
  · exact Narrow.fits_of_abs_le (firProduct_abs_le hbuf _ _) (by norm_num)
  · have hacc := firAcc_abs_le (s := s) hbuf k
    refine Narrow.fits_of_abs_le hacc ?_
    push_cast
    omega

/-- The sum fits 26 bits, and after a gain and the shift of 14 it is small again. -/
theorem gain_abs_le {fir : Int} (hfir : |fir| ≤ 2 ^ 25) (b : Byte) :
    |fir * b.toInt / 2 ^ 14| ≤ 2 ^ 18 := by
  refine Narrow.abs_ediv_le_of_mul (by norm_num) ?_
  exact (Narrow.abs_mul_le hfir (byte_abs_le b)).trans (by norm_num)

/-- On one side of the output, only the product with EVOL can fail to fit. -/
theorem mainInts_fit_iff {acc fir : Int} (hacc : |acc| ≤ 2 ^ 18) (hfir : |fir| ≤ 2 ^ 25)
    (mvol evol : Nat) :
    (∀ y ∈ mainInts s acc fir mvol evol, Fits 31 y) ↔ Fits 31 (fir * (s.dspRegs evol).toInt) := by
  have hprod : |acc * (s.dspRegs mvol).toInt| ≤ 2 ^ 18 * 2 ^ 7 :=
    Narrow.abs_mul_le hacc (byte_abs_le _)
  have hmvol : |acc * (s.dspRegs mvol).toInt / 2 ^ 7| ≤ 2 ^ 25 := Narrow.abs_ediv_le hprod
  have hevol := gain_abs_le hfir (s.dspRegs evol)
  have hsum : |mainOut s acc fir mvol evol| ≤ 2 ^ 25 + 2 ^ 18 :=
    Narrow.abs_add_le_add hmvol hevol
  unfold mainInts
  simp only [List.forall_mem_cons, List.not_mem_nil, false_imp_iff, implies_true, and_true]
  constructor
  · rintro ⟨-, -, hfits, -⟩
    exact hfits
  · intro hfits
    exact ⟨Narrow.fits_of_abs_le hprod (by norm_num), Narrow.fits_of_abs_le hmvol (by norm_num),
      hfits, Narrow.fits_of_abs_le hevol (by norm_num), Narrow.fits_of_abs_le hsum (by norm_num)⟩

/-- On one side of the feedback, only the product with EFB can. -/
theorem feedbackInts_fit_iff {acc fir : Int} (hacc : |acc| ≤ 2 ^ 18) (hfir : |fir| ≤ 2 ^ 25) :
    (∀ y ∈ feedbackInts s acc fir, Fits 31 y) ↔ Fits 31 (fir * (s.dspRegs 0x0D).toInt) := by
  have hefb := gain_abs_le hfir (s.dspRegs 0x0D)
  have hsum := Narrow.abs_add_le_add hacc hefb
  unfold feedbackInts
  simp only [List.forall_mem_cons, List.not_mem_nil, false_imp_iff, implies_true, and_true]
  constructor
  · rintro ⟨hfits, -⟩
    exact hfits
  · intro hfits
    exact ⟨hfits, Narrow.fits_of_abs_le hefb (by norm_num), Narrow.fits_of_abs_le hsum (by norm_num)⟩

/-- **The echo unit**, entered with `s` and `x`. -/
theorem echoInts_fit_iff (hbufl : ∀ k, Fits 15 ((echoRead host s).firLbuf k))
    (hbufr : ∀ k, Fits 15 ((echoRead host s).firRbuf k)) (hx : MixBound 8 x) :
    (∀ y ∈ echoInts host s x, Fits 31 y) ↔
      let vl := firAcc (echoRead host s) (echoRead host s).firLbuf 7
      let vr := firAcc (echoRead host s) (echoRead host s).firRbuf 7
      Fits 31 (vl * (s.dspRegs 0x2C).toInt) ∧ Fits 31 (vr * (s.dspRegs 0x3C).toInt) ∧
        (bit (s.dspRegs 0x6C) 5 = false →
          Fits 31 (vl * (s.dspRegs 0x0D).toInt) ∧ Fits 31 (vr * (s.dspRegs 0x0D).toInt)) := by
  obtain ⟨hl, hr, hel, her⟩ := hx
  have hregs : (echoRead host s).dspRegs = s.dspRegs := rfl
  unfold echoInts
  dsimp only
  generalize echoRead host s = t at *
  have hsuml := firAcc_abs_le (s := t) hbufl 7
  have hsumr := firAcc_abs_le (s := t) hbufr 7
  have htaps := And.intro (firInts_fit (s := t) hbufl) (firInts_fit (s := t) hbufr)
  have hback : (∀ y ∈ (if (!bit (t.dspRegs 0x6C) 5) = true then
        feedbackInts t x.echol (firAcc t t.firLbuf 7) ++ feedbackInts t x.echor (firAcc t t.firRbuf 7)
        else []), Fits 31 y) ↔
      (bit (t.dspRegs 0x6C) 5 = false → Fits 31 (firAcc t t.firLbuf 7 * (t.dspRegs 0x0D).toInt) ∧
        Fits 31 (firAcc t t.firRbuf 7 * (t.dspRegs 0x0D).toInt)) := by
    cases bit (t.dspRegs 0x6C) 5
    · simp only [Bool.not_false, if_true, List.forall_mem_append, true_imp_iff]
      rw [feedbackInts_fit_iff hel hsuml, feedbackInts_fit_iff her hsumr]
    · simp
  simp only [List.forall_mem_append]
  rw [mainInts_fit_iff hl hsuml, mainInts_fit_iff hr hsumr, hback, hregs]
  constructor
  · rintro ⟨⟨⟨-, hleft⟩, hright⟩, hfeed⟩
    exact ⟨hleft, hright, hfeed⟩
  · rintro ⟨hleft, hright, hfeed⟩
    exact ⟨⟨⟨htaps, hleft⟩, hright⟩, hfeed⟩

/-- The FIR buffers after the newest pair has been put in. -/
theorem echoRead_fit (host : Nat → Byte) (h : ∀ k, Fits 15 (s.firLbuf k) ∧ Fits 15 (s.firRbuf k))
    (k : Fin 8) : Fits 15 ((echoRead host s).firLbuf k) ∧ Fits 15 ((echoRead host s).firRbuf k) := by
  unfold echoRead
  dsimp only
  by_cases hk : k = s.firPtr
  · rw [hk, Function.update_self, Function.update_self]
    exact ⟨word_fits _, word_fits _⟩
  · rw [Function.update_of_ne hk, Function.update_of_ne hk]
    exact h k

/-- Registers the echo unit finds as the program left them. -/
theorem loop_keeps_reg (host : Nat → Byte) (s : Dsp) {i : Nat} (hi : i % 16 = 0x0C ∨ i % 16 = 0x0D)
    (h4 : i ≠ 0x4C) (h5 : i ≠ 0x5C) (h6 : i ≠ 0x6C) (h7 : i ≠ 0x7C) :
    (voiceLoop host (prelude s, freshLocals) 8).1.dspRegs i = s.dspRegs i := by
  rw [loop_reg host s i (by omega) h4 h7, prelude_reg s h4 h5 h6 h7]

/-- FLG forbids echo writes by itself or by a reset. -/
theorem loop_flg (host : Nat → Byte) (s : Dsp) :
    bit ((voiceLoop host (prelude s, freshLocals) 8).1.dspRegs 0x6C) 5 = false ↔
      bit (s.dspRegs 0x6C) 5 = false ∧ bit (s.dspRegs 0x6C) 7 = false := by
  have hor (x : Byte) : bit (x ||| 0xE0) 5 = true := by simp [bit]
  rw [loop_reg host s 0x6C (by decide) (by decide) (by decide), prelude_flg]
  cases h7 : bit (s.dspRegs 0x6C) 7
  · simp
  · rw [if_pos rfl, hor]
    simp

/-- The integers of an update fit exactly if the gains of the echo do. -/
theorem mixerInts_fit_iff (hmix : MixerInv s) (hinv : DspInv s) :
    (∀ y ∈ mixerInts host s, Fits 31 y) ↔ EchoGainsFit host s := by
  have hframe := voiceLoop_frame host (prelude s, freshLocals) 8
  have hvoices (v : Fin 8) :
      ∀ y ∈ bodyInts host v (voiceLoop host (prelude s, freshLocals) v), Fits 31 y :=
    loopInts_fit hinv hmix v
  have hlocals : MixBound 8 (voiceLoop host (prelude s, freshLocals) 8).2 :=
    loopLocals_bound hinv 8 le_rfl
  have hdot := firOut_eq_echoDot host s
  have h2c := loop_keeps_reg host s (i := 0x2C) (by decide) (by decide) (by decide) (by decide)
    (by decide)
  have h3c := loop_keeps_reg host s (i := 0x3C) (by decide) (by decide) (by decide) (by decide)
    (by decide)
  have h0d := loop_keeps_reg host s (i := 0x0D) (by decide) (by decide) (by decide) (by decide)
    (by decide)
  have hflg := loop_flg host s
  unfold mixerInts
  unfold firOut at hdot
  dsimp only at hdot ⊢
  generalize voiceLoop host (prelude s, freshLocals) = loop at *
  generalize loop 8 = p at *
  have hbuf (k : Fin 8) : Fits 15 (p.1.firLbuf k) ∧ Fits 15 (p.1.firRbuf k) := by
    rw [hframe.firLbuf, hframe.firRbuf]
    exact hmix.prelude_fir k
  have hecho := echoInts_fit_iff (fun k => (echoRead_fit host hbuf k).1)
    (fun k => (echoRead_fit host hbuf k).2) hlocals
  obtain ⟨hdotl, hdotr⟩ := Prod.ext_iff.mp hdot
  dsimp only at hecho hdotl hdotr
  rw [hdotl, hdotr, h2c, h3c, h0d, hflg] at hecho
  rw [List.forall_mem_append, hecho]
  constructor
  · rintro ⟨-, hleft, hright, hfeed⟩
    exact ⟨hleft, hright, fun h5 h7 => hfeed ⟨h5, h7⟩⟩
  · rintro ⟨hleft, hright, hfeed⟩
    refine ⟨fun y hy => ?_, hleft, hright, fun h => hfeed h.1 h.2⟩
    obtain ⟨v, -, hmem⟩ := List.mem_flatMap.mp hy
    exact hvoices v y hmem

end Echo

/-! ## Every reachable state -/

/-- **Signed overflow in the mixer.**  From every reachable state, whatever the
registers and RAM hold, the integers of an update fit 32 bits exactly if the
gains of the echo fit; so they do throughout a run in whose updates the gains
fit. -/
theorem mixer_fits_iff (host : Nat → Byte) :
    (∀ s, Reachable s → ((∀ y ∈ mixerInts host s, Fits 31 y) ↔ EchoGainsFit host s)) ∧
      ∀ s, IsDspRun host s → Reachable (s 0) → (∀ t, EchoGainsFit host (s t)) →
        ∀ t, ∀ y ∈ mixerInts host (s t), Fits 31 y := by
  refine ⟨fun s h => mixerInts_fit_iff h.mixerInv h.inv, fun s hrun h0 hgains t => ?_⟩
  have h := hrun.reachable h0 t
  exact (mixerInts_fit_iff h.mixerInv h.inv).mpr (hgains t)

/-- The filter never has more than 26 bits. -/
theorem Reachable.echoDot_abs_le {s : Dsp} (h : Reachable s) (host : Nat → Byte) :
    |(echoDot host s).1| ≤ 2 ^ 25 ∧ |(echoDot host s).2| ≤ 2 ^ 25 := by
  have hsum {f : Nat → Int} (hf : ∀ k, Fits 15 (f k)) :
      |∑ k ∈ Finset.range 8, f k * (s.dspRegs (0x10 * (7 - k) + 0x0F)).toInt| ≤ 2 ^ 25 := by
    have hterm (k : Nat) (_ : k ∈ Finset.range 8) :
        |f k * (s.dspRegs (0x10 * (7 - k) + 0x0F)).toInt| ≤ 2 ^ 15 * 2 ^ 7 :=
      Narrow.abs_mul_le (hf k).abs_le_pow (byte_abs_le _)
    refine (Finset.abs_sum_le_sum_abs _ _).trans ((Finset.sum_le_sum hterm).trans ?_)
    rw [Finset.sum_const, Finset.card_range]
    norm_num
  have htap (k : Nat) : Fits 15 (echoTap host s k).1 ∧ Fits 15 (echoTap host s k).2 := by
    unfold echoTap
    split
    · exact echoSample_fits host s
    · exact h.mixerInv.prelude_fir _
  unfold echoDot
  dsimp only
  exact ⟨hsum fun k => (htap k).1, hsum fun k => (htap k).2⟩

/-- Echo volumes and feedback below half their range are never too much. -/
theorem Reachable.small_gains_fit {s : Dsp} (h : Reachable s) (host : Nat → Byte)
    (hsmall : ∀ i ∈ [0x2C, 0x3C, 0x0D], |(s.dspRegs i).toInt| ≤ 63) : EchoGainsFit host s := by
  obtain ⟨hl, hr⟩ := h.echoDot_abs_le host
  have hgain {x : Int} (hx : |x| ≤ 2 ^ 25) (i : Nat) (hi : i ∈ [0x2C, 0x3C, 0x0D]) :
      Fits 31 (x * (s.dspRegs i).toInt) :=
    Narrow.fits_of_abs_le (Narrow.abs_mul_le hx (hsmall i hi)) (by norm_num)
  exact
    { left := hgain hl 0x2C (by simp)
      right := hgain hr 0x3C (by simp)
      feedback := fun _ _ => ⟨hgain hl 0x0D (by simp), hgain hr 0x0D (by simp)⟩ }

/-- The weighted echo pairs of the loud run: each of the first eight updates adds
the product of -32768 and -128. -/
theorem loudRun_dot (host : Nat → Byte) (t : Nat) :
    echoDot host (loudRun host t) =
      (∑ k ∈ Finset.range 8, if k ≤ t then 2 ^ 22 else 0,
        ∑ k ∈ Finset.range 8, if k ≤ t then 2 ^ 22 else 0) := by
  have hcoef (k : Nat) (hk : k ∈ Finset.range 8) :
      ((loudRun host t).dspRegs (0x10 * (7 - k) + 0x0F)).toInt = -128 := by
    rw [(loudRun_sets host t).2]
    dsimp only
    rw [if_neg (by omega)]
    decide
  rw [← firOut_eq_echoDot, firOut_eq_sum]
  refine congrArg₂ Prod.mk (Finset.sum_congr rfl fun k hk => ?_)
    (Finset.sum_congr rfl fun k hk => ?_)
  · rw [fir_slot (loudRun_isRun host) (loudRun_sinceReset host t) (Finset.mem_range.mp hk),
      hcoef k hk]
    unfold echoHistory
    rw [loudRun_sample, Nat.zero_add]
    split <;> norm_num
  · rw [fir_slot (loudRun_isRun host) (loudRun_sinceReset host t) (Finset.mem_range.mp hk),
      hcoef k hk]
    unfold echoHistory
    rw [loudRun_sample, Nat.zero_add]
    split <;> norm_num

/-- With four loud pairs the product with EVOL is -2 ^ 31. -/
theorem loudRun_three_fits :
    ∀ y ∈ mixerInts (fun _ => 0) (loudRun (fun _ => 0) 3), Fits 31 y := by
  refine ((mixer_fits_iff fun _ => 0).1 _ (loudRun_reachable _ 3)).mpr ?_
  have hregs := (loudRun_sets (fun _ => 0) 3).2
  refine ⟨?_, ?_, fun hflg _ => ?_⟩
  · rw [loudRun_dot, hregs]
    decide
  · rw [loudRun_dot, hregs]
    decide
  · rw [hregs] at hflg
    exact absurd hflg (by decide)

/-- With five it does not fit. -/
theorem loudRun_four_overflows :
    ¬ ∀ host s, Reachable s → ∀ y ∈ mixerInts host s, Fits 31 y := by
  intro hall
  have h := loudRun_reachable (fun _ => 0) 4
  have hgains := (mixerInts_fit_iff h.mixerInv h.inv).mp (hall (fun _ => 0) _ h)
  have hleft := hgains.left
  rw [loudRun_dot, (loudRun_sets (fun _ => 0) 4).2] at hleft
  exact absurd hleft (by decide)

end OpenSpc
