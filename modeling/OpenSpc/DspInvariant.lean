import OpenSpc.DspRun

/-!
# What holds in every reachable state

The decoder's fields stay in the ranges their bit-fields would give them, the
two filter samples are even 16-bit values, the envelope stays in 11 bits, and
the resampler's position stays below eight samples.  The echo pointer stays a
multiple of a slot.
-/

namespace OpenSpc

open ByteMask (bit)
open Narrow (Fits)

/-- An even value of 16 bits, as the filters keep them. -/
def IsSample (x : Int) : Prop := Fits 15 x ∧ 2 ∣ x

/-- The decoder's part of a voice is in shape. -/
structure DecoderInv (vp : VoiceState) : Prop where
  half_le : vp.half ≤ 1
  half_zero : vp.headerCnt = 0 → vp.half = 0
  headerCnt_le : vp.headerCnt ≤ 8
  endBits_lt : vp.endBits < 4
  filter_lt : vp.filter < 4
  range_lt : vp.range < 16
  smp1 : IsSample vp.smp1
  smp2 : IsSample vp.smp2

/-- A voice is in shape. -/
structure VoiceInv (vp : VoiceState) : Prop extends DecoderInv vp where
  envx_nonneg : 0 ≤ vp.envx
  envx_le : vp.envx ≤ 0x7FF
  mixfrac_ge : -4096 ≤ vp.mixfrac
  mixfrac_le : vp.mixfrac ≤ 0x7FFF

/-! ## The envelope -/

/-- An exponential decrease stays in the range of a level. -/
theorem expDecrease_bounds {x : Int} (h0 : 0 ≤ x) (h1 : x ≤ 0x7FF) :
    0 ≤ expDecrease x ∧ expDecrease x ≤ 0x7FF := by
  unfold expDecrease
  omega

/-- Every step of GAIN stays in the range of a level. -/
theorem gainLevel_bounds {mode : Nat} {x : Int} (h0 : 0 ≤ x) (h1 : x ≤ 0x7FF) :
    0 ≤ gainLevel mode x ∧ gainLevel mode x ≤ 0x7FF := by
  unfold gainLevel
  split
  · split <;> omega
  · exact expDecrease_bounds h0 h1
  · split <;> omega
  · dsimp only
    split <;> split <;> omega

/-- An attack stays in the range of a level. -/
theorem attackLevel_bounds {vp : VoiceState} {x cnt : Int} (h0 : 0 ≤ x) :
    0 ≤ (attackLevel vp x cnt).envx ∧ (attackLevel vp x cnt).envx ≤ 0x7FF := by
  unfold attackLevel
  split
  · simp
  · simp only
    omega

/-- ADSR mode stays in the range of a level. -/
theorem adsrStep_bounds {adsr1 adsr2 : Byte} {vp : VoiceState} (h0 : 0 ≤ vp.envx)
    (h1 : vp.envx ≤ 0x7FF) :
    0 ≤ (adsrStep adsr1 adsr2 vp).envx ∧ (adsrStep adsr1 adsr2 vp).envx ≤ 0x7FF := by
  have hexp := expDecrease_bounds h0 h1
  unfold adsrStep
  dsimp only
  split
  · split
    · exact attackLevel_bounds (by omega)
    · split
      · exact ⟨h0, h1⟩
      · exact attackLevel_bounds (by omega)
  · split <;> split <;> first | exact hexp | exact ⟨h0, h1⟩
  · split
    · exact ⟨h0, h1⟩
    · exact hexp
  · exact ⟨h0, h1⟩

/-- GAIN mode stays in the range of a level. -/
theorem gainStep_bounds {gain : Byte} {vp : VoiceState} (h0 : 0 ≤ vp.envx)
    (h1 : vp.envx ≤ 0x7FF) :
    0 ≤ (gainStep gain vp).envx ∧ (gainStep gain vp).envx ≤ 0x7FF := by
  unfold gainStep
  dsimp only
  split
  · simp only
    omega
  · split
    · exact ⟨h0, h1⟩
    · exact gainLevel_bounds h0 h1

/-- **The envelope stays in 11 bits.** -/
theorem advanceEnvelope_bounds {adsr1 adsr2 gain : Byte} {vp vp' : VoiceState} {b : Byte}
    (h : advanceEnvelope adsr1 adsr2 gain vp = some (vp', b)) (h0 : 0 ≤ vp.envx)
    (h1 : vp.envx ≤ 0x7FF) : 0 ≤ vp'.envx ∧ vp'.envx ≤ 0x7FF := by
  unfold advanceEnvelope at h
  split at h
  · dsimp only at h
    split at h
    · exact absurd h (by simp)
    · cases h
      simp only
      omega
  · cases h
    split
    · exact adsrStep_bounds h0 h1
    · exact gainStep_bounds h0 h1

/-- **A voice that survives its envelope step is still in shape.** -/
theorem VoiceInv.advanceEnvelope {adsr1 adsr2 gain : Byte} {vp vp' : VoiceState} {b : Byte}
    (hinv : VoiceInv vp) (h : OpenSpc.advanceEnvelope adsr1 adsr2 gain vp = some (vp', b)) :
    VoiceInv vp' := by
  obtain ⟨h0, h1⟩ := advanceEnvelope_bounds h hinv.envx_nonneg hinv.envx_le
  have hframe := advanceEnvelope_frame h
  obtain ⟨hdec, -, -, hlo, hhi⟩ := hinv
  generalize vp'.envx = x, vp'.envcnt = y, vp'.envstate = z at *
  subst hframe
  exact ⟨⟨hdec.1, hdec.2, hdec.3, hdec.4, hdec.5, hdec.6, hdec.7, hdec.8⟩, h0, h1, hlo, hhi⟩

/-! ## The decoder -/

/-- Silence is a sample. -/
theorem isSample_zero : IsSample 0 := by
  unfold IsSample Fits
  decide

/-- A doubled value stays even when it is narrowed. -/
theorem isSample_double (x : Int) : IsSample (short (x * 2)) := by
  refine ⟨Narrow.narrow_fits 15 _, ?_⟩
  have h := Narrow.narrow_dvd 15 (x * 2)
  unfold short
  omega

/-- A sample stays one under a cast to 16 bits. -/
theorem IsSample.short {x : Int} (h : IsSample x) : IsSample (short x) := by
  unfold OpenSpc.short
  rwa [Narrow.narrow_of_fits h.1]

/-! The block address, the envelope, the countdown and the pitch are no part of the decoder's
shape. -/

/-- The decoder's shape does not depend on where it reads. -/
theorem DecoderInv.setMemPtr {vp : VoiceState} (h : DecoderInv vp) (p : BitVec 16) :
    DecoderInv { vp with memPtr := p } :=
  ⟨h.1, h.2, h.3, h.4, h.5, h.6, h.7, h.8⟩

/-- It does not depend on the level. -/
theorem DecoderInv.setEnvx {vp : VoiceState} (h : DecoderInv vp) (x : Int) :
    DecoderInv { vp with envx := x } :=
  ⟨h.1, h.2, h.3, h.4, h.5, h.6, h.7, h.8⟩

/-- It does not depend on the countdown. -/
theorem DecoderInv.setOnCnt {vp : VoiceState} (h : DecoderInv vp) (n : Nat) :
    DecoderInv { vp with onCnt := n } :=
  ⟨h.1, h.2, h.3, h.4, h.5, h.6, h.7, h.8⟩

/-- It does not depend on the pitch. -/
theorem DecoderInv.setPitch {vp : VoiceState} (h : DecoderInv vp) (p : Int) :
    DecoderInv { vp with pitch := p } :=
  ⟨h.1, h.2, h.3, h.4, h.5, h.6, h.7, h.8⟩

/-- A new block sets the decoder up again. -/
theorem DecoderInv.readHeader {vp : VoiceState} (h : DecoderInv vp) (hcnt : vp.headerCnt = 0)
    (ram : Ram) : DecoderInv (readHeader ram vp) where
  half_le := h.half_le
  half_zero := fun _ => h.half_zero hcnt
  headerCnt_le := le_rfl
  endBits_lt := by simp only [OpenSpc.readHeader]; omega
  filter_lt := by simp only [OpenSpc.readHeader]; omega
  range_lt := by simp only [OpenSpc.readHeader]; omega
  smp1 := h.smp1
  smp2 := h.smp2

/-- Draining uses nothing of the decoder. -/
theorem DecoderInv.drain {vp : VoiceState} (h : DecoderInv vp) (n : Nat) :
    DecoderInv (drain n vp) := by
  induction n generalizing vp with
  | zero => exact h
  | succ n ih =>
      unfold OpenSpc.drain
      split
      · exact ih ⟨h.1, h.2, h.3, h.4, h.5, h.6, h.7, h.8⟩
      · exact h

/-- The guarded part of a pass keeps the decoder in shape. -/
theorem DecoderInv.enterBlock {d : Decode} (h : DecoderInv d.vp) (m : Mem) (entry : Nat)
    (v : Fin 8) : DecoderInv (enterBlock m entry v d).vp := by
  rcases enterBlock_cases m entry v d with ⟨-, he⟩ | ⟨hcnt, he⟩ | ⟨hcnt, he⟩ | ⟨-, he⟩
  · rwa [he]
  · rw [he]
    exact h.readHeader hcnt m.ram
  · rw [he]
    exact (h.setMemPtr (m.lptr entry)).readHeader hcnt m.ram
  · rw [he]
    exact (h.setEnvx 0).drain _

/-- The rest of a pass keeps the decoder in shape. -/
theorem DecoderInv.decodePass {d : Decode} (h : DecoderInv d.vp) (hcnt : d.vp.headerCnt ≠ 0)
    (ram : Ram) : DecoderInv (decodePass ram d).vp := by
  have hle := h.headerCnt_le
  unfold OpenSpc.decodePass decodeSample skipNybble
  dsimp only
  split
  · exact
      { half_le := le_rfl
        half_zero := fun hz => absurd hz hcnt
        headerCnt_le := hle
        endBits_lt := h.endBits_lt
        filter_lt := h.filter_lt
        range_lt := h.range_lt
        smp1 := isSample_double _
        smp2 := h.smp1.short }
  · exact
      { half_le := Nat.zero_le _
        half_zero := fun _ => rfl
        headerCnt_le := by simp only; omega
        endBits_lt := h.endBits_lt
        filter_lt := h.filter_lt
        range_lt := h.range_lt
        smp1 := isSample_double _
        smp2 := h.smp1.short }

/-- **The decode loop keeps the decoder in shape.** -/
theorem DecoderInv.brrDecode {vp : VoiceState} (h : DecoderInv vp) (m : Mem) (entry : Nat)
    (v : Fin 8) : DecoderInv (brrDecode m entry v vp).vp :=
  decodeLoop_keeps m entry v (P := fun d => DecoderInv d.vp)
    (fun _ _ _ hd => hd.enterBlock m entry v) (fun _ _ hcnt hd => hd.decodePass hcnt m.ram)
    _ _ rfl h

/-! ## A pass of the voice loop -/

/-- Narrowed and scaled by the envelope, an output stays in 16 bits. -/
theorem shiftEven_fits {src envx : Int} (hsrc : Fits 15 src) (h0 : 0 ≤ envx)
    (h1 : envx ≤ 0x7FF) : Fits 15 (shiftEven (src * envx)) := by
  obtain ⟨hlo, hhi⟩ := hsrc
  have hup : src * envx ≤ 32767 * 0x7FF := by nlinarith
  have hdown : -32768 * 0x7FF ≤ src * envx := by nlinarith
  unfold Fits shiftEven
  generalize src * envx = y at *
  omega

/-- The interpolation ends in a cast to 16 bits. -/
theorem interpolate_fits (vp : VoiceState) : Fits 15 (interpolate vp) :=
  Narrow.narrow_fits 15 _

/-- A pitch has 14 bits. -/
theorem voiceInput_pitch (host : Nat → Byte) (v : Fin 8) (s : Dsp) :
    0 ≤ (voiceInput host v s).pitch ∧ (voiceInput host v s).pitch < 2 ^ 14 := by
  simp only [voiceInput]
  omega

section Pass

variable {v : Fin 8} {i : VoiceInput} {outx : Int} {c : VoiceCell}

/-- Modulation at most doubles a pitch, and never makes it negative. -/
theorem VoiceCell.effPitch_bounds (hp : 0 ≤ i.pitch ∧ i.pitch < 2 ^ 14) (hx : Fits 15 outx) :
    0 ≤ effPitch i outx ∧ effPitch i outx ≤ 0x7FFF := by
  obtain ⟨hp0, hp1⟩ := hp
  obtain ⟨hx0, hx1⟩ := hx
  unfold effPitch
  split
  · have hup : i.pitch * (outx + 32768) ≤ 16383 * 65535 := by nlinarith
    have hdown : 0 ≤ i.pitch * (outx + 32768) := by
      apply mul_nonneg <;> omega
    generalize i.pitch * (outx + 32768) = y at *
    omega
  · omega

/-- The key rules keep a voice in shape. -/
theorem VoiceInv.keyRules (h : VoiceInv c.vp) : VoiceInv (c.keyRules i).vp := by
  rw [VoiceCell.keyRules_vp]
  split
  · exact
      { half_le := Nat.zero_le _
        half_zero := fun _ => rfl
        headerCnt_le := Nat.zero_le _
        endBits_lt := by simp [VoiceState.start]
        filter_lt := h.filter_lt
        range_lt := h.range_lt
        smp1 := h.smp1
        smp2 := h.smp2
        envx_nonneg := le_rfl
        envx_le := by simp [VoiceState.start]
        mixfrac_ge := by simp [VoiceState.start]
        mixfrac_le := by simp [VoiceState.start] }
  · obtain ⟨⟨h1, h2, h3, h4, h5, h6, h7, h8⟩, h9, h10, h11, h12⟩ := h
    exact ⟨⟨h1, h2, h3, h4, h5, h6, h7, h8⟩, h9, h10, h11, h12⟩

/-- After the decode loop and the advance of `mixfrac`. -/
theorem VoiceInv.play {envx : Int} (h : VoiceInv c.vp) (henvx : envx = c.vp.envx)
    (hp : 0 ≤ i.pitch ∧ i.pitch < 2 ^ 14) (hx : Fits 15 outx) :
    VoiceInv (VoiceCell.play v i outx envx c).cell.vp ∧
      Fits 15 (VoiceCell.play v i outx envx c).outx := by
  have hpitch := VoiceCell.effPitch_bounds hp hx
  have hdec := (h.setPitch (VoiceCell.effPitch i outx)).brrDecode i.mem i.entry v
  have hmix := (brrDecode_mixfrac_bounds i.mem i.entry v :
    -4096 ≤ { c.vp with pitch := VoiceCell.effPitch i outx }.mixfrac → _) h.mixfrac_ge
  have henv := (brrDecode_control i.mem i.entry v
    { c.vp with pitch := VoiceCell.effPitch i outx }).2
  have hlo := h.envx_nonneg
  have hhi := h.envx_le
  constructor
  · unfold VoiceCell.play VoiceCell.decode
    dsimp only at hdec hmix henv ⊢
    refine ⟨⟨hdec.1, hdec.2, hdec.3, hdec.4, hdec.5, hdec.6, hdec.7, hdec.8⟩, ?_, ?_, ?_, ?_⟩
    · rw [henv]
      split <;> omega
    · rw [henv]
      split <;> omega
    · dsimp only
      omega
    · dsimp only
      omega
  · unfold VoiceCell.play
    dsimp only
    refine shiftEven_fits ?_ (by omega) (by omega)
    split
    · exact Narrow.narrow_fits 15 _
    · exact interpolate_fits _

/-- **A pass keeps its voice in shape** and hands on a 16-bit output. -/
theorem VoiceInv.pass (h : VoiceInv c.vp) (hp : 0 ≤ i.pitch ∧ i.pitch < 2 ^ 14)
    (hx : Fits 15 outx) :
    VoiceInv (VoiceCell.pass v i outx c).cell.vp ∧ Fits 15 (VoiceCell.pass v i outx c).outx := by
  have hrules := h.keyRules (i := i)
  have hzero : Fits 15 0 := by
    unfold Fits
    decide
  rcases VoiceCell.pass_cases v i outx c with
    ⟨-, hpass⟩ | ⟨-, -, hpass⟩ | ⟨vp, b, -, hadv, -, hpass⟩ | ⟨vp, b, -, hadv, -, hpass⟩
  · rw [hpass]
    exact ⟨hrules, hzero⟩
  · rw [hpass]
    exact ⟨hrules, hzero⟩
  · rw [hpass]
    exact ⟨hrules.advanceEnvelope hadv, hzero⟩
  · rw [hpass]
    exact VoiceInv.play (c := { c.keyRules i with vp := vp, envxReg := b })
      (hrules.advanceEnvelope hadv) rfl hp hx

end Pass

/-! ## Updates and runs -/

/-- The invariant of the DSP. -/
structure DspInv (s : Dsp) : Prop where
  voice : ∀ v, VoiceInv (s.voiceState v)
  echoPtr : 4 ∣ s.echoPtr

/-- A voice's shape does not depend on its countdown. -/
theorem VoiceInv.onCnt {vp : VoiceState} (h : VoiceInv vp) (n : Nat) :
    VoiceInv { vp with onCnt := n } := by
  obtain ⟨⟨h1, h2, h3, h4, h5, h6, h7, h8⟩, h9, h10, h11, h12⟩ := h
  exact ⟨⟨h1, h2, h3, h4, h5, h6, h7, h8⟩, h9, h10, h11, h12⟩

section Step

variable {host : Nat → Byte} {s : Dsp}

/-- A voice goes into its pass in shape. -/
theorem DspInv.prelude_voice (h : DspInv s) (v : Fin 8) :
    VoiceInv (voiceCell v (prelude s)).vp := by
  rw [prelude_cell]
  split
  · exact (h.voice v).onCnt 0
  · exact h.voice v

/-- Every voice hands on a 16-bit output. -/
theorem DspInv.prevOut_fits (h : DspInv s) (n : Nat) (hn : n ≤ 8) : Fits 15 (prevOut host s n) := by
  induction n with
  | zero =>
      rw [prevOut_zero]
      unfold Fits
      decide
  | succ n ih =>
      have hnext := prevOut_succ host s ⟨n, hn⟩
      dsimp only at hnext
      rw [hnext]
      exact ((h.prelude_voice ⟨n, hn⟩).pass (voiceInput_pitch _ _ _) (ih (by omega))).2

/-- A voice leaves its pass in shape. -/
theorem DspInv.cellPass_voice (h : DspInv s) (v : Fin 8) :
    VoiceInv (cellPass host s v).cell.vp :=
  ((h.prelude_voice v).pass (voiceInput_pitch _ _ _) (h.prevOut_fits v (by omega))).1

/-- The effective pitch of a voice in an update. -/
def updatePitch (host : Nat → Byte) (s : Dsp) (v : Fin 8) : Int :=
  VoiceCell.effPitch (voiceInput host v (prelude s)) (prevOut host s v)

/-- The effective pitch of an update is not negative, and below eight samples.
-/
theorem DspInv.updatePitch_bounds (h : DspInv s) (v : Fin 8) :
    0 ≤ updatePitch host s v ∧ updatePitch host s v ≤ 0x7FFF :=
  VoiceCell.effPitch_bounds (voiceInput_pitch _ _ _) (h.prevOut_fits v (by omega))

/-- The prelude leaves the echo pointer unless it resets it. -/
theorem prelude_echoPtr (s : Dsp) :
    (prelude s).echoPtr = if bit (s.dspRegs 0x6C) 7 then 0 else s.echoPtr := by
  unfold prelude noiseStep dspReset Dsp.setReg
  dsimp only
  split <;> split <;> rfl

/-- Where an update leaves the echo pointer. -/
theorem dspNext_echoPtr (host : Nat → Byte) (s : Dsp) :
    (dspNext host s).echoPtr =
      if (prelude s).echoPtr + 4 ≥ echoSize s then 0 else (prelude s).echoPtr + 4 := by
  have hframe := (voiceLoop_frame host (prelude s, freshLocals) 8).echoPtr
  have hsize : ((voiceLoop host (prelude s, freshLocals) 8).1.dspRegs 0x7D) = s.dspRegs 0x7D := by
    rw [loop_reg host s 0x7D (by decide) (by decide) (by decide),
      prelude_reg s (by decide) (by decide) (by decide) (by decide)]
  unfold dspNext dspUpdate echoUnit echoAdvance echoSize
  dsimp only
  split <;> simp only [echoRead, echoWrite, hframe, hsize]

/-- **An update keeps the invariant.** -/
theorem DspInv.dspNext (h : DspInv s) (host : Nat → Byte) : DspInv (dspNext host s) where
  voice := by
    intro v
    rw [dspNext_voiceState]
    exact h.cellPass_voice v
  echoPtr := by
    have hptr := h.echoPtr
    rw [dspNext_echoPtr, prelude_echoPtr]
    split <;> split <;> omega

end Step

/-- A reset keeps the invariant. -/
theorem DspInv.reset {s : Dsp} (h : DspInv s) : DspInv (dspReset s) where
  voice := fun v => (h.voice v).onCnt 0
  echoPtr := dvd_zero 4

/-- The bus keeps the invariant. -/
theorem DspInv.write {s s' : Dsp} (h : DspInv s) (hw : BusWrite s s') : DspInv s' where
  voice := by
    rw [hw.voiceState]
    exact h.voice
  echoPtr := by
    rw [hw.echoPtr]
    exact h.echoPtr

/-- A zeroed voice is in shape. -/
theorem zeroVoice_inv : VoiceInv zeroVoice := by
  refine ⟨⟨?_, ?_, ?_, ?_, ?_, ?_, isSample_zero, isSample_zero⟩, ?_, ?_, ?_, ?_⟩ <;> decide

/-- A zeroed DSP has the invariant. -/
theorem zeroDsp_inv : DspInv zeroDsp := ⟨fun _ => zeroVoice_inv, dvd_zero 4⟩

/-- **Every reachable state is in shape.** -/
theorem Reachable.inv {s : Dsp} (h : Reachable s) : DspInv s := by
  induction h with
  | boot => exact zeroDsp_inv
  | reset _ ih => exact ih.reset
  | update host _ ih => exact ih.dspNext host
  | write _ hw ih => exact ih.write hw

end OpenSpc
