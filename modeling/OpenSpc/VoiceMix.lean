import OpenSpc.DspStep

/-!
# The accumulators of the voice loop

A pass adds the output of its voice to the accumulators, scaled by volumes the
loop does not change; a silent voice hands on zero and adds nothing.  So after
the loop they are a function of the eight outputs and of the registers the
prelude leaves.
-/

namespace OpenSpc

open ByteMask (bit)

section Mix

variable {v : Fin 8} {s s' : Dsp}

/-- What mixing a voice reads. -/
theorem mixVoice_congr (hmask : s'.channelMask = s.channelMask)
    (hl : s'.dspRegs (16 * v) = s.dspRegs (16 * v))
    (hr : s'.dspRegs (16 * v + 1) = s.dspRegs (16 * v + 1))
    (hecho : s'.dspRegs 0x4D = s.dspRegs 0x4D) (outx : Int) (x : Locals) :
    mixVoice v s' outx x = mixVoice v s outx x := by
  unfold mixVoice voiceVolume
  rw [hmask, hl, hr, hecho]

theorem VoiceFrame.mixVoice (h : VoiceFrame v s s') (outx : Int) (x : Locals) :
    mixVoice v s' outx x = OpenSpc.mixVoice v s outx x :=
  mixVoice_congr h.channelMask (h.regs _ (by omega) (by omega) (by omega) (by omega))
    (h.regs _ (by omega) (by omega) (by omega) (by omega))
    (h.regs _ (by decide) (by decide) (by omega) (by omega)) outx x

/-- Mixing silence. -/
theorem mixVoice_zero (v : Fin 8) (s : Dsp) (x : Locals) :
    mixVoice v s 0 x = { x with outx := 0 } := by
  unfold mixVoice voiceVolume
  simp

theorem mixVoice_log (v : Fin 8) (s : Dsp) (outx : Int) (x : Locals) (l : List Event) :
    mixVoice v s outx { x with log := l } = { mixVoice v s outx x with log := l } := by
  unfold mixVoice
  dsimp only
  split
  · rfl
  · split <;> rfl

/-- What mixing leaves is determined by the output it passes on. -/
theorem mixVoice_from (v : Fin 8) (s : Dsp) (outx : Int) (x : Locals) (l : List Event) :
    let y := mixVoice v s outx { x with log := l }
    y = { mixVoice v s y.outx x with log := y.log } := by
  intro y
  have hy : y = mixVoice v s outx { x with log := l } := rfl
  rw [hy, (mixVoice_outx v s outx _).1, (mixVoice_outx v s outx _).2]
  exact mixVoice_log v s outx x l

/-- **What a pass adds.** -/
theorem voiceBody_mix (host : Nat → Byte) (v : Fin 8) (p : Dsp × Locals) :
    (voiceBody host v p).2 =
      { mixVoice v p.1 (voiceBody host v p).2.outx p.2 with log := (voiceBody host v p).2.log } := by
  have hrules := keyRules_frame host v p.1
  unfold voiceBody
  dsimp only
  generalize (keyOffVoice v (acceptVoice v (keyOnVoice host v p.1).1).1).1 = s at *
  split
  · split
    · simp only [silenceVoice, mixVoice_zero]
    · rename_i vp envxReg hadv
      have hframe : VoiceFrame v p.1 ((s.setVoice v vp).setReg (16 * v + 8) envxReg) :=
        hrules.trans ((VoiceFrame.setVoice vp).trans (.setEnvx envxReg))
      generalize (s.setVoice v vp).setReg (16 * v + 8) envxReg = t at *
      split
      · simp only [silenceVoice, mixVoice_zero]
      · unfold playVoice
        dsimp only
        rw [VoiceFrame.mixVoice (((hframe.trans (applyDecode_frame v t _)).trans
          (.setVoice _)).trans (.setOutx _))]
        exact mixVoice_from v p.1 _ p.2 _
  · simp only [silenceVoice, mixVoice_zero]

end Mix

section Update

variable (host : Nat → Byte) (s : Dsp)

/-- The locals before pass `n` of the voice loop. -/
def loopLocals (n : Nat) : Locals := (voiceLoop host (prelude s, freshLocals) n).2

/-- **The accumulators, voice by voice.** -/
theorem loopLocals_succ (v : Fin 8) :
    loopLocals host s (v + 1) =
      { mixVoice v (prelude s) (cellPass host s v).outx (loopLocals host s v) with
        log := (loopLocals host s (v + 1)).log } := by
  have hout : (loopLocals host s (v + 1)).outx = (cellPass host s v).outx := prevOut_succ host s v
  have hframe := voiceLoop_frame host (prelude s, freshLocals) v
  have hmix := voiceBody_mix host v (voiceLoop host (prelude s, freshLocals) v)
  have hbody : voiceBody host v (voiceLoop host (prelude s, freshLocals) v) =
      voiceLoop host (prelude s, freshLocals) (v + 1) := by
    rw [voiceLoop, dif_pos v.isLt]
  rw [hbody] at hmix
  have hsame (outx : Int) (x : Locals) :
      mixVoice v (voiceLoop host (prelude s, freshLocals) v).1 outx x =
        mixVoice v (prelude s) outx x :=
    mixVoice_congr hframe.channelMask
      (hframe.regs _ (by omega) (by omega) fun w => ⟨by omega, by omega⟩)
      (hframe.regs _ (by omega) (by omega) fun w => ⟨by omega, by omega⟩)
      (hframe.regs _ (by decide) (by decide) fun w => ⟨by omega, by omega⟩) outx x
  unfold loopLocals at hout ⊢
  rw [hsame, hout] at hmix
  exact hmix

end Update

end OpenSpc
