import OpenSpc.DspStep

/-!
# Voice isolation

Two global states that agree on what voice `v` owns and reads give voice `v`
the same update, whatever the other seven voices do.  The one intended channel
between voices is pitch modulation: when PMON bit `v` is set, the output of
voice `v - 1` in the same update counts as an input.
-/

namespace OpenSpc

open ByteMask (bit)

/-- The two states agree on everything voice `v` may depend on, except the
output of the voice before it. -/
structure VoiceAgree (v : Fin 8) (s s' : Dsp) : Prop where
  flg : s.dspRegs 0x6C = s'.dspRegs 0x6C
  dir : s.dspRegs 0x5D = s'.dspRegs 0x5D
  ram : s.spcRam = s'.spcRam
  noiseCnt : s.noiseCnt = s'.noiseCnt
  noiseLev : s.noiseLev = s'.noiseLev
  regs : ∀ j < 8, s.dspRegs (16 * v + j) = s'.dspRegs (16 * v + j)
  voice : s.voiceState v = s'.voiceState v
  keys : bit s.keys v = bit s'.keys v
  kon : bit (s.dspRegs 0x4C) v = bit (s'.dspRegs 0x4C) v
  kof : bit (s.dspRegs 0x5C) v = bit (s'.dspRegs 0x5C) v
  non : bit (s.dspRegs 0x3D) v = bit (s'.dspRegs 0x3D) v
  pmon : bit (s.dspRegs 0x2D) v = bit (s'.dspRegs 0x2D) v
  endx : bit (s.dspRegs 0x7C) v = bit (s'.dspRegs 0x7C) v

/-- The post-envelope output of voice `u` in the update from `s`. -/
def voiceOutx (host : Nat → Byte) (s : Dsp) (u : Fin 8) : Int := prevOut host s (u + 1)

namespace VoiceCell

/-- ENVX and OUTX are outputs of a pass only: their old values are never
read. -/
theorem pass_regs (v : Fin 8) (i : VoiceInput) (outx : Int) (c : VoiceCell) (a b : Byte) :
    pass v i outx { c with envxReg := a, outxReg := b } = pass v i outx c := by
  have hrules : keyRules i { c with envxReg := a, outxReg := b } =
      { keyRules i c with envxReg := a, outxReg := b } := by
    unfold keyRules keyOn accept keyOff accepts starts
    dsimp only
    split <;> split <;> split <;> simp_all
  have hevents : keyEvents v i { c with envxReg := a, outxReg := b } = keyEvents v i c := by
    unfold keyEvents keyOn accept accepts starts
    dsimp only
    split <;> split <;> simp_all
  unfold pass
  rw [hrules, hevents]
  dsimp only
  split
  · split <;> rfl
  · rfl

/-- The previous voice's output only matters under pitch modulation. -/
theorem pass_outx (v : Fin 8) (i : VoiceInput) (outx outx' : Int) (c : VoiceCell)
    (h : i.pmon = true → outx = outx') : pass v i outx c = pass v i outx' c := by
  have hpitch : effPitch i outx = effPitch i outx' := by
    unfold effPitch
    cases hp : i.pmon
    · rfl
    · rw [h hp]
  unfold pass play decode
  rw [hpitch]

end VoiceCell

namespace VoiceAgree

variable {v : Fin 8} {s s' : Dsp}

/-- The cells agree after the prelude, up to the registers ENVX and OUTX. -/
theorem cell (h : VoiceAgree v s s') :
    voiceCell v (prelude s) = { voiceCell v (prelude s') with
      envxReg := (voiceCell v (prelude s)).envxReg
      outxReg := (voiceCell v (prelude s)).outxReg } := by
  rw [prelude_cell, prelude_cell, h.flg]
  unfold voiceCell
  rw [h.voice, h.keys, h.kon, h.endx]
  split <;> rfl

/-- The inputs agree after the prelude. -/
theorem input (h : VoiceAgree v s s') (host : Nat → Byte) :
    voiceInput host v (prelude s) = voiceInput host v (prelude s') := by
  have hnoise : (prelude s).noiseLev = (prelude s').noiseLev := by
    have hs := congrArg Prod.snd (prelude_noise s)
    have hs' := congrArg Prod.snd (prelude_noise s')
    have hentry : noiseEntry s = noiseEntry s' := by
      unfold noiseEntry
      rw [h.flg, h.noiseCnt, h.noiseLev]
    rw [prelude_flg, hentry, h.flg, ← prelude_flg] at hs
    exact hs.trans hs'.symm
  rw [prelude_input, prelude_input, hnoise, h.flg, h.kof]
  unfold voiceInput dirEntry
  rw [h.ram, h.dir, h.non, h.pmon, h.regs 2 (by decide), h.regs 3 (by decide),
    h.regs 4 (by decide), h.regs 5 (by decide), h.regs 6 (by decide), h.regs 7 (by decide)]

end VoiceAgree

/-- **Voice isolation.**  If two states agree for voice `v`, and pitch
modulation either does not apply to `v` or sees the same output of voice
`v - 1`, then after one update they agree on the state of `v`, on its ENVX and
OUTX, and on its bits of `keys`, KON and ENDX. -/
theorem dspUpdate_voice_isolation (host : Nat → Byte) (sound sound' : Bool) (v : Fin 8)
    (s s' : Dsp) (h : VoiceAgree v s s')
    (hpmon : bit (s.dspRegs 0x2D) v = false ∨ v = 0 ∨
      ∀ u : Fin 8, (u : Nat) + 1 = v → voiceOutx host s u = voiceOutx host s' u) :
    let t := (dspUpdate host sound s).dsp
    let t' := (dspUpdate host sound' s').dsp
    t.voiceState v = t'.voiceState v ∧
      t.dspRegs (16 * v + 8) = t'.dspRegs (16 * v + 8) ∧
      t.dspRegs (16 * v + 9) = t'.dspRegs (16 * v + 9) ∧
      bit t.keys v = bit t'.keys v ∧
      bit (t.dspRegs 0x4C) v = bit (t'.dspRegs 0x4C) v ∧
      bit (t.dspRegs 0x7C) v = bit (t'.dspRegs 0x7C) v := by
  intro t t'
  have hprev : (voiceInput host v (prelude s)).pmon = true → prevOut host s v = prevOut host s' v := by
    intro hp
    rw [prelude_input] at hp
    change bit (s.dspRegs 0x2D) v = true at hp
    rcases hpmon with hclear | rfl | hout
    · rw [hclear] at hp
      exact absurd hp (by decide)
    · rfl
    · obtain hzero | ⟨u, hu⟩ : v = 0 ∨ ∃ u : Fin 8, (u : Nat) + 1 = v := by
        by_cases hv : v = 0
        · exact Or.inl hv
        · have hpos : (v : Nat) ≠ 0 := fun he => hv (Fin.ext he)
          exact Or.inr ⟨⟨v - 1, by omega⟩, by simp only; omega⟩
      · rw [hzero]
        rfl
      · have := hout u hu
        unfold voiceOutx at this
        rwa [hu] at this
  have hpass : cellPass host s v = cellPass host s' v := by
    unfold cellPass
    rw [VoiceCell.pass_outx v _ _ _ _ hprev, h.input host, h.cell, VoiceCell.pass_regs]
  have hcell : voiceCell v t = voiceCell v t' := by
    rw [dspUpdate_cell, dspUpdate_cell, hpass]
  exact ⟨congrArg VoiceCell.vp hcell, congrArg VoiceCell.envxReg hcell,
    congrArg VoiceCell.outxReg hcell, congrArg VoiceCell.key hcell,
    congrArg VoiceCell.kon hcell, congrArg VoiceCell.endx hcell⟩

/-- Voice 1 sounds at a level that GAIN sets directly. -/
def lonelyVoice : Dsp :=
  { zeroDsp with keys := 2, dspRegs := Function.update (fun _ => 0) 0x17 0x7F }.setVoice 1
    { zeroVoice with envstate := .sustain, sampbuf := fun _ => 0x100 }

/-- The same with all other voices keyed on, and one about to start. -/
def noisyNeighbours : Dsp :=
  { lonelyVoice with keys := 0xFF }.setVoice 0 { zeroVoice with onCnt := 1, smp1 := 2 }

/-- What its neighbours do is nothing to voice 1. -/
theorem noisyNeighbours_isolated :
    bit (dspUpdate (fun _ => 0) true lonelyVoice).dsp.keys (1 : Fin 8) = true ∧
      ((dspUpdate (fun _ => 0) true lonelyVoice).dsp.voiceState 1).envx = 0x7F0 ∧
      (dspUpdate (fun _ => 0) true noisyNeighbours).dsp.voiceState 1 =
        (dspUpdate (fun _ => 0) true lonelyVoice).dsp.voiceState 1 := by
  have hagree : VoiceAgree 1 noisyNeighbours lonelyVoice := by
    constructor <;> intros <;> rfl
  refine ⟨by decide +kernel, by decide +kernel, ?_⟩
  exact (dspUpdate_voice_isolation (fun _ => 0) true true 1 noisyNeighbours lonelyVoice hagree
    (Or.inl (by decide))).1

end OpenSpc
