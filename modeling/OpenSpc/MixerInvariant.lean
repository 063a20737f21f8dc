import OpenSpc.EchoFilter
import OpenSpc.NoisePeriod

/-!
# What the mixer reads

The sample rings of the voices and the two FIR buffers hold 16-bit values in
every reachable state, whatever is in RAM, and the noise level has 15 bits.
-/

namespace OpenSpc

open ByteMask (bit)
open Narrow (Fits)

/-- The samples of a voice have 16 bits. -/
def RingFits (vp : VoiceState) : Prop := ∀ k, Fits 15 (vp.sampbuf k)

/-- Silence fits. -/
theorem fits_zero : Fits 15 0 := by
  unfold Fits
  decide

/-! ## A voice -/

/-- Storing a sample. -/
theorem RingFits.store {vp : VoiceState} (h : RingFits vp) {x : Int} (hx : Fits 15 x) (p k : Fin 4) :
    Fits 15 (Function.update vp.sampbuf p x k) := by
  by_cases hk : k = p
  · rw [hk, Function.update_self]
    exact hx
  · rw [Function.update_of_ne hk]
    exact h k

/-- Draining stores no samples. -/
theorem RingFits.drain {vp : VoiceState} (h : RingFits vp) (n : Nat) : RingFits (drain n vp) := by
  induction n generalizing vp with
  | zero => exact h
  | succ n ih =>
      unfold OpenSpc.drain
      split
      · exact ih (h.store fits_zero vp.sampptr)
      · exact h

/-- The guarded part of a pass stores no samples. -/
theorem RingFits.enterBlock {d : Decode} (h : RingFits d.vp) (m : Mem) (entry : Nat) (v : Fin 8) :
    RingFits (enterBlock m entry v d).vp := by
  rcases enterBlock_cases m entry v d with ⟨-, he⟩ | ⟨-, he⟩ | ⟨-, he⟩ | ⟨-, he⟩
  · rwa [he]
  · rw [he]
    exact h
  · rw [he]
    exact h
  · have hvp : RingFits { d.vp with envx := 0 } := h
    rw [he]
    exact hvp.drain _

/-- A pass stores a sample that was cast to 16 bits. -/
theorem RingFits.decodePass {d : Decode} (h : RingFits d.vp) (ram : Ram) :
    RingFits (decodePass ram d).vp :=
  h.store (Narrow.narrow_fits 15 _) d.vp.sampptr

/-- **What is decoded has 16 bits.** -/
theorem RingFits.brrDecode {vp : VoiceState} (h : RingFits vp) (m : Mem) (entry : Nat) (v : Fin 8) :
    RingFits (brrDecode m entry v vp).vp :=
  decodeLoop_keeps m entry v (P := fun d => RingFits d.vp)
    (fun _ _ _ hd => hd.enterBlock m entry v) (fun _ _ _ hd => hd.decodePass m.ram) _ _ rfl h

/-- The key rules store no samples. -/
theorem RingFits.keyRules {c : VoiceCell} (h : RingFits c.vp) (i : VoiceInput) :
    RingFits (c.keyRules i).vp := by
  rw [VoiceCell.keyRules_vp]
  split
  · exact h
  · exact h

/-- The envelope step stores no samples. -/
theorem RingFits.advanceEnvelope {adsr1 adsr2 gain : Byte} {vp vp' : VoiceState} {b : Byte}
    (h : RingFits vp) (hadv : OpenSpc.advanceEnvelope adsr1 adsr2 gain vp = some (vp', b)) :
    RingFits vp' := by
  rw [advanceEnvelope_frame hadv]
  exact h

/-- A pass of the voice loop keeps the samples in range. -/
theorem RingFits.pass {c : VoiceCell} (h : RingFits c.vp) (v : Fin 8) (i : VoiceInput) (outx : Int) :
    RingFits (VoiceCell.pass v i outx c).cell.vp := by
  have hrules := h.keyRules i
  rcases VoiceCell.pass_cases v i outx c with
    ⟨-, hpass⟩ | ⟨-, -, hpass⟩ | ⟨vp, b, -, hadv, -, hpass⟩ | ⟨vp, b, -, hadv, -, hpass⟩
  · rw [hpass]
    exact hrules
  · rw [hpass]
    exact hrules
  · rw [hpass]
    exact hrules.advanceEnvelope hadv
  · have hvp : RingFits vp := hrules.advanceEnvelope hadv
    have hpitch : RingFits { vp with pitch := VoiceCell.effPitch i outx } := hvp
    rw [hpass]
    exact hpitch.brrDecode i.mem i.entry v

/-! ## The DSP -/

/-- The samples, the echo and the noise are in range. -/
structure MixerInv (s : Dsp) : Prop where
  sampbuf : ∀ v, RingFits (s.voiceState v)
  fir : ∀ k, Fits 15 (firBuf s k).1 ∧ Fits 15 (firBuf s k).2
  noise : s.noiseLev < 2 ^ 15

section Update

variable {host : Nat → Byte} {s : Dsp}

/-- A word of RAM, read as a signed value. -/
theorem word_fits (w : BitVec 16) : Fits 15 w.toInt := by
  have hlo := BitVec.le_toInt w
  have hhi := BitVec.toInt_lt (x := w)
  unfold Fits
  omega

/-- What is read from the echo has 16 bits. -/
theorem echoSample_fits (host : Nat → Byte) (s : Dsp) :
    Fits 15 (echoSample host s).1 ∧ Fits 15 (echoSample host s).2 :=
  ⟨word_fits _, word_fits _⟩

/-- The prelude stores no samples. -/
theorem MixerInv.prelude_voice (h : MixerInv s) (v : Fin 8) :
    RingFits (voiceCell v (prelude s)).vp := by
  rw [prelude_cell]
  split
  · exact h.sampbuf v
  · exact h.sampbuf v

/-- The prelude clears the FIR buffers, or leaves them. -/
theorem MixerInv.prelude_fir (h : MixerInv s) (k : Fin 8) :
    Fits 15 (firBuf (prelude s) k).1 ∧ Fits 15 (firBuf (prelude s) k).2 := by
  rw [(OpenSpc.prelude_fir s).1]
  split
  · exact ⟨fits_zero, fits_zero⟩
  · exact h.fir k

/-- What an update leaves in the FIR buffers is what its filter reads. -/
theorem MixerInv.next_fir (h : MixerInv s) (host : Nat → Byte) (k : Fin 8) :
    Fits 15 (firBuf (dspNext host s) k).1 ∧ Fits 15 (firBuf (dspNext host s) k).2 := by
  rw [(dspNext_fir host s).1]
  by_cases hk : k = (prelude s).firPtr
  · rw [hk, Function.update_self]
    exact echoSample_fits host s
  · rw [Function.update_of_ne hk]
    exact h.prelude_fir k

/-- A clock of the noise keeps it in range. -/
theorem MixerInv.next_noise (h : MixerInv s) (host : Nat → Byte) :
    (dspNext host s).noiseLev < 2 ^ 15 := by
  have hentry : (noiseEntry s).2 < 2 ^ 15 := by
    unfold noiseEntry
    split
    · decide
    · exact h.noise
  rw [dspNext_noiseLev]
  exact noiseNext_shifts.iterate_lt hentry _

/-- **An update keeps the samples, the echo and the noise in range.** -/
theorem MixerInv.dspNext (h : MixerInv s) (host : Nat → Byte) : MixerInv (dspNext host s) where
  sampbuf := by
    intro v
    rw [dspNext_voiceState]
    exact (h.prelude_voice v).pass v _ _
  fir := h.next_fir host
  noise := h.next_noise host

end Update

/-- **Every reachable state is in range.** -/
theorem Reachable.mixerInv {s : Dsp} (h : Reachable s) : MixerInv s := by
  induction h with
  | boot => exact ⟨fun _ _ => fits_zero, fun _ => ⟨fits_zero, fits_zero⟩, by decide⟩
  | reset _ ih =>
      have hlev : 0x4000 < 2 ^ 15 := by decide
      exact ⟨ih.sampbuf, fun _ => ⟨fits_zero, fits_zero⟩, hlev⟩
  | update host _ ih => exact ih.dspNext host
  | write _ hw ih =>
      obtain ⟨hl, hr, -⟩ := hw.fir
      refine ⟨?_, ?_, ?_⟩
      · rw [hw.voiceState]
        exact ih.sampbuf
      · unfold firBuf
        rw [hl, hr]
        exact ih.fir
      · rw [hw.noise.2]
        exact ih.noise

end OpenSpc
