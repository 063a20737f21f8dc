import OpenSpc.EchoCongr
import OpenSpc.ForgetStart
import OpenSpc.VoiceMix

/-!
# One update after two pasts

Two states of the DSP resemble each other when they differ at most in voices
that are off, and in DSP registers no program can read.  An update keeps the
resemblance and gives the same samples, provided that no voice it starts sees
the difference.
-/

namespace OpenSpc

open ByteMask (bit)

/-- The two states differ at most in the write-only `keyed_on`, in registers
from 0x80 on, and in the state of voices that are off, their countdown
excepted. -/
structure Resembles (s s' : Dsp) : Prop where
  channelMask : s'.channelMask = s.channelMask
  noiseCnt : s'.noiseCnt = s.noiseCnt
  noiseLev : s'.noiseLev = s.noiseLev
  firLbuf : s'.firLbuf = s.firLbuf
  firRbuf : s'.firRbuf = s.firRbuf
  firPtr : s'.firPtr = s.firPtr
  echoPtr : s'.echoPtr = s.echoPtr
  spcRam : s'.spcRam = s.spcRam
  regs : ∀ i, i < 0x80 → s'.dspRegs i = s.dspRegs i
  keys : s'.keys = s.keys
  onCnt : ∀ v, (s'.voiceState v).onCnt = (s.voiceState v).onCnt
  sounding : ∀ v : Fin 8, bit s.keys v = true → s'.voiceState v = s.voiceState v

namespace Resembles

variable {s s' : Dsp}

/-- The same register is set in both. -/
theorem setReg (h : Resembles s s') {i : Nat} {b b' : Byte} (hb : b' = b) :
    Resembles (s.setReg i b) (s'.setReg i b') where
  channelMask := h.channelMask
  noiseCnt := h.noiseCnt
  noiseLev := h.noiseLev
  firLbuf := h.firLbuf
  firRbuf := h.firRbuf
  firPtr := h.firPtr
  echoPtr := h.echoPtr
  spcRam := h.spcRam
  regs := by
    intro j hj
    unfold Dsp.setReg
    dsimp only
    rw [hb]
    by_cases hji : j = i
    · rw [hji, Function.update_self, Function.update_self]
    · rw [Function.update_of_ne hji, Function.update_of_ne hji]
      exact h.regs j hj
  keys := h.keys
  onCnt := h.onCnt
  sounding := h.sounding

/-- Both are reset. -/
theorem reset (h : Resembles s s') : Resembles (dspReset s) (dspReset s') where
  channelMask := h.channelMask
  noiseCnt := rfl
  noiseLev := rfl
  firLbuf := rfl
  firRbuf := rfl
  firPtr := rfl
  echoPtr := rfl
  spcRam := h.spcRam
  regs := by
    have hflg := h.regs 0x6C (by decide)
    exact (((h.setReg (congrArg (· ||| 0xE0) hflg)).setReg rfl).setReg rfl).regs
  keys := rfl
  onCnt := fun _ => rfl
  sounding := by
    intro v hv
    simp [dspReset, bit] at hv

/-- The noise is clocked in both. -/
theorem noiseStep (h : Resembles s s') : Resembles (noiseStep s) (noiseStep s') := by
  have hflg := h.regs 0x6C (by decide)
  unfold OpenSpc.noiseStep
  rw [h.noiseCnt, h.noiseLev, hflg]
  dsimp only
  split
  · exact ⟨h.1, rfl, rfl, h.4, h.5, h.6, h.7, h.8, h.9, h.10, h.11, h.12⟩
  · exact ⟨h.1, rfl, rfl, h.4, h.5, h.6, h.7, h.8, h.9, h.10, h.11, h.12⟩

/-- Both go through the prelude. -/
theorem prelude (h : Resembles s s') : Resembles (prelude s) (prelude s') := by
  have hbegin : Resembles (if bit (s.dspRegs 0x6C) 7 then dspReset s else s)
      (if bit (s'.dspRegs 0x6C) 7 then dspReset s' else s') := by
    rw [h.regs 0x6C (by decide)]
    split
    · exact h.reset
    · exact h
  have hendx := hbegin.regs 0x7C (by decide)
  have hkon := hbegin.regs 0x4C (by decide)
  unfold OpenSpc.prelude
  exact (hbegin.setReg (by rw [hendx, hkon])).noiseStep

/-- The voices read the same. -/
theorem input (h : Resembles s s') (host : Nat → Byte) (v : Fin 8) :
    voiceInput host v s' = voiceInput host v s := by
  have hreg (j : Nat) (hj : j < 8) : s'.dspRegs (16 * v + j) = s.dspRegs (16 * v + j) :=
    h.regs _ (by omega)
  unfold voiceInput dirEntry
  rw [h.spcRam, h.noiseLev, h.regs 0x5D (by decide), h.regs 0x5C (by decide),
    h.regs 0x3D (by decide), h.regs 0x2D (by decide), hreg 2 (by decide), hreg 3 (by decide),
    hreg 4 (by decide), hreg 5 (by decide), hreg 6 (by decide), hreg 7 (by decide)]

/-- The cells of a voice agree. -/
theorem cell (h : Resembles s s') (v : Fin 8) : CellAgree (voiceCell v s) (voiceCell v s') where
  rest := by
    unfold voiceCell
    rw [h.keys, h.regs 0x4C (by decide), h.regs 0x7C (by decide), h.regs (16 * v + 8) (by omega),
      h.regs (16 * v + 9) (by omega)]
  onCnt := h.onCnt v
  sounding := h.sounding v

end Resembles

/-- The past of every voice that starts in the update from `s` agrees with its
past in `s'`, as far as its first block sees it. -/
def StartsAgree (host : Nat → Byte) (s s' : Dsp) : Prop :=
  bit (s.dspRegs 0x6C) 7 = false → ∀ v, (s.voiceState v).onCnt = 1 →
    PastAgrees (firstFilter (voiceInput host v s)) (s.voiceState v).smp1 (s.voiceState v).smp2
      (s'.voiceState v).smp1 (s'.voiceState v).smp2

instance (host : Nat → Byte) (s s' : Dsp) : Decidable (StartsAgree host s s') :=
  inferInstanceAs (Decidable (_ → ∀ _, _ → _))

/-! ## The voice loop -/

section Loop

variable {host : Nat → Byte} {s s' : Dsp}

/-- Every pass, given the same output of the voice before. -/
theorem Resembles.cellPass_agree (h : Resembles s s') (hinv : DspInv s) (hinv' : DspInv s')
    (hstarts : StartsAgree host s s') (v : Fin 8) (hprev : prevOut host s' v = prevOut host s v) :
    CellAgree (cellPass host s v).cell (cellPass host s' v).cell ∧
      (cellPass host s' v).outx = (cellPass host s v).outx := by
  have hinput := h.prelude.input host v
  unfold cellPass
  rw [hinput, hprev]
  refine VoiceCell.pass_agree (h.prelude.cell v) (hinv.prelude_voice v).toDecoderInv
    (hinv'.prelude_voice v).toDecoderInv fun hs => ?_
  have hflg : bit (s.dspRegs 0x6C) 7 = false := by
    by_contra hset
    rw [Bool.not_eq_false] at hset
    rw [prelude_cell, hset] at hs
    exact absurd hs (by simp [VoiceCell.starts])
  have hflg' : bit (s'.dspRegs 0x6C) 7 = false := by
    rw [h.regs 0x6C (by decide)]
    exact hflg
  rw [prelude_cell, hflg] at hs
  have hcnt : (s.voiceState v).onCnt = 1 := of_decide_eq_true hs
  have hpast := hstarts hflg v hcnt
  rw [prelude_cell, prelude_cell, hflg, hflg', prelude_input]
  exact hpast

/-- The outputs handed on are the same, by induction on the passes. -/
theorem Resembles.prevOut_agree (h : Resembles s s') (hinv : DspInv s) (hinv' : DspInv s')
    (hstarts : StartsAgree host s s') (n : Nat) (hn : n ≤ 8) :
    prevOut host s' n = prevOut host s n := by
  induction n with
  | zero => rfl
  | succ n ih =>
      have hprev := ih (by omega)
      have hsucc := prevOut_succ host s ⟨n, hn⟩
      have hsucc' := prevOut_succ host s' ⟨n, hn⟩
      dsimp only at hsucc hsucc'
      rw [hsucc, hsucc']
      exact (h.cellPass_agree hinv hinv' hstarts ⟨n, hn⟩ hprev).2

/-- **All eight passes agree.** -/
theorem Resembles.pass_agree (h : Resembles s s') (hinv : DspInv s) (hinv' : DspInv s')
    (hstarts : StartsAgree host s s') (v : Fin 8) :
    CellAgree (cellPass host s v).cell (cellPass host s' v).cell ∧
      (cellPass host s' v).outx = (cellPass host s v).outx :=
  h.cellPass_agree hinv hinv' hstarts v (h.prevOut_agree hinv hinv' hstarts v (by omega))

/-- The accumulators agree; the log is nobody's input. -/
theorem Resembles.locals_agree (h : Resembles s s') (hinv : DspInv s) (hinv' : DspInv s')
    (hstarts : StartsAgree host s s') (n : Nat) (hn : n ≤ 8) :
    loopLocals host s' n = { loopLocals host s n with log := (loopLocals host s' n).log } := by
  induction n with
  | zero => rfl
  | succ n ih =>
      have hprev := ih (by omega)
      have hsucc := loopLocals_succ host s ⟨n, hn⟩
      have hsucc' := loopLocals_succ host s' ⟨n, hn⟩
      dsimp only at hsucc hsucc'
      have hmix := mixVoice_congr (v := ⟨n, hn⟩) h.prelude.channelMask
        (h.prelude.regs _ (by simp only; omega)) (h.prelude.regs _ (by simp only; omega))
        (h.prelude.regs 0x4D (by decide))
      rw [hsucc', hprev, hmix, mixVoice_log, (h.pass_agree hinv hinv' hstarts ⟨n, hn⟩).2, hsucc]

end Loop

/-! ## The echo unit -/

/-- The two states agree on everything the echo unit reads. -/
structure EchoAgree (s s' : Dsp) : Prop where
  firLbuf : s'.firLbuf = s.firLbuf
  firRbuf : s'.firRbuf = s.firRbuf
  firPtr : s'.firPtr = s.firPtr
  echoPtr : s'.echoPtr = s.echoPtr
  spcRam : s'.spcRam = s.spcRam
  regs : ∀ i, i < 0x80 → s'.dspRegs i = s.dspRegs i

namespace EchoAgree

variable {s s' : Dsp}

/-- The echo unit reads what is the same. -/
theorem reads (h : EchoAgree s s') : EchoReads s s' where
  firLbuf := h.firLbuf
  firRbuf := h.firRbuf
  firPtr := h.firPtr
  echoPtr := h.echoPtr
  spcRam := h.spcRam
  regs := fun i hi _ => h.regs i hi

/-- **The echo unit agrees**, given accumulators that agree. -/
theorem unit (h : EchoAgree s s') (host : Nat → Byte) (sound : Bool) (x : Locals)
    (l : List Event) :
    EchoAgree (echoUnit host sound s x).dsp (echoUnit host sound s' { x with log := l }).dsp ∧
      (echoUnit host sound s' { x with log := l }).sample = (echoUnit host sound s x).sample := by
  obtain ⟨hunit, hsample⟩ := h.reads.unit host sound x l
  have hregs : (echoUnit host sound s x).dsp.dspRegs = s.dspRegs :=
    (echoUnit_frame host sound s x).2.2.2.2.2.2
  have hregs' : (echoUnit host sound s' { x with log := l }).dsp.dspRegs = s'.dspRegs :=
    (echoUnit_frame host sound s' { x with log := l }).2.2.2.2.2.2
  refine ⟨⟨hunit.1, hunit.2, hunit.3, hunit.4, hunit.5, ?_⟩, hsample⟩
  rw [hregs, hregs']
  exact h.regs

end EchoAgree

/-! ## The update -/

/-- Eight flags make a byte. -/
theorem byte_eq_of_bits {x y : Byte} (h : ∀ v : Fin 8, bit x v = bit y v) : x = y := by
  apply BitVec.eq_of_getLsbD_eq
  intro i hi
  exact h ⟨i, hi⟩

section Update

variable {host : Nat → Byte} {s s' : Dsp}

/-- States that agree outside the voices, and voice by voice. -/
theorem Resembles.of_cells {t t' : Dsp} (h : Resembles s s') (hframe : LoopFrame s t)
    (hframe' : LoopFrame s' t') (hcell : ∀ v, CellAgree (voiceCell v t) (voiceCell v t')) :
    Resembles t t' where
  channelMask := by rw [hframe.channelMask, hframe'.channelMask, h.channelMask]
  noiseCnt := by rw [hframe.noiseCnt, hframe'.noiseCnt, h.noiseCnt]
  noiseLev := by rw [hframe.noiseLev, hframe'.noiseLev, h.noiseLev]
  firLbuf := by rw [hframe.firLbuf, hframe'.firLbuf, h.firLbuf]
  firRbuf := by rw [hframe.firRbuf, hframe'.firRbuf, h.firRbuf]
  firPtr := by rw [hframe.firPtr, hframe'.firPtr, h.firPtr]
  echoPtr := by rw [hframe.echoPtr, hframe'.echoPtr, h.echoPtr]
  spcRam := by rw [hframe.spcRam, hframe'.spcRam, h.spcRam]
  regs := by
    intro i hi
    by_cases h4 : i = 0x4C
    · rw [h4]
      exact byte_eq_of_bits fun v => (hcell v).kon
    by_cases h7 : i = 0x7C
    · rw [h7]
      exact byte_eq_of_bits fun v => (hcell v).endx
    by_cases h8 : i % 16 = 8
    · have hv : i = 16 * ((⟨i / 16, by omega⟩ : Fin 8) : Nat) + 8 := by
        simp only
        omega
      rw [hv]
      exact (hcell _).envxReg
    by_cases h9 : i % 16 = 9
    · have hv : i = 16 * ((⟨i / 16, by omega⟩ : Fin 8) : Nat) + 9 := by
        simp only
        omega
      rw [hv]
      exact (hcell _).outxReg
    rw [hframe.regs i h4 h7 fun v => ⟨by omega, by omega⟩,
      hframe'.regs i h4 h7 fun v => ⟨by omega, by omega⟩, h.regs i hi]
  keys := byte_eq_of_bits fun v => (hcell v).key
  onCnt := fun v => (hcell v).onCnt
  sounding := fun v => (hcell v).sounding

variable (host) in

/-- The echo unit leaves both alike, with the same pair stored. -/
theorem Resembles.echo (h : Resembles s s') (sound : Bool) (x : Locals) (l : List Event) :
    Resembles (echoUnit host sound s x).dsp (echoUnit host sound s' { x with log := l }).dsp ∧
      (echoUnit host sound s' { x with log := l }).sample = (echoUnit host sound s x).sample := by
  have hecho : EchoAgree s s' := ⟨h.4, h.5, h.6, h.7, h.8, h.9⟩
  obtain ⟨hunit, hsample⟩ := hecho.unit host sound x l
  have hframe := echoUnit_frame host sound s x
  have hframe' := echoUnit_frame host sound s' { x with log := l }
  dsimp only at hframe hframe'
  generalize (echoUnit host sound s x).dsp = t at *
  generalize (echoUnit host sound s' { x with log := l }).dsp = t' at *
  obtain ⟨hmask, -, hkeys, hvoice, hcnt, hlev, -⟩ := hframe
  obtain ⟨hmask', -, hkeys', hvoice', hcnt', hlev', -⟩ := hframe'
  refine ⟨?_, hsample⟩
  exact
    { channelMask := by rw [hmask, hmask', h.channelMask]
      noiseCnt := by rw [hcnt, hcnt', h.noiseCnt]
      noiseLev := by rw [hlev, hlev', h.noiseLev]
      firLbuf := hunit.firLbuf
      firRbuf := hunit.firRbuf
      firPtr := hunit.firPtr
      echoPtr := hunit.echoPtr
      spcRam := hunit.spcRam
      regs := hunit.regs
      keys := by rw [hkeys, hkeys', h.keys]
      onCnt := by
        intro v
        rw [hvoice, hvoice']
        exact h.onCnt v
      sounding := by
        intro v hv
        rw [hkeys] at hv
        rw [hvoice, hvoice']
        exact h.sounding v hv }

/-- **One update.**  It gives the same sample, and the states go on resembling
each other. -/
theorem Resembles.update (h : Resembles s s') (hinv : DspInv s) (hinv' : DspInv s')
    (hstarts : StartsAgree host s s') (sound : Bool) :
    Resembles (dspUpdate host sound s).dsp (dspUpdate host sound s').dsp ∧
      (dspUpdate host sound s').sample = (dspUpdate host sound s).sample := by
  have hcell (v : Fin 8) : CellAgree (voiceCell v (voiceLoop host (OpenSpc.prelude s, freshLocals) 8).1)
      (voiceCell v (voiceLoop host (OpenSpc.prelude s', freshLocals) 8).1) := by
    rw [voiceLoop_cell, voiceLoop_cell]
    exact (h.pass_agree hinv hinv' hstarts v).1
  have hloop := h.prelude.of_cells (voiceLoop_frame host (OpenSpc.prelude s, freshLocals) 8)
    (voiceLoop_frame host (OpenSpc.prelude s', freshLocals) 8) hcell
  have hlocals := h.locals_agree hinv hinv' hstarts 8 le_rfl
  have hunit := hloop.echo host sound (loopLocals host s 8) (loopLocals host s' 8).log
  rw [← hlocals] at hunit
  exact hunit

end Update

end OpenSpc
