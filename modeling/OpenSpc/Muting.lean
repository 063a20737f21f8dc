import OpenSpc.EchoCongr
import OpenSpc.UpdateFrame
import OpenSpc.VoiceMix

/-!
# Muted channels

The channel mask is consulted in one place, where the output of a voice is added
to the accumulators; by then everything the voice contributes to its own
playback, to the registers and to the next voice has been computed.  The same
place is the only one that reads the volumes of the voice.  So muting a channel
is setting its volumes to zero, and two masks can be told apart only by the
sample and by what the echo unit stores.
-/

namespace OpenSpc

open ByteMask (bit)

/-- Register `i` is VOL(L) or VOL(R) of a voice. -/
def IsVolume (i : Nat) : Prop := i < 0x80 ∧ i % 16 < 2

instance (i : Nat) : Decidable (IsVolume i) := inferInstanceAs (Decidable (_ ∧ _))

/-- The other registers of a voice are no volumes. -/
theorem not_isVolume_own (v : Fin 8) {j : Nat} (h2 : 2 ≤ j) (h16 : j < 16) :
    ¬ IsVolume (16 * v + j) := by
  unfold IsVolume
  omega

/-- Mask 0, and zero volume for every voice that `mask` mutes. -/
def mute (mask : BitVec 32) (s : Dsp) : Dsp :=
  { s with
    channelMask := 0
    dspRegs := fun i => if IsVolume i ∧ bit mask (i / 16) = true then 0 else s.dspRegs i }

/-- `s'` is `s` up to channel mask and volumes. -/
structure Remixed (s s' : Dsp) : Prop where
  rest : s' = { s with channelMask := s'.channelMask, dspRegs := s'.dspRegs }
  regs : ∀ i, ¬ IsVolume i → s'.dspRegs i = s.dspRegs i

namespace Remixed

variable {s s' : Dsp}

/-- The voices are the same. -/
theorem voiceState (h : Remixed s s') : s'.voiceState = s.voiceState := by rw [h.rest]

/-- `keys` is the same. -/
theorem keys (h : Remixed s s') : s'.keys = s.keys := by rw [h.rest]

/-- `keyed_on` is the same. -/
theorem keyedOn (h : Remixed s s') : s'.keyedOn = s.keyedOn := by rw [h.rest]

/-- The counter of the noise is the same. -/
theorem noiseCnt (h : Remixed s s') : s'.noiseCnt = s.noiseCnt := by rw [h.rest]

/-- The level of the noise is the same. -/
theorem noiseLev (h : Remixed s s') : s'.noiseLev = s.noiseLev := by rw [h.rest]

/-- The echo pointer is the same. -/
theorem echoPtr (h : Remixed s s') : s'.echoPtr = s.echoPtr := by rw [h.rest]

/-- RAM is the same. -/
theorem spcRam (h : Remixed s s') : s'.spcRam = s.spcRam := by rw [h.rest]

/-- The same voice is set in both. -/
theorem setVoice (h : Remixed s s') (v : Fin 8) (vp : VoiceState) :
    Remixed (s.setVoice v vp) (s'.setVoice v vp) where
  rest := by rw [h.rest]; rfl
  regs := h.regs

/-- The same register is set in both. -/
theorem setReg (h : Remixed s s') (i : Nat) (b : Byte) : Remixed (s.setReg i b) (s'.setReg i b) where
  rest := by rw [h.rest]; rfl
  regs := by
    intro j hj
    change Function.update s'.dspRegs i b j = Function.update s.dspRegs i b j
    by_cases hji : j = i
    · rw [hji, Function.update_self, Function.update_self]
    · rw [Function.update_of_ne hji, Function.update_of_ne hji, h.regs j hj]

/-- `keys` is set in both. -/
theorem setKeys (h : Remixed s s') (k : Byte) :
    Remixed { s with keys := k } { s' with keys := k } where
  rest := by rw [h.rest]
  regs := h.regs

/-- A start is noted in both. -/
theorem setStarted (h : Remixed s s') (k l : Byte) :
    Remixed { s with keys := k, keyedOn := l } { s' with keys := k, keyedOn := l } where
  rest := by rw [h.rest]
  regs := h.regs

/-- The noise is set in both. -/
theorem setNoise (h : Remixed s s') (cnt : Int) (lev : Nat) :
    Remixed { s with noiseCnt := cnt, noiseLev := lev }
      { s' with noiseCnt := cnt, noiseLev := lev } where
  rest := by rw [h.rest]
  regs := h.regs

/-- The registers of a voice that are no volumes are the same. -/
theorem voiceReg (h : Remixed s s') (v : Fin 8) {j : Nat} (h2 : 2 ≤ j) (h16 : j < 16) :
    s'.dspRegs (16 * v + j) = s.dspRegs (16 * v + j) :=
  h.regs _ (not_isVolume_own v h2 h16)

/-! ## The prelude -/

/-- Both are reset. -/
theorem reset (h : Remixed s s') : Remixed (dspReset s) (dspReset s') where
  rest := by rw [h.rest]; rfl
  regs := by
    unfold dspReset
    rw [h.regs 0x6C (by decide)]
    exact (((h.setReg 0x6C (s.dspRegs 0x6C ||| 0xE0)).setReg 0x4C 0).setReg 0x5C 0).regs

/-- The noise is clocked in both. -/
theorem noiseStep (h : Remixed s s') : Remixed (noiseStep s) (noiseStep s') := by
  unfold OpenSpc.noiseStep
  rw [h.noiseCnt, h.noiseLev, h.regs 0x6C (by decide)]
  dsimp only
  split
  · exact h.setNoise _ _
  · exact h.setNoise _ _

/-- Both go through the prelude. -/
theorem prelude (h : Remixed s s') : Remixed (prelude s) (prelude s') := by
  have hbegin : Remixed (if bit (s.dspRegs 0x6C) 7 then dspReset s else s)
      (if bit (s'.dspRegs 0x6C) 7 then dspReset s' else s') := by
    rw [h.regs 0x6C (by decide)]
    split
    · exact h.reset
    · exact h
  unfold OpenSpc.prelude
  dsimp only
  rw [hbegin.regs 0x7C (by decide), hbegin.regs 0x4C (by decide)]
  exact (hbegin.setReg _ _).noiseStep

/-! ## The passes -/

/-- The directory entry of a voice is the same. -/
theorem dirEntry (h : Remixed s s') (v : Fin 8) : dirEntry s' v = dirEntry s v := by
  unfold OpenSpc.dirEntry
  rw [h.regs 0x5D (by decide), h.voiceReg v (by decide) (by decide)]

/-- A voice is started in both, or in neither. -/
theorem keyOnVoice (h : Remixed s s') (host : Nat → Byte) (v : Fin 8) :
    Remixed (keyOnVoice host v s).1 (keyOnVoice host v s').1 ∧
      (keyOnVoice host v s').2 = (keyOnVoice host v s).2 := by
  unfold OpenSpc.keyOnVoice
  rw [h.voiceState, h.dirEntry, h.spcRam, h.keys, h.keyedOn]
  dsimp only
  split
  · exact ⟨h, rfl⟩
  · split
    · exact ⟨(h.setVoice _ _).setStarted _ _, rfl⟩
    · exact ⟨h.setVoice _ _, rfl⟩

/-- A key-on is accepted in both, or in neither. -/
theorem acceptVoice (h : Remixed s s') (v : Fin 8) :
    Remixed (acceptVoice v s).1 (acceptVoice v s').1 ∧
      (acceptVoice v s').2 = (acceptVoice v s).2 := by
  unfold OpenSpc.acceptVoice
  rw [h.voiceState, h.regs 0x4C (by decide), h.regs 0x5C (by decide)]
  split
  · exact ⟨(h.setReg _ _).setVoice _ _, rfl⟩
  · exact ⟨h, rfl⟩

/-- A key-off is observed in both, or in neither. -/
theorem keyOffVoice (h : Remixed s s') (v : Fin 8) :
    Remixed (keyOffVoice v s).1 (keyOffVoice v s').1 ∧
      (keyOffVoice v s').2 = (keyOffVoice v s).2 := by
  unfold OpenSpc.keyOffVoice
  rw [h.voiceState, h.keys, h.regs 0x5C (by decide)]
  split
  · exact ⟨h.setVoice _ _, rfl⟩
  · exact ⟨h, rfl⟩

/-- What the decode loop leaves is stored in both. -/
theorem applyDecode (h : Remixed s s') (v : Fin 8) (d : Decode) :
    Remixed (applyDecode v d s) (applyDecode v d s') := by
  have hvoice := h.setVoice v d.vp
  have hendx : Remixed
      (if d.endx then (s.setVoice v d.vp).setReg 0x7C ((s.setVoice v d.vp).dspRegs 0x7C ||| voiceMask v)
        else s.setVoice v d.vp)
      (if d.endx then (s'.setVoice v d.vp).setReg 0x7C ((s'.setVoice v d.vp).dspRegs 0x7C ||| voiceMask v)
        else s'.setVoice v d.vp) := by
    rw [hvoice.regs 0x7C (by decide)]
    split
    · exact hvoice.setReg _ _
    · exact hvoice
  unfold OpenSpc.applyDecode
  dsimp only
  rw [hendx.keys]
  split
  · exact (hendx.setKeys _).setReg _ _
  · exact hendx

/-- The pitch of a voice is the same. -/
theorem voicePitch (h : Remixed s s') (v : Fin 8) (outx : Int) :
    voicePitch s' v outx = voicePitch s v outx := by
  unfold OpenSpc.voicePitch
  rw [h.voiceReg v (by decide) (by decide), h.voiceReg v (by decide) (by decide),
    h.regs 0x2D (by decide)]

/-- The output of a voice before its envelope is the same. -/
theorem voiceSource (h : Remixed s s') (v : Fin 8) (vp : VoiceState) :
    voiceSource s' v vp = voiceSource s v vp := by
  unfold OpenSpc.voiceSource
  rw [h.regs 0x3D (by decide), h.noiseLev]

end Remixed

/-- The locals, the accumulators apart. -/
structure SameOut (x x' : Locals) : Prop where
  outx : x'.outx = x.outx
  log : x'.log = x.log

namespace Remixed

variable {s s' : Dsp} {x x' : Locals}

/-- A voice is silent in both. -/
theorem silenceVoice (h : Remixed s s') (hx : SameOut x x') (v : Fin 8) :
    Remixed (silenceVoice v s x).1 (silenceVoice v s' x').1 ∧
      SameOut (silenceVoice v s x).2 (silenceVoice v s' x').2 :=
  ⟨(h.setReg _ _).setReg _ _, rfl, hx.log⟩

/-- A voice plays the same in both. -/
theorem playVoice (h : Remixed s s') (hx : SameOut x x') (host : Nat → Byte) (v : Fin 8)
    (envx : Int) :
    Remixed (playVoice host v envx s x).1 (playVoice host v envx s' x').1 ∧
      SameOut (playVoice host v envx s x).2 (playVoice host v envx s' x').2 := by
  unfold OpenSpc.playVoice
  dsimp only
  rw [h.voiceState, h.spcRam, h.dirEntry, h.voicePitch, hx.outx]
  generalize hd : brrDecode _ _ _ _ = d
  have hdecode := h.applyDecode v d
  rw [hdecode.voiceSource]
  refine ⟨(hdecode.setVoice _ _).setReg _ _, ?_, ?_⟩
  · rw [(mixVoice_outx ..).1, (mixVoice_outx ..).1]
  · rw [(mixVoice_outx ..).2, (mixVoice_outx ..).2, hx.log]

/-- **A pass does not see the mix.** -/
theorem voiceBody (h : Remixed s s') (hx : SameOut x x') (host : Nat → Byte) (v : Fin 8) :
    Remixed (voiceBody host v (s, x)).1 (voiceBody host v (s', x')).1 ∧
      SameOut (voiceBody host v (s, x)).2 (voiceBody host v (s', x')).2 := by
  obtain ⟨hon, honLog⟩ := h.keyOnVoice host v
  obtain ⟨hacc, haccLog⟩ := hon.acceptVoice v
  obtain ⟨hoff, hoffLog⟩ := hacc.keyOffVoice v
  have hlog (l : List Event) : SameOut { x with log := l } { x' with log := l } := ⟨hx.outx, rfl⟩
  unfold OpenSpc.voiceBody
  dsimp only
  rw [honLog, haccLog, hoffLog, hx.log]
  generalize (OpenSpc.keyOffVoice v _).1 = t at *
  generalize (OpenSpc.keyOffVoice v _).1 = t' at *
  have hadv : advanceEnvelope (t'.dspRegs (16 * v + 5)) (t'.dspRegs (16 * v + 6))
        (t'.dspRegs (16 * v + 7)) (t'.voiceState v) =
      advanceEnvelope (t.dspRegs (16 * v + 5)) (t.dspRegs (16 * v + 6))
        (t.dspRegs (16 * v + 7)) (t.voiceState v) := by
    rw [hoff.voiceState, hoff.voiceReg v (by decide) (by decide),
      hoff.voiceReg v (by decide) (by decide), hoff.voiceReg v (by decide) (by decide)]
  rw [hadv, hoff.keys]
  split
  · split
    · exact (hoff.setKeys _).silenceVoice (hlog _) v
    · rename_i vp b _
      have hset := (hoff.setVoice v vp).setReg (16 * v + 8) b
      split
      · exact hset.silenceVoice (hlog _) v
      · exact hset.playVoice (hlog _) host v _
  · exact hoff.silenceVoice (hlog _) v

/-- **The voice loop does not see the mix**, by induction on the passes. -/
theorem voiceLoop (h : Remixed s s') (hx : SameOut x x') (host : Nat → Byte) (n : Nat) :
    Remixed (voiceLoop host (s, x) n).1 (voiceLoop host (s', x') n).1 ∧
      SameOut (voiceLoop host (s, x) n).2 (voiceLoop host (s', x') n).2 := by
  induction n with
  | zero => exact ⟨h, hx⟩
  | succ n ih =>
      unfold OpenSpc.voiceLoop
      split
      · exact ih.1.voiceBody ih.2 host _
      · exact ih

/-! ## The echo unit -/

/-- The echo unit reads the same, the accumulators apart. -/
theorem reads (h : Remixed s s') : EchoReads s s' where
  firLbuf := by rw [h.rest]
  firRbuf := by rw [h.rest]
  firPtr := by rw [h.rest]
  echoPtr := h.echoPtr
  spcRam := h.spcRam
  regs := fun i _ hi => h.regs i (by unfold IsVolume; omega)

/-- **The echo unit does not see the mix**, apart from the accumulators. -/
theorem echoUnit (h : Remixed s s') (host : Nat → Byte) (sound : Bool) (x : Locals) :
    Remixed (echoUnit host sound s x).dsp (echoUnit host sound s' x).dsp ∧
      (echoUnit host sound s' x).sample = (echoUnit host sound s x).sample ∧
      (echoUnit host sound s' x).log = (echoUnit host sound s x).log := by
  have hunit : EchoReads (OpenSpc.echoUnit host sound s x).dsp (OpenSpc.echoUnit host sound s' x).dsp ∧
      (OpenSpc.echoUnit host sound s' x).sample = (OpenSpc.echoUnit host sound s x).sample :=
    h.reads.unit host sound x x.log
  obtain ⟨-, hon, hkeys, hvoice, hcnt, hlev, hregs⟩ := echoUnit_frame host sound s x
  obtain ⟨-, hon', hkeys', hvoice', hcnt', hlev', hregs'⟩ := echoUnit_frame host sound s' x
  refine ⟨⟨?_, ?_⟩, hunit.2, h.reads.unit_log host sound x⟩
  · rw [h.keyedOn, ← hon] at hon'
    rw [h.keys, ← hkeys] at hkeys'
    rw [h.voiceState, ← hvoice] at hvoice'
    rw [h.noiseCnt, ← hcnt] at hcnt'
    rw [h.noiseLev, ← hlev] at hlev'
    rw [← hon', ← hkeys', ← hvoice', ← hcnt', ← hlev', ← hunit.1.firLbuf, ← hunit.1.firRbuf,
      ← hunit.1.firPtr, ← hunit.1.echoPtr, ← hunit.1.spcRam]
  · rw [hregs, hregs']
    exact h.regs

end Remixed

/-- The accumulators reach the globals through the echo slot only. -/
theorem echoUnit_slot (host : Nat → Byte) (sound : Bool) (s : Dsp) {x x' : Locals}
    (hlog : x'.log = x.log) :
    let t := (echoUnit host sound s x).dsp
    let t' := (echoUnit host sound s x').dsp
    t' = { t with spcRam := t'.spcRam } ∧
      (∀ a, a.toNat ∉ slotIndices (echoBase s) → t'.spcRam a = t.spcRam a) ∧
      (echoUnit host sound s x').log = (echoUnit host sound s x).log := by
  have hset (ram : Ram) (i : Nat) (b : Byte) (a : BitVec 16) (ha : a.toNat ≠ i) :
      ramSet ram i b a = ram a := by
    unfold ramSet
    split
    · rename_i hi
      refine Function.update_of_ne (fun heq => ha ?_) ..
      rw [heq, BitVec.toNat_ofNat, Nat.mod_eq_of_lt hi]
    · rfl
  have hoff (u : Dsp) (l r : Int) (a : BitVec 16) (ha : a.toNat ∉ slotIndices (echoBase u)) :
      (echoWrite u l r).spcRam a = u.spcRam a := by
    simp only [slotIndices, List.mem_cons, List.not_mem_nil, or_false, not_or] at ha
    unfold echoWrite
    dsimp only
    rw [hset _ _ _ _ ha.2.2.2, hset _ _ _ _ ha.2.2.1, hset _ _ _ _ ha.2.1, hset _ _ _ _ ha.1]
  intro t t'
  refine ⟨?_, fun a ha => ?_, ?_⟩
  · simp only [t, t', echoUnit]
    split <;> rfl
  · simp only [t, t', echoUnit, echoAdvance]
    split
    · exact (hoff _ _ _ a ha).trans (hoff _ _ _ a ha).symm
    · rfl
  · unfold echoUnit
    dsimp only
    rw [hlog]

/-! ## The update -/

section Update

variable (host : Nat → Byte) (sound : Bool) (mask : BitVec 32) (s : Dsp)

/-- Before every pass, the states agree up to the mix and the locals up to the
accumulators. -/
theorem Remixed.loop {s s' : Dsp} (h : Remixed s s') (n : Nat) :
    Remixed (OpenSpc.voiceLoop host (OpenSpc.prelude s, freshLocals) n).1
        (OpenSpc.voiceLoop host (OpenSpc.prelude s', freshLocals) n).1 ∧
      SameOut (loopLocals host s n) (loopLocals host s' n) :=
  h.prelude.voiceLoop ⟨rfl, rfl⟩ host n

/-- The prelude leaves the mask. -/
theorem prelude_channelMask : (prelude s).channelMask = s.channelMask := by
  unfold prelude noiseStep
  dsimp only
  split <;> split <;> rfl

/-- A voice that is added at zero volume is not added. -/
theorem mixVoice_mute (v : Fin 8) (outx : Int) (x : Locals) :
    mixVoice v (mute s.channelMask s) outx x = mixVoice v s outx x := by
  have hleft : IsVolume (16 * v) := by
    unfold IsVolume
    omega
  have hright : IsVolume (16 * v + 1) := by
    unfold IsVolume
    omega
  have hvoice : 16 * (v : Nat) / 16 = v ∧ (16 * (v : Nat) + 1) / 16 = v := by omega
  have hclear : bit (mute s.channelMask s).channelMask v = false := by simp [mute, bit]
  have hecho : (mute s.channelMask s).dspRegs 0x4D = s.dspRegs 0x4D := rfl
  unfold mixVoice
  rw [hclear, hecho]
  cases hmask : bit s.channelMask v
  · have hvol (i : Nat) (hi : i / 16 = v) : voiceVolume (mute s.channelMask s) i outx =
        voiceVolume s i outx := by
      unfold voiceVolume mute
      dsimp only
      rw [if_neg (by rw [hi, hmask]; simp)]
    rw [hvol _ hvoice.1, hvol _ hvoice.2]
  · have hvol (i : Nat) (hv : IsVolume i) (hi : i / 16 = v) :
        voiceVolume (mute s.channelMask s) i outx = 0 := by
      unfold voiceVolume mute
      dsimp only
      rw [if_pos ⟨hv, by rw [hi, hmask]⟩]
      simp
    rw [hvol _ hleft hvoice.1, hvol _ hright hvoice.2]
    simp

/-- Muting changes the mix only. -/
theorem mute_remixed : Remixed s (mute mask s) where
  rest := rfl
  regs := by
    intro i hi
    exact if_neg fun h => hi h.1

/-- The volumes of the muted voices are zero. -/
theorem mute_volume {i : Nat} (h : IsVolume i) :
    (mute mask s).dspRegs i = if bit mask (i / 16) then 0 else s.dspRegs i := by
  unfold mute
  dsimp only
  simp only [h, true_and]

variable {mask s}

/-- Mask and volumes are all there is to add. -/
theorem Remixed.eq_mute {s' : Dsp} (h : Remixed s s') (hmask : s'.channelMask = 0)
    (hvol : ∀ i, IsVolume i → s'.dspRegs i = if bit mask (i / 16) then 0 else s.dspRegs i) :
    s' = mute mask s := by
  have hregs : s'.dspRegs = (mute mask s).dspRegs := by
    funext i
    by_cases hi : IsVolume i
    · rw [hvol i hi, mute_volume _ _ hi]
    · rw [h.regs i hi, (mute_remixed mask s).regs i hi]
  rw [h.rest, hmask, hregs]
  rfl

/-- A volume is none of the registers that an update writes. -/
theorem IsVolume.other {i : Nat} (h : IsVolume i) :
    i ≠ 0x4C ∧ i ≠ 0x5C ∧ i ≠ 0x6C ∧ i ≠ 0x7C ∧
      ∀ v : Fin 8, i ≠ 16 * (v : Nat) + 8 ∧ i ≠ 16 * (v : Nat) + 9 := by
  unfold IsVolume at h
  refine ⟨?_, ?_, ?_, ?_, fun v => ⟨?_, ?_⟩⟩ <;> omega

variable (mask s)

/-- The prelude of a muted state. -/
theorem prelude_mute : prelude (mute mask s) = mute mask (prelude s) := by
  apply (mute_remixed mask s).prelude.eq_mute
  · exact prelude_channelMask _
  · intro i hi
    obtain ⟨h4, h5, h6, h7, -⟩ := hi.other
    rw [prelude_reg _ h4 h5 h6 h7, prelude_reg _ h4 h5 h6 h7, mute_volume _ _ hi]

/-- **The accumulators of a muted state.** -/
theorem loopLocals_mute (n : Nat) (hn : n ≤ 8) :
    loopLocals host (mute s.channelMask s) n = loopLocals host s n := by
  have hsame (k : Nat) := ((mute_remixed s.channelMask s).loop host k).2
  induction n with
  | zero => rfl
  | succ n ih =>
      have hsucc := loopLocals_succ host s ⟨n, hn⟩
      have hsucc' := loopLocals_succ host (mute s.channelMask s) ⟨n, hn⟩
      have hout : (cellPass host (mute s.channelMask s) ⟨n, hn⟩).outx =
          (cellPass host s ⟨n, hn⟩).outx := by
        rw [← prevOut_succ, ← prevOut_succ]
        exact (hsame (n + 1)).outx
      have hlog : (loopLocals host (mute s.channelMask s) (n + 1)).log =
          (loopLocals host s (n + 1)).log := (hsame (n + 1)).log
      have hmix := mixVoice_mute (prelude s)
      rw [prelude_channelMask, ← prelude_mute] at hmix
      dsimp only at hsucc hsucc'
      rw [hsucc', hout, hlog, ih (by omega), hmix, ← hsucc]

/-- An update changes neither mask nor volumes. -/
theorem dspUpdate_channelMask : (dspUpdate host sound s).dsp.channelMask = s.channelMask := by
  have hecho := (echoUnit_frame host sound (voiceLoop host (prelude s, freshLocals) 8).1
    (voiceLoop host (prelude s, freshLocals) 8).2).1
  have hloop := (voiceLoop_frame host (prelude s, freshLocals) 8).channelMask
  exact (hecho.trans hloop).trans (prelude_channelMask s)

/-- An update leaves the volumes. -/
theorem dspUpdate_volume {i : Nat} (hi : IsVolume i) :
    (dspUpdate host sound s).dsp.dspRegs i = s.dspRegs i := by
  obtain ⟨h4, h5, h6, h7, hv⟩ := hi.other
  rw [dspUpdate_dsp]
  exact dspNext_reg h4 h7 hv fun _ => ⟨h6, h5⟩

/-- An update is the voice loop and the echo unit. -/
theorem dspUpdate_loop :
    dspUpdate host sound s =
      echoUnit host sound (voiceLoop host (prelude s, freshLocals) 8).1 (loopLocals host s 8) := rfl

/-- The update of a muted state. -/
theorem dspUpdate_mute :
    dspUpdate host sound (mute s.channelMask s) =
      { dspUpdate host sound s with
        dsp := mute s.channelMask (dspUpdate host sound s).dsp } := by
  have hloop := ((mute_remixed s.channelMask s).loop host 8).1
  obtain ⟨hdsp, hsample, hlog⟩ := hloop.echoUnit host sound (loopLocals host s 8)
  rw [← dspUpdate_loop host sound s, ← loopLocals_mute host s 8 le_rfl,
    ← dspUpdate_loop host sound (mute s.channelMask s)] at hdsp hsample hlog
  have hmute : (dspUpdate host sound (mute s.channelMask s)).dsp =
      mute s.channelMask (dspUpdate host sound s).dsp := by
    refine hdsp.eq_mute (dspUpdate_channelMask ..) fun i hi => ?_
    rw [dspUpdate_volume host sound _ hi, dspUpdate_volume host sound _ hi, mute_volume _ _ hi]
  generalize dspUpdate host sound (mute s.channelMask s) = u at *
  generalize dspUpdate host sound s = w at *
  obtain ⟨dsp, sample, log⟩ := u
  dsimp only at hmute hsample hlog
  rw [hmute, hsample, hlog]

/-- Two states that differ in the mix only, after an update each.  On the way from
the one to the other comes the second state under the accumulators of the first. -/
theorem Remixed.dspUpdate {s s' : Dsp} (h : Remixed s s') :
    Remixed { (dspUpdate host sound s).dsp with spcRam := (dspUpdate host sound s').dsp.spcRam }
        (dspUpdate host sound s').dsp ∧
      (∀ a, a.toNat ∉ slotIndices (OpenSpc.echoBase (OpenSpc.prelude s)) →
        (dspUpdate host sound s').dsp.spcRam a = (dspUpdate host sound s).dsp.spcRam a) ∧
      (dspUpdate host sound s').log = (dspUpdate host sound s).log := by
  obtain ⟨hloop, hout⟩ := h.loop host 8
  obtain ⟨hdsp, -, hlog⟩ := hloop.echoUnit host sound (loopLocals host s' 8)
  obtain ⟨hrest, hslot, hlog'⟩ := echoUnit_slot host sound
    (OpenSpc.voiceLoop host (OpenSpc.prelude s, freshLocals) 8).1 hout.log
  rw [loop_echoBase] at hslot
  rw [← dspUpdate_loop] at hdsp hlog hrest hslot hlog'
  generalize OpenSpc.dspUpdate host sound s = u at *
  generalize OpenSpc.dspUpdate host sound s' = u' at *
  generalize OpenSpc.echoUnit host sound _ _ = w at *
  rw [hdsp.spcRam]
  refine ⟨?_, hslot, hlog.trans hlog'⟩
  rw [hrest] at hdsp
  exact hdsp

/-- Two masks, one state. -/
theorem dspUpdate_masks (mask' : BitVec 32) :
    (dspUpdate host sound { s with channelMask := mask' }).dsp =
      { (dspUpdate host sound { s with channelMask := mask }).dsp with
        channelMask := mask'
        spcRam := (dspUpdate host sound { s with channelMask := mask' }).dsp.spcRam } := by
  have hremixed : Remixed { s with channelMask := mask } { s with channelMask := mask' } :=
    ⟨rfl, fun _ _ => rfl⟩
  obtain ⟨hdsp, -, -⟩ := hremixed.dspUpdate host sound
  have hmask := dspUpdate_channelMask host sound { s with channelMask := mask' }
  have hvol (i : Nat) (hi : IsVolume i) := dspUpdate_volume host sound { s with channelMask := mask } hi
  have hvol' (i : Nat) (hi : IsVolume i) :=
    dspUpdate_volume host sound { s with channelMask := mask' } hi
  generalize dspUpdate host sound { s with channelMask := mask } = u at *
  generalize dspUpdate host sound { s with channelMask := mask' } = u' at *
  have hregs : u'.dsp.dspRegs = u.dsp.dspRegs := by
    funext i
    by_cases hi : IsVolume i
    · rw [hvol i hi, hvol' i hi]
    · exact hdsp.regs i hi
  have hrest := hdsp.rest
  rw [hregs, hmask] at hrest
  exact hrest

end Update

/-- **Muting a channel is giving it zero volume, and nothing else.**  An update
under `mask` is an update under mask 0 with the volumes of the masked voices
cleared; and under two masks only the sample and the bytes of the echo slot can
differ. -/
theorem muting_is_zero_volume (host : Nat → Byte) (sound : Bool) (s : Dsp) (mask mask' : BitVec 32) :
    let u := dspUpdate host sound { s with channelMask := mask }
    let u' := dspUpdate host sound { s with channelMask := mask' }
    dspUpdate host sound (mute mask s) = { u with dsp := mute mask u.dsp } ∧
      u'.dsp = { u.dsp with channelMask := mask', spcRam := u'.dsp.spcRam } ∧
      (∀ a, a.toNat ∉ slotIndices (echoBase (prelude s)) → u'.dsp.spcRam a = u.dsp.spcRam a) ∧
      u'.log = u.log := by
  have hremixed : Remixed { s with channelMask := mask } { s with channelMask := mask' } :=
    ⟨rfl, fun _ _ => rfl⟩
  obtain ⟨-, hram, hlog⟩ := hremixed.dspUpdate host sound
  have hbase : echoBase (prelude { s with channelMask := mask }) = echoBase (prelude s) := by
    have hsame : Remixed s { s with channelMask := mask } := ⟨rfl, fun _ _ => rfl⟩
    exact hsame.prelude.reads.base
  rw [hbase] at hram
  exact ⟨dspUpdate_mute host sound { s with channelMask := mask },
    dspUpdate_masks host sound mask s mask', hram, hlog⟩

end OpenSpc
