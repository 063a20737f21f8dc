import OpenSpc.DspUpdate

/-!
# One voice as a machine of its own

The voice loop works on shared bit-fields, a shared register file and locals
carried from voice to voice.  This file separates what voice `v` owns (its
`VoiceCell`) from what it only reads (its `VoiceInput`), states a pass of the
loop as a function of these two, and proves that the source's pass is exactly
that function on voice `v` and changes no other cell.
-/

namespace OpenSpc

open ByteMask (bit)

/-- What one voice owns: its state, its bits of `keys`, KON and ENDX, and its
registers ENVX and OUTX. -/
structure VoiceCell where
  vp : VoiceState
  key : Bool
  kon : Bool
  endx : Bool
  envxReg : Byte
  outxReg : Byte

/-- What a pass for one voice reads without ever writing it. -/
structure VoiceInput where
  mem : Mem
  entry : Nat
  pitch : Int
  adsr1 : Byte
  adsr2 : Byte
  gain : Byte
  kof : Bool
  non : Bool
  pmon : Bool
  noiseLev : Nat

/-- The cell of voice `v` in a global state. -/
def voiceCell (v : Fin 8) (s : Dsp) : VoiceCell where
  vp := s.voiceState v
  key := bit s.keys v
  kon := bit (s.dspRegs 0x4C) v
  endx := bit (s.dspRegs 0x7C) v
  envxReg := s.dspRegs (16 * v + 8)
  outxReg := s.dspRegs (16 * v + 9)

/-- The input of voice `v` in a global state. -/
def voiceInput (host : Nat → Byte) (v : Fin 8) (s : Dsp) : VoiceInput where
  mem := ⟨host, s.spcRam⟩
  entry := dirEntry s v
  pitch := ((s.dspRegs (16 * v + 2)).toNat + (s.dspRegs (16 * v + 3)).toNat * 2 ^ 8) % 2 ^ 14
  adsr1 := s.dspRegs (16 * v + 5)
  adsr2 := s.dspRegs (16 * v + 6)
  gain := s.dspRegs (16 * v + 7)
  kof := bit (s.dspRegs 0x5C) v
  non := bit (s.dspRegs 0x3D) v
  pmon := bit (s.dspRegs 0x2D) v
  noiseLev := s.noiseLev

namespace VoiceCell

/-- The delayed start falls into this pass. -/
def starts (c : VoiceCell) : Bool := c.vp.onCnt = 1

/-- A key-on is accepted in this pass. -/
def accepts (i : VoiceInput) (c : VoiceCell) : Bool := c.kon && !i.kof

/-- The delayed start of a voice. -/
def keyOn (i : VoiceInput) (c : VoiceCell) : VoiceCell :=
  if c.starts then { c with vp := c.vp.start (i.mem.vptr i.entry), key := true }
  else { c with vp := { c.vp with onCnt := c.vp.onCnt - 1 } }

/-- Acceptance of a key-on. -/
def accept (i : VoiceInput) (c : VoiceCell) : VoiceCell :=
  if c.accepts i then { c with vp := { c.vp with onCnt := 8 }, kon := false } else c

/-- A key-off of a voice that sounds. -/
def keyOff (i : VoiceInput) (c : VoiceCell) : VoiceCell :=
  if c.key && i.kof then { c with vp := { c.vp with envstate := .release, onCnt := 0 } }
  else c

/-- The three key rules of a pass. -/
def keyRules (i : VoiceInput) (c : VoiceCell) : VoiceCell :=
  ((c.keyOn i).accept i).keyOff i

/-- Events of the three key rules. -/
def keyEvents (v : Fin 8) (i : VoiceInput) (c : VoiceCell) : List Event :=
  (if c.starts then [.keyOn v, .read i.entry, .read (i.entry + 1)] else [])
    ++ (if c.accepts i then [.accept v] else [])
    ++ (if ((c.keyOn i).accept i).key && i.kof then [.keyOff v] else [])

/-- The voice produces nothing in this update. -/
def silence (c : VoiceCell) : VoiceCell := { c with envxReg := 0, outxReg := 0 }

/-- The pitch after modulation by the previous voice's output. -/
def effPitch (i : VoiceInput) (outx : Int) : Int :=
  if i.pmon then i.pitch * (outx + 32768) / 2 ^ 15 else i.pitch

/-- The decode loop of a pass, entered with the effective pitch stored. -/
def decode (v : Fin 8) (i : VoiceInput) (outx : Int) (vp : VoiceState) : Decode :=
  brrDecode i.mem i.entry v { vp with pitch := effPitch i outx }

/-- Result of a pass: the cell, the output handed to the next voice, and the
events. -/
structure Pass where
  cell : VoiceCell
  outx : Int
  log : List Event

/-- The part of a pass after the envelope. -/
def play (v : Fin 8) (i : VoiceInput) (outx envx : Int) (c : VoiceCell) : Pass :=
  let d := decode v i outx c.vp
  let src := if i.non then short (i.noiseLev * 2) else interpolate d.vp
  let out := shiftEven (src * envx)
  { cell :=
      { vp := { d.vp with mixfrac := d.vp.mixfrac + effPitch i outx }
        key := c.key && !d.ended
        kon := c.kon
        endx := c.endx || d.endx
        envxReg := if d.ended then 0 else c.envxReg
        outxReg := BitVec.ofInt 8 (out / 2 ^ 8) }
    outx := out
    log := d.log }

/-- A pass of the voice loop on one cell. -/
def pass (v : Fin 8) (i : VoiceInput) (outx : Int) (c : VoiceCell) : Pass :=
  let k := c.keyRules i
  let log := c.keyEvents v i
  if k.key then
    match advanceEnvelope i.adsr1 i.adsr2 i.gain k.vp with
    | none => { cell := { k with key := false }.silence, outx := 0, log := log }
    | some (vp, envxReg) =>
        let k := { k with vp := vp, envxReg := envxReg }
        if vp.envx < 0 then { cell := k.silence, outx := 0, log := log }
        else
          let p := play v i outx vp.envx k
          { p with log := log ++ p.log }
  else { cell := k.silence, outx := 0, log := log }

end VoiceCell

/-! ## Reading single writes back from a cell -/

/-- Setting the bit of a voice. -/
theorem bit_set_mask (x : Byte) (v w : Fin 8) :
    bit (x ||| voiceMask v) w = (bit x w || decide (w = v)) := by
  unfold voiceMask
  rw [ByteMask.bit_or_single v.isLt]
  simp [Fin.ext_iff]

/-- Clearing the bit of a voice. -/
theorem bit_clear_mask (x : Byte) (v w : Fin 8) :
    bit (x &&& ~~~ voiceMask v) w = (bit x w && !decide (w = v)) := by
  unfold voiceMask
  rw [ByteMask.bit_and_not_single v.isLt]
  simp [Fin.ext_iff]

section Writes

variable (host : Nat → Byte) (v : Fin 8) (s : Dsp)

theorem voiceCell_setVoice (vp : VoiceState) :
    voiceCell v (s.setVoice v vp) = { voiceCell v s with vp := vp } := by
  simp [voiceCell, Dsp.setVoice]

theorem voiceCell_setEnvx (b : Byte) :
    voiceCell v (s.setReg (16 * v + 8) b) = { voiceCell v s with envxReg := b } := by
  have h1 : (0x4C : Nat) ≠ 16 * v + 8 := by omega
  have h2 : (0x7C : Nat) ≠ 16 * v + 8 := by omega
  simp [voiceCell, Dsp.setReg, Function.update_of_ne h1, Function.update_of_ne h2]

theorem voiceCell_setOutx (b : Byte) :
    voiceCell v (s.setReg (16 * v + 9) b) = { voiceCell v s with outxReg := b } := by
  have h1 : (0x4C : Nat) ≠ 16 * v + 9 := by omega
  have h2 : (0x7C : Nat) ≠ 16 * v + 9 := by omega
  simp [voiceCell, Dsp.setReg, Function.update_of_ne h1, Function.update_of_ne h2]

theorem voiceCell_setKon (b : Byte) :
    voiceCell v (s.setReg 0x4C b) = { voiceCell v s with kon := bit b v } := by
  have h1 : 16 * (v : Nat) + 8 ≠ 0x4C := by omega
  have h2 : 16 * (v : Nat) + 9 ≠ 0x4C := by omega
  simp [voiceCell, Dsp.setReg, Function.update_of_ne h1, Function.update_of_ne h2]

theorem voiceCell_setEndx (b : Byte) :
    voiceCell v (s.setReg 0x7C b) = { voiceCell v s with endx := bit b v } := by
  have h1 : 16 * (v : Nat) + 8 ≠ 0x7C := by omega
  have h2 : 16 * (v : Nat) + 9 ≠ 0x7C := by omega
  simp [voiceCell, Dsp.setReg, Function.update_of_ne h1, Function.update_of_ne h2]

/-- `keys` is the only one of the two words that a cell reads. -/
theorem voiceCell_setKeys (k k' : Byte) :
    voiceCell v { s with keys := k, keyedOn := k' } =
      { voiceCell v s with key := bit k v } := rfl

end Writes

/-! ## The frame of a pass -/

/-- `s'` differs from `s` at most in what voice `v` owns (and in the write-only
`keyed_on`). -/
structure VoiceFrame (v : Fin 8) (s s' : Dsp) : Prop where
  channelMask : s'.channelMask = s.channelMask
  noiseCnt : s'.noiseCnt = s.noiseCnt
  noiseLev : s'.noiseLev = s.noiseLev
  firLbuf : s'.firLbuf = s.firLbuf
  firRbuf : s'.firRbuf = s.firRbuf
  firPtr : s'.firPtr = s.firPtr
  echoPtr : s'.echoPtr = s.echoPtr
  spcRam : s'.spcRam = s.spcRam
  voices : ∀ w, w ≠ v → s'.voiceState w = s.voiceState w
  keys : ∀ w : Fin 8, w ≠ v → bit s'.keys w = bit s.keys w
  kon : ∀ w : Fin 8, w ≠ v → bit (s'.dspRegs 0x4C) w = bit (s.dspRegs 0x4C) w
  endx : ∀ w : Fin 8, w ≠ v → bit (s'.dspRegs 0x7C) w = bit (s.dspRegs 0x7C) w
  regs : ∀ i : Nat, i ≠ 0x4C → i ≠ 0x7C → i ≠ 16 * v + 8 → i ≠ 16 * v + 9 →
    s'.dspRegs i = s.dspRegs i

namespace VoiceFrame

variable {v : Fin 8} {s s' s'' : Dsp}

theorem refl (v : Fin 8) (s : Dsp) : VoiceFrame v s s := by
  constructor <;> intros <;> rfl

theorem trans (h : VoiceFrame v s s') (h' : VoiceFrame v s' s'') :
    VoiceFrame v s s'' where
  channelMask := h'.channelMask.trans h.channelMask
  noiseCnt := h'.noiseCnt.trans h.noiseCnt
  noiseLev := h'.noiseLev.trans h.noiseLev
  firLbuf := h'.firLbuf.trans h.firLbuf
  firRbuf := h'.firRbuf.trans h.firRbuf
  firPtr := h'.firPtr.trans h.firPtr
  echoPtr := h'.echoPtr.trans h.echoPtr
  spcRam := h'.spcRam.trans h.spcRam
  voices := fun w hw => (h'.voices w hw).trans (h.voices w hw)
  keys := fun w hw => (h'.keys w hw).trans (h.keys w hw)
  kon := fun w hw => (h'.kon w hw).trans (h.kon w hw)
  endx := fun w hw => (h'.endx w hw).trans (h.endx w hw)
  regs := fun i h1 h2 h3 h4 => (h'.regs i h1 h2 h3 h4).trans (h.regs i h1 h2 h3 h4)

theorem setVoice (vp : VoiceState) : VoiceFrame v s (s.setVoice v vp) := by
  constructor <;> intros <;> try rfl
  rename_i w hw
  exact Function.update_of_ne hw _ _

/-- A write to `keys` that changes the bit of one voice only. -/
theorem setKeys (f : Byte) {k : Byte}
    (hk : ∀ w : Fin 8, w ≠ v → bit k w = bit s.keys w) :
    VoiceFrame v s { s with keys := k, keyedOn := f } := by
  constructor <;> intros <;> try rfl
  rename_i w hw
  exact hk w hw

theorem setEnvx (b : Byte) : VoiceFrame v s (s.setReg (16 * v + 8) b) := by
  constructor <;> intros <;> try rfl
  · simp only [Dsp.setReg]
    rw [Function.update_of_ne (by omega)]
  · simp only [Dsp.setReg]
    rw [Function.update_of_ne (by omega)]
  · rename_i i h1 h2 h3 h4
    exact Function.update_of_ne h3 _ _

theorem setOutx (b : Byte) : VoiceFrame v s (s.setReg (16 * v + 9) b) := by
  constructor <;> intros <;> try rfl
  · simp only [Dsp.setReg]
    rw [Function.update_of_ne (by omega)]
  · simp only [Dsp.setReg]
    rw [Function.update_of_ne (by omega)]
  · rename_i i h1 h2 h3 h4
    exact Function.update_of_ne h4 _ _

theorem clearKon : VoiceFrame v s (s.setReg 0x4C (s.dspRegs 0x4C &&& ~~~ voiceMask v)) := by
  constructor <;> intros <;> try rfl
  · rename_i w hw
    simp [Dsp.setReg, bit_clear_mask, hw]
  · rename_i i h1 h2 h3 h4
    exact Function.update_of_ne h1 _ _

theorem setEndx : VoiceFrame v s (s.setReg 0x7C (s.dspRegs 0x7C ||| voiceMask v)) := by
  constructor <;> intros <;> try rfl
  · rename_i w hw
    simp [Dsp.setReg, bit_set_mask, hw]
  · rename_i i h1 h2 h3 h4
    exact Function.update_of_ne h2 _ _

/-- No voice's input is touched. -/
theorem input (h : VoiceFrame v s s') (host : Nat → Byte) (w : Fin 8) :
    voiceInput host w s' = voiceInput host w s := by
  have hreg : ∀ i : Nat, i ≠ 0x4C → i ≠ 0x7C → i % 16 < 8 ∨ 9 < i % 16 →
      s'.dspRegs i = s.dspRegs i := by
    intro i h1 h2 h3
    exact h.regs i h1 h2 (by omega) (by omega)
  unfold voiceInput dirEntry
  rw [hreg 0x5C (by decide) (by decide) (by decide), hreg 0x3D (by decide) (by decide) (by decide),
    hreg 0x2D (by decide) (by decide) (by decide), hreg 0x5D (by decide) (by decide) (by decide),
    hreg (16 * w + 2) (by omega) (by omega) (by omega),
    hreg (16 * w + 3) (by omega) (by omega) (by omega),
    hreg (16 * w + 4) (by omega) (by omega) (by omega),
    hreg (16 * w + 5) (by omega) (by omega) (by omega),
    hreg (16 * w + 6) (by omega) (by omega) (by omega),
    hreg (16 * w + 7) (by omega) (by omega) (by omega), h.spcRam, h.noiseLev]

/-- No other voice's cell is touched. -/
theorem cell (h : VoiceFrame v s s') {w : Fin 8} (hw : w ≠ v) :
    voiceCell w s' = voiceCell w s := by
  have hne : (w : Nat) ≠ v := fun he => hw (Fin.ext he)
  unfold voiceCell
  rw [h.voices w hw, h.keys w hw, h.kon w hw, h.endx w hw,
    h.regs (16 * w + 8) (by omega) (by omega) (by omega) (by omega),
    h.regs (16 * w + 9) (by omega) (by omega) (by omega) (by omega)]

end VoiceFrame

end OpenSpc
