import Mathlib.Tactic
import OpenSpc.ByteMask
import OpenSpc.Narrow

/-!
# State of the emulated DSP

The file-scope variables of `dsp.c`, together with the SPC RAM the DSP shares
with the CPU core.  `int` variables are exact integers (natural numbers where
the source never stores a negative value); registers, RAM cells and the eight
channel bit-fields are bit vectors of the width the hardware gives them.

An array whose index the source masks (`FIRptr & 7`, `sampptr & 3`) is a
function on the corresponding `Fin`, whose addition is the masked one.
-/

namespace OpenSpc

/-- One cell of SPC RAM, of the register file or of a state image. -/
abbrev Byte := BitVec 8

/-- The 64K of SPC RAM. -/
abbrev Ram := BitVec 16 → Byte

/-- The DSP register file `DSPregs`. -/
abbrev Regs := Nat → Byte

/-- Voices and FIR taps are numbered modulo 8. -/
instance neZero_eight : NeZero (8 : Nat) := ⟨by decide⟩

/-- Samples of a ring are numbered modulo 4. -/
instance neZero_four : NeZero (4 : Nat) := ⟨by decide⟩

/-- ADSR state of a voice (`env_state_t32`). -/
inductive EnvState where
  | attack
  | decay
  | sustain
  | release
  deriving DecidableEq, Repr

/-- `voice_state_type`, without the never used `samp_id`. -/
structure VoiceState where
  memPtr : BitVec 16
  endBits : Nat
  envcnt : Int
  envstate : EnvState
  envx : Int
  filter : Nat
  half : Nat
  headerCnt : Nat
  mixfrac : Int
  onCnt : Nat
  pitch : Int
  range : Nat
  sampptr : Fin 4
  smp1 : Int
  smp2 : Int
  sampbuf : Fin 4 → Int

/-- The variables of `dsp.c`, and the RAM it reads and writes. -/
structure Dsp where
  channelMask : BitVec 32
  keyedOn : Byte
  keys : Byte
  voiceState : Fin 8 → VoiceState
  noiseCnt : Int
  noiseLev : Nat
  firLbuf : Fin 8 → Int
  firRbuf : Fin 8 → Int
  firPtr : Fin 8
  echoPtr : Nat
  dspRegs : Regs
  spcRam : Ram

/-- What a call of `DSP_Update` is observed to do: branches taken by the key
and decoder logic, and every index into SPC RAM.  The log has no counterpart
in the source and nothing reads it back. -/
inductive Event where
  | keyOn (v : Fin 8)
  | accept (v : Fin 8)
  | keyOff (v : Fin 8)
  | endBlock (v : Fin 8)
  | read (i : Nat)
  | write (i : Nat)
  deriving DecidableEq, Repr

/-- The loop variable `m` for voice `v`. -/
def voiceMask (v : Fin 8) : Byte := ByteMask.single 8 v

/-- Count an envelope or noise counter restarts from (`CNT_INIT`). -/
def cntInit : Int := 0x7800

/-- The table `ENVCNT`: counts subtracted in each sample period. -/
def envCntTable : List Int :=
  [0x0000, 0x000F, 0x0014, 0x0018, 0x001E, 0x0028, 0x0030, 0x003C,
   0x0050, 0x0060, 0x0078, 0x00A0, 0x00C0, 0x00F0, 0x0140, 0x0180,
   0x01E0, 0x0280, 0x0300, 0x03C0, 0x0500, 0x0600, 0x0780, 0x0A00,
   0x0C00, 0x0F00, 0x1400, 0x1800, 0x1E00, 0x2800, 0x3C00, 0x7800]

/-- `ENVCNT[ i ]`. -/
def envCnt (i : Nat) : Int := envCntTable.getD i 0

/-- No rate counts up, and none skips a whole period. -/
theorem envCnt_bounds (i : Nat) : 0 ≤ envCnt i ∧ envCnt i ≤ cntInit := by
  by_cases hi : i < 32
  · have hall : ∀ j : Fin 32, 0 ≤ envCnt j ∧ envCnt j ≤ cntInit := by decide
    exact hall ⟨i, hi⟩
  · have hnone : envCntTable[i]? = none := by
      apply List.getElem?_eq_none
      simp only [envCntTable, List.length_cons, List.length_nil]
      omega
    simp [envCnt, hnone, cntInit]

/-- `SPC_RAM[ i ]`.  An index past the array reads whatever the process keeps
there, `host`. -/
def ramAt (host : Nat → Byte) (ram : Ram) (i : Nat) : Byte :=
  if i < 0x10000 then ram (BitVec.ofNat 16 i) else host i

/-- `SPC_RAM[ i ] = b`.  A write past the array would leave SPC RAM alone. -/
def ramSet (ram : Ram) (i : Nat) (b : Byte) : Ram :=
  if i < 0x10000 then Function.update ram (BitVec.ofNat 16 i) b else ram

/-- A little-endian `unsigned short` at index `i` of SPC RAM. -/
def ramWord (host : Nat → Byte) (ram : Ram) (i : Nat) : BitVec 16 :=
  ramAt host ram (i + 1) ++ ramAt host ram i

namespace Dsp

/-- `DSPregs[ i ] = b`. -/
def setReg (s : Dsp) (i : Nat) (b : Byte) : Dsp :=
  { s with dspRegs := Function.update s.dspRegs i b }

/-- `voice_state[ v ] = vp`. -/
def setVoice (s : Dsp) (v : Fin 8) (vp : VoiceState) : Dsp :=
  { s with voiceState := Function.update s.voiceState v vp }

end Dsp

/-- `DSP_Reset`. -/
def dspReset (s : Dsp) : Dsp :=
  { s with
    firLbuf := fun _ => 0
    firRbuf := fun _ => 0
    voiceState := fun i => { s.voiceState i with onCnt := 0 }
    firPtr := 0
    echoPtr := 0
    keys := 0
    keyedOn := 0
    noiseCnt := 0
    noiseLev := 0x4000
    dspRegs := Function.update (Function.update (Function.update s.dspRegs
      0x6C (s.dspRegs 0x6C ||| 0xE0)) 0x4C 0) 0x5C 0 }

/-- Zero-initialised storage of one voice. -/
def zeroVoice : VoiceState where
  memPtr := 0
  endBits := 0
  envcnt := 0
  envstate := .attack
  envx := 0
  filter := 0
  half := 0
  headerCnt := 0
  mixfrac := 0
  onCnt := 0
  pitch := 0
  range := 0
  sampptr := 0
  smp1 := 0
  smp2 := 0
  sampbuf := fun _ => 0

/-- Zero-initialised globals at the start of the process. -/
def zeroDsp : Dsp where
  channelMask := 0
  keyedOn := 0
  keys := 0
  voiceState := fun _ => zeroVoice
  noiseCnt := 0
  noiseLev := 0
  firLbuf := fun _ => 0
  firRbuf := fun _ => 0
  firPtr := 0
  echoPtr := 0
  dspRegs := fun _ => 0
  spcRam := fun _ => 0

end OpenSpc
