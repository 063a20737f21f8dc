import OpenSpc.AdvanceEnvelope
import OpenSpc.BrrDecode

/-!
# One sample of audio

`DSP_Update`: the reset check, the noise generator, the loop over the eight
voices, and the echo unit.  The statements of the source appear in its order;
a block of statements that acts on one voice, or on the echo unit, is a
function of its own.
-/

namespace OpenSpc

open ByteMask (bit)

/-- The table `gauss`. -/
def gaussTable : List Int :=
  [0x000, 0x000, 0x000, 0x000, 0x000, 0x000, 0x000, 0x000, 0x000, 0x000, 0x000, 0x000,
   0x000, 0x000, 0x000, 0x000, 0x001, 0x001, 0x001, 0x001, 0x001, 0x001, 0x001, 0x001,
   0x001, 0x001, 0x001, 0x002, 0x002, 0x002, 0x002, 0x002, 0x002, 0x002, 0x003, 0x003,
   0x003, 0x003, 0x003, 0x004, 0x004, 0x004, 0x004, 0x004, 0x005, 0x005, 0x005, 0x005,
   0x006, 0x006, 0x006, 0x006, 0x007, 0x007, 0x007, 0x008, 0x008, 0x008, 0x009, 0x009,
   0x009, 0x00A, 0x00A, 0x00A, 0x00B, 0x00B, 0x00B, 0x00C, 0x00C, 0x00D, 0x00D, 0x00E,
   0x00E, 0x00F, 0x00F, 0x00F, 0x010, 0x010, 0x011, 0x011, 0x012, 0x013, 0x013, 0x014,
   0x014, 0x015, 0x015, 0x016, 0x017, 0x017, 0x018, 0x018, 0x019, 0x01A, 0x01B, 0x01B,
   0x01C, 0x01D, 0x01D, 0x01E, 0x01F, 0x020, 0x020, 0x021, 0x022, 0x023, 0x024, 0x024,
   0x025, 0x026, 0x027, 0x028, 0x029, 0x02A, 0x02B, 0x02C, 0x02D, 0x02E, 0x02F, 0x030,
   0x031, 0x032, 0x033, 0x034, 0x035, 0x036, 0x037, 0x038, 0x03A, 0x03B, 0x03C, 0x03D,
   0x03E, 0x040, 0x041, 0x042, 0x043, 0x045, 0x046, 0x047, 0x049, 0x04A, 0x04C, 0x04D,
   0x04E, 0x050, 0x051, 0x053, 0x054, 0x056, 0x057, 0x059, 0x05A, 0x05C, 0x05E, 0x05F,
   0x061, 0x063, 0x064, 0x066, 0x068, 0x06A, 0x06B, 0x06D, 0x06F, 0x071, 0x073, 0x075,
   0x076, 0x078, 0x07A, 0x07C, 0x07E, 0x080, 0x082, 0x084, 0x086, 0x089, 0x08B, 0x08D,
   0x08F, 0x091, 0x093, 0x096, 0x098, 0x09A, 0x09C, 0x09F, 0x0A1, 0x0A3, 0x0A6, 0x0A8,
   0x0AB, 0x0AD, 0x0AF, 0x0B2, 0x0B4, 0x0B7, 0x0BA, 0x0BC, 0x0BF, 0x0C1, 0x0C4, 0x0C7,
   0x0C9, 0x0CC, 0x0CF, 0x0D2, 0x0D4, 0x0D7, 0x0DA, 0x0DD, 0x0E0, 0x0E3, 0x0E6, 0x0E9,
   0x0EC, 0x0EF, 0x0F2, 0x0F5, 0x0F8, 0x0FB, 0x0FE, 0x101, 0x104, 0x107, 0x10B, 0x10E,
   0x111, 0x114, 0x118, 0x11B, 0x11E, 0x122, 0x125, 0x129, 0x12C, 0x130, 0x133, 0x137,
   0x13A, 0x13E, 0x141, 0x145, 0x148, 0x14C, 0x150, 0x153, 0x157, 0x15B, 0x15F, 0x162,
   0x166, 0x16A, 0x16E, 0x172, 0x176, 0x17A, 0x17D, 0x181, 0x185, 0x189, 0x18D, 0x191,
   0x195, 0x19A, 0x19E, 0x1A2, 0x1A6, 0x1AA, 0x1AE, 0x1B2, 0x1B7, 0x1BB, 0x1BF, 0x1C3,
   0x1C8, 0x1CC, 0x1D0, 0x1D5, 0x1D9, 0x1DD, 0x1E2, 0x1E6, 0x1EB, 0x1EF, 0x1F3, 0x1F8,
   0x1FC, 0x201, 0x205, 0x20A, 0x20F, 0x213, 0x218, 0x21C, 0x221, 0x226, 0x22A, 0x22F,
   0x233, 0x238, 0x23D, 0x241, 0x246, 0x24B, 0x250, 0x254, 0x259, 0x25E, 0x263, 0x267,
   0x26C, 0x271, 0x276, 0x27B, 0x280, 0x284, 0x289, 0x28E, 0x293, 0x298, 0x29D, 0x2A2,
   0x2A6, 0x2AB, 0x2B0, 0x2B5, 0x2BA, 0x2BF, 0x2C4, 0x2C9, 0x2CE, 0x2D3, 0x2D8, 0x2DC,
   0x2E1, 0x2E6, 0x2EB, 0x2F0, 0x2F5, 0x2FA, 0x2FF, 0x304, 0x309, 0x30E, 0x313, 0x318,
   0x31D, 0x322, 0x326, 0x32B, 0x330, 0x335, 0x33A, 0x33F, 0x344, 0x349, 0x34E, 0x353,
   0x357, 0x35C, 0x361, 0x366, 0x36B, 0x370, 0x374, 0x379, 0x37E, 0x383, 0x388, 0x38C,
   0x391, 0x396, 0x39B, 0x39F, 0x3A4, 0x3A9, 0x3AD, 0x3B2, 0x3B7, 0x3BB, 0x3C0, 0x3C5,
   0x3C9, 0x3CE, 0x3D2, 0x3D7, 0x3DC, 0x3E0, 0x3E5, 0x3E9, 0x3ED, 0x3F2, 0x3F6, 0x3FB,
   0x3FF, 0x403, 0x408, 0x40C, 0x410, 0x415, 0x419, 0x41D, 0x421, 0x425, 0x42A, 0x42E,
   0x432, 0x436, 0x43A, 0x43E, 0x442, 0x446, 0x44A, 0x44E, 0x452, 0x455, 0x459, 0x45D,
   0x461, 0x465, 0x468, 0x46C, 0x470, 0x473, 0x477, 0x47A, 0x47E, 0x481, 0x485, 0x488,
   0x48C, 0x48F, 0x492, 0x496, 0x499, 0x49C, 0x49F, 0x4A2, 0x4A6, 0x4A9, 0x4AC, 0x4AF,
   0x4B2, 0x4B5, 0x4B7, 0x4BA, 0x4BD, 0x4C0, 0x4C3, 0x4C5, 0x4C8, 0x4CB, 0x4CD, 0x4D0,
   0x4D2, 0x4D5, 0x4D7, 0x4D9, 0x4DC, 0x4DE, 0x4E0, 0x4E3, 0x4E5, 0x4E7, 0x4E9, 0x4EB,
   0x4ED, 0x4EF, 0x4F1, 0x4F3, 0x4F5, 0x4F6, 0x4F8, 0x4FA, 0x4FB, 0x4FD, 0x4FF, 0x500,
   0x502, 0x503, 0x504, 0x506, 0x507, 0x508, 0x50A, 0x50B, 0x50C, 0x50D, 0x50E, 0x50F,
   0x510, 0x511, 0x511, 0x512, 0x513, 0x514, 0x514, 0x515, 0x516, 0x516, 0x517, 0x517,
   0x517, 0x518, 0x518, 0x518, 0x518, 0x518, 0x519, 0x519]

/-- `gauss[ i ]`; the table is only ever indexed inside its bounds. -/
def gaussAt (i : Int) : Int := if 0 ≤ i then gaussTable.getD i.toNat 0 else 0

/-- Locals of `DSP_Update` that live across the passes of the voice loop. -/
structure Locals where
  outx : Int
  outl : Int
  outr : Int
  echol : Int
  echor : Int
  log : List Event

/-- The next state of the noise shift register. -/
def noiseNext (lev : Nat) : Nat :=
  (((lev <<< 13) ^^^ (lev <<< 14)) &&& 0x4000) ||| (lev >>> 1)

/-- Count the noise generator down and clock it. -/
def noiseStep (s : Dsp) : Dsp :=
  let cnt := s.noiseCnt - envCnt ((s.dspRegs 0x6C).toNat % 2 ^ 5)
  if cnt ≤ 0 then { s with noiseCnt := cntInit, noiseLev := noiseNext s.noiseLev }
  else { s with noiseCnt := cnt }

/-- What precedes the voice loop: the reset check, the ENDX bits cleared by
KON, and the noise generator. -/
def prelude (s : Dsp) : Dsp :=
  let s := if bit (s.dspRegs 0x6C) 7 then dspReset s else s
  let s := s.setReg 0x7C (s.dspRegs 0x7C &&& ~~~ s.dspRegs 0x4C)
  noiseStep s

/-- Index of the directory entry voice `v` refers to. -/
def dirEntry (s : Dsp) (v : Fin 8) : Nat :=
  (s.dspRegs 0x5D).toNat * 2 ^ 8 + 4 * (s.dspRegs (16 * v + 4)).toNat

/-- Initialisation of a voice that is keyed on. -/
def VoiceState.start (vp : VoiceState) (vptr : BitVec 16) : VoiceState :=
  { vp with
    onCnt := 0
    memPtr := vptr
    headerCnt := 0
    half := 0
    envx := 0
    endBits := 0
    sampptr := 0
    mixfrac := 3 * 4096
    envcnt := cntInit
    envstate := .attack }

/-- `if( vp->on_cnt && ( --vp->on_cnt == 0 ) )`: the delayed start. -/
def keyOnVoice (host : Nat → Byte) (v : Fin 8) (s : Dsp) : Dsp × List Event :=
  let vp := s.voiceState v
  if vp.onCnt = 0 then (s, [])
  else if vp.onCnt - 1 = 0 then
    let entry := dirEntry s v
    ({ s.setVoice v (vp.start (Mem.vptr ⟨host, s.spcRam⟩ entry)) with
        keys := s.keys ||| voiceMask v
        keyedOn := s.keyedOn ||| voiceMask v },
      [.keyOn v, .read entry, .read (entry + 1)])
  else (s.setVoice v { vp with onCnt := vp.onCnt - 1 }, [])

/-- `if( DSPregs[ 0x4C ] & m & ~DSPregs[ 0x5C ] )`: accept a key-on. -/
def acceptVoice (v : Fin 8) (s : Dsp) : Dsp × List Event :=
  if bit (s.dspRegs 0x4C) v && !bit (s.dspRegs 0x5C) v then
    ((s.setReg 0x4C (s.dspRegs 0x4C &&& ~~~ voiceMask v)).setVoice v
        { s.voiceState v with onCnt := 8 },
      [.accept v])
  else (s, [])

/-- `if( keys & DSPregs[ 0x5C ] & m )`: key the voice off. -/
def keyOffVoice (v : Fin 8) (s : Dsp) : Dsp × List Event :=
  if bit s.keys v && bit (s.dspRegs 0x5C) v then
    (s.setVoice v { s.voiceState v with envstate := .release, onCnt := 0 },
      [.keyOff v])
  else (s, [])

/-- The voice produces nothing in this update. -/
def silenceVoice (v : Fin 8) (s : Dsp) (x : Locals) : Dsp × Locals :=
  ((s.setReg (16 * v + 8) 0).setReg (16 * v + 9) 0, { x with outx := 0 })

/-- The pitch of voice `v`, modulated by the output of the voice before it. -/
def voicePitch (s : Dsp) (v : Fin 8) (outx : Int) : Int :=
  let pitch : Int :=
    ((s.dspRegs (16 * v + 2)).toNat + (s.dspRegs (16 * v + 3)).toNat * 2 ^ 8) % 2 ^ 14
  if bit (s.dspRegs 0x2D) v then pitch * (outx + 32768) / 2 ^ 15 else pitch

/-- Writes of the decode loop to ENDX, `keys` and ENVX. -/
def applyDecode (v : Fin 8) (d : Decode) (s : Dsp) : Dsp :=
  let s := s.setVoice v d.vp
  let s := if d.endx then s.setReg 0x7C (s.dspRegs 0x7C ||| voiceMask v) else s
  if d.ended then
    { s with keys := s.keys &&& ~~~ voiceMask v }.setReg (16 * v + 8) 0
  else s

/-- `( x >> 11 ) & ~1`. -/
def shiftEven (x : Int) : Int := x / 2 ^ 11 / 2 * 2

/-- The four products of the Gaussian interpolation, oldest sample first. -/
def gaussTap (vp : VoiceState) (k : Fin 4) : Int :=
  let vl := vp.mixfrac / 2 ^ 4
  let tap := match k with
    | 0 => gaussAt (-1 + -vl)
    | 1 => gaussAt (255 + -vl)
    | 2 => gaussAt (512 + vl)
    | 3 => gaussAt (256 + vl)
  tap * vp.sampbuf (vp.sampptr + k)

/-- The 4-point Gaussian interpolation; only the fourth addition is clipped. -/
def interpolate (vp : VoiceState) : Int :=
  let vr := shiftEven (gaussTap vp 0) + shiftEven (gaussTap vp 1) + shiftEven (gaussTap vp 2)
  let vr := short vr + shiftEven (gaussTap vp 3)
  short (clip vr)

/-- The output of a voice before its envelope: noise or interpolated samples. -/
def voiceSource (s : Dsp) (v : Fin 8) (vp : VoiceState) : Int :=
  if bit (s.dspRegs 0x3D) v then short (s.noiseLev * 2) else interpolate vp

/-- One of the two volumes of a voice applied to its output. -/
def voiceVolume (s : Dsp) (i : Nat) (outx : Int) : Int :=
  (s.dspRegs i).toInt * outx / 2 ^ 7

/-- Add a voice to the accumulators unless its channel is masked. -/
def mixVoice (v : Fin 8) (s : Dsp) (outx : Int) (x : Locals) : Locals :=
  let vl := voiceVolume s (16 * v) outx
  let vr := voiceVolume s (16 * v + 1) outx
  let x := { x with outx := outx }
  if bit s.channelMask v then x
  else
    let x := { x with outl := x.outl + vl, outr := x.outr + vr }
    if bit (s.dspRegs 0x4D) v then
      { x with echol := x.echol + vl, echor := x.echor + vr }
    else x

/-- The rest of the voice loop for an active voice whose envelope is `envx`:
pitch, decode loop, output and mixing. -/
def playVoice (host : Nat → Byte) (v : Fin 8) (envx : Int) (s : Dsp) (x : Locals) :
    Dsp × Locals :=
  let pitch := voicePitch s v x.outx
  let vp := { s.voiceState v with pitch := pitch }
  let d := brrDecode ⟨host, s.spcRam⟩ (dirEntry s v) v vp
  let s := applyDecode v d s
  let outx := voiceSource s v d.vp
  let s := s.setVoice v { d.vp with mixfrac := d.vp.mixfrac + pitch }
  let outx := shiftEven (outx * envx)
  let s := s.setReg (16 * v + 9) (BitVec.ofInt 8 (outx / 2 ^ 8))
  (s, mixVoice v s outx { x with log := x.log ++ d.log })

/-- One pass of the voice loop. -/
def voiceBody (host : Nat → Byte) (v : Fin 8) (p : Dsp × Locals) : Dsp × Locals :=
  let (s, started) := keyOnVoice host v p.1
  let (s, accepted) := acceptVoice v s
  let (s, keyedOff) := keyOffVoice v s
  let x := { p.2 with log := p.2.log ++ started ++ accepted ++ keyedOff }
  if bit s.keys v then
    match advanceEnvelope (s.dspRegs (16 * v + 5)) (s.dspRegs (16 * v + 6))
        (s.dspRegs (16 * v + 7)) (s.voiceState v) with
    | none => silenceVoice v { s with keys := s.keys &&& ~~~ voiceMask v } x
    | some (vp, envxReg) =>
        let s := (s.setVoice v vp).setReg (16 * v + 8) envxReg
        if vp.envx < 0 then silenceVoice v s x else playVoice host v vp.envx s x
  else silenceVoice v s x

/-- The first `n` passes of the voice loop. -/
def voiceLoop (host : Nat → Byte) (p : Dsp × Locals) : Nat → Dsp × Locals
  | 0 => p
  | n + 1 =>
      if h : n < 8 then voiceBody host ⟨n, h⟩ (voiceLoop host p n)
      else voiceLoop host p n

/-- The locals when the voice loop is entered. -/
def freshLocals : Locals where
  outx := 0
  outl := 0
  outr := 0
  echol := 0
  echor := 0
  log := []

/-- RAM index of the current echo slot. -/
def echoBase (s : Dsp) : Nat := ((s.dspRegs 0x6D).toNat * 2 ^ 8 + s.echoPtr) % 2 ^ 16

/-- Put the echo samples of the current slot into the FIR buffers. -/
def echoRead (host : Nat → Byte) (s : Dsp) : Dsp :=
  { s with
    firLbuf := Function.update s.firLbuf s.firPtr
      (ramWord host s.spcRam (echoBase s)).toInt
    firRbuf := Function.update s.firRbuf s.firPtr
      (ramWord host s.spcRam (echoBase s + 2)).toInt }

/-- The FIR accumulator after tap `k`: the newest sample meets register 0x7F,
each following slot the register sixteen below. -/
def firAcc (s : Dsp) (buf : Fin 8 → Int) : Nat → Int
  | 0 => buf s.firPtr * (s.dspRegs 0x7F).toInt
  | k + 1 => firAcc s buf k
      + buf (s.firPtr + Fin.ofNat 8 (k + 1)) * (s.dspRegs (0x7F - 16 * (k + 1))).toInt

/-- Echo feedback added to one accumulator, saturated. -/
def echoFeedback (s : Dsp) (acc fir : Int) : Int :=
  clip (acc + fir * (s.dspRegs 0x0D).toInt / 2 ^ 14)

/-- Store one stereo pair in the current echo slot. -/
def echoWrite (s : Dsp) (l r : Int) : Dsp :=
  let i := echoBase s
  let l := BitVec.ofInt 16 l
  let r := BitVec.ofInt 16 r
  let ram := ramSet s.spcRam i (l.setWidth 8)
  let ram := ramSet ram (i + 1) ((l >>> 8).setWidth 8)
  let ram := ramSet ram (i + 2) (r.setWidth 8)
  { s with spcRam := ramSet ram (i + 3) ((r >>> 8).setWidth 8) }

/-- Size in bytes of the ring the echo pointer runs through. -/
def echoSize (s : Dsp) : Nat := (s.dspRegs 0x7D).toNat % 2 ^ 4 * 2 ^ 11

/-- Advance the echo pointer by one slot. -/
def echoAdvance (s : Dsp) : Dsp :=
  { s with echoPtr := if s.echoPtr + 4 ≥ echoSize s then 0 else s.echoPtr + 4 }

/-- The master volume of one side applied to its accumulator, plus the echo. -/
def mainOut (s : Dsp) (acc fir : Int) (mvol evol : Nat) : Int :=
  acc * (s.dspRegs mvol).toInt / 2 ^ 7 + fir * (s.dspRegs evol).toInt / 2 ^ 14

/-- Result of a call: the globals, the stereo pair stored through `sound_ptr`
when it is not null, and the log. -/
structure Update where
  dsp : Dsp
  sample : Option (Int × Int)
  log : List Event

/-- The four RAM indices of the echo slot at `i`. -/
def slotIndices (i : Nat) : List Nat := [i, i + 1, i + 2, i + 3]

/-- What follows the voice loop: echo and output. -/
def echoUnit (host : Nat → Byte) (sound : Bool) (s : Dsp) (x : Locals) : Update :=
  let i := echoBase s
  let s := echoRead host s
  let vl := firAcc s s.firLbuf 7
  let vr := firAcc s s.firRbuf 7
  let outl := mainOut s x.outl vl 0x0C 0x2C
  let outr := mainOut s x.outr vr 0x1C 0x3C
  let s := { s with firPtr := s.firPtr + 7 }
  let writes := !bit (s.dspRegs 0x6C) 5
  let s := if writes then
      echoWrite s (echoFeedback s x.echol vl) (echoFeedback s x.echor vr)
    else s
  let s := echoAdvance s
  { dsp := s
    sample := if sound then
        some (if bit (s.dspRegs 0x6C) 6 then (0, 0) else (clip outl, clip outr))
      else none
    log := x.log ++ (slotIndices i).map .read
      ++ if writes then (slotIndices i).map .write else [] }

/-- `DSP_Update`. -/
def dspUpdate (host : Nat → Byte) (sound : Bool) (s : Dsp) : Update :=
  let p := voiceLoop host (prelude s, freshLocals) 8
  echoUnit host sound p.1 p.2

end OpenSpc
