import OpenSpc.DspState

/-!
# On-the-fly BRR decoding

The decode loop of `DSP_Update`.  One pass of the loop enters a new block when
the current one is used up, takes one nybble, and pushes one sample into the
four-sample ring; the loop runs while `mixfrac` is not negative.

Every right shift of a signed value is the floor division by a power of two.
-/

namespace OpenSpc

/-- Conversion to `signed short`. -/
def short (x : Int) : Int := Narrow.narrow 15 x

/-- Clipping to the range of `signed short`. -/
def clip (x : Int) : Int := Narrow.saturate 15 x

/-- The bytes of SPC RAM as the DSP indexes them. -/
structure Mem where
  host : Nat → Byte
  ram : Ram

/-- The start pointer `vptr` of the directory entry at index `entry`. -/
def Mem.vptr (m : Mem) (entry : Nat) : BitVec 16 := ramWord m.host m.ram entry

/-- The loop pointer `lptr` of the directory entry at index `entry`. -/
def Mem.lptr (m : Mem) (entry : Nat) : BitVec 16 := ramWord m.host m.ram (entry + 2)

/-- State of the decode loop for one voice.  `endx` and `ended` record the
writes to ENDX and to `keys`, `log` the branches and the RAM indices. -/
structure Decode where
  vp : VoiceState
  endx : Bool
  ended : Bool
  log : List Event

/-- Read the header byte of the block at `memPtr`. -/
def readHeader (ram : Ram) (vp : VoiceState) : VoiceState :=
  let vl := (ram vp.memPtr).toNat
  { vp with
    headerCnt := 8
    memPtr := vp.memPtr + 1
    range := vl / 2 ^ 4
    endBits := vl % 2 ^ 2
    filter := vl / 2 ^ 2 % 2 ^ 2 }

/-- The inner loop that fills the ring with silence after the last block; `n`
bounds its passes. -/
def drain : Nat → VoiceState → VoiceState
  | 0, vp => vp
  | n + 1, vp =>
      if vp.mixfrac ≥ 0 then
        drain n { vp with
          sampbuf := Function.update vp.sampbuf vp.sampptr 0
          sampptr := vp.sampptr + 1
          mixfrac := vp.mixfrac - 4096 }
      else vp

/-- Passes a loop makes that starts at `mixfrac`, subtracts 4096 each time and
stops below zero. -/
def samplesDue (mixfrac : Int) : Nat := (mixfrac / 4096 + 1).toNat

/-- The part of a pass guarded by `!vp->header_cnt`: leave a finished block
(ending or looping the sample when its header says so) and read the next
header. -/
def enterBlock (m : Mem) (entry : Nat) (v : Fin 8) (d : Decode) : Decode :=
  if d.vp.headerCnt = 0 then
    if d.vp.endBits.testBit 0 then
      if d.vp.endBits.testBit 1 then
        let vp := { d.vp with memPtr := m.lptr entry }
        { vp := readHeader m.ram vp
          endx := true
          ended := d.ended
          log := d.log ++ [.endBlock v, .read (entry + 2), .read (entry + 3),
            .read vp.memPtr.toNat] }
      else
        let vp := { d.vp with envx := 0 }
        { vp := drain (samplesDue vp.mixfrac) vp
          endx := true
          ended := true
          log := d.log ++ [.endBlock v] }
    else
      { d with
        vp := readHeader m.ram d.vp
        log := d.log ++ [.read d.vp.memPtr.toNat] }
  else d

/-- The next nybble, sign extended: the high half of a byte first. -/
def nybble (ram : Ram) (vp : VoiceState) : Int :=
  if vp.half = 0 then (ram vp.memPtr).toInt / 2 ^ 4
  else (ram vp.memPtr <<< 4).toInt / 2 ^ 4

/-- Step over the nybble just read. -/
def skipNybble (vp : VoiceState) : VoiceState :=
  if vp.half = 0 then { vp with half := 1 }
  else { vp with half := 0, memPtr := vp.memPtr + 1, headerCnt := vp.headerCnt - 1 }

/-- The nybble shifted by the range of the block; ranges D, E and F only keep
its sign. -/
def shiftNybble (range : Nat) (outx : Int) : Int :=
  if range ≤ 0xC then outx * 2 ^ range / 2 else outx / 2 ^ 11 * 2 ^ 11

/-- The four prediction filters, with the shifts and additions of the source. -/
def brrFilter (filter : Nat) (smp1 smp2 outx : Int) : Int :=
  match filter with
  | 0 => outx
  | 1 => outx + (smp1 / 2 ^ 1 + -smp1 / 2 ^ 5)
  | 2 => outx + (smp1 + -(smp1 + smp1 / 2 ^ 1) / 2 ^ 5
      - smp2 / 2 ^ 1 + smp2 / 2 ^ 5)
  | _ => outx + (smp1 + -(smp1 + smp1 * 2 ^ 2 + smp1 * 2 ^ 3) / 2 ^ 7
      - smp2 / 2 ^ 1 + (smp2 + smp2 / 2 ^ 1) / 2 ^ 4)

/-- The clipped sample a nybble stands for, before the final doubling. -/
def brrSample (ram : Ram) (vp : VoiceState) : Int :=
  clip (brrFilter vp.filter vp.smp1 vp.smp2 (shiftNybble vp.range (nybble ram vp)))

/-- Decode one nybble into the ring. -/
def decodeSample (ram : Ram) (vp : VoiceState) : VoiceState :=
  let smp1 := short (brrSample ram vp * 2)
  let next := skipNybble vp
  { next with
    smp2 := short vp.smp1
    smp1 := smp1
    sampbuf := Function.update vp.sampbuf vp.sampptr smp1
    sampptr := vp.sampptr + 1 }

/-- The rest of a pass, after the block has been entered. -/
def decodePass (ram : Ram) (d : Decode) : Decode :=
  let vp := decodeSample ram d.vp
  { d with
    vp := { vp with mixfrac := vp.mixfrac - 4096 }
    log := d.log ++ [.read d.vp.memPtr.toNat] }

/-- The loop `for( ; vp->mixfrac >= 0; vp->mixfrac -= 4096 )`; `n` bounds its
passes. -/
def decodeLoop (m : Mem) (entry : Nat) (v : Fin 8) : Nat → Decode → Decode
  | 0, d => d
  | n + 1, d =>
      if d.vp.mixfrac ≥ 0 then
        let d := enterBlock m entry v d
        if d.ended then d else decodeLoop m entry v n (decodePass m.ram d)
      else d

/-- The whole decode loop of one update for voice `v`. -/
def brrDecode (m : Mem) (entry : Nat) (v : Fin 8) (vp : VoiceState) : Decode :=
  decodeLoop m entry v (samplesDue vp.mixfrac)
    { vp := vp, endx := false, ended := false, log := [] }

end OpenSpc
