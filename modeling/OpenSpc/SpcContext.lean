import OpenSpc.DspRun
import OpenSpc.SpcCpu

/-!
# The library

`SpcContext` of `main.cc` and the exported functions.  `Run` never looks at
what it emulates, so it is modelled in two parts: the calls it makes
(`runPlan`), and what those calls do to the state (`exec`).
-/

namespace OpenSpc

open ByteMask (bit)
open Narrow (narrow)

/-! ## Running -/

/-- SPC CPU cycles in each sample period. -/
def tsCyc : Nat := 32

/-- A call made by `Run`.  The argument of `DSP_Update` is the number of the
stereo pair it writes, or nothing for a null pointer. -/
inductive Call where
  | dspUpdate (buf : Option Nat)
  | spcRun (n : Nat)
  deriving DecidableEq, Repr

/-- The calls of one execution of `Run`, with what it leaves in `mix_left_` and
what it returns. -/
structure RunPlan where
  calls : List Call
  mixLeft : Int
  ret : Int
  deriving DecidableEq, Repr

/-- `buf += buf_inc`. -/
def nextPair (buf : Option Nat) : Option Nat := buf.map (· + 1)

/-- The loop of the buffer-limited path, for `n` pairs. -/
def bufferLoop : Nat → Option Nat → List Call
  | 0, _ => []
  | n + 1, buf => .dspUpdate buf :: .spcRun tsCyc :: bufferLoop n (nextPair buf)

/-- Variables of the loop of the cycle-limited path. -/
structure CycleLoop where
  calls : List Call
  cycleLimit : Int
  samplesWritten : Int
  buf : Option Nat

/-- The loop of the cycle-limited path; `n` bounds its passes. -/
def cycleLoop : Nat → CycleLoop → CycleLoop
  | 0, x => x
  | n + 1, x =>
      if x.cycleLimit ≥ tsCyc then
        cycleLoop n
          { calls := x.calls ++ [.dspUpdate x.buf, .spcRun tsCyc]
            cycleLimit := x.cycleLimit - tsCyc
            samplesWritten := x.samplesWritten + 1
            buf := nextPair x.buf }
      else x

/-- `buf_cycles`: the product is computed in `size_t` and narrowed to `int`. -/
def bufCycles (mixLeft : Int) (bufSize : Nat) : Int :=
  narrow 31 (((bufSize / 4 * tsCyc : Nat) + mixLeft) % 2 ^ 64)

/-- `SpcContext::Run`. -/
def runPlan (mixLeft cycleLimit : Int) (buf : Bool) (bufSize : Nat) : RunPlan :=
  let pair := if buf then some 0 else none
  let drain := if mixLeft ≠ 0 then [.spcRun mixLeft.toNat] else []
  if cycleLimit < 0 ∨ (buf ∧ cycleLimit ≥ bufCycles mixLeft bufSize) then
    { calls := drain ++ bufferLoop (bufSize / 4) pair
      mixLeft := 0
      ret := narrow 31 ↑(bufSize / 4 * 4) }
  else if cycleLimit < mixLeft then
    { calls := [.spcRun cycleLimit.toNat]
      mixLeft := mixLeft - cycleLimit
      ret := 0 }
  else
    let limit := if mixLeft ≠ 0 then cycleLimit - mixLeft else cycleLimit
    let x := cycleLoop (limit.toNat / tsCyc)
      { calls := drain, cycleLimit := limit, samplesWritten := 0, buf := pair }
    if x.cycleLimit ≠ 0 then
      { calls := x.calls ++ [.dspUpdate x.buf, .spcRun x.cycleLimit.toNat]
        mixLeft := tsCyc - x.cycleLimit
        ret := 4 * (x.samplesWritten + 1) }
    else
      { calls := x.calls, mixLeft := mixLeft, ret := 4 * x.samplesWritten }

/-- The emulated state: the CPU's context and the globals of `dsp.c`. -/
structure Machine where
  cpu : Spc700Context
  dsp : Dsp

/-- One cycle of the CPU core. -/
def Machine.cycle (core : Bus → Bus) (s : Machine) : Machine :=
  let b := core ⟨s.cpu, s.dsp.spcRam, s.dsp.dspRegs⟩
  { cpu := b.cpu, dsp := { s.dsp with spcRam := b.ram, dspRegs := b.regs } }

/-- `SpcCpu::Run`. -/
def Machine.spcRun (core : Bus → Bus) : Nat → Machine → Machine
  | 0, s => s
  | n + 1, s => spcRun core n (s.cycle core)

/-- What one call does, and the stereo pair it stores. -/
def Machine.call (host : Nat → Byte) (core : Bus → Bus) (s : Machine) :
    Call → Machine × List (Int × Int)
  | .dspUpdate buf =>
      let u := dspUpdate host buf.isSome s.dsp
      ({ s with dsp := u.dsp }, u.sample.toList)
  | .spcRun n => (s.spcRun core n, [])

/-- What a list of calls does, and the stereo pairs it stores. -/
def Machine.exec (host : Nat → Byte) (core : Bus → Bus) (s : Machine) :
    List Call → Machine × List (Int × Int)
  | [] => (s, [])
  | c :: cs =>
      let (s, out) := s.call host core c
      let (s, outs) := s.exec host core cs
      (s, out ++ outs)

/-! ## Loading -/

/-- `SpcContext::SpcContext`: the CPU is zeroed and reset, the DSP is reset. -/
def newContext (s : Dsp) : Machine where
  cpu := resetSpc
  dsp := dspReset { s with channelMask := 0, spcRam := resetRam }

/-- `memcmp( buf, kIdentStr, ... ) == 0`. -/
def identMatches (ident : List Byte) (buf : Nat → Byte) : Bool :=
  (List.range ident.length).all fun i => buf i = ident.getD i 0

/-- "SNES-SPC700 Sound File Data". -/
def spcIdent : List Byte :=
  [0x53, 0x4E, 0x45, 0x53, 0x2D, 0x53, 0x50, 0x43, 0x37, 0x30, 0x30, 0x20, 0x53, 0x6F, 0x75,
   0x6E, 0x64, 0x20, 0x46, 0x69, 0x6C, 0x65, 0x20, 0x44, 0x61, 0x74, 0x61]

/-- "ZSNES Save State File". -/
def zstIdent : List Byte :=
  [0x5A, 0x53, 0x4E, 0x45, 0x53, 0x20, 0x53, 0x61, 0x76, 0x65, 0x20, 0x53, 0x74, 0x61, 0x74,
   0x65, 0x20, 0x46, 0x69, 0x6C, 0x65]

/-- `SetState` and the copy of `kDspLen` DSP registers. -/
def Machine.restore (s : Machine) (r : SavedRegs) (ram : Ram) (dspLen : Nat) (regs : Regs) :
    Machine where
  cpu := setState r ram s.cpu
  dsp := { s.dsp with
    spcRam := ram
    dspRegs := fun i => if i < dspLen then regs i else s.dsp.dspRegs i }

/-- A little-endian `unsigned short` of an image. -/
def imageWord (buf : Nat → Byte) (i : Nat) : BitVec 16 := buf (i + 1) ++ buf i

/-- The RAM contents of an image that stores them at `offset`. -/
def imageRam (buf : Nat → Byte) (offset : Nat) : Ram := fun a => buf (offset + a.toNat)

/-- `kRamOffset` of an .spc file. -/
def spcRamOffset : Nat := 256

/-- `SpcContext::LoadSpc`. -/
def Machine.loadSpc (s : Machine) (buf : Nat → Byte) (size : Nat) : Option Machine :=
  if size < 65920 ∨ !identMatches spcIdent buf then none
  else
    let r : SavedRegs :=
      { pc := imageWord buf 37, a := buf 39, x := buf 40, y := buf 41, psw := buf 42, sp := buf 43 }
    some (s.restore r (imageRam buf spcRamOffset) 128 fun i => buf (65792 + i))

/-- `kRamOffset` of a .zst file. -/
def zstRamOffset : Nat := 199699

/-- The processor status word of a .zst file: Z and N are stored apart. -/
def zstPsw (buf : Nat → Byte) : Byte :=
  let psw := buf 265267
  let psw := if (buf 265271 ||| buf 265272 ||| buf 265273 ||| buf 265274) = 0 then psw ||| 0x02
    else psw &&& ~~~ 0x02#8
  if bit (buf 265271) 7 then psw ||| 0x80 else psw &&& ~~~ 0x80#8

/-- KON after the first `n` passes of the loop over `kVOnOffset`. -/
def zstKon (buf : Nat → Byte) (kon : Byte) : Nat → Byte
  | 0 => kon
  | n + 1 =>
      if buf (265699 + n) ≠ 0 then zstKon buf kon n ||| ByteMask.single 8 n
      else zstKon buf kon n

/-- `SpcContext::LoadZst`. -/
def Machine.loadZst (s : Machine) (buf : Nat → Byte) (size : Nat) : Option Machine :=
  if size < 266879 ∨ !identMatches zstIdent buf then none
  else
    let r : SavedRegs :=
      { pc := imageWord buf 265251, a := buf 265255, x := buf 265259, y := buf 265263
        psw := zstPsw buf, sp := buf 265275 }
    let s := s.restore r (imageRam buf zstRamOffset) 256 fun i => buf (266623 + i)
    some { s with dsp := s.dsp.setReg 0x4C (zstKon buf (s.dsp.dspRegs 0x4C) 8) }

/-- First address of the region `Load` clears. -/
def clearStart (regs : Regs) : Nat := (regs 0x6D).toNat * 2 ^ 8

/-- Length of that region, cut off at the end of RAM. -/
def clearLen (regs : Regs) : Nat :=
  let start := clearStart regs
  let len := (regs 0x7D).toNat * 2 ^ 11
  if start + len > 0x10000 then 0x10000 - start else len

/-- The `memset` that clears the echo region. -/
def Dsp.clearEcho (s : Dsp) : Dsp :=
  { s with spcRam := fun a =>
      if clearStart s.dspRegs ≤ a.toNat ∧ a.toNat < clearStart s.dspRegs + clearLen s.dspRegs then 0
      else s.spcRam a }

/-- `SpcContext::Load`, or nothing when the file type is not recognised. -/
def Machine.load (s : Machine) (buf : Nat → Byte) (size : Nat) (clearEcho : Bool) :
    Option Machine :=
  let loaded := match s.loadSpc buf size with
    | some s => some s
    | none => s.loadZst buf size
  loaded.map fun s => if clearEcho then { s with dsp := s.dsp.clearEcho } else s

/-! ## The exported functions -/

/-- The globals of the library: the emulated state and `mix_left_` of the
current context. -/
structure Library where
  machine : Machine
  mixLeft : Int

/-- A call of the library's interface, `OSPC_GetChannelMask` apart. -/
inductive ApiCall where
  | init (buf : Nat → Byte) (size : Nat)
  | run (cyc : Int) (buf : Bool) (size : Int)
  | writePort (i : Fin 4) (b : Byte)
  | readPort (i : Fin 4)
  | setChannelMask (mask : BitVec 32)

/-- What a caller sees of a call: the value it returns and the stereo pairs it
stores. -/
structure ApiResult where
  ret : Int
  pairs : List (Int × Int)

namespace Library

variable (host : Nat → Byte) (core : Bus → Bus)

/-- `OSPC_Init`. -/
def init (s : Library) (buf : Nat → Byte) (size : Nat) : Library × ApiResult :=
  let m := newContext s.machine.dsp
  match m.load buf size true with
  | some m => ({ machine := m, mixLeft := 0 }, { ret := 0, pairs := [] })
  | none => ({ machine := m, mixLeft := 0 }, { ret := 1, pairs := [] })

/-- `OSPC_Run`; the size is converted to `size_t`. -/
def run (s : Library) (cyc : Int) (buf : Bool) (size : Int) : Library × ApiResult :=
  let p := runPlan s.mixLeft cyc buf (size % 2 ^ 64).toNat
  let (m, pairs) := s.machine.exec host core p.calls
  ({ machine := m, mixLeft := p.mixLeft }, { ret := p.ret, pairs := pairs })

/-- One call of the interface. -/
def api (s : Library) : ApiCall → Library × ApiResult
  | .init buf size => s.init buf size
  | .run cyc buf size => s.run host core cyc buf size
  | .writePort i b =>
      ({ s with machine := { s.machine with cpu := spcWritePortR i b s.machine.cpu } },
        { ret := 0, pairs := [] })
  | .readPort i => (s, { ret := (spcReadPortW i s.machine.cpu).toInt, pairs := [] })
  | .setChannelMask mask =>
      ({ s with machine := { s.machine with dsp := { s.machine.dsp with channelMask := mask } } },
        { ret := 0, pairs := [] })

/-- A sequence of calls. -/
def apis (s : Library) : List ApiCall → Library × List ApiResult
  | [] => (s, [])
  | c :: cs =>
      let (s, r) := s.api host core c
      let (s, rs) := s.apis cs
      (s, r :: rs)

end Library

end OpenSpc
