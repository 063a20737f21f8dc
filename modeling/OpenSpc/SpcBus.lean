import OpenSpc.SpcTimer

/-!
# The bus of the CPU core

Every instruction reaches memory through `get_byte_spc` and `set_byte_spc`,
which send the sixteen addresses from 0xF0 on to the hardware registers.  They
are modelled with the whole of both maps, so that a program of the emulated CPU
is a list of accesses and cycles, whatever its instructions are.
-/

namespace OpenSpc

open ByteMask (bit)

/-! ## Counting cycles -/

namespace Spc700Context

/-- `load_cycles_spc`. -/
def loadCycles (c : Spc700Context) : Spc700Context :=
  { c with workCycles := c.totalCycles - c.cycles }

/-- `save_cycles_spc`. -/
def saveCycles (c : Spc700Context) : Spc700Context :=
  { c with totalCycles := c.workCycles + c.cycles }

/-- `Wrap_SPC_Cyclecounter`. -/
def wrapSpcCyclecounter (c : Spc700Context) : Spc700Context :=
  { c with
    totalCycles := c.totalCycles - 0xF0000000
    cycles := c.cycles - 0xF0000000
    timers := fun i => { c.timers i with cycleLatch := (c.timers i).cycleLatch - 0xF0000000 } }

/-- `SPC_START` up to the loop of `Execute_SPC`, which a return skips. -/
def spcStart (cycles : BitVec 32) (c : Spc700Context) : Spc700Context :=
  let c := { c with cycles := c.cycles + cycles }
  if c.cycles ≤ c.totalCycles then
    if c.cycles.msb then c
    else if !c.totalCycles.msb then c
    else c.wrapSpcCyclecounter.loadCycles
  else c.loadCycles

end Spc700Context

/-! ## The hardware registers -/

/-- `SPC_ROM_CODE`. -/
def spcRomCode : List Byte :=
  [0xCD, 0xEF, 0xBD, 0xE8, 0x00, 0xC6, 0x1D, 0xD0, 0xFC, 0x8F, 0xAA, 0xF4, 0x8F, 0xBB, 0xF5, 0x78,
   0xCC, 0xF4, 0xD0, 0xFB, 0x2F, 0x19, 0xEB, 0xF4, 0xD0, 0xFC, 0x7E, 0xF4, 0xD0, 0x0B, 0xE4, 0xF5,
   0xCB, 0xF4, 0xD7, 0x00, 0xFC, 0xD0, 0xF3, 0xAB, 0x01, 0x10, 0xEF, 0x7E, 0xF4, 0x10, 0xEB, 0xBA,
   0xF6, 0xDA, 0x00, 0xBA, 0xF4, 0xC4, 0xF4, 0xDD, 0x5D, 0xD0, 0xDB, 0x1F, 0x00, 0x00, 0xC0, 0xFF]

namespace Bus

/-- `SPC_CTRL & BIT( timer )`. -/
def timerOn (b : Bus) (timer : Fin 3) : Bool := bit (b.ram 0xF1) timer

def setTimer (b : Bus) (timer : Fin 3) (t : Timer) : Bus :=
  { b with cpu := { b.cpu with timers := Function.update b.cpu.timers timer t } }

/-- `spc_start_timer`. -/
def spcStartTimer (timer : Fin 3) (b : Bus) : Bus :=
  b.setTimer timer ((b.cpu.timers timer).start timer b.cpu.totalCycles)

/-! ### Reading -/

def spcReadInvalid (_ : BitVec 16) (b : Bus) : Option (Byte × Bus) := some (0, b)

def spcReadRam (address : BitVec 16) (b : Bus) : Option (Byte × Bus) := some (b.ram address, b)

/-- `SPC_READ_DSP_DATA`: bit 7 of the DSP address is ignored. -/
def spcReadDspData (_ : BitVec 16) (b : Bus) : Option (Byte × Bus) :=
  some (b.regs ((b.ram 0xF2).toNat % 2 ^ 7), b)

def spcReadPortR (address : BitVec 16) (b : Bus) : Option (Byte × Bus) :=
  some (b.cpu.portR (Fin.ofNat 4 address.toNat), b)

/-- `SPC_READ_COUNTER`; the first counter is at 0xFD. -/
def spcReadCounter (address : BitVec 16) (b : Bus) : Option (Byte × Bus) :=
  let timer := Fin.ofNat 3 (address.toNat - 0xFD)
  ((b.cpu.timers timer).readCounter timer (b.timerOn timer) b.cpu.totalCycles).map
    fun p => (p.1, b.setTimer timer p.2)

/-- `Read_Func_Map`. -/
def readFuncMap : List (BitVec 16 → Bus → Option (Byte × Bus)) :=
  [spcReadInvalid, spcReadInvalid, spcReadRam, spcReadDspData,
   spcReadPortR, spcReadPortR, spcReadPortR, spcReadPortR,
   spcReadRam, spcReadRam, spcReadInvalid, spcReadInvalid,
   spcReadInvalid, spcReadCounter, spcReadCounter, spcReadCounter]

/-- `get_byte_spc`. -/
def getByteSpc (address : BitVec 16) (b : Bus) : Option (Byte × Bus) :=
  if 0x0100 ≤ address.toNat then
    if 0xFFC0 ≤ address.toNat then
      match b.cpu.ffc0Address with
      | .rom => some (spcRomCode.getD (address.toNat - 0xFFC0) 0, b)
      | .ram => some (b.ram address, b)
    else some (b.ram address, b)
  else if address.toNat < 0xF0 then some (b.ram address, b)
  else
    readFuncMap.getD (address.toNat - 0xF0) spcReadInvalid address
      { b with cpu := b.cpu.saveCycles }

/-! ### Writing -/

def spcWriteInvalid (_ : BitVec 16) (_ : Byte) (b : Bus) : Option Bus := some b

/-- `SPC_WRITE_CTRL`: the boot ROM, the input ports and the timers that go on. -/
def spcWriteCtrl (address : BitVec 16) (data : Byte) (b : Bus) : Option Bus :=
  let portR : Fin 4 → Byte := fun i =>
    if bit data 4 ∧ i.val < 2 then 0
    else if bit data 5 ∧ 2 ≤ i.val then 0
    else b.cpu.portR i
  let b := { b with cpu := { b.cpu with
    ffc0Address := if bit data 7 then .rom else .ram
    portR := portR } }
  let start := fun (timer : Fin 3) (b : Bus) =>
    if !bit (b.ram address) timer && bit data timer then b.spcStartTimer timer else b
  let b := start 2 (start 1 (start 0 b))
  some { b with ram := Function.update b.ram 0xF1 data }

def spcWriteRam (address : BitVec 16) (data : Byte) (b : Bus) : Option Bus :=
  some { b with ram := Function.update b.ram address data }

/-- `SPC_WRITE_DSP_DATA` and `SPC_WRITE_DSP`: a write to ENDX clears it. -/
def spcWriteDspData (_ : BitVec 16) (data : Byte) (b : Bus) : Option Bus :=
  let addr := (b.ram 0xF2).toNat
  some
    { b with
      cpu := { b.cpu with dspData := data }
      regs := Function.update b.regs addr (if 0x7C = addr then 0 else data) }

def spcWritePortW (address : BitVec 16) (data : Byte) (b : Bus) : Option Bus :=
  some { b with cpu := { b.cpu with
    portW := Function.update b.cpu.portW (Fin.ofNat 4 address.toNat) data } }

/-- `SPC_WRITE_TIMER`; the first target is at 0xFA. -/
def spcWriteTimer (address : BitVec 16) (data : Byte) (b : Bus) : Option Bus :=
  let timer := Fin.ofNat 3 (address.toNat - 0xFA)
  ((b.cpu.timers timer).writeTarget timer (b.timerOn timer) b.cpu.totalCycles data).map
    (b.setTimer timer)

/-- `Write_Func_Map`. -/
def writeFuncMap : List (BitVec 16 → Byte → Bus → Option Bus) :=
  [spcWriteInvalid, spcWriteCtrl, spcWriteRam, spcWriteDspData,
   spcWritePortW, spcWritePortW, spcWritePortW, spcWritePortW,
   spcWriteRam, spcWriteRam, spcWriteTimer, spcWriteTimer,
   spcWriteTimer, spcWriteRam, spcWriteRam, spcWriteRam]

/-- `set_byte_spc`. -/
def setByteSpc (address : BitVec 16) (data : Byte) (b : Bus) : Option Bus :=
  let b := { b with cpu := b.cpu.saveCycles }
  if 0x0100 ≤ address.toNat ∨ address.toNat < 0xF0 then
    some { b with ram := Function.update b.ram address data }
  else writeFuncMap.getD (address.toNat - 0xF0) spcWriteInvalid address data b

end Bus

/-! ## Programs -/

/-- What a program does, and what is done to it.  The loop of `Execute_SPC`
reads, writes and counts cycles; in between it changes its registers.  Others
change RAM, where the DSP keeps its echo, and the DSP registers. -/
inductive BusAction where
  | read (address : BitVec 16)
  | write (address : BitVec 16) (data : Byte)
  | work (n : BitVec 32)
  | start (cycles : BitVec 32)
  | finish
  | internal (c : Spc700Context)
  | outside (ram : Ram) (regs : Regs)

namespace Bus

/-- One action. -/
def act (b : Bus) : BusAction → Option Bus
  | .read address => (b.getByteSpc address).map Prod.snd
  | .write address data => b.setByteSpc address data
  | .work n => some { b with cpu := { b.cpu with workCycles := b.cpu.workCycles + n } }
  | .start cycles => some { b with cpu := b.cpu.spcStart cycles }
  | .finish => some { b with cpu := b.cpu.saveCycles }
  | .internal c => some { b with cpu := { c with timers := b.cpu.timers } }
  | .outside ram regs => some { b with ram := ram, regs := regs }

/-- A list of actions. -/
def acts (b : Bus) (as : List BusAction) : Option Bus := as.foldlM act b

end Bus

/-- A freshly constructed `SpcCpu` after `SetState`. -/
def loadedBus (r : SavedRegs) (image : Ram) (regs : Regs) : Bus where
  cpu := setState r image resetSpc
  ram := image
  regs := regs

end OpenSpc
