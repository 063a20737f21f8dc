import OpenSpc.DspState

/-!
# The CPU core as the library sees it

`SPC700_CONTEXT` and the functions of the SNEeSe core the library calls
directly: reset, restoring a saved state, and the communication ports.  SPC
RAM, part of the context in the source, is kept with the DSP, which shares it.
One cycle of execution is a parameter of the library, a transition of context,
RAM and DSP registers; the instructions are not needed here.
-/

namespace OpenSpc

open ByteMask (bit)

/-- One of the three timers. -/
structure Timer where
  cycleLatch : BitVec 32
  position : Int
  target : Int
  counter : Byte
  deriving DecidableEq

/-- What is mapped at 0xFFC0. -/
inductive Ffc0 where
  | rom
  | ram
  deriving DecidableEq, Repr

/-- `SPC700_CONTEXT`, without its RAM and the pointer to the DSP registers. -/
structure Spc700Context where
  cycles : BitVec 32
  lastCycles : BitVec 32
  totalCycles : BitVec 32
  workCycles : BitVec 32
  portR : Fin 4 → Byte
  portW : Fin 4 → Byte
  ffc0Address : Ffc0
  pc : BitVec 16
  a : Byte
  y : Byte
  address : BitVec 16
  address2 : BitVec 16
  directPage : BitVec 16
  data16 : BitVec 16
  sp : Byte
  x : Byte
  cycle : Byte
  opcode : Byte
  data : Byte
  data2 : Byte
  offset : Byte
  psw : Byte
  nFlag : Byte
  vFlag : Byte
  pFlag : Byte
  bFlag : Byte
  hFlag : Byte
  iFlag : Byte
  zFlag : Byte
  cFlag : Byte
  timers : Fin 3 → Timer
  mapAddress : BitVec 32
  mapByte : BitVec 32
  dspData : Byte

/-- The context after `Reset_SPC` on zeroed memory.  The reset vector of the
boot ROM is 0xFFC0. -/
def resetSpc : Spc700Context where
  cycles := 0
  lastCycles := 0
  totalCycles := 6
  workCycles := 0
  portR := fun _ => 0
  portW := fun _ => 0
  ffc0Address := .rom
  pc := 0xFFC0
  a := 0
  y := 0
  address := 0
  address2 := 0
  directPage := 0
  data16 := 0
  sp := 0xEF
  x := 0
  cycle := 0
  opcode := 0
  data := 0
  data2 := 0
  offset := 0
  psw := 0
  nFlag := 0
  vFlag := 0
  pFlag := 0
  bFlag := 0
  hFlag := 0
  iFlag := 0
  zFlag := 1
  cFlag := 0
  timers := fun _ => { cycleLatch := 0, position := 0, target := 256, counter := 0 }
  mapAddress := 0
  mapByte := 0
  dspData := 0

/-- RAM after `Reset_SPC` on zeroed memory: only `SPC_CTRL` is set. -/
def resetRam : Ram := Function.update (fun _ => 0) 0xF1 0x80

/-- `spc_restore_flags`. -/
def spcRestoreFlags (c : Spc700Context) : Spc700Context :=
  { c with
    nFlag := c.psw
    vFlag := c.psw &&& 0x40
    pFlag := if bit c.psw 5 then 1 else 0
    directPage := (if bit c.psw 5 then 0x01#8 else 0x00#8) ++ c.directPage.setWidth 8
    bFlag := c.psw &&& 0x10
    hFlag := c.psw &&& 0x08
    iFlag := c.psw &&& 0x04
    zFlag := ~~~ c.psw &&& 0x02
    cFlag := c.psw &&& 0x01 }

/-- The CPU registers of a saved state. -/
structure SavedRegs where
  pc : BitVec 16
  a : Byte
  x : Byte
  y : Byte
  psw : Byte
  sp : Byte

/-- `SpcCpu::Impl::SetState`: the context, given that `ram` has just been
copied. -/
def setState (r : SavedRegs) (ram : Ram) (c : Spc700Context) : Spc700Context :=
  spcRestoreFlags
    { c with
      ffc0Address := if bit (ram 0xF1) 7 then c.ffc0Address else .ram
      timers := fun i =>
        { c.timers i with
          target := ((ram (0xFA + BitVec.ofNat 16 i) - 1).toNat : Int) + 1
          counter := ram (0xFD + BitVec.ofNat 16 i) &&& 0xF }
      portR := fun i => ram (0xF4 + BitVec.ofNat 16 i)
      pc := r.pc
      a := r.a
      x := r.x
      y := r.y
      sp := r.sp
      psw := r.psw }

/-- `SPC_WRITE_PORT_R`. -/
def spcWritePortR (i : Fin 4) (b : Byte) (c : Spc700Context) : Spc700Context :=
  { c with portR := Function.update c.portR i b }

/-- `SPC_READ_PORT_W`. -/
def spcReadPortW (i : Fin 4) (c : Spc700Context) : Byte := c.portW i

/-- What one cycle of the CPU acts on. -/
structure Bus where
  cpu : Spc700Context
  ram : Ram
  regs : Regs

end OpenSpc
