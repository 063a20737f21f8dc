import OpenSpc.SpcCpu

/-!
# The registers of the CPU core

What the instructions compute with: the registers of the SPC700 and the
temporaries of an instruction in progress.  They are split off from the rest of
the context, so that a computation on registers neither reads nor changes the
clock, the timers, the ports, the opcode or the number of the cycle.

The flags are kept apart, and most of them lazily: N is bit 7 of `nFlag`, Z is
set when `zFlag` is 0, and the others are set when their byte is not 0.
-/

namespace OpenSpc

open ByteMask (bit)

/-- The part of `SPC700_CONTEXT` that computations on registers see. -/
structure CpuRegs where
  pc : BitVec 16
  a : Byte
  y : Byte
  address : BitVec 16
  address2 : BitVec 16
  directPage : BitVec 16
  data16 : BitVec 16
  sp : Byte
  x : Byte
  data : Byte
  data2 : Byte
  offset : Byte
  psw : Byte
  nFlag : Byte
  vFlag : Byte
  pFlag : Byte
  bFlag : Byte
  hFlag : Byte
  iFlag : Byte
  zFlag : Byte
  cFlag : Byte
  deriving DecidableEq

namespace Spc700Context

def cpuRegs (c : Spc700Context) : CpuRegs where
  pc := c.pc
  a := c.a
  y := c.y
  address := c.address
  address2 := c.address2
  directPage := c.directPage
  data16 := c.data16
  sp := c.sp
  x := c.x
  data := c.data
  data2 := c.data2
  offset := c.offset
  psw := c.psw
  nFlag := c.nFlag
  vFlag := c.vFlag
  pFlag := c.pFlag
  bFlag := c.bFlag
  hFlag := c.hFlag
  iFlag := c.iFlag
  zFlag := c.zFlag
  cFlag := c.cFlag

def withRegs (c : Spc700Context) (r : CpuRegs) : Spc700Context :=
  { c with
    pc := r.pc
    a := r.a
    y := r.y
    address := r.address
    address2 := r.address2
    directPage := r.directPage
    data16 := r.data16
    sp := r.sp
    x := r.x
    data := r.data
    data2 := r.data2
    offset := r.offset
    psw := r.psw
    nFlag := r.nFlag
    vFlag := r.vFlag
    pFlag := r.pFlag
    bFlag := r.bFlag
    hFlag := r.hFlag
    iFlag := r.iFlag
    zFlag := r.zFlag
    cFlag := r.cFlag }

/-- Registers that are put in can be taken out. -/
@[simp] theorem cpuRegs_withRegs (c : Spc700Context) (r : CpuRegs) : (c.withRegs r).cpuRegs = r :=
  rfl

end Spc700Context

namespace CpuRegs

/-- `_YA`. -/
def ya (r : CpuRegs) : BitVec 16 := r.y ++ r.a

def setYa (w : BitVec 16) (r : CpuRegs) : CpuRegs :=
  { r with y := w.extractLsb' 8 8, a := w.setWidth 8 }

/-! ## Flags -/

/-- The flags of the processor status word. -/
inductive Flag where
  | n
  | v
  | p
  | b
  | h
  | i
  | z
  | c
  deriving DecidableEq, Repr

/-- The high byte of `_dp`. -/
def setDirectPage (h : Byte) (r : CpuRegs) : CpuRegs :=
  { r with directPage := h ++ r.directPage.setWidth 8 }

/-- `set_flag_spc`, for one flag. -/
def setFlagSpc (flag : Flag) (r : CpuRegs) : CpuRegs :=
  match flag with
  | .n => { r with nFlag := 0x80 }
  | .v => { r with vFlag := 1 }
  | .p => { r with pFlag := 1 }.setDirectPage 0x01
  | .b => { r with bFlag := 1 }
  | .h => { r with hFlag := 1 }
  | .i => { r with iFlag := 1 }
  | .z => { r with zFlag := 0 }
  | .c => { r with cFlag := 1 }

/-- `clr_flag_spc`, for one flag. -/
def clrFlagSpc (flag : Flag) (r : CpuRegs) : CpuRegs :=
  match flag with
  | .n => { r with nFlag := 0 }
  | .v => { r with vFlag := 0 }
  | .p => { r with pFlag := 0 }.setDirectPage 0x00
  | .b => { r with bFlag := 0 }
  | .h => { r with hFlag := 0 }
  | .i => { r with iFlag := 0 }
  | .z => { r with zFlag := 1 }
  | .c => { r with cFlag := 0 }

/-- A truth value as C stores it. -/
def ofBool (b : Bool) : Byte := if b then 1 else 0

/-- `flag_state_spc`. -/
def flagStateSpc (flag : Flag) (r : CpuRegs) : Byte :=
  match flag with
  | .n => r.nFlag &&& 0x80
  | .v => r.vFlag
  | .p => r.pFlag
  | .b => r.bFlag
  | .h => r.hFlag
  | .i => r.iFlag
  | .z => ofBool (r.zFlag = 0)
  | .c => r.cFlag

/-- `flag_state_spc` as a condition. -/
def flag (flag : Flag) (r : CpuRegs) : Bool := r.flagStateSpc flag ≠ 0

/-- `complement_carry_spc`. -/
def complementCarrySpc (r : CpuRegs) : CpuRegs := { r with cFlag := ofBool (r.cFlag = 0) }

/-- `store_flag_n`. -/
def storeFlagN (value : Byte) (r : CpuRegs) : CpuRegs := { r with nFlag := value }

/-- `store_flag_v`. -/
def storeFlagV (value : Byte) (r : CpuRegs) : CpuRegs := { r with vFlag := value }

/-- `store_flag_h`. -/
def storeFlagH (value : Byte) (r : CpuRegs) : CpuRegs := { r with hFlag := value }

/-- `store_flag_z`. -/
def storeFlagZ (value : Byte) (r : CpuRegs) : CpuRegs := { r with zFlag := value }

/-- `store_flag_c`. -/
def storeFlagC (value : Byte) (r : CpuRegs) : CpuRegs := { r with cFlag := value }

/-- `store_flags_nz`. -/
def storeFlagsNz (value : Byte) (r : CpuRegs) : CpuRegs := (r.storeFlagN value).storeFlagZ value

/-- `spc_setup_flags( _B_flag )`. -/
def spcSetupFlags (r : CpuRegs) : CpuRegs :=
  { r with
    psw := (r.nFlag &&& 0x80) + (if r.vFlag ≠ 0 then 0x40 else 0) + (if r.pFlag ≠ 0 then 0x20 else 0)
      + (if r.bFlag ≠ 0 then 0x10 else 0) + (if r.hFlag ≠ 0 then 0x08 else 0)
      + (if r.iFlag ≠ 0 then 0x04 else 0) + (if r.zFlag = 0 then 0x02 else 0)
      + (if r.cFlag ≠ 0 then 0x01 else 0) }

/-- `spc_restore_flags`, on the registers. -/
def spcRestoreFlags (r : CpuRegs) : CpuRegs :=
  let psw := r.psw
  let r := { r with nFlag := psw, vFlag := psw &&& 0x40 }
  let r := if bit psw 5 then r.setFlagSpc .p else r.clrFlagSpc .p
  { r with
    bFlag := psw &&& 0x10
    hFlag := psw &&& 0x08
    iFlag := psw &&& 0x04
    zFlag := ~~~ psw &&& 0x02
    cFlag := psw &&& 0x01 }

/-- It is the function `SetState` calls. -/
theorem spcRestoreFlags_cpuRegs (c : Spc700Context) :
    OpenSpc.spcRestoreFlags c = c.withRegs c.cpuRegs.spcRestoreFlags := by
  unfold OpenSpc.spcRestoreFlags CpuRegs.spcRestoreFlags
  by_cases hp : bit c.psw 5
  · have hp' : bit c.cpuRegs.psw 5 = true := hp
    simp only [hp, hp', if_true]
    rfl
  · have hp' : ¬ bit c.cpuRegs.psw 5 = true := hp
    simp only [hp, hp']
    rfl

/-! ## Byte registers -/

/-- The bytes an operation may name. -/
inductive Reg8 where
  | a
  | x
  | y
  | sp
  | data
  | data2
  deriving DecidableEq, Repr

def get (r : CpuRegs) : Reg8 → Byte
  | .a => r.a
  | .x => r.x
  | .y => r.y
  | .sp => r.sp
  | .data => r.data
  | .data2 => r.data2

def put (r : CpuRegs) (dest : Reg8) (v : Byte) : CpuRegs :=
  match dest with
  | .a => { r with a := v }
  | .x => { r with x := v }
  | .y => { r with y := v }
  | .sp => { r with sp := v }
  | .data => { r with data := v }
  | .data2 => { r with data2 := v }

/-- A register reads as it was written. -/
@[simp] theorem get_put (r : CpuRegs) (dest : Reg8) (v : Byte) : (r.put dest v).get dest = v := by
  cases dest <;> rfl

end CpuRegs

end OpenSpc
