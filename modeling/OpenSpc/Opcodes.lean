import OpenSpc.CpuOps
import OpenSpc.SpcBus

/-!
# The opcodes of the CPU core

Each opcode is a script: its cycles after the fetch, in order, each with the
statements between `START_CYCLE` and `END_CYCLE` or `END_OPCODE` and the number
of cycles it counts.  A statement computes on registers, makes one access to
the bus, or leaves the opcode on a condition (`EXIT_OPCODE`).  The macros of the
source that write whole opcodes are functions here.
-/

namespace OpenSpc

open CpuRegs (Reg8 Flag)

/-- A statement of a cycle. -/
inductive Stmt where
  | getByte (address : CpuRegs → BitVec 16) (assign : Byte → CpuRegs → CpuRegs)
  | setByte (address : CpuRegs → BitVec 16) (data : CpuRegs → Byte)
  | assign (f : CpuRegs → CpuRegs)
  | exitIf (test : CpuRegs → Bool)

/-- A cycle: what it does, and what it adds to `_WorkCycles`, which is never
nothing. -/
structure Cycle where
  body : List Stmt
  work : Nat
  work_pos : 0 < work := by decide

/-- `END_CYCLE( c, 1 )` and `END_OPCODE( 1 )`. -/
def cycle (body : List Stmt) : Cycle := { body := body, work := 1 }

namespace Stmt

/-! ## Statements the macros share -/

/-- `_PC++`. -/
def incPc : Stmt := assign fun r => { r with pc := r.pc + 1 }

/-- `_address = get_byte_spc( _PC )`. -/
def addressLow : Stmt := getByte (·.pc) fun v r => { r with address := v.setWidth 16 }

/-- `_address += get_byte_spc( _PC ) << 8`. -/
def addressHigh : Stmt :=
  getByte (·.pc) fun v r => { r with address := r.address + (v.setWidth 16 <<< 8) }

/-- `_address = _dp + get_byte_spc( _PC )`. -/
def addressDp : Stmt :=
  getByte (·.pc) fun v r => { r with address := r.directPage + v.setWidth 16 }

/-- `_address2 = _dp + get_byte_spc( _PC )`. -/
def address2Dp : Stmt :=
  getByte (·.pc) fun v r => { r with address2 := r.directPage + v.setWidth 16 }

/-- `_address = _dp + reg`. -/
def addressDpReg (reg : Reg8) : Stmt :=
  assign fun r => { r with address := r.directPage + (r.get reg).setWidth 16 }

/-- `_address = _dp + ( ( _address + index ) & 0xFF )`. -/
def addressDpIndexed (index : Reg8) : Stmt :=
  assign fun r =>
    { r with address := r.directPage + ((r.address + (r.get index).setWidth 16) &&& 0xFF) }

/-- `_address += index`. -/
def addressIndexed (index : Reg8) : Stmt :=
  assign fun r => { r with address := r.address + (r.get index).setWidth 16 }

/-- `_address = 0x0100 + _SP`. -/
def addressStack : Stmt := assign fun r => { r with address := 0x0100 + r.sp.setWidth 16 }

/-- `_SP++`. -/
def incSp : Stmt := assign fun r => { r with sp := r.sp + 1 }

/-- `_SP--`. -/
def decSp : Stmt := assign fun r => { r with sp := r.sp - 1 }

/-- `_address = get_byte_spc( _address2 )`. -/
def indirectLow : Stmt := getByte (·.address2) fun v r => { r with address := v.setWidth 16 }

/-- `_address += get_byte_spc( _address2 + 1 ) << 8`. -/
def indirectHigh : Stmt :=
  getByte (·.address2 + 1) fun v r => { r with address := r.address + (v.setWidth 16 <<< 8) }

/-- `_data = get_byte_spc( _address )`. -/
def getData : Stmt := getByte (·.address) fun v r => { r with data := v }

/-- `get_byte_spc( _address )`, for its effect only. -/
def getDummy : Stmt := getByte (·.address) fun _ r => r

/-- `if (NEED_OLD_DATA) _data = get_byte_spc( _address ); else get_byte_spc( _address )`. -/
def getOld (needOldData : Bool) : Stmt := if needOldData then getData else getDummy

/-- `set_byte_spc( _address, var )`. -/
def setData (var : Reg8) : Stmt := setByte (·.address) (·.get var)

/-- `_offset = get_byte_spc( _PC )`. -/
def getOffset : Stmt := getByte (·.pc) fun v r => { r with offset := v }

/-- `OP_##OP( dest, src )`. -/
def op2 (op : Op2) (dest src : Reg8) : Stmt := assign (op dest src)

/-- `WRITE_OP( OP )`. -/
def writeOp (op : Op1) : List Stmt := [assign (op .data), setData .data]

/-- `WRITE_MOV( var )`. -/
def writeMov (var : Reg8) : List Stmt := [setData var]

end Stmt

section Macros

open Stmt

/-! ## Branches -/

/-- `END_BRANCH_OPCODE`, the cycle it ends included. -/
def endBranchOpcode (body test : List Stmt) : List Cycle :=
  [cycle (body ++ test),
   cycle [assign fun r =>
     { r with address := r.pc + ((r.offset.setWidth 16 ^^^ 0x80) - 0x80) }],
   cycle [assign fun r => { r with pc := r.address }]]

/-- `if (flag_state_spc( flag )) EXIT_OPCODE( 1 )`. -/
def exitIfSet (flag : Flag) : List Stmt := [exitIf fun r => r.flag flag]

/-- `if (!flag_state_spc( flag )) EXIT_OPCODE( 1 )`. -/
def exitIfClear (flag : Flag) : List Stmt := [exitIf fun r => !r.flag flag]

/-- `COND_REL`. -/
def condRel (test : List Stmt) : List Cycle := endBranchOpcode [getOffset, incPc] test

/-- `offset_to_bit[_opcode >> 5]`. -/
def opcodeBit (opcode : Byte) : Byte := offsetToBit.getD (opcode >>> 5).toNat 0

/-- `DP_REL_TEST_BBS`. -/
def dpRelTestBbs (opcode : Byte) : List Stmt := [exitIf fun r => r.data &&& opcodeBit opcode = 0]

/-- `DP_REL_TEST_BBC`. -/
def dpRelTestBbc (opcode : Byte) : List Stmt := [exitIf fun r => r.data &&& opcodeBit opcode ≠ 0]

/-- `TEST_CBNE`. -/
def testCbne : List Stmt := [exitIf fun r => r.data = r.a]

/-- `DP_REL_TEST_DBNZ`. -/
def dpRelTestDbnz : List Stmt :=
  [assign fun r => { r with data := r.data - 1 }, setData .data, exitIf fun r => r.data = 0]

/-- `COND_DP_REL`. -/
def condDpRel (test : List Stmt) : List Cycle :=
  cycle [addressDp, incPc] :: cycle [getOffset, incPc] :: cycle [getData] :: endBranchOpcode [] test

/-! ## Reading -/

/-- `OP_READ_DP`. -/
def opReadDp (op : Op2) (dest : Reg8) : List Cycle :=
  [cycle [addressDp, incPc], cycle [getData, op2 op dest .data]]

/-- `OP_READ_ABS`. -/
def opReadAbs (op : Op2) (dest : Reg8) : List Cycle :=
  [cycle [addressLow, incPc], cycle [addressHigh, incPc], cycle [getData, op2 op dest .data]]

/-- `OP_READ_INDIRECT`; the destination is always A. -/
def opReadIndirect (op : Op2) : List Cycle :=
  [cycle [addressDpReg .x], cycle [getData, op2 op .a .data]]

/-- `_address2` of the indexed indirect opcodes. -/
def indexedIndirect : List Cycle :=
  [cycle [getByte (·.pc) fun v r => { r with address2 := v.setWidth 16 }, incPc],
   cycle [assign fun r =>
     { r with address2 := r.directPage + ((r.address2 + r.x.setWidth 16) &&& 0xFF) }],
   cycle [indirectLow], cycle [indirectHigh]]

/-- `OP_READ_INDEXED_INDIRECT`. -/
def opReadIndexedIndirect (op : Op2) (dest : Reg8) : List Cycle :=
  indexedIndirect ++ [cycle [getData, op2 op dest .data]]

/-- `OP_READ_IMM`. -/
def opReadImm (op : Op2) (dest : Reg8) : List Cycle :=
  [cycle [getByte (·.pc) fun v r => { r with data := v }, incPc, op2 op dest .data]]

/-- `OP_READ_DP_reg_INDEXED`. -/
def opReadDpRegIndexed (op : Op2) (dest index : Reg8) : List Cycle :=
  [cycle [addressLow, incPc], cycle [addressDpIndexed index], cycle [getData, op2 op dest .data]]

/-- `OP_READ_ABS_reg_INDEXED`. -/
def opReadAbsRegIndexed (op : Op2) (dest index : Reg8) : List Cycle :=
  [cycle [addressLow, incPc], cycle [addressHigh, incPc], cycle [addressIndexed index],
   cycle [getData, op2 op dest .data]]

/-- The address of the indirect indexed opcodes. -/
def indirectIndexed : List Cycle :=
  [cycle [address2Dp, incPc], cycle [indirectLow], cycle [indirectHigh], cycle [addressIndexed .y]]

/-- `OP_READ_INDIRECT_INDEXED`. -/
def opReadIndirectIndexed (op : Op2) (dest : Reg8) : List Cycle :=
  indirectIndexed ++ [cycle [getData, op2 op dest .data]]

/-! ## Reading, and writing back -/

/-- `OP_RMW_DP`. -/
def opRmwDp (op : List Stmt) (needOldData : Bool) : List Cycle :=
  [cycle [addressDp, incPc], cycle [getOld needOldData], cycle op]

/-- `OP_RMW_ABS`. -/
def opRmwAbs (op : List Stmt) (needOldData : Bool) : List Cycle :=
  [cycle [addressLow, incPc], cycle [addressHigh, incPc], cycle [getOld needOldData], cycle op]

/-- `OP_RMW_INDIRECT`. -/
def opRmwIndirect (op : List Stmt) (needOldData : Bool) : List Cycle :=
  [cycle [addressDpReg .x], cycle [getOld needOldData], cycle op]

/-- `OP_RMW_INDEXED_INDIRECT`. -/
def opRmwIndexedIndirect (op : List Stmt) (needOldData : Bool) : List Cycle :=
  indexedIndirect ++ [cycle [getOld needOldData], cycle op]

/-- `OP_RMW_DP_reg_INDEXED`. -/
def opRmwDpRegIndexed (op : List Stmt) (needOldData : Bool) (index : Reg8) : List Cycle :=
  [cycle [addressLow, incPc], cycle [addressDpIndexed index], cycle [getOld needOldData], cycle op]

/-- `OP_RMW_ABS_reg_INDEXED`. -/
def opRmwAbsRegIndexed (op : List Stmt) (needOldData : Bool) (index : Reg8) : List Cycle :=
  [cycle [addressLow, incPc], cycle [addressHigh, incPc], cycle [addressIndexed index],
   cycle [getOld needOldData], cycle op]

/-- `OP_RMW_INDIRECT_INDEXED`. -/
def opRmwIndirectIndexed (op : List Stmt) (needOldData : Bool) : List Cycle :=
  indirectIndexed ++ [cycle [getOld needOldData], cycle op]

/-- `_data2 = get_byte_spc( _address2 )` after both direct addresses. -/
def dpDp : List Cycle :=
  [cycle [address2Dp, incPc], cycle [addressDp, incPc],
   cycle [getByte (·.address2) fun v r => { r with data2 := v }]]

/-- `OP_RMW_DP_DP`. -/
def opRmwDpDp (op : Op2) : List Cycle :=
  dpDp ++ [cycle [getData, op2 op .data .data2], cycle [setData .data]]

/-- CMP dp,dp. -/
def opCmpDpDp : List Cycle := dpDp ++ [{ body := [getData, op2 opCmp .data .data2], work := 2 }]

/-- The operands of the opcodes that work on a byte of memory and one of the
program. -/
def dpImm : List Cycle :=
  [cycle [getByte (·.pc) fun v r => { r with data2 := v }, incPc], cycle [addressDp, incPc]]

/-- `OP_RMW_DP_IMM`. -/
def opRmwDpImm (op : Op2) : List Cycle :=
  dpImm ++ [cycle [getData, op2 op .data .data2], cycle [setData .data]]

/-- CMP dp,#imm. -/
def opCmpDpImm : List Cycle := dpImm ++ [{ body := [getData, op2 opCmp .data .data2], work := 2 }]

/-- Both operands of the opcodes on (X) and (Y). -/
def indirectIndirect : List Cycle :=
  [cycle [addressDpReg .y],
   cycle [getByte (·.address) fun v r => { r with data2 := v }, addressDpReg .x]]

/-- `OP_RMW_INDIRECT_INDIRECT`. -/
def opRmwIndirectIndirect (op : Op2) : List Cycle :=
  indirectIndirect ++ [cycle [getData, op2 op .data .data2], cycle [setData .data]]

/-- CMP (X),(Y). -/
def opCmpIndirectIndirect : List Cycle :=
  indirectIndirect ++ [{ body := [getData, op2 opCmp .data .data2], work := 2 }]

/-! ## Words -/

/-- `_data16` from the direct page. -/
def data16Low : Stmt := getByte (·.address) fun v r => { r with data16 := v.setWidth 16 }

/-- The high byte of `_data16`. -/
def data16High : Stmt :=
  getByte (·.address + 1) fun v r => { r with data16 := r.data16 + (v.setWidth 16 <<< 8) }

/-- `OP_READ16_YA_DP`. -/
def opRead16YaDp (op : CpuRegs → CpuRegs) : List Cycle :=
  [cycle [addressDp, incPc], cycle [data16Low], cycle [data16High], cycle [assign op]]

/-- `OP_RMW16_DP`. -/
def opRmw16Dp (op : CpuRegs → CpuRegs) : List Cycle :=
  [cycle [addressDp, incPc], cycle [data16Low], cycle [data16High],
   cycle [assign op, setByte (·.address) (·.data16.setWidth 8)],
   cycle [setByte (·.address + 1) (·.data16.extractLsb' 8 8)]]

/-- CMPW YA,dp. -/
def opCmpwYaDp : List Cycle :=
  [cycle [addressDp, incPc], cycle [data16Low], cycle [data16High, assign opCmpw]]

/-- MOVW dp,YA. -/
def opMovwDpYa : List Cycle :=
  [cycle [addressDp, incPc], cycle [getDummy], cycle [setData .a],
   cycle [setByte (·.address + 1) (·.y)]]

/-- MOV dp(d),dp(s). -/
def opMovDpDp : List Cycle :=
  [cycle [address2Dp, incPc], cycle [addressDp, incPc],
   cycle [getByte (·.address2) fun v r => { r with data := v }], cycle [setData .data]]

/-! ## Single bits of memory -/

/-- The operand of the opcodes on a bit of memory: thirteen bits of address and
three of bit number, and the byte in `_data` when it has its own cycle. -/
def memBit : List Cycle :=
  [cycle [addressLow, incPc],
   cycle [addressHigh,
     assign fun r =>
       { r with offset := (r.address >>> 13).setWidth 8, address := r.address &&& 0x1FFF },
     incPc]]

/-- `offset_to_bit[_offset]`. -/
def offsetBit (r : CpuRegs) : Byte := offsetToBit.getD r.offset.toNat 0

/-- `_data & offset_to_bit[_offset]`, as a condition. -/
def memBitSet (r : CpuRegs) : Bool := r.data &&& offsetBit r ≠ 0

/-- OR1 C,mem.bit and OR1 C,/mem.bit. -/
def opOr1 (sense : Bool) : List Cycle :=
  memBit ++ [cycle [getData],
    cycle [assign fun r => if memBitSet r = sense then r.setFlagSpc .c else r]]

/-- AND1 C,mem.bit and AND1 C,/mem.bit. -/
def opAnd1 (sense : Bool) : List Cycle :=
  memBit ++ [cycle [getData, assign fun r => if memBitSet r = sense then r else r.clrFlagSpc .c]]

/-- EOR1 C,mem.bit. -/
def opEor1 : List Cycle :=
  memBit ++ [cycle [getData],
    cycle [assign fun r => if memBitSet r then r.complementCarrySpc else r]]

/-- MOV1 C,mem.bit. -/
def opMov1C : List Cycle :=
  memBit ++ [cycle [getData, assign fun r => r.storeFlagC (r.data &&& offsetBit r)]]

/-- MOV1 mem.bit,C. -/
def opMov1Mem : List Cycle :=
  memBit ++ [cycle [getData],
    cycle [assign fun r =>
      if r.flag .c then { r with data := r.data ||| offsetBit r }
      else { r with data := r.data &&& offsetToNot.getD r.offset.toNat 0 }],
    cycle [setData .data]]

/-- NOT1 mem.bit. -/
def opNot1 : List Cycle :=
  memBit ++ [cycle [getData],
    cycle [assign fun r => { r with data := r.data ^^^ offsetBit r }, setData .data]]

/-- TSET1 and TCLR1. -/
def opTest1 (write : CpuRegs → Byte) : List Cycle :=
  [cycle [addressLow, incPc], cycle [addressHigh, incPc], cycle [getData],
   cycle [assign fun r => r.storeFlagsNz (r.data &&& r.a)],
   cycle [assign fun r => { r with data := write r }, setData .data]]

/-! ## The stack -/

/-- `OP_PUSH`. -/
def opPush (src : Reg8) : List Cycle := [cycle [addressStack], cycle [setData src], cycle [decSp]]

/-- `OP_POP`. -/
def opPop (dest : Reg8) : List Cycle :=
  [cycle [incSp], cycle [addressStack], cycle [getByte (·.address) fun v r => r.put dest v]]

/-- PUSH PSW. -/
def opPushPsw : List Cycle :=
  [cycle [addressStack], cycle [assign (·.spcSetupFlags), setByte (·.address) (·.psw)],
   cycle [decSp]]

/-- `_PSW = get_byte_spc( _address ); spc_restore_flags()`. -/
def popPsw : List Stmt :=
  [getByte (·.address) fun v r => { r with psw := v }, assign (·.spcRestoreFlags)]

/-- POP PSW. -/
def opPopPsw : List Cycle := [cycle [incSp], cycle [addressStack], cycle popPsw]

/-- The vector of TCALL and BRK. -/
def fetchVector (vector : Byte) : List Cycle :=
  [cycle [assign fun r => { r with address := 0xFFC0 + (15 - vector.setWidth 16) * 2 },
     getByte (·.address) fun v r => { r with address2 := v.setWidth 16 }],
   cycle [getByte (·.address + 1) fun v r => { r with address2 := r.address2 + (v.setWidth 16 <<< 8) }]]

/-- `set_byte_spc( _address, _PC >> 8 )`, and the next free address. -/
def pushPch : List Stmt := [setByte (·.address) (·.pc.extractLsb' 8 8), decSp, addressStack]

/-- `set_byte_spc( _address, _PC )`, and the next free address. -/
def pushPcl : List Stmt := [setByte (·.address) (·.pc.setWidth 8), decSp, addressStack]

/-- `_PC = _address2`. -/
def jumpAddress2 : Stmt := assign fun r => { r with pc := r.address2 }

/-- `OP_TCALL( _opcode >> 4 )`. -/
def opTcall (opcode : Byte) : List Cycle :=
  fetchVector (opcode >>> 4) ++
    [cycle [addressStack], cycle pushPch, cycle pushPcl, cycle [], cycle [jumpAddress2]]

/-- BRK. -/
def opBrk : List Cycle :=
  fetchVector 0 ++
    [cycle [addressStack], cycle pushPch, cycle pushPcl,
     cycle [assign (·.spcSetupFlags), setByte (·.address) (·.psw),
       assign fun r => (r.setFlagSpc .b).clrFlagSpc .i],
     cycle [jumpAddress2, decSp]]

/-- CALL abs. -/
def opCall : List Cycle :=
  [cycle [getByte (·.pc) fun v r => { r with address2 := v.setWidth 16 }, incPc],
   cycle [getByte (·.pc) fun v r => { r with address2 := r.address2 + (v.setWidth 16 <<< 8) }, incPc],
   cycle [addressStack], cycle pushPch, cycle pushPcl, cycle [], cycle [jumpAddress2]]

/-- PCALL upage. -/
def opPcall : List Cycle :=
  [cycle [getByte (·.pc) fun v r => { r with address2 := 0xFF00 + v.setWidth 16 }, incPc],
   cycle [addressStack], cycle pushPch, cycle [setByte (·.address) (·.pc.setWidth 8)],
   cycle [jumpAddress2, decSp]]

/-- `_address2 = get_byte_spc( _address )`, and the next address of the stack. -/
def popPcl : List Stmt :=
  [getByte (·.address) fun v r => { r with address2 := v.setWidth 16 }, incSp, addressStack]

/-- `_PC = ( get_byte_spc( _address ) << 8 ) + _address2`. -/
def popPch : Stmt := getByte (·.address) fun v r => { r with pc := (v.setWidth 16 <<< 8) + r.address2 }

/-- RET. -/
def opRet : List Cycle := [cycle [incSp], cycle [addressStack], cycle popPcl, cycle [popPch]]

/-- RETI. -/
def opReti : List Cycle :=
  [cycle [incSp], cycle [addressStack], cycle (popPsw ++ [incSp, addressStack]), cycle popPcl,
   cycle [popPch]]

/-! ## Jumps -/

/-- JMP abs. -/
def opJmpAbs : List Cycle :=
  [cycle [addressLow, incPc],
   cycle [getByte (·.pc) fun v r => { r with pc := (v.setWidth 16 <<< 8) + r.address }]]

/-- JMP (abs+X). -/
def opJmpAbsX : List Cycle :=
  [cycle [addressLow, incPc], cycle [addressHigh], cycle [addressIndexed .x],
   cycle [getByte (·.address) fun v r => { r with offset := v }],
   cycle [getByte (·.address + 1) fun v r =>
     { r with pc := (v.setWidth 16 <<< 8) + r.offset.setWidth 16 }]]

/-- CBNE dp+X,rel. -/
def opCbneDpX : List Cycle :=
  cycle [addressLow, incPc] :: cycle [getOffset, incPc] :: cycle [addressDpIndexed .x] ::
    cycle [getData] :: endBranchOpcode [] testCbne

/-- DBNZ Y,rel. -/
def opDbnzY : List Cycle :=
  cycle [getOffset, incPc] :: cycle [assign fun r => { r with y := r.y - 1 }] ::
    endBranchOpcode [] [exitIf fun r => r.y = 0]

/-! ## Registers -/

/-- An opcode whose second cycle only computes. -/
def opImplied (f : CpuRegs → CpuRegs) : List Cycle := [cycle [assign f]]

/-- MOV (X)+,A. -/
def opMovXIncA : List Cycle :=
  [cycle [addressDpReg .x], cycle [setData .a], cycle [assign fun r => { r with x := r.x + 1 }]]

/-- MOV A,(X)+. -/
def opMovAXInc : List Cycle :=
  [cycle [addressDpReg .x], cycle [getData, op2 opMovRead .a .data],
   cycle [assign fun r => { r with x := r.x + 1 }]]

/-- XCN A. -/
def opXcn : List Cycle :=
  [cycle [assign fun r => { r with data := r.a }], cycle [assign fun r => { r with a := r.a <<< 4 }],
   cycle [assign fun r => { r with data := r.data >>> 4 }], cycle [op2 opOr .a .data]]

/-- NOP. -/
def opNop : List Cycle := [cycle []]

/-- MUL YA. -/
def opMulYa : List Cycle := [{ body := [assign opMul], work := 8 }]

/-- DIV YA,X. -/
def opDivYaX : List Cycle := [{ body := [assign opDiv], work := 11 }]

/-- DAA. -/
def opDaa : List Cycle := [cycle [assign daaLow], cycle [assign daaHigh]]

/-- DAS. -/
def opDas : List Cycle := [cycle [assign dasLow], cycle [assign dasHigh]]

/-! ## The switch -/

/-- The cases of `Execute_SPC`, by the low five bits of the opcode and then by
the high three.  Nothing is an opcode that is handled as invalid. -/
def switchTable (opcode : Byte) : List (List (Option (List Cycle))) :=
  [ -- xxx00000: NOP, CLRP, SETP, CLRC, SETC, EI, DI, CLRV
   [opNop, opImplied (·.clrFlagSpc .p), opImplied (·.setFlagSpc .p),
     opImplied (·.clrFlagSpc .c), opImplied (·.setFlagSpc .c), opImplied (·.setFlagSpc .i),
     opImplied (·.clrFlagSpc .i), opImplied fun r => (r.clrFlagSpc .h).clrFlagSpc .v],
   -- xxxx0001: TCALL
   List.replicate 8 (opTcall opcode),
   -- xxx00010: SET1
   List.replicate 8 (opRmwDp (writeOp (opSet1 opcode)) true),
   -- xxx00011: BBS
   List.replicate 8 (condDpRel (dpRelTestBbs opcode)),
   -- xxx00100: OR, AND, EOR, CMP, ADC, SBC, MOV on dp
   [opReadDp opOr .a, opReadDp opAnd .a, opReadDp opEor .a, opReadDp opCmp .a, opReadDp opAdc .a,
     opReadDp opSbc .a, opRmwDp (writeMov .a) false, opReadDp opMovRead .a],
   -- xxx00101: on abs
   [opReadAbs opOr .a, opReadAbs opAnd .a, opReadAbs opEor .a, opReadAbs opCmp .a,
     opReadAbs opAdc .a, opReadAbs opSbc .a, opRmwAbs (writeMov .a) false, opReadAbs opMovRead .a],
   -- xxx00110: on (X)
   [opReadIndirect opOr, opReadIndirect opAnd, opReadIndirect opEor, opReadIndirect opCmp,
     opReadIndirect opAdc, opReadIndirect opSbc, opRmwIndirect (writeMov .a) false,
     opReadIndirect opMovRead],
   -- xxx00111: on (dp+X)
   [opReadIndexedIndirect opOr .a, opReadIndexedIndirect opAnd .a, opReadIndexedIndirect opEor .a,
     opReadIndexedIndirect opCmp .a, opReadIndexedIndirect opAdc .a, opReadIndexedIndirect opSbc .a,
     opRmwIndexedIndirect (writeMov .a) false, opReadIndexedIndirect opMovRead .a],
   -- xxx01000: on #imm; CMP X,#imm
   [opReadImm opOr .a, opReadImm opAnd .a, opReadImm opEor .a, opReadImm opCmp .a,
     opReadImm opAdc .a, opReadImm opSbc .a, opReadImm opCmp .x, opReadImm opMovRead .a],
   -- xxx01001: on dp(d),dp(s); MOV abs,X and MOV X,abs
   [opRmwDpDp opOr, opRmwDpDp opAnd, opRmwDpDp opEor, opCmpDpDp, opRmwDpDp opAdc, opRmwDpDp opSbc,
     opRmwAbs (writeMov .x) false, opReadAbs opMovRead .x],
   -- xxx01010: on mem.bit
   [opOr1 true, opOr1 false, opAnd1 true, opAnd1 false, opEor1, opMov1C, opMov1Mem, opNot1],
   -- xxx01011: ASL, ROL, LSR, ROR, DEC, INC on dp; MOV dp,Y and MOV Y,dp
   [opRmwDp (writeOp opAsl) true, opRmwDp (writeOp opRol) true, opRmwDp (writeOp opLsr) true,
     opRmwDp (writeOp opRor) true, opRmwDp (writeOp opDec) true, opRmwDp (writeOp opInc) true,
     opRmwDp (writeMov .y) false, opReadDp opMovRead .y],
   -- xxx01100: on abs; MOV abs,Y and MOV Y,abs
   [opRmwAbs (writeOp opAsl) true, opRmwAbs (writeOp opRol) true, opRmwAbs (writeOp opLsr) true,
     opRmwAbs (writeOp opRor) true, opRmwAbs (writeOp opDec) true, opRmwAbs (writeOp opInc) true,
     opRmwAbs (writeMov .y) false, opReadAbs opMovRead .y],
   -- xxx01101: PUSH; MOV Y,#imm, CMP Y,#imm, MOV X,#imm, NOTC
   [opPushPsw, opPush .a, opPush .x, opPush .y, opReadImm opMovRead .y, opReadImm opCmp .y,
     opReadImm opMovRead .x, opImplied (·.complementCarrySpc)],
   -- xxx01110: TSET1, CBNE, TCLR1, DBNZ, POP
   [opTest1 fun r => r.data ||| r.a, condDpRel testCbne, opTest1 fun r => r.data &&& ~~~ r.a,
     condDpRel dpRelTestDbnz, opPopPsw, opPop .a, opPop .x, opPop .y],
   -- xxx01111: BRK, BRA, PCALL, RET, MOV dp,#imm, MOV (X)+,A, MUL, SLEEP
   [opBrk, condRel [], opPcall, opRet, opRmwDpImm opMovReadNoflags, opMovXIncA,
     opMulYa, none],
   -- xxx10000: BPL, BMI, BVC, BVS, BCC, BCS, BNE, BEQ
   [condRel (exitIfSet .n), condRel (exitIfClear .n), condRel (exitIfSet .v),
     condRel (exitIfClear .v), condRel (exitIfSet .c), condRel (exitIfClear .c),
     condRel (exitIfSet .z), condRel (exitIfClear .z)],
   -- xxxx0001: TCALL
   List.replicate 8 (opTcall opcode),
   -- xxx10010: CLR1
   List.replicate 8 (opRmwDp (writeOp (opClr1 opcode)) true),
   -- xxx10011: BBC
   List.replicate 8 (condDpRel (dpRelTestBbc opcode)),
   -- xxx10100: OR, AND, EOR, CMP, ADC, SBC, MOV on dp+X
   [opReadDpRegIndexed opOr .a .x, opReadDpRegIndexed opAnd .a .x, opReadDpRegIndexed opEor .a .x,
     opReadDpRegIndexed opCmp .a .x, opReadDpRegIndexed opAdc .a .x, opReadDpRegIndexed opSbc .a .x,
     opRmwDpRegIndexed (writeMov .a) false .x, opReadDpRegIndexed opMovRead .a .x],
   -- xxx10101: on abs+X
   [opReadAbsRegIndexed opOr .a .x, opReadAbsRegIndexed opAnd .a .x, opReadAbsRegIndexed opEor .a .x,
     opReadAbsRegIndexed opCmp .a .x, opReadAbsRegIndexed opAdc .a .x, opReadAbsRegIndexed opSbc .a .x,
     opRmwAbsRegIndexed (writeMov .a) false .x, opReadAbsRegIndexed opMovRead .a .x],
   -- xxx10110: on abs+Y
   [opReadAbsRegIndexed opOr .a .y, opReadAbsRegIndexed opAnd .a .y, opReadAbsRegIndexed opEor .a .y,
     opReadAbsRegIndexed opCmp .a .y, opReadAbsRegIndexed opAdc .a .y, opReadAbsRegIndexed opSbc .a .y,
     opRmwAbsRegIndexed (writeMov .a) false .y, opReadAbsRegIndexed opMovRead .a .y],
   -- xxx10111: on (dp)+Y
   [opReadIndirectIndexed opOr .a, opReadIndirectIndexed opAnd .a, opReadIndirectIndexed opEor .a,
     opReadIndirectIndexed opCmp .a, opReadIndirectIndexed opAdc .a, opReadIndirectIndexed opSbc .a,
     opRmwIndirectIndexed (writeMov .a) false, opReadIndirectIndexed opMovRead .a],
   -- xxx11000: on dp,#imm; MOV dp,X and MOV X,dp
   [opRmwDpImm opOr, opRmwDpImm opAnd, opRmwDpImm opEor, opCmpDpImm, opRmwDpImm opAdc,
     opRmwDpImm opSbc, opRmwDp (writeMov .x) false, opReadDp opMovRead .x],
   -- xxx11001: on (X),(Y); MOV dp+Y,X and MOV X,dp+Y
   [opRmwIndirectIndirect opOr, opRmwIndirectIndirect opAnd, opRmwIndirectIndirect opEor,
     opCmpIndirectIndirect, opRmwIndirectIndirect opAdc, opRmwIndirectIndirect opSbc,
     opRmwDpRegIndexed (writeMov .x) false .y, opReadDpRegIndexed opMovRead .x .y],
   -- xxx11010: DECW, INCW, CMPW, ADDW, SUBW, MOVW YA,dp, MOVW dp,YA, MOV dp(d),dp(s)
   [opRmw16Dp opDecw, opRmw16Dp opIncw, opCmpwYaDp, opRead16YaDp opAddw, opRead16YaDp opSubw,
     opRead16YaDp opMovwRead, opMovwDpYa, opMovDpDp],
   -- xxx11011: ASL, ROL, LSR, ROR, DEC, INC on dp+X; MOV dp+X,Y and MOV Y,dp+X
   [opRmwDpRegIndexed (writeOp opAsl) true .x, opRmwDpRegIndexed (writeOp opRol) true .x,
     opRmwDpRegIndexed (writeOp opLsr) true .x, opRmwDpRegIndexed (writeOp opRor) true .x,
     opRmwDpRegIndexed (writeOp opDec) true .x, opRmwDpRegIndexed (writeOp opInc) true .x,
     opRmwDpRegIndexed (writeMov .y) false .x, opReadDpRegIndexed opMovRead .y .x],
   -- xxx11100: on A; DEC Y and INC Y
   [opImplied (opAsl .a), opImplied (opRol .a), opImplied (opLsr .a), opImplied (opRor .a),
     opImplied (opDec .a), opImplied (opInc .a), opImplied (opDec .y), opImplied (opInc .y)],
   -- xxx11101: DEC X, INC X and moves between registers
   [opImplied (opDec .x), opImplied (opInc .x), opImplied (opMovRead .x .a),
     opImplied (opMovRead .a .x), opImplied (opMovRead .x .sp), opImplied (opMovReadNoflags .sp .x),
     opImplied (opMovRead .a .y), opImplied (opMovRead .y .a)],
   -- xxx11110: CMP X and CMP Y, DIV, DAS, CBNE dp+X, DBNZ Y
   [opReadAbs opCmp .x, opReadDp opCmp .x, opReadAbs opCmp .y, opReadDp opCmp .y,
     opDivYaX, opDas, opCbneDpX, opDbnzY],
   -- xxx11111: JMP (abs+X), CALL, JMP, RETI, XCN, MOV A,(X)+, DAA, STOP
   [opJmpAbsX, opCall, opJmpAbs, opReti, opXcn, opMovAXInc, opDaa, none]]

/-- The case of an opcode. -/
def switchSpc (opcode : Byte) : Option (List Cycle) :=
  ((switchTable opcode).getD (opcode.toNat % 32) []).getD (opcode.toNat / 32) none

end Macros

end OpenSpc
