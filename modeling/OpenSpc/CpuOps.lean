import OpenSpc.CpuRegs

/-!
# The operations of the instructions

The `OP_` macros that compute.  `unsigned` temporaries are 32-bit words, in
which a borrow shows as a value above the largest operand.
-/

namespace OpenSpc

namespace CpuRegs

/-- The carry as a number. -/
def carry (r : CpuRegs) : BitVec 32 := if r.flag .c then 1 else 0

/-- What is still to be subtracted when the carry is clear. -/
def borrow (r : CpuRegs) : BitVec 32 := if r.flag .c then 0 else 1

end CpuRegs

open CpuRegs (Reg8 ofBool)

/-- An operation on two bytes. -/
abbrev Op2 := Reg8 → Reg8 → CpuRegs → CpuRegs

/-- An operation on one byte. -/
abbrev Op1 := Reg8 → CpuRegs → CpuRegs

/-! ## Two bytes -/

/-- `OP_OR`. -/
def opOr : Op2 := fun dest src r =>
  let value := r.get dest ||| r.get src
  (r.put dest value).storeFlagsNz value

/-- `OP_AND`. -/
def opAnd : Op2 := fun dest src r =>
  let value := r.get dest &&& r.get src
  (r.put dest value).storeFlagsNz value

/-- `OP_EOR`. -/
def opEor : Op2 := fun dest src r =>
  let value := r.get dest ^^^ r.get src
  (r.put dest value).storeFlagsNz value

/-- `OP_CMP`. -/
def opCmp : Op2 := fun dest src r =>
  let temp := (r.get dest).setWidth 32 - (r.get src).setWidth 32
  (r.storeFlagC (ofBool (temp ≤ 0xFF))).storeFlagsNz (temp.setWidth 8)

/-- `OP_ADC`. -/
def opAdc : Op2 := fun dest src r =>
  let d := (r.get dest).setWidth 32
  let s := (r.get src).setWidth 32
  let result := d + s + r.carry
  let r := r.storeFlagH (ofBool ((d &&& 0x0F) + (s &&& 0x0F) + r.carry > 0x0F))
  let r := r.storeFlagC (ofBool (result > 0xFF))
  let r := r.storeFlagV ((~~~ (d ^^^ s) &&& ((d ^^^ result) &&& 0x80)).setWidth 8)
  let r := r.storeFlagsNz (result.setWidth 8)
  r.put dest (result.setWidth 8)

/-- `OP_SBC`. -/
def opSbc : Op2 := fun dest src r =>
  let d := (r.get dest).setWidth 32
  let s := (r.get src).setWidth 32
  let result := d - s - r.borrow
  let r := r.storeFlagH (ofBool (¬ (d &&& 0x0F) - (s &&& 0x0F) - r.borrow > 0x0F))
  let r := r.storeFlagC (ofBool (result ≤ 0xFF))
  let r := r.storeFlagV (((d ^^^ s) &&& ((d ^^^ result) &&& 0x80)).setWidth 8)
  let r := r.storeFlagsNz (result.setWidth 8)
  r.put dest (result.setWidth 8)

/-- `OP_MOV_READ_NOFLAGS`. -/
def opMovReadNoflags : Op2 := fun dest src r => r.put dest (r.get src)

/-- `OP_MOV_READ`. -/
def opMovRead : Op2 := fun dest src r => (r.put dest (r.get src)).storeFlagsNz (r.get src)

/-! ## One byte -/

/-- `OP_ASL`. -/
def opAsl : Op1 := fun var r =>
  let value := r.get var <<< 1
  ((r.storeFlagC (r.get var &&& 0x80)).put var value).storeFlagsNz value

/-- `OP_ROL`. -/
def opRol : Op1 := fun var r =>
  let value := (r.get var <<< 1) + (if r.flag .c then 1 else 0)
  ((r.storeFlagC (r.get var &&& 0x80)).put var value).storeFlagsNz value

/-- `OP_LSR`. -/
def opLsr : Op1 := fun var r =>
  let value := r.get var >>> 1
  ((r.storeFlagC (r.get var &&& 1)).put var value).storeFlagsNz value

/-- `OP_ROR`. -/
def opRor : Op1 := fun var r =>
  let value := (r.get var >>> 1) + (if r.flag .c then 0x80 else 0)
  ((r.storeFlagC (r.get var &&& 1)).put var value).storeFlagsNz value

/-- `OP_DEC`. -/
def opDec : Op1 := fun var r =>
  let value := r.get var - 1
  (r.put var value).storeFlagsNz value

/-- `OP_INC`. -/
def opInc : Op1 := fun var r =>
  let value := r.get var + 1
  (r.put var value).storeFlagsNz value

/-- `offset_to_bit`. -/
def offsetToBit : List Byte := [0x01, 0x02, 0x04, 0x08, 0x10, 0x20, 0x40, 0x80]

/-- `offset_to_not`. -/
def offsetToNot : List Byte := [0xFE, 0xFD, 0xFB, 0xF7, 0xEF, 0xDF, 0xBF, 0x7F]

/-- `OP_SET1`. -/
def opSet1 (opcode : Byte) : Op1 := fun var r =>
  r.put var (r.get var ||| offsetToBit.getD (opcode >>> 5).toNat 0)

/-- `OP_CLR1`. -/
def opClr1 (opcode : Byte) : Op1 := fun var r =>
  r.put var (r.get var &&& offsetToNot.getD (opcode >>> 5).toNat 0)

/-! ## Words -/

/-- `OP_ADDW( _YA, _data16 )`. -/
def opAddw (r : CpuRegs) : CpuRegs :=
  let dest := r.ya.setWidth 32
  let src := r.data16.setWidth 32
  let tempLow := (dest &&& 0xFF) + (src &&& 0xFF)
  let carryLow : BitVec 32 := if tempLow > 0xFF then 1 else 0
  let r := r.storeFlagH (ofBool
    (((dest >>> 8) &&& 0x0F) + ((src >>> 8) &&& 0x0F) + carryLow > 0x0F))
  let tempHigh := (dest >>> 8) + (src >>> 8) + carryLow
  let r := r.storeFlagC (ofBool (tempHigh > 0xFF))
  let result := ((tempLow &&& 0xFF) + (tempHigh <<< 8)) &&& 0xFFFF
  let r := r.storeFlagV (((~~~ (dest ^^^ src) &&& ((dest ^^^ result) &&& 0x8000)) >>> 8).setWidth 8)
  let r := (r.storeFlagN ((result >>> 8).setWidth 8)).storeFlagZ (ofBool (result ≠ 0))
  r.setYa (result.setWidth 16)

/-- `OP_SUBW( _YA, _data16 )`. -/
def opSubw (r : CpuRegs) : CpuRegs :=
  let dest := r.ya.setWidth 32
  let src := r.data16.setWidth 32
  let tempLow := (dest &&& 0xFF) - (src &&& 0xFF)
  let carryLow : BitVec 32 := if tempLow > 0xFF then 1 else 0
  let r := r.storeFlagH (ofBool
    (¬ ((dest >>> 8) &&& 0x0F) - ((src >>> 8) &&& 0x0F) - carryLow > 0x0F))
  let tempHigh := (dest >>> 8) - (src >>> 8) - carryLow
  let r := r.storeFlagC (ofBool (tempHigh ≤ 0xFF))
  let result := ((tempLow &&& 0xFF) + (tempHigh <<< 8)) &&& 0xFFFF
  let r := r.storeFlagV ((((dest ^^^ src) &&& ((dest ^^^ result) &&& 0x8000)) >>> 8).setWidth 8)
  let r := (r.storeFlagN ((result >>> 8).setWidth 8)).storeFlagZ (ofBool (result ≠ 0))
  r.setYa (result.setWidth 16)

/-- `OP_MOVW_READ( _YA, _data16 )`. -/
def opMovwRead (r : CpuRegs) : CpuRegs :=
  let r := r.setYa r.data16
  (r.storeFlagN (r.ya.extractLsb' 8 8)).storeFlagZ (ofBool (r.ya ≠ 0))

/-- What CMPW computes. -/
def opCmpw (r : CpuRegs) : CpuRegs :=
  let temp := r.ya.setWidth 32 - r.data16.setWidth 32
  let r := r.storeFlagC (ofBool (temp ≤ 0xFFFF))
  (r.storeFlagN ((temp >>> 8).setWidth 8)).storeFlagZ (ofBool (temp ≠ 0))

/-- `OP_DECW( _data16 )`. -/
def opDecw (r : CpuRegs) : CpuRegs :=
  let r := { r with data16 := r.data16 - 1 }
  (r.storeFlagN (r.data16.extractLsb' 8 8)).storeFlagZ (ofBool (r.data16 ≠ 0))

/-- `OP_INCW( _data16 )`. -/
def opIncw (r : CpuRegs) : CpuRegs :=
  let r := { r with data16 := r.data16 + 1 }
  (r.storeFlagN (r.data16.extractLsb' 8 8)).storeFlagZ (ofBool (r.data16 ≠ 0))

/-! ## Multiplication and division -/

/-- What MUL computes. -/
def opMul (r : CpuRegs) : CpuRegs :=
  let r := r.setYa (r.y.setWidth 16 * r.a.setWidth 16)
  r.storeFlagsNz r.y

/-- One pass of the loop of DIV: a 17-bit rotation, and a subtraction that is
decided by an exclusive or. -/
def divPass (workX yva : BitVec 32) : BitVec 32 :=
  let yva := yva <<< 1
  let yva := if yva &&& 0x20000 ≠ 0 then (yva &&& 0x1FFFF) ||| 1 else yva
  let yva := if yva ≥ workX then yva ^^^ 1 else yva
  if yva &&& 1 ≠ 0 then (yva - workX) &&& 0x1FFFF else yva

/-- `n` passes. -/
def divLoop (workX : BitVec 32) : Nat → BitVec 32 → BitVec 32
  | 0, yva => yva
  | n + 1, yva => divLoop workX n (divPass workX yva)

/-- What DIV computes. -/
def opDiv (r : CpuRegs) : CpuRegs :=
  let yva := divLoop (r.x.setWidth 32 <<< 9) 9 (r.ya.setWidth 32)
  let r := if r.x &&& 0xF ≤ r.y &&& 0xF then r.setFlagSpc .h else r.clrFlagSpc .h
  let r := if yva &&& 0x100 ≠ 0 then r.setFlagSpc .v else r.clrFlagSpc .v
  let r := r.setYa (((((yva >>> 9) &&& 0xFF) <<< 8) + (yva &&& 0xFF)).setWidth 16)
  r.storeFlagsNz (r.ya.setWidth 8)

/-! ## Decimal adjustment -/

/-- Cycle 2 of DAA. -/
def daaLow (r : CpuRegs) : CpuRegs :=
  let r := { r with data := r.a }
  if r.data &&& 0x0F > 9 ∨ r.flag .h then
    let r := { r with a := r.a + 6 }
    if r.a < 6 then r.setFlagSpc .c else r
  else r

/-- Cycle 3 of DAA. -/
def daaHigh (r : CpuRegs) : CpuRegs :=
  let r := if r.data > 0x99 ∨ r.flag .c then { r with a := r.a + 0x60 }.setFlagSpc .c else r
  r.storeFlagsNz r.a

/-- Cycle 2 of DAS. -/
def dasLow (r : CpuRegs) : CpuRegs :=
  let r := { r with data := r.a }
  if r.data &&& 0x0F > 9 ∨ !r.flag .h then { r with a := r.a - 6 } else r

/-- Cycle 3 of DAS. -/
def dasHigh (r : CpuRegs) : CpuRegs :=
  let r := if r.data > 0x99 ∨ !r.flag .c then { r with a := r.a - 0x60 }.clrFlagSpc .c else r
  r.storeFlagsNz r.a

end OpenSpc
