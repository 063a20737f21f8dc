import OpenSpc.CpuArith
import OpenSpc.PlainOps

/-!
# The boot ROM

The program of `SPC_ROM_CODE` receives blocks of data through the ports.  It
clears the direct page, announces itself, and waits; then it takes commands,
each of which either starts a block or jumps to an address, and the bytes of a
block, every one of which it acknowledges.  Here its instructions are put
together to the stretches between two looks at the ports.
-/

namespace OpenSpc

open CpuRegs (Reg8 Flag)

/-! ## Flags -/

namespace CpuRegs

variable (r : CpuRegs)

/-- Z says whether the byte is zero. -/
theorem storeFlagsNz_z (v : Byte) : (r.storeFlagsNz v).flag .z = decide (v = 0) := by
  change decide (ofBool (decide (v = 0)) ≠ 0) = _
  rw [ofBool_ne_zero]

/-- N is the highest bit of the byte. -/
theorem storeFlagsNz_n (v : Byte) : (r.storeFlagsNz v).flag .n = v.msb := by
  have hbyte : ∀ x : Byte, decide (x &&& 0x80 ≠ 0) = x.msb := by decide
  exact hbyte v

/-- What CMP looks at. -/
theorem cmp_byte (x y : Byte) : (x.setWidth 32 - y.setWidth 32).setWidth 8 = x - y := by
  apply BitVec.eq_of_toNat_eq
  rw [BitVec.toNat_setWidth, BitVec.toNat_sub, BitVec.toNat_sub, BitVec.toNat_setWidth,
    BitVec.toNat_setWidth]
  omega

/-- CMP sets Z if the bytes are the same. -/
theorem opCmp_z (dest src : Reg8) :
    (opCmp dest src r).flag .z = decide (r.get dest = r.get src) := by
  unfold opCmp
  dsimp only
  rw [storeFlagsNz_z, cmp_byte]
  exact decide_eq_decide.mpr sub_eq_zero

/-- CMP sets N if their difference has its high bit set. -/
theorem opCmp_n (dest src : Reg8) :
    (opCmp dest src r).flag .n = (r.get dest - r.get src).msb := by
  unfold opCmp
  dsimp only
  rw [storeFlagsNz_n, cmp_byte]

end CpuRegs

/-! ## Instructions -/

namespace Plain

/-- The program counter set, and the direct page at 0. -/
def atPc (pc : BitVec 16) (s : Plain) : Plain :=
  { s with regs := { s.regs with pc := pc, directPage := 0 } }

variable {h : HostPorts} {t : Nat} {s : Plain}

/-- An instruction of the ROM, once its opcode is known. -/
theorem instr_rom (pc : BitVec 16) (opcode : Byte) {ys : List Cycle} (hpc : 0xFFC0 ≤ pc.toNat)
    (hop : bootRom pc = opcode) (hys : switchSpc opcode = some ys) :
    instr h t (s.atPc pc) = cycles h (t + 1) ys (s.atPc (pc + 1)) :=
  instr_of_fetch (get_rom hpc hop) hys

/-- An operand in the ROM. -/
theorem operand (h : HostPorts) (t : Nat) (s : Plain) (pc : BitVec 16) (v : Byte)
    (hpc : 0xFFC0 ≤ pc.toNat) (hv : bootRom pc = v) :
    (s.atPc pc).get (h t) (s.atPc pc).regs.pc = some v := get_rom hpc hv

/-- The second byte of an operand. -/
theorem operand_high (h : HostPorts) (t : Nat) (s : Plain) (pc : BitVec 16) (v : Byte)
    (hpc : 0xFFC0 ≤ (pc + 1).toNat) (hv : bootRom (pc + 1) = v) :
    (s.atPc pc).get (h t) ((s.atPc pc).regs.pc + 1) = some v := get_rom hpc hv

/-- A branch that a flag keeps from being taken. -/
theorem cycles_branch (f : Flag) (pc : BitVec 16) (d : Byte) {target : BitVec 16}
    (hd : (s.atPc pc).get (h t) (s.atPc pc).regs.pc = some d)
    (htarget : pc + 1 + ((d.setWidth 16 ^^^ 0x80) - 0x80) = target) :
    cycles h t (condRel (exitIfSet f)) (s.atPc pc) =
      if s.regs.flag f then some ((s.mapRegs fun r => { r with offset := d }).atPc (pc + 1), t + 1)
      else some ((s.mapRegs fun r => { r with offset := d, address := target }).atPc target,
        t + 3) := by
  subst htarget
  cases f <;> exact cycles_condRel _ hd

/-- The direct page is page 0 here. -/
theorem dpAddress_atPc (pc : BitVec 16) (d : Byte) : (s.atPc pc).dpAddress d = d.setWidth 16 :=
  zero_add (d.setWidth 16)

/-- MOV X,#$EF -/
theorem instr_FFC0 :
    instr h t (s.atPc 0xFFC0) =
      some ((s.mapRegs fun r => opMovRead .x .data { r with data := 0xEF }).atPc 0xFFC2, t + 2) :=
  (instr_rom 0xFFC0 0xCD (by decide) (by decide) rfl).trans
    (cycles_opReadImm opMovRead .x (operand h (t + 1) s 0xFFC1 0xEF (by decide) (by decide)))

/-- MOV SP,X -/
theorem instr_FFC2 :
    instr h t (s.atPc 0xFFC2) =
      some ((s.mapRegs (opMovReadNoflags .sp .x)).atPc 0xFFC3, t + 2) :=
  (instr_rom 0xFFC2 0xBD (by decide) (by decide) rfl).trans (cycles_opImplied _)

/-- MOV A,#$00 -/
theorem instr_FFC3 :
    instr h t (s.atPc 0xFFC3) =
      some ((s.mapRegs fun r => opMovRead .a .data { r with data := 0 }).atPc 0xFFC5, t + 2) :=
  (instr_rom 0xFFC3 0xE8 (by decide) (by decide) rfl).trans
    (cycles_opReadImm opMovRead .a (operand h (t + 1) s 0xFFC4 0x00 (by decide) (by decide)))

/-- MOV (X),A -/
theorem instr_FFC5 (hx : InRam ((s.atPc 0xFFC6).dpAddress s.regs.x)) :
    instr h t (s.atPc 0xFFC5) =
      some (({ s with
        regs := { s.regs with address := (s.atPc 0xFFC6).dpAddress s.regs.x }
        ram := Function.update s.ram ((s.atPc 0xFFC6).dpAddress s.regs.x) s.regs.a }).atPc 0xFFC6,
        t + 4) :=
  (instr_rom 0xFFC5 0xC6 (by decide) (by decide) rfl).trans (cycles_opMovXA hx)

/-- DEC X -/
theorem instr_FFC6 :
    instr h t (s.atPc 0xFFC6) = some ((s.mapRegs (opDec .x)).atPc 0xFFC7, t + 2) :=
  (instr_rom 0xFFC6 0x1D (by decide) (by decide) rfl).trans (cycles_opImplied _)

/-- BNE $FFC5 -/
theorem instr_FFC7 :
    instr h t (s.atPc 0xFFC7) =
      if s.regs.flag .z then
        some ((s.mapRegs fun r => { r with offset := 0xFC }).atPc 0xFFC9, t + 2)
      else
        some ((s.mapRegs fun r => { r with offset := 0xFC, address := 0xFFC5 }).atPc 0xFFC5,
          t + 4) :=
  (instr_rom 0xFFC7 0xD0 (by decide) (by decide) rfl).trans
    (cycles_branch .z 0xFFC8 0xFC
      (operand h (t + 1) s 0xFFC8 0xFC (by decide) (by decide)) (by decide))

/-- MOV $F4,#$AA -/
theorem instr_FFC9 :
    instr h t (s.atPc 0xFFC9) =
      some (({ s with
        regs := { s.regs with data2 := 0xAA, address := 0xF4, data := 0xAA }
        portW := Function.update s.portW 0 0xAA }).atPc 0xFFCC, t + 5) :=
  (instr_rom 0xFFC9 0x8F (by decide) (by decide) rfl).trans
    (cycles_opMovDpImm 0 (operand h (t + 1) s 0xFFCA 0xAA (by decide) (by decide))
      (operand_high h (t + 2) s 0xFFCA 0xF4 (by decide) (by decide)) rfl)

/-- MOV $F5,#$BB -/
theorem instr_FFCC :
    instr h t (s.atPc 0xFFCC) =
      some (({ s with
        regs := { s.regs with data2 := 0xBB, address := 0xF5, data := 0xBB }
        portW := Function.update s.portW 1 0xBB }).atPc 0xFFCF, t + 5) :=
  (instr_rom 0xFFCC 0x8F (by decide) (by decide) rfl).trans
    (cycles_opMovDpImm 1 (operand h (t + 1) s 0xFFCD 0xBB (by decide) (by decide))
      (operand_high h (t + 2) s 0xFFCD 0xF5 (by decide) (by decide)) rfl)

/-- CMP $F4,#$CC -/
theorem instr_FFCF :
    instr h t (s.atPc 0xFFCF) =
      some ((s.mapRegs fun r => opCmp .data .data2
        { r with data2 := 0xCC, address := 0xF4, data := h (t + 3) 0 }).atPc 0xFFD2, t + 5) :=
  (instr_rom 0xFFCF 0x78 (by decide) (by decide) rfl).trans
    (cycles_opCmpDpImm (operand h (t + 1) s 0xFFD0 0xCC (by decide) (by decide))
      (operand_high h (t + 2) s 0xFFD0 0xF4 (by decide) (by decide)) (get_port 0 rfl))

/-- BNE $FFCF -/
theorem instr_FFD2 :
    instr h t (s.atPc 0xFFD2) =
      if s.regs.flag .z then
        some ((s.mapRegs fun r => { r with offset := 0xFB }).atPc 0xFFD4, t + 2)
      else
        some ((s.mapRegs fun r => { r with offset := 0xFB, address := 0xFFCF }).atPc 0xFFCF,
          t + 4) :=
  (instr_rom 0xFFD2 0xD0 (by decide) (by decide) rfl).trans
    (cycles_branch .z 0xFFD3 0xFB
      (operand h (t + 1) s 0xFFD3 0xFB (by decide) (by decide)) (by decide))

/-- BRA $FFEF -/
theorem instr_FFD4 :
    instr h t (s.atPc 0xFFD4) =
      some ((s.mapRegs fun r => { r with offset := 0x19, address := 0xFFEF }).atPc 0xFFEF, t + 4) :=
  (instr_rom 0xFFD4 0x2F (by decide) (by decide) rfl).trans
    (cycles_bra (operand h (t + 1) s 0xFFD5 0x19 (by decide) (by decide)))

/-- MOV Y,$F4 -/
theorem instr_FFD6 :
    instr h t (s.atPc 0xFFD6) =
      some ((s.mapRegs fun r => opMovRead .y .data
        { r with address := 0xF4, data := h (t + 2) 0 }).atPc 0xFFD8, t + 3) :=
  (instr_rom 0xFFD6 0xEB (by decide) (by decide) rfl).trans
    (cycles_opReadDp opMovRead .y (operand h (t + 1) s 0xFFD7 0xF4 (by decide) (by decide))
      (get_port 0 rfl))

/-- BNE $FFD6 -/
theorem instr_FFD8 :
    instr h t (s.atPc 0xFFD8) =
      if s.regs.flag .z then
        some ((s.mapRegs fun r => { r with offset := 0xFC }).atPc 0xFFDA, t + 2)
      else
        some ((s.mapRegs fun r => { r with offset := 0xFC, address := 0xFFD6 }).atPc 0xFFD6,
          t + 4) :=
  (instr_rom 0xFFD8 0xD0 (by decide) (by decide) rfl).trans
    (cycles_branch .z 0xFFD9 0xFC
      (operand h (t + 1) s 0xFFD9 0xFC (by decide) (by decide)) (by decide))

/-- CMP Y,$F4 -/
theorem instr_FFDA :
    instr h t (s.atPc 0xFFDA) =
      some ((s.mapRegs fun r => opCmp .y .data
        { r with address := 0xF4, data := h (t + 2) 0 }).atPc 0xFFDC, t + 3) :=
  (instr_rom 0xFFDA 0x7E (by decide) (by decide) rfl).trans
    (cycles_opReadDp opCmp .y (operand h (t + 1) s 0xFFDB 0xF4 (by decide) (by decide))
      (get_port 0 rfl))

/-- BNE $FFE9 -/
theorem instr_FFDC :
    instr h t (s.atPc 0xFFDC) =
      if s.regs.flag .z then
        some ((s.mapRegs fun r => { r with offset := 0x0B }).atPc 0xFFDE, t + 2)
      else
        some ((s.mapRegs fun r => { r with offset := 0x0B, address := 0xFFE9 }).atPc 0xFFE9,
          t + 4) :=
  (instr_rom 0xFFDC 0xD0 (by decide) (by decide) rfl).trans
    (cycles_branch .z 0xFFDD 0x0B
      (operand h (t + 1) s 0xFFDD 0x0B (by decide) (by decide)) (by decide))

/-- MOV A,$F5 -/
theorem instr_FFDE :
    instr h t (s.atPc 0xFFDE) =
      some ((s.mapRegs fun r => opMovRead .a .data
        { r with address := 0xF5, data := h (t + 2) 1 }).atPc 0xFFE0, t + 3) :=
  (instr_rom 0xFFDE 0xE4 (by decide) (by decide) rfl).trans
    (cycles_opReadDp opMovRead .a (operand h (t + 1) s 0xFFDF 0xF5 (by decide) (by decide))
      (get_port 1 rfl))

/-- MOV $F4,Y -/
theorem instr_FFE0 :
    instr h t (s.atPc 0xFFE0) =
      some (({ s with
        regs := { s.regs with address := 0xF4 }
        portW := Function.update s.portW 0 s.regs.y }).atPc 0xFFE2, t + 4) :=
  (instr_rom 0xFFE0 0xCB (by decide) (by decide) rfl).trans
    (cycles_opMovDp .y 0 (operand h (t + 1) s 0xFFE1 0xF4 (by decide) (by decide)) rfl)

/-- The address the next byte of a block goes to. -/
def target (s : Plain) : BitVec 16 :=
  (s.ram 0).setWidth 16 + ((s.ram 1).setWidth 16 <<< 8) + s.regs.y.setWidth 16

/-- MOV [$00]+Y,A -/
theorem instr_FFE2 (ha : InRam s.target) :
    instr h t (s.atPc 0xFFE2) =
      some (({ s with
        regs := { s.regs with address2 := 0, address := s.target }
        ram := Function.update s.ram s.target s.regs.a }).atPc 0xFFE4, t + 7) := by
  have hbase : (s.atPc 0xFFE3).dpAddress 0x00 = 0 := dpAddress_atPc _ _
  have hword : (s.atPc 0xFFE3).dpWord 0x00 + (s.atPc 0xFFE3).regs.y.setWidth 16 = s.target := by
    unfold dpWord
    rw [hbase]
    rfl
  have hcycles := cycles_opMovIndirectYA (operand h (t + 1) s 0xFFE3 0x00 (by decide) (by decide))
    (hbase ▸ by decide) (hbase ▸ by decide) (hword ▸ ha)
  rw [hword, hbase] at hcycles
  exact (instr_rom 0xFFE2 0xD7 (by decide) (by decide) rfl).trans hcycles

/-- INC Y -/
theorem instr_FFE4 :
    instr h t (s.atPc 0xFFE4) = some ((s.mapRegs (opInc .y)).atPc 0xFFE5, t + 2) :=
  (instr_rom 0xFFE4 0xFC (by decide) (by decide) rfl).trans (cycles_opImplied _)

/-- BNE $FFDA -/
theorem instr_FFE5 :
    instr h t (s.atPc 0xFFE5) =
      if s.regs.flag .z then
        some ((s.mapRegs fun r => { r with offset := 0xF3 }).atPc 0xFFE7, t + 2)
      else
        some ((s.mapRegs fun r => { r with offset := 0xF3, address := 0xFFDA }).atPc 0xFFDA,
          t + 4) :=
  (instr_rom 0xFFE5 0xD0 (by decide) (by decide) rfl).trans
    (cycles_branch .z 0xFFE6 0xF3
      (operand h (t + 1) s 0xFFE6 0xF3 (by decide) (by decide)) (by decide))

/-- INC $01 -/
theorem instr_FFE7 :
    instr h t (s.atPc 0xFFE7) =
      some (({ s with
        regs := opInc .data { s.regs with address := 1, data := s.ram 1 }
        ram := Function.update s.ram 1 (s.ram 1 + 1) }).atPc 0xFFE9, t + 4) :=
  (instr_rom 0xFFE7 0xAB (by decide) (by decide) rfl).trans
    (cycles_opIncDp (operand h (t + 1) s 0xFFE8 0x01 (by decide) (by decide))
      (show InRam 1 by decide))

/-- BPL $FFDA -/
theorem instr_FFE9 :
    instr h t (s.atPc 0xFFE9) =
      if s.regs.flag .n then
        some ((s.mapRegs fun r => { r with offset := 0xEF }).atPc 0xFFEB, t + 2)
      else
        some ((s.mapRegs fun r => { r with offset := 0xEF, address := 0xFFDA }).atPc 0xFFDA,
          t + 4) :=
  (instr_rom 0xFFE9 0x10 (by decide) (by decide) rfl).trans
    (cycles_branch .n 0xFFEA 0xEF
      (operand h (t + 1) s 0xFFEA 0xEF (by decide) (by decide)) (by decide))

/-- CMP Y,$F4 -/
theorem instr_FFEB :
    instr h t (s.atPc 0xFFEB) =
      some ((s.mapRegs fun r => opCmp .y .data
        { r with address := 0xF4, data := h (t + 2) 0 }).atPc 0xFFED, t + 3) :=
  (instr_rom 0xFFEB 0x7E (by decide) (by decide) rfl).trans
    (cycles_opReadDp opCmp .y (operand h (t + 1) s 0xFFEC 0xF4 (by decide) (by decide))
      (get_port 0 rfl))

/-- BPL $FFDA -/
theorem instr_FFED :
    instr h t (s.atPc 0xFFED) =
      if s.regs.flag .n then
        some ((s.mapRegs fun r => { r with offset := 0xEB }).atPc 0xFFEF, t + 2)
      else
        some ((s.mapRegs fun r => { r with offset := 0xEB, address := 0xFFDA }).atPc 0xFFDA,
          t + 4) :=
  (instr_rom 0xFFED 0x10 (by decide) (by decide) rfl).trans
    (cycles_branch .n 0xFFEE 0xEB
      (operand h (t + 1) s 0xFFEE 0xEB (by decide) (by decide)) (by decide))

/-- A word of two bytes, as the core puts it together. -/
def word (v w : Byte) : BitVec 16 := v.setWidth 16 + (w.setWidth 16 <<< 8)

/-- MOVW YA,$F6 -/
theorem instr_FFEF :
    instr h t (s.atPc 0xFFEF) =
      some ((s.mapRegs fun r => opMovwRead
        { r with address := 0xF6, data16 := word (h (t + 2) 2) (h (t + 3) 3) }).atPc 0xFFF1,
        t + 5) :=
  (instr_rom 0xFFEF 0xBA (by decide) (by decide) rfl).trans
    (cycles_opRead16YaDp opMovwRead (operand h (t + 1) s 0xFFF0 0xF6 (by decide) (by decide))
      (get_port 2 rfl) (get_port 3 rfl))

/-- MOVW $00,YA -/
theorem instr_FFF1 :
    instr h t (s.atPc 0xFFF1) =
      some (({ s with
        regs := { s.regs with address := 0 }
        ram := Function.update (Function.update s.ram 0 s.regs.a) 1 s.regs.y }).atPc 0xFFF3,
        t + 5) :=
  (instr_rom 0xFFF1 0xDA (by decide) (by decide) rfl).trans
    (cycles_opMovwDpYa (operand h (t + 1) s 0xFFF2 0x00 (by decide) (by decide))
      (show InRam 0 by decide) (show InRam 1 by decide))

/-- MOVW YA,$F4 -/
theorem instr_FFF3 :
    instr h t (s.atPc 0xFFF3) =
      some ((s.mapRegs fun r => opMovwRead
        { r with address := 0xF4, data16 := word (h (t + 2) 0) (h (t + 3) 1) }).atPc 0xFFF5,
        t + 5) :=
  (instr_rom 0xFFF3 0xBA (by decide) (by decide) rfl).trans
    (cycles_opRead16YaDp opMovwRead (operand h (t + 1) s 0xFFF4 0xF4 (by decide) (by decide))
      (get_port 0 rfl) (get_port 1 rfl))

/-- MOV $F4,A -/
theorem instr_FFF5 :
    instr h t (s.atPc 0xFFF5) =
      some (({ s with
        regs := { s.regs with address := 0xF4 }
        portW := Function.update s.portW 0 s.regs.a }).atPc 0xFFF7, t + 4) :=
  (instr_rom 0xFFF5 0xC4 (by decide) (by decide) rfl).trans
    (cycles_opMovDp .a 0 (operand h (t + 1) s 0xFFF6 0xF4 (by decide) (by decide)) rfl)

/-- MOV A,Y -/
theorem instr_FFF7 :
    instr h t (s.atPc 0xFFF7) = some ((s.mapRegs (opMovRead .a .y)).atPc 0xFFF8, t + 2) :=
  (instr_rom 0xFFF7 0xDD (by decide) (by decide) rfl).trans (cycles_opImplied _)

/-- MOV X,A -/
theorem instr_FFF8 :
    instr h t (s.atPc 0xFFF8) = some ((s.mapRegs (opMovRead .x .a)).atPc 0xFFF9, t + 2) :=
  (instr_rom 0xFFF8 0x5D (by decide) (by decide) rfl).trans (cycles_opImplied _)

/-- BNE $FFD6 -/
theorem instr_FFF9 :
    instr h t (s.atPc 0xFFF9) =
      if s.regs.flag .z then
        some ((s.mapRegs fun r => { r with offset := 0xDB }).atPc 0xFFFB, t + 2)
      else
        some ((s.mapRegs fun r => { r with offset := 0xDB, address := 0xFFD6 }).atPc 0xFFD6,
          t + 4) :=
  (instr_rom 0xFFF9 0xD0 (by decide) (by decide) rfl).trans
    (cycles_branch .z 0xFFFA 0xDB
      (operand h (t + 1) s 0xFFFA 0xDB (by decide) (by decide)) (by decide))

/-- JMP [$0000+X] -/
theorem instr_FFFB (hx : s.regs.x = 0) :
    instr h t (s.atPc 0xFFFB) =
      some ((s.mapRegs fun r => { r with address := 0, offset := s.ram 0 }).atPc
        (((s.ram 1).setWidth 16 <<< 8) + (s.ram 0).setWidth 16), t + 6) := by
  have ha : (0 : BitVec 16) = (0x00 : Byte).setWidth 16 + ((0x00 : Byte).setWidth 16 <<< 8) +
      (s.atPc 0xFFFC).regs.x.setWidth 16 := by
    change 0 = _ + s.regs.x.setWidth 16
    rw [hx]
    rfl
  exact (instr_rom 0xFFFB 0x1F (by decide) (by decide) rfl).trans
    (cycles_opJmpAbsX (operand h (t + 1) s 0xFFFC 0x00 (by decide) (by decide))
      (operand_high h (t + 2) s 0xFFFC 0x00 (by decide) (by decide)) ha rfl (by decide) (by decide))

end Plain

end OpenSpc
