import OpenSpc.Temporaries

/-!
# What the operations see

Each operation of the instructions gives the same to whoever cannot tell the
registers apart: it reads its operands, flags that are set or not, and no
temporary that has not been written.
-/

namespace OpenSpc

open CpuRegs (Reg8 Temp Same ofBool)

/-- An operation on two bytes that reads nothing but these and what is seen. -/
def Op2.Sees (op : Op2) : Prop :=
  ∀ {ws : List Temp} {dest src : Reg8} {r r' : CpuRegs}, dest.Held ws → src.Held ws →
    Same ws r r' → Same ws (op dest src r) (op dest src r')

/-- An operation on one byte that does. -/
def Op1.Sees (op : Op1) : Prop :=
  ∀ {ws : List Temp} {var : Reg8} {r r' : CpuRegs}, var.Held ws → Same ws r r' →
    Same ws (op var r) (op var r')

/-! ## Bytes -/

theorem opOr_sees : Op2.Sees opOr := by
  intro ws dest src r r' hd hs h
  have hv : r'.get dest ||| r'.get src = r.get dest ||| r.get src := by rw [h.get hd, h.get hs]
  exact (h.put dest hv).storeFlagsNz hv

theorem opAnd_sees : Op2.Sees opAnd := by
  intro ws dest src r r' hd hs h
  have hv : r'.get dest &&& r'.get src = r.get dest &&& r.get src := by rw [h.get hd, h.get hs]
  exact (h.put dest hv).storeFlagsNz hv

theorem opEor_sees : Op2.Sees opEor := by
  intro ws dest src r r' hd hs h
  have hv : r'.get dest ^^^ r'.get src = r.get dest ^^^ r.get src := by rw [h.get hd, h.get hs]
  exact (h.put dest hv).storeFlagsNz hv

theorem opCmp_sees : Op2.Sees opCmp := by
  intro ws dest src r r' hd hs h
  unfold opCmp
  rw [h.get hd, h.get hs]
  exact (h.storeFlagC rfl).storeFlagsNz rfl

theorem opAdc_sees : Op2.Sees opAdc := by
  intro ws dest src r r' hd hs h
  unfold opAdc
  rw [h.get hd, h.get hs, h.carry]
  exact ((((h.storeFlagH rfl).storeFlagC rfl).storeFlagV rfl).storeFlagsNz rfl).put dest rfl

theorem opSbc_sees : Op2.Sees opSbc := by
  intro ws dest src r r' hd hs h
  unfold opSbc
  rw [h.get hd, h.get hs, h.borrow]
  exact ((((h.storeFlagH rfl).storeFlagC rfl).storeFlagV rfl).storeFlagsNz rfl).put dest rfl

theorem opMovReadNoflags_sees : Op2.Sees opMovReadNoflags := by
  intro ws dest src r r' _ hs h
  exact h.put dest (h.get hs)

theorem opMovRead_sees : Op2.Sees opMovRead := by
  intro ws dest src r r' _ hs h
  exact (h.put dest (h.get hs)).storeFlagsNz (h.get hs)

theorem opAsl_sees : Op1.Sees opAsl := by
  intro ws var r r' hv h
  unfold opAsl
  rw [h.get hv]
  exact ((h.storeFlagC rfl).put var rfl).storeFlagsNz rfl

theorem opRol_sees : Op1.Sees opRol := by
  intro ws var r r' hv h
  unfold opRol
  rw [h.get hv, h.flag]
  exact ((h.storeFlagC rfl).put var rfl).storeFlagsNz rfl

theorem opLsr_sees : Op1.Sees opLsr := by
  intro ws var r r' hv h
  unfold opLsr
  rw [h.get hv]
  exact ((h.storeFlagC rfl).put var rfl).storeFlagsNz rfl

theorem opRor_sees : Op1.Sees opRor := by
  intro ws var r r' hv h
  unfold opRor
  rw [h.get hv, h.flag]
  exact ((h.storeFlagC rfl).put var rfl).storeFlagsNz rfl

theorem opDec_sees : Op1.Sees opDec := by
  intro ws var r r' hv h
  unfold opDec
  rw [h.get hv]
  exact (h.put var rfl).storeFlagsNz rfl

theorem opInc_sees : Op1.Sees opInc := by
  intro ws var r r' hv h
  unfold opInc
  rw [h.get hv]
  exact (h.put var rfl).storeFlagsNz rfl

theorem opSet1_sees (opcode : Byte) : Op1.Sees (opSet1 opcode) := by
  intro ws var r r' hv h
  unfold opSet1
  rw [h.get hv]
  exact h.put var rfl

theorem opClr1_sees (opcode : Byte) : Op1.Sees (opClr1 opcode) := by
  intro ws var r r' hv h
  unfold opClr1
  rw [h.get hv]
  exact h.put var rfl

/-! ## Words, and decimal adjustment -/

section Words

variable {ws : List Temp} {r r' : CpuRegs}

theorem opAddw_sees (h : Same ws r r') (hw : .data16 ∈ ws) : Same ws (opAddw r) (opAddw r') := by
  unfold opAddw
  rw [h.ya, h.data16 hw]
  exact (((((h.storeFlagH rfl).storeFlagC rfl).storeFlagV rfl).storeFlagN rfl).storeFlagZ
    rfl).setYa rfl

theorem opSubw_sees (h : Same ws r r') (hw : .data16 ∈ ws) : Same ws (opSubw r) (opSubw r') := by
  unfold opSubw
  rw [h.ya, h.data16 hw]
  exact (((((h.storeFlagH rfl).storeFlagC rfl).storeFlagV rfl).storeFlagN rfl).storeFlagZ
    rfl).setYa rfl

theorem opMovwRead_sees (h : Same ws r r') (hw : .data16 ∈ ws) :
    Same ws (opMovwRead r) (opMovwRead r') := by
  have hset := h.setYa (h.data16 hw)
  unfold opMovwRead
  dsimp only
  rw [hset.ya]
  exact (hset.storeFlagN rfl).storeFlagZ rfl

theorem opCmpw_sees (h : Same ws r r') (hw : .data16 ∈ ws) : Same ws (opCmpw r) (opCmpw r') := by
  unfold opCmpw
  rw [h.ya, h.data16 hw]
  exact ((h.storeFlagC rfl).storeFlagN rfl).storeFlagZ rfl

theorem opDecw_sees (h : Same ws r r') (hw : .data16 ∈ ws) : Same ws (opDecw r) (opDecw r') := by
  have hv : r'.data16 - 1 = r.data16 - 1 := by rw [h.data16 hw]
  have hset := (h.setTemp .data16 hv).mono fun t ht => List.mem_cons_of_mem _ ht
  exact (hset.storeFlagN (congrArg (BitVec.extractLsb' 8 8) hv)).storeFlagZ
    (congrArg (fun w : BitVec 16 => ofBool (w ≠ 0)) hv)

theorem opIncw_sees (h : Same ws r r') (hw : .data16 ∈ ws) : Same ws (opIncw r) (opIncw r') := by
  have hv : r'.data16 + 1 = r.data16 + 1 := by rw [h.data16 hw]
  have hset := (h.setTemp .data16 hv).mono fun t ht => List.mem_cons_of_mem _ ht
  exact (hset.storeFlagN (congrArg (BitVec.extractLsb' 8 8) hv)).storeFlagZ
    (congrArg (fun w : BitVec 16 => ofBool (w ≠ 0)) hv)

theorem opMul_sees (h : Same ws r r') : Same ws (opMul r) (opMul r') := by
  have hv : r'.y.setWidth 16 * r'.a.setWidth 16 = r.y.setWidth 16 * r.a.setWidth 16 := by
    rw [h.a, h.y]
  have hset := h.setYa hv
  exact hset.storeFlagsNz hset.y

theorem opDiv_sees (h : Same ws r r') : Same ws (opDiv r) (opDiv r') := by
  unfold opDiv
  dsimp only
  rw [h.x, h.y, h.ya]
  generalize divLoop _ _ _ = yva
  have hhalf := Same.ite (p := r.x &&& 0xF ≤ r.y &&& 0xF) Iff.rfl (h.setFlagSpc .h)
    (h.clrFlagSpc .h)
  have hover := Same.ite (p := yva &&& 0x100 ≠ 0) Iff.rfl (hhalf.setFlagSpc .v)
    (hhalf.clrFlagSpc .v)
  have hset := hover.setYa (w := ((((yva >>> 9) &&& 0xFF) <<< 8) + (yva &&& 0xFF)).setWidth 16) rfl
  exact hset.storeFlagsNz (by rw [hset.ya])

theorem daaLow_sees (h : Same ws r r') : Same (.data :: ws) (daaLow r) (daaLow r') := by
  have ha : r'.a + 6 = r.a + 6 := by rw [h.a]
  have hset := h.setTemp .data h.a
  have hadd := hset.put .a ha
  have hhalf := h.flag .h
  refine Same.ite ?_ (Same.ite ?_ (hadd.setFlagSpc .c) hadd) hset
  · change (r'.a &&& 0x0F > 9 ∨ r'.flag .h = true) ↔ _
    rw [h.a, hhalf]
    rfl
  · change r'.a + 6 < 6 ↔ r.a + 6 < 6
    rw [ha]

theorem daaHigh_sees (h : Same ws r r') (hw : .data ∈ ws) : Same ws (daaHigh r) (daaHigh r') := by
  have ha : r'.a + 0x60 = r.a + 0x60 := by rw [h.a]
  have hcond : (r'.data > 0x99 ∨ r'.flag .c = true) ↔ (r.data > 0x99 ∨ r.flag .c = true) := by
    rw [h.data hw, h.flag]
  have hset := Same.ite hcond ((h.put .a ha).setFlagSpc .c) h
  exact hset.storeFlagsNz hset.a

theorem dasLow_sees (h : Same ws r r') : Same (.data :: ws) (dasLow r) (dasLow r') := by
  have ha : r'.a - 6 = r.a - 6 := by rw [h.a]
  have hset := h.setTemp .data h.a
  have hhalf := h.flag .h
  refine Same.ite ?_ (hset.put .a ha) hset
  change (r'.a &&& 0x0F > 9 ∨ (!r'.flag .h) = true) ↔ _
  rw [h.a, hhalf]
  rfl

theorem dasHigh_sees (h : Same ws r r') (hw : .data ∈ ws) : Same ws (dasHigh r) (dasHigh r') := by
  have ha : r'.a - 0x60 = r.a - 0x60 := by rw [h.a]
  have hcond : (r'.data > 0x99 ∨ (!r'.flag .c) = true) ↔ (r.data > 0x99 ∨ (!r.flag .c) = true) := by
    rw [h.data hw, h.flag]
  have hset := Same.ite hcond ((h.put .a ha).clrFlagSpc .c) h
  exact hset.storeFlagsNz hset.a

end Words

end OpenSpc
