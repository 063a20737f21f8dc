import Mathlib.Data.BitVec
import OpenSpc.CpuOps
import OpenSpc.DigitChain

/-!
# Long arithmetic

The arithmetic of a byte leaves a carry, and programs chain bytes by it: binary
sums and differences, decimal ones with an adjustment behind every byte, and
shifts.  Whatever the number of bytes, the chain computes on the whole number.
-/

namespace OpenSpc

open CpuRegs (Reg8 Flag ofBool)
open DigitChain (worth run_up run_down run_forall worth_map_add worth_map_mul)
open TwoRuns (run)

/-! ## One byte -/

namespace CpuRegs

/-- Writing a register leaves the flags. -/
@[simp] theorem flag_put (r : CpuRegs) (dest : Reg8) (v : Byte) (f : Flag) :
    (r.put dest v).flag f = r.flag f := by
  cases dest <;> cases f <;> rfl

/-- A bit that is tested. -/
theorem ofBool_ne_zero (b : Bool) : decide (ofBool b ≠ 0) = b := by
  cases b <;> rfl

/-- The carry as a number. -/
theorem toNat_carry (r : CpuRegs) : r.carry.toNat = (r.flag .c).toNat := by
  unfold carry
  cases r.flag .c <;> rfl

/-- The borrow is the complement of C. -/
theorem toNat_borrow (r : CpuRegs) : r.borrow.toNat = 1 - (r.flag .c).toNat := by
  unfold borrow
  cases r.flag .c <;> rfl

end CpuRegs

/-- The low digit of a byte. -/
theorem toNat_lowNybble (x : BitVec 32) : (x &&& 0x0F).toNat = x.toNat % 16 := by
  rw [BitVec.toNat_and]
  exact Nat.and_two_pow_sub_one_eq_mod x.toNat 4

section Byte

variable (dest src : Reg8) (r : CpuRegs)

/-- The sum that ADC leaves. -/
theorem opAdc_get :
    ((opAdc dest src r).get dest).toNat =
      ((r.get dest).toNat + (r.get src).toNat + (r.flag .c).toNat) % 256 := by
  have hd := (r.get dest).isLt
  have hs := (r.get src).isLt
  have hc := Bool.toNat_le (r.flag .c)
  unfold opAdc
  dsimp only
  rw [CpuRegs.get_put, BitVec.toNat_setWidth, BitVec.toNat_add, BitVec.toNat_add,
    CpuRegs.toNat_carry, BitVec.toNat_setWidth, BitVec.toNat_setWidth]
  omega

/-- The carry that ADC leaves. -/
theorem opAdc_c :
    (opAdc dest src r).flag .c =
      decide (256 ≤ (r.get dest).toNat + (r.get src).toNat + (r.flag .c).toNat) := by
  have hd := (r.get dest).isLt
  have hs := (r.get src).isLt
  have hc := Bool.toNat_le (r.flag .c)
  unfold opAdc
  rw [CpuRegs.flag_put]
  change decide (ofBool _ ≠ 0) = _
  rw [CpuRegs.ofBool_ne_zero, decide_eq_decide, gt_iff_lt, BitVec.lt_def, BitVec.toNat_add,
    BitVec.toNat_add, CpuRegs.toNat_carry, BitVec.toNat_setWidth, BitVec.toNat_setWidth]
  change 255 < _ ↔ _
  omega

/-- The carry between the digits of a sum. -/
theorem opAdc_h :
    (opAdc dest src r).flag .h =
      decide (16 ≤ (r.get dest).toNat % 16 + (r.get src).toNat % 16 + (r.flag .c).toNat) := by
  have hd := (r.get dest).isLt
  have hs := (r.get src).isLt
  have hc := Bool.toNat_le (r.flag .c)
  unfold opAdc
  rw [CpuRegs.flag_put]
  change decide (ofBool _ ≠ 0) = _
  rw [CpuRegs.ofBool_ne_zero, decide_eq_decide, gt_iff_lt, BitVec.lt_def, BitVec.toNat_add,
    BitVec.toNat_add, CpuRegs.toNat_carry, toNat_lowNybble, toNat_lowNybble, BitVec.toNat_setWidth,
    BitVec.toNat_setWidth]
  change 15 < _ ↔ _
  omega

/-- The difference that SBC leaves. -/
theorem opSbc_get :
    ((opSbc dest src r).get dest).toNat =
      ((r.get dest).toNat + 255 - (r.get src).toNat + (r.flag .c).toNat) % 256 := by
  have hd := (r.get dest).isLt
  have hs := (r.get src).isLt
  have hc := Bool.toNat_le (r.flag .c)
  unfold opSbc
  dsimp only
  rw [CpuRegs.get_put, BitVec.toNat_setWidth, BitVec.toNat_sub, BitVec.toNat_sub,
    CpuRegs.toNat_borrow, BitVec.toNat_setWidth, BitVec.toNat_setWidth]
  omega

/-- The complement of the borrow that SBC leaves. -/
theorem opSbc_c :
    (opSbc dest src r).flag .c =
      decide ((r.get src).toNat + (1 - (r.flag .c).toNat) ≤ (r.get dest).toNat) := by
  have hd := (r.get dest).isLt
  have hs := (r.get src).isLt
  have hc := Bool.toNat_le (r.flag .c)
  unfold opSbc
  rw [CpuRegs.flag_put]
  change decide (ofBool _ ≠ 0) = _
  rw [CpuRegs.ofBool_ne_zero, decide_eq_decide, BitVec.le_def, BitVec.toNat_sub, BitVec.toNat_sub,
    CpuRegs.toNat_borrow, BitVec.toNat_setWidth, BitVec.toNat_setWidth]
  change _ ≤ 255 ↔ _
  omega

/-- The complement of the borrow between the digits of a difference. -/
theorem opSbc_h :
    (opSbc dest src r).flag .h =
      decide ((r.get src).toNat % 16 + (1 - (r.flag .c).toNat) ≤ (r.get dest).toNat % 16) := by
  have hd := (r.get dest).isLt
  have hs := (r.get src).isLt
  have hc := Bool.toNat_le (r.flag .c)
  unfold opSbc
  rw [CpuRegs.flag_put]
  change decide (ofBool _ ≠ 0) = _
  rw [CpuRegs.ofBool_ne_zero, decide_eq_decide, gt_iff_lt, BitVec.lt_def, BitVec.toNat_sub,
    BitVec.toNat_sub, CpuRegs.toNat_borrow, toNat_lowNybble, toNat_lowNybble, BitVec.toNat_setWidth,
    BitVec.toNat_setWidth]
  change ¬ 15 < _ ↔ _
  omega

end Byte

/-! ## Chains -/

/-- The carry of a chain. -/
def carryOf (r : CpuRegs) : ℤ := (r.flag .c).toNat

/-- MOV A,#x, an operation on A and #y, and the byte to be stored. -/
def chainByte (op : CpuRegs → CpuRegs) (r : CpuRegs) (p : Byte × Byte) : CpuRegs × Byte :=
  let r := opMovRead .a .data { r with data := p.1 }
  let r := op { r with data := p.2 }
  (r, r.a)

/-- Operands of a chain as numbers. -/
def operand (f : Byte × Byte → Byte) (digit : Byte → ℤ) (base : ℤ) (l : List (Byte × Byte)) : ℤ :=
  worth base (l.map fun p => digit (f p))

/-- A byte as a digit. -/
def binary (b : Byte) : ℤ := b.toNat

/-! ### Binary -/

/-- Sums: ADC adds the whole numbers and the carry it finds, and leaves the carry
of the sum. -/
theorem adc_chain (r : CpuRegs) (l : List (Byte × Byte)) :
    let out := run (chainByte (opAdc .a .data)) r l
    worth 256 (out.2.map binary) + 256 ^ l.length * carryOf out.1 =
      operand Prod.fst binary 256 l + operand Prod.snd binary 256 l + carryOf r := by
  unfold operand
  rw [← worth_map_add]
  apply run_up
  rintro ⟨x, y⟩ - r
  have hget := opAdc_get .a .data { opMovRead .a .data { r with data := x } with data := y }
  have hc := opAdc_c .a .data { opMovRead .a .data { r with data := x } with data := y }
  change BitVec.toNat (chainByte (opAdc .a .data) r (x, y)).2 =
    (x.toNat + y.toNat + (r.flag .c).toNat) % 256 at hget
  change (chainByte (opAdc .a .data) r (x, y)).1.flag .c =
    decide (256 ≤ x.toNat + y.toNat + (r.flag .c).toNat) at hc
  have hx := x.isLt
  have hy := y.isLt
  have hflag := Bool.toNat_le (r.flag .c)
  unfold binary carryOf
  rw [hget, hc]
  dsimp only
  by_cases hcarry : 256 ≤ x.toNat + y.toNat + (r.flag .c).toNat
  · rw [decide_eq_true hcarry, Bool.toNat_true]
    omega
  · rw [decide_eq_false hcarry, Bool.toNat_false]
    omega

/-- Differences: SBC takes the second number and the borrow it finds from the
first, and leaves the borrow of the difference, which counts as a carry of -1. -/
theorem sbc_chain (r : CpuRegs) (l : List (Byte × Byte)) :
    let out := run (chainByte (opSbc .a .data)) r l
    worth 256 (out.2.map binary) - 256 ^ l.length * (1 - carryOf out.1) =
      operand Prod.fst binary 256 l - operand Prod.snd binary 256 l - (1 - carryOf r) := by
  have hstep : ∀ p ∈ l, ∀ r, binary (chainByte (opSbc .a .data) r p).2 +
      256 * (carryOf (chainByte (opSbc .a .data) r p).1 - 1) =
        binary p.1 + -1 * binary p.2 + (carryOf r - 1) := by
    rintro ⟨x, y⟩ - r
    have hget := opSbc_get .a .data { opMovRead .a .data { r with data := x } with data := y }
    have hc := opSbc_c .a .data { opMovRead .a .data { r with data := x } with data := y }
    change BitVec.toNat (chainByte (opSbc .a .data) r (x, y)).2 =
      (x.toNat + 255 - y.toNat + (r.flag .c).toNat) % 256 at hget
    change (chainByte (opSbc .a .data) r (x, y)).1.flag .c =
      decide (y.toNat + (1 - (r.flag .c).toNat) ≤ x.toNat) at hc
    have hx := x.isLt
    have hy := y.isLt
    have hflag := Bool.toNat_le (r.flag .c)
    unfold binary carryOf
    rw [hget, hc]
    dsimp only
    by_cases hcarry : y.toNat + (1 - (r.flag .c).toNat) ≤ x.toNat
    · rw [decide_eq_true hcarry, Bool.toNat_true]
      omega
    · rw [decide_eq_false hcarry, Bool.toNat_false]
      omega
  have hrun := run_up (c := fun r => carryOf r - 1) (d := binary) 256 l hstep r
  unfold operand
  rw [worth_map_add, worth_map_mul] at hrun
  linear_combination hrun

/-- **Binary numbers of any length.**  Chains of ADC and of SBC from the lowest
byte on add and subtract whole numbers, carry and borrow included. -/
theorem binary_chains (r : CpuRegs) (l : List (Byte × Byte)) :
    (let out := run (chainByte (opAdc .a .data)) r l
     worth 256 (out.2.map binary) + 256 ^ l.length * carryOf out.1 =
      operand Prod.fst binary 256 l + operand Prod.snd binary 256 l + carryOf r) ∧
    (let out := run (chainByte (opSbc .a .data)) r l
     worth 256 (out.2.map binary) - 256 ^ l.length * (1 - carryOf out.1) =
      operand Prod.fst binary 256 l - operand Prod.snd binary 256 l - (1 - carryOf r)) :=
  ⟨adc_chain r l, sbc_chain r l⟩

/-! ### Decimal -/

/-- Two decimal digits. -/
def Bcd (b : Byte) : Prop := b.toNat % 16 ≤ 9 ∧ b.toNat / 16 ≤ 9

/-- The number they stand for. -/
def decimal (b : Byte) : ℤ := (10 * (b.toNat / 16) + b.toNat % 16 : Nat)

/-- The test for a low digit past 9. -/
theorem lowDigit (b : Byte) : b &&& 0x0F > 9 ↔ 9 < b.toNat % 16 := by
  have hlow : (b &&& 0x0F).toNat = b.toNat % 16 := by
    rw [BitVec.toNat_and]
    exact Nat.and_two_pow_sub_one_eq_mod b.toNat 4
  rw [gt_iff_lt, BitVec.lt_def, hlow]
  rfl

/-- Cycle 2 of DAA on numbers. -/
theorem daaLow_spec (r : CpuRegs) :
    (daaLow r).data = r.a ∧
      if 9 < r.a.toNat % 16 ∨ r.flag .h = true then
        (daaLow r).a.toNat = (r.a.toNat + 6) % 256 ∧
          ((daaLow r).flag .c = true ↔ r.flag .c = true ∨ 250 ≤ r.a.toNat)
      else (daaLow r).a = r.a ∧ (daaLow r).flag .c = r.flag .c := by
  have ha := r.a.isLt
  have hsum : (r.a + 6).toNat = (r.a.toNat + 6) % 256 := BitVec.toNat_add _ _
  have hwrap : r.a + 6 < 6 ↔ 250 ≤ r.a.toNat := by
    rw [BitVec.lt_def, hsum]
    change _ < 6 ↔ _
    omega
  by_cases hlow : 9 < r.a.toNat % 16 ∨ r.flag .h = true
  · have hcond : r.a &&& 0x0F > 9 ∨ r.flag .h = true := hlow.imp_left (lowDigit _).mpr
    have hdaa : daaLow r = if r.a + 6 < 6 then
        CpuRegs.setFlagSpc .c { r with data := r.a, a := r.a + 6 }
      else { r with data := r.a, a := r.a + 6 } := if_pos hcond
    rw [if_pos hlow, hdaa]
    by_cases hhigh : 250 ≤ r.a.toNat
    · rw [if_pos (hwrap.mpr hhigh)]
      exact ⟨rfl, hsum, iff_of_true rfl (Or.inr hhigh)⟩
    · rw [if_neg fun h => hhigh (hwrap.mp h)]
      exact ⟨rfl, hsum, (or_iff_left hhigh).symm⟩
  · have hcond : ¬ (r.a &&& 0x0F > 9 ∨ r.flag .h = true) := fun h =>
      hlow (h.imp_left (lowDigit _).mp)
    have hdaa : daaLow r = { r with data := r.a } := if_neg hcond
    rw [if_neg hlow, hdaa]
    exact ⟨rfl, rfl, rfl⟩

/-- Cycle 3 of DAA on numbers. -/
theorem daaHigh_spec (r : CpuRegs) :
    if 0x99 < r.data.toNat ∨ r.flag .c = true then
      (daaHigh r).a.toNat = (r.a.toNat + 0x60) % 256 ∧ (daaHigh r).flag .c = true
    else (daaHigh r).a = r.a ∧ (daaHigh r).flag .c = false := by
  have hsum : (r.a + 0x60).toNat = (r.a.toNat + 0x60) % 256 := BitVec.toNat_add _ _
  have hcond : (r.data > 0x99 ∨ r.flag .c = true) ↔ 0x99 < r.data.toNat ∨ r.flag .c = true :=
    or_congr_left Iff.rfl
  unfold daaHigh
  by_cases hhigh : 0x99 < r.data.toNat ∨ r.flag .c = true
  · rw [if_pos hhigh, if_pos (hcond.mpr hhigh)]
    exact ⟨hsum, rfl⟩
  · rw [if_neg hhigh, if_neg fun h => hhigh (hcond.mp h)]
    exact ⟨rfl, Bool.eq_false_of_not_eq_true fun h => hhigh (Or.inr h)⟩

/-- **What DAA makes of a sum**, A, H and C being what ADC leaves of two bytes
and a carry.  The cases are whether the low digit, and then the high one, has to
be adjusted. -/
theorem daa_sum {r : CpuRegs} {x y : Byte} {c : Nat} (hx : Bcd x) (hy : Bcd y) (hc : c ≤ 1)
    (ha : r.a.toNat = (x.toNat + y.toNat + c) % 256)
    (hh : r.flag .h = decide (16 ≤ x.toNat % 16 + y.toNat % 16 + c))
    (hcarry : r.flag .c = decide (256 ≤ x.toNat + y.toNat + c)) :
    Bcd (daaHigh (daaLow r)).a ∧
      decimal (daaHigh (daaLow r)).a + 100 * carryOf (daaHigh (daaLow r)) =
        decimal x + decimal y + c := by
  obtain ⟨hdata, hlow⟩ := daaLow_spec r
  have hhigh := daaHigh_spec (daaLow r)
  rw [hdata] at hhigh
  unfold Bcd decimal carryOf at *
  split at hlow <;> rename_i hadjust <;> rw [hh, decide_eq_true_iff] at hadjust
  · obtain ⟨hlowA, hlowC⟩ := hlow
    rw [hcarry, decide_eq_true_iff] at hlowC
    split at hhigh <;> rename_i hadjust' <;> rw [hlowC] at hadjust'
    · rw [hhigh.1, hhigh.2, hlowA, Bool.toNat_true]
      omega
    · rw [hhigh.1, hhigh.2, hlowA, Bool.toNat_false]
      omega
  · obtain ⟨hlowA, hlowC⟩ := hlow
    rw [hcarry] at hlowC
    split at hhigh <;> rename_i hadjust' <;> rw [hlowC, decide_eq_true_iff] at hadjust'
    · rw [hhigh.1, hhigh.2, hlowA, Bool.toNat_true]
      omega
    · rw [hhigh.1, hhigh.2, hlowA, Bool.toNat_false]
      omega

/-- Cycle 2 of DAS on numbers. -/
theorem dasLow_spec (r : CpuRegs) :
    (dasLow r).data = r.a ∧ (dasLow r).flag .c = r.flag .c ∧
      if 9 < r.a.toNat % 16 ∨ r.flag .h = false then (dasLow r).a.toNat = (r.a.toNat + 250) % 256
      else (dasLow r).a = r.a := by
  have hdiff : (r.a - 6).toNat = (r.a.toNat + 250) % 256 := by
    rw [BitVec.toNat_sub, Nat.add_comm]
    rfl
  by_cases hlow : 9 < r.a.toNat % 16 ∨ r.flag .h = false
  · have hcond : r.a &&& 0x0F > 9 ∨ (!r.flag .h) = true :=
      hlow.imp (lowDigit _).mpr fun h => by rw [h]; rfl
    have hdas : dasLow r = { r with data := r.a, a := r.a - 6 } := if_pos hcond
    rw [if_pos hlow, hdas]
    exact ⟨rfl, rfl, hdiff⟩
  · have hcond : ¬ (r.a &&& 0x0F > 9 ∨ (!r.flag .h) = true) := fun h =>
      hlow (h.imp (lowDigit _).mp fun h => (Bool.not_eq_true' _).mp h)
    have hdas : dasLow r = { r with data := r.a } := if_neg hcond
    rw [if_neg hlow, hdas]
    exact ⟨rfl, rfl, rfl⟩

/-- Cycle 3 of DAS on numbers. -/
theorem dasHigh_spec (r : CpuRegs) :
    if 0x99 < r.data.toNat ∨ r.flag .c = false then
      (dasHigh r).a.toNat = (r.a.toNat + 160) % 256 ∧ (dasHigh r).flag .c = false
    else (dasHigh r).a = r.a ∧ (dasHigh r).flag .c = true := by
  have hdiff : (r.a - 0x60).toNat = (r.a.toNat + 160) % 256 := by
    rw [BitVec.toNat_sub, Nat.add_comm]
    rfl
  have hcond : (r.data > 0x99 ∨ (!r.flag .c) = true) ↔ 0x99 < r.data.toNat ∨ r.flag .c = false :=
    or_congr Iff.rfl (by rw [Bool.not_eq_true'])
  unfold dasHigh
  by_cases hhigh : 0x99 < r.data.toNat ∨ r.flag .c = false
  · rw [if_pos hhigh, if_pos (hcond.mpr hhigh)]
    exact ⟨hdiff, rfl⟩
  · rw [if_neg hhigh, if_neg fun h => hhigh (hcond.mp h)]
    exact ⟨rfl, Bool.eq_true_of_not_eq_false fun h => hhigh (Or.inr h)⟩

/-- **What DAS makes of a difference**, A, H and C being what SBC leaves of two
bytes and a carry. -/
theorem das_diff {r : CpuRegs} {x y : Byte} {c : Nat} (hx : Bcd x) (hy : Bcd y) (hc : c ≤ 1)
    (ha : r.a.toNat = (x.toNat + 255 - y.toNat + c) % 256)
    (hh : r.flag .h = decide (y.toNat % 16 + (1 - c) ≤ x.toNat % 16))
    (hcarry : r.flag .c = decide (y.toNat + (1 - c) ≤ x.toNat)) :
    Bcd (dasHigh (dasLow r)).a ∧
      decimal (dasHigh (dasLow r)).a + 100 * (carryOf (dasHigh (dasLow r)) - 1) =
        decimal x + -1 * decimal y + ((c : ℤ) - 1) := by
  obtain ⟨hdata, hcarry', hlow⟩ := dasLow_spec r
  have hhigh := dasHigh_spec (dasLow r)
  rw [hdata] at hhigh
  unfold Bcd decimal carryOf at *
  split at hlow <;> rename_i hadjust <;> rw [hh, decide_eq_false_iff_not] at hadjust <;>
    split at hhigh <;> rename_i hadjust' <;>
    rw [hcarry', hcarry, decide_eq_false_iff_not] at hadjust'
  · rw [hhigh.1, hhigh.2, hlow, Bool.toNat_false]
    omega
  · rw [hhigh.1, hhigh.2, hlow, Bool.toNat_true]
    omega
  · rw [hhigh.1, hhigh.2, hlow, Bool.toNat_false]
    omega
  · rw [hhigh.1, hhigh.2, hlow, Bool.toNat_true]
    omega

/-- DAA behind an addition. -/
def adcDaa (r : CpuRegs) : CpuRegs := daaHigh (daaLow (opAdc .a .data r))

/-- DAS behind a subtraction. -/
def sbcDas (r : CpuRegs) : CpuRegs := dasHigh (dasLow (opSbc .a .data r))

/-- Both operands consist of decimal digits. -/
def Decimals (l : List (Byte × Byte)) : Prop := ∀ p ∈ l, Bcd p.1 ∧ Bcd p.2

instance (b : Byte) : Decidable (Bcd b) := inferInstanceAs (Decidable (_ ∧ _))

instance (l : List (Byte × Byte)) : Decidable (Decimals l) :=
  List.decidableBAll (fun p : Byte × Byte => Bcd p.1 ∧ Bcd p.2) l

/-- Decimal sums. -/
theorem adcDaa_chain (r : CpuRegs) {l : List (Byte × Byte)} (hl : Decimals l) :
    let out := run (chainByte adcDaa) r l
    (∀ b ∈ out.2, Bcd b) ∧
      worth 100 (out.2.map decimal) + 100 ^ l.length * carryOf out.1 =
        operand Prod.fst decimal 100 l + operand Prod.snd decimal 100 l + carryOf r := by
  have hstep : ∀ p ∈ l, ∀ r, Bcd (chainByte adcDaa r p).2 ∧
      decimal (chainByte adcDaa r p).2 + 100 * carryOf (chainByte adcDaa r p).1 =
        decimal p.1 + decimal p.2 + carryOf r := by
    rintro ⟨x, y⟩ hp r
    obtain ⟨hx, hy⟩ := hl _ hp
    have hget := opAdc_get .a .data { opMovRead .a .data { r with data := x } with data := y }
    have hc := opAdc_c .a .data { opMovRead .a .data { r with data := x } with data := y }
    have hh := opAdc_h .a .data { opMovRead .a .data { r with data := x } with data := y }
    exact daa_sum hx hy (Bool.toNat_le _) hget hh hc
  refine ⟨run_forall l (fun p hp r => (hstep p hp r).1) r, ?_⟩
  unfold operand
  rw [← worth_map_add]
  exact run_up 100 l (fun p hp r => (hstep p hp r).2) r

/-- Decimal differences. -/
theorem sbcDas_chain (r : CpuRegs) {l : List (Byte × Byte)} (hl : Decimals l) :
    let out := run (chainByte sbcDas) r l
    (∀ b ∈ out.2, Bcd b) ∧
      worth 100 (out.2.map decimal) - 100 ^ l.length * (1 - carryOf out.1) =
        operand Prod.fst decimal 100 l - operand Prod.snd decimal 100 l - (1 - carryOf r) := by
  have hstep : ∀ p ∈ l, ∀ r, Bcd (chainByte sbcDas r p).2 ∧
      decimal (chainByte sbcDas r p).2 + 100 * (carryOf (chainByte sbcDas r p).1 - 1) =
        decimal p.1 + -1 * decimal p.2 + (carryOf r - 1) := by
    rintro ⟨x, y⟩ hp r
    obtain ⟨hx, hy⟩ := hl _ hp
    have hget := opSbc_get .a .data { opMovRead .a .data { r with data := x } with data := y }
    have hc := opSbc_c .a .data { opMovRead .a .data { r with data := x } with data := y }
    have hh := opSbc_h .a .data { opMovRead .a .data { r with data := x } with data := y }
    exact das_diff hx hy (Bool.toNat_le _) hget hh hc
  refine ⟨run_forall l (fun p hp r => (hstep p hp r).1) r, ?_⟩
  have hrun := run_up (c := fun r => carryOf r - 1) (d := decimal) 100 l
    (fun p hp r => (hstep p hp r).2) r
  unfold operand
  rw [worth_map_add, worth_map_mul] at hrun
  linear_combination hrun

/-- **Decimal numbers of any length.**  Chains of ADC with DAA and of SBC with
DAS, on bytes of two decimal digits, give such bytes, and the decimal sum and
difference of the whole numbers. -/
theorem decimal_chains (r : CpuRegs) {l : List (Byte × Byte)} (hl : Decimals l) :
    (let out := run (chainByte adcDaa) r l
     (∀ b ∈ out.2, Bcd b) ∧
      worth 100 (out.2.map decimal) + 100 ^ l.length * carryOf out.1 =
        operand Prod.fst decimal 100 l + operand Prod.snd decimal 100 l + carryOf r) ∧
    (let out := run (chainByte sbcDas) r l
     (∀ b ∈ out.2, Bcd b) ∧
      worth 100 (out.2.map decimal) - 100 ^ l.length * (1 - carryOf out.1) =
        operand Prod.fst decimal 100 l - operand Prod.snd decimal 100 l - (1 - carryOf r)) :=
  ⟨adcDaa_chain r hl, sbcDas_chain r hl⟩

/-- 1995 and 2005, after the reset. -/
theorem resetSpc_decimal_chains :
    (let out := run (chainByte adcDaa) resetSpc.cpuRegs [(0x95, 0x05), (0x19, 0x20)]
     (∀ b ∈ out.2, Bcd b) ∧
      worth 100 (out.2.map decimal) + 100 ^ 2 * carryOf out.1 =
        operand Prod.fst decimal 100 [(0x95, 0x05), (0x19, 0x20)] +
          operand Prod.snd decimal 100 [(0x95, 0x05), (0x19, 0x20)] + carryOf resetSpc.cpuRegs) ∧
    (let out := run (chainByte sbcDas) resetSpc.cpuRegs [(0x95, 0x05), (0x19, 0x20)]
     (∀ b ∈ out.2, Bcd b) ∧
      worth 100 (out.2.map decimal) - 100 ^ 2 * (1 - carryOf out.1) =
        operand Prod.fst decimal 100 [(0x95, 0x05), (0x19, 0x20)] -
          operand Prod.snd decimal 100 [(0x95, 0x05), (0x19, 0x20)] -
            (1 - carryOf resetSpc.cpuRegs)) :=
  decimal_chains resetSpc.cpuRegs (l := [(0x95, 0x05), (0x19, 0x20)]) (by decide)

/-! ### Shifts -/

/-- MOV A,#x, a shift of A, and the byte to be stored. -/
def shiftByte (op : CpuRegs → CpuRegs) (r : CpuRegs) (x : Byte) : CpuRegs × Byte :=
  let r := op (opMovRead .a .data { r with data := x })
  (r, r.a)

/-- ROL doubles A and takes the carry in. -/
theorem opRol_spec (r : CpuRegs) :
    (opRol .a r).a.toNat + 256 * ((opRol .a r).flag .c).toNat =
      2 * r.a.toNat + (r.flag .c).toNat := by
  have hbyte : ∀ (x : Byte) (c : Bool),
      ((x <<< 1) + (if c then 1 else 0)).toNat + 256 * (decide (x &&& 0x80 ≠ 0)).toNat =
        2 * x.toNat + c.toNat := by decide
  exact hbyte r.a (r.flag .c)

/-- ROR halves A and puts the carry on top. -/
theorem opRor_spec (r : CpuRegs) :
    2 * (opRor .a r).a.toNat + ((opRor .a r).flag .c).toNat =
      r.a.toNat + 256 * (r.flag .c).toNat := by
  have hbyte : ∀ (x : Byte) (c : Bool),
      2 * ((x >>> 1) + (if c then 0x80 else 0)).toNat + (decide (x &&& 1 ≠ 0)).toNat =
        x.toNat + 256 * c.toNat := by decide
  exact hbyte r.a (r.flag .c)

/-- **Shifts of any length.**  ROL from the lowest byte up doubles a number, and
ROR from the highest byte down halves it; the carry goes in at one end and out
at the other. -/
theorem shift_chain (r : CpuRegs) (l : List Byte) :
    (let out := run (shiftByte (opRol .a)) r l
     worth 256 (out.2.map binary) + 256 ^ l.length * carryOf out.1 =
        2 * worth 256 (l.map binary) + carryOf r) ∧
    (let out := run (shiftByte (opRor .a)) r l
     2 * worth 256 (out.2.map binary).reverse + carryOf out.1 =
        worth 256 (l.map binary).reverse + 256 ^ l.length * carryOf r) := by
  constructor
  · rw [← worth_map_mul]
    apply run_up
    intro x _ r
    have hrol := opRol_spec (opMovRead .a .data { r with data := x })
    unfold binary carryOf
    exact_mod_cast hrol
  · apply run_down
    intro x _ r
    have hror := opRor_spec (opMovRead .a .data { r with data := x })
    unfold binary carryOf
    exact_mod_cast hror

end OpenSpc
