import OpenSpc.CpuOps

/-!
# The temporaries of an instruction

An instruction may be left between two of its cycles, so `_address`, `_data` and
the other temporaries are part of the context, and an instruction finds in them
what the one before it left there.  Two sets of registers are compared by what a
program can see of them, and by the temporaries that have been written since the
opcode was fetched.  How a flag is stored is not seen either, only whether it is
set.
-/

namespace OpenSpc

open ByteMask (bit)

namespace CpuRegs

/-- The temporaries. -/
inductive Temp where
  | address
  | address2
  | data16
  | data
  | data2
  | offset
  | psw
  deriving DecidableEq, Repr

/-- How many bits they have. -/
def Temp.width : Temp → Nat
  | .address | .address2 | .data16 => 16
  | .data | .data2 | .offset | .psw => 8

def temp (t : Temp) (r : CpuRegs) : BitVec t.width :=
  match t with
  | .address => r.address
  | .address2 => r.address2
  | .data16 => r.data16
  | .data => r.data
  | .data2 => r.data2
  | .offset => r.offset
  | .psw => r.psw

def setTemp (t : Temp) (v : BitVec t.width) (r : CpuRegs) : CpuRegs :=
  match t with
  | .address => { r with address := v }
  | .address2 => { r with address2 := v }
  | .data16 => { r with data16 := v }
  | .data => { r with data := v }
  | .data2 => { r with data2 := v }
  | .offset => { r with offset := v }
  | .psw => { r with psw := v }

@[simp] theorem temp_setTemp (t : Temp) (v : BitVec t.width) (r : CpuRegs) :
    (r.setTemp t v).temp t = v := by
  cases t <;> rfl

theorem temp_setTemp_of_ne {t u : Temp} (h : u ≠ t) (v : BitVec t.width) (r : CpuRegs) :
    (r.setTemp t v).temp u = r.temp u := by
  cases t <;> cases u <;> first | rfl | exact absurd rfl h

/-- The direct page that P selects. -/
def page (r : CpuRegs) : BitVec 16 := if r.flag .p then 0x0100 else 0

/-- Only the high byte of the direct page is ever set. -/
theorem low_page {r : CpuRegs} (hpage : r.directPage = r.page) : r.directPage.setWidth 8 = 0 := by
  rw [hpage]
  unfold page
  split <;> rfl

/-! ## The processor status word -/

/-- `SPC_FLAG_N` to `SPC_FLAG_C`. -/
def Flag.mask : Flag → Byte
  | .n => 0x80
  | .v => 0x40
  | .p => 0x20
  | .b => 0x10
  | .h => 0x08
  | .i => 0x04
  | .z => 0x02
  | .c => 0x01

/-- The processor status word with the given flags. -/
def pswOf (on : Flag → Bool) : Byte :=
  (if on .n then 0x80 else 0) + (if on .v then 0x40 else 0) + (if on .p then 0x20 else 0)
    + (if on .b then 0x10 else 0) + (if on .h then 0x08 else 0) + (if on .i then 0x04 else 0)
    + (if on .z then 0x02 else 0) + (if on .c then 0x01 else 0)

theorem pswOf_mask (on : Flag → Bool) (f : Flag) : decide (pswOf on &&& f.mask ≠ 0) = on f := by
  have hall : ∀ n v p b h i z c : Bool,
      let psw : Byte := (if n then 0x80 else 0) + (if v then 0x40 else 0) + (if p then 0x20 else 0)
        + (if b then 0x10 else 0) + (if h then 0x08 else 0) + (if i then 0x04 else 0)
        + (if z then 0x02 else 0) + (if c then 0x01 else 0)
      (decide (psw &&& 0x80 ≠ 0) = n ∧ decide (psw &&& 0x40 ≠ 0) = v ∧
        decide (psw &&& 0x20 ≠ 0) = p ∧ decide (psw &&& 0x10 ≠ 0) = b) ∧
      decide (psw &&& 0x08 ≠ 0) = h ∧ decide (psw &&& 0x04 ≠ 0) = i ∧
        decide (psw &&& 0x02 ≠ 0) = z ∧ decide (psw &&& 0x01 ≠ 0) = c := by
    decide +kernel
  obtain ⟨⟨hn, hv, hp, hb⟩, hh, hi, hz, hc⟩ :=
    hall (on .n) (on .v) (on .p) (on .b) (on .h) (on .i) (on .z) (on .c)
  cases f with
  | n => exact hn
  | v => exact hv
  | p => exact hp
  | b => exact hb
  | h => exact hh
  | i => exact hi
  | z => exact hz
  | c => exact hc

theorem spcSetupFlags_psw (r : CpuRegs) : r.spcSetupFlags.psw = pswOf (r.flag ·) := by
  have hn : ∀ v : Byte, v &&& 0x80 = if v &&& 0x80 ≠ 0 then 0x80 else 0 := by decide
  have hz : ∀ v : Byte, (v = 0) = (ofBool (v = 0) ≠ 0) := by decide
  unfold spcSetupFlags pswOf
  simp only [flag, decide_eq_true_iff]
  unfold flagStateSpc
  simp only [← hn, ← hz]

/-- The flags one by one. -/
theorem spcRestoreFlags_eq (r : CpuRegs) :
    r.spcRestoreFlags =
      { r with
        nFlag := r.psw
        vFlag := r.psw &&& 0x40
        pFlag := if bit r.psw 5 then 1 else 0
        directPage := (if bit r.psw 5 then 0x01#8 else 0x00#8) ++ r.directPage.setWidth 8
        bFlag := r.psw &&& 0x10
        hFlag := r.psw &&& 0x08
        iFlag := r.psw &&& 0x04
        zFlag := ~~~ r.psw &&& 0x02
        cFlag := r.psw &&& 0x01 } := by
  unfold spcRestoreFlags
  by_cases h : bit r.psw 5 = true <;> simp only [h] <;> rfl

/-- What `spc_restore_flags` makes of it. -/
theorem spcRestoreFlags_flag (r : CpuRegs) (f : Flag) :
    r.spcRestoreFlags.flag f = decide (r.psw &&& f.mask ≠ 0) := by
  have hz : ∀ v : Byte, decide (ofBool (~~~ v &&& 0x02 = 0) ≠ 0) = decide (v &&& 0x02 ≠ 0) := by
    decide
  have hp : ∀ v : Byte,
      decide ((if bit v 5 then 1 else 0 : Byte) ≠ 0) = decide (v &&& 0x20 ≠ 0) := by decide
  rw [spcRestoreFlags_eq]
  cases f with
  | z => exact hz r.psw
  | p => exact hp r.psw
  | _ => rfl

theorem spcRestoreFlags_page {r : CpuRegs} (hpage : r.directPage = r.page) :
    r.spcRestoreFlags.directPage = r.spcRestoreFlags.page := by
  unfold page
  rw [spcRestoreFlags_flag, spcRestoreFlags_eq]
  dsimp only
  rw [low_page hpage]
  generalize r.psw = v
  revert v
  decide

/-! ## What is seen -/

/-- Nobody can tell the registers apart who reads no temporaries but those in
`ws`.  The direct page is the one P selects. -/
structure Same (ws : List Temp) (r r' : CpuRegs) : Prop where
  pc : r'.pc = r.pc
  a : r'.a = r.a
  x : r'.x = r.x
  y : r'.y = r.y
  sp : r'.sp = r.sp
  flag : ∀ f, r'.flag f = r.flag f
  page : r.directPage = r.page
  page' : r'.directPage = r'.page
  temp : ∀ t ∈ ws, r'.temp t = r.temp t

/-- A byte that can be read. -/
def Reg8.Held (ws : List Temp) : Reg8 → Prop
  | .data => .data ∈ ws
  | .data2 => .data2 ∈ ws
  | _ => True

namespace Same

variable {ws : List Temp} {r r' : CpuRegs}

/-! ### Reading -/

theorem refl (hpage : r.directPage = r.page) : Same ws r r where
  pc := rfl
  a := rfl
  x := rfl
  y := rfl
  sp := rfl
  flag := fun _ => rfl
  page := hpage
  page' := hpage
  temp := fun _ _ => rfl

theorem mono {ws' : List Temp} (h : Same ws r r') (hws : ∀ t ∈ ws', t ∈ ws) : Same ws' r r' :=
  { h with temp := fun t ht => h.temp t (hws t ht) }

/-- The end of an instruction. -/
theorem forget (h : Same ws r r') : Same [] r r' := h.mono fun _ ht => absurd ht List.not_mem_nil

theorem directPage (h : Same ws r r') : r'.directPage = r.directPage := by
  have hp := h.flag .p
  rw [h.page, h.page']
  unfold CpuRegs.page
  rw [hp]

theorem ya (h : Same ws r r') : r'.ya = r.ya := by
  unfold CpuRegs.ya
  rw [h.a, h.y]

theorem address (h : Same ws r r') (hw : .address ∈ ws) : r'.address = r.address :=
  h.temp .address hw

theorem address2 (h : Same ws r r') (hw : .address2 ∈ ws) : r'.address2 = r.address2 :=
  h.temp .address2 hw

theorem data16 (h : Same ws r r') (hw : .data16 ∈ ws) : r'.data16 = r.data16 :=
  h.temp .data16 hw

theorem data (h : Same ws r r') (hw : .data ∈ ws) : r'.data = r.data := h.temp .data hw

theorem data2 (h : Same ws r r') (hw : .data2 ∈ ws) : r'.data2 = r.data2 := h.temp .data2 hw

theorem offset (h : Same ws r r') (hw : .offset ∈ ws) : r'.offset = r.offset := h.temp .offset hw

theorem psw (h : Same ws r r') (hw : .psw ∈ ws) : r'.psw = r.psw := h.temp .psw hw

theorem get (h : Same ws r r') {v : Reg8} (hv : v.Held ws) : r'.get v = r.get v := by
  cases v with
  | a => exact h.a
  | x => exact h.x
  | y => exact h.y
  | sp => exact h.sp
  | data => exact h.data hv
  | data2 => exact h.data2 hv

theorem carry (h : Same ws r r') : r'.carry = r.carry := by
  unfold CpuRegs.carry
  rw [h.flag]

theorem borrow (h : Same ws r r') : r'.borrow = r.borrow := by
  unfold CpuRegs.borrow
  rw [h.flag]

/-! ### Writing -/

/-- A temporary is written, and can be read from then on. -/
theorem setTemp (h : Same ws r r') (t : Temp) {v v' : BitVec t.width} (hv : v' = v) :
    Same (t :: ws) (r.setTemp t v) (r'.setTemp t v') := by
  have htemp : ∀ u ∈ t :: ws, (r'.setTemp t v').temp u = (r.setTemp t v).temp u := by
    intro u hu
    by_cases hut : u = t
    · subst hut
      simpa using hv
    · rw [temp_setTemp_of_ne hut, temp_setTemp_of_ne hut]
      exact h.temp u (List.mem_of_ne_of_mem hut hu)
  cases t <;> exact ⟨h.pc, h.a, h.x, h.y, h.sp, h.flag, h.page, h.page', htemp⟩

theorem setPc (h : Same ws r r') {w w' : BitVec 16} (hw : w' = w) :
    Same ws { r with pc := w } { r' with pc := w' } :=
  ⟨hw, h.a, h.x, h.y, h.sp, h.flag, h.page, h.page', h.temp⟩

/-- A byte that may be one of the temporaries. -/
theorem put (h : Same ws r r') (dest : Reg8) {v v' : Byte} (hv : v' = v) :
    Same ws (r.put dest v) (r'.put dest v') := by
  cases dest with
  | a => exact ⟨h.pc, hv, h.x, h.y, h.sp, h.flag, h.page, h.page', h.temp⟩
  | x => exact ⟨h.pc, h.a, hv, h.y, h.sp, h.flag, h.page, h.page', h.temp⟩
  | y => exact ⟨h.pc, h.a, h.x, hv, h.sp, h.flag, h.page, h.page', h.temp⟩
  | sp => exact ⟨h.pc, h.a, h.x, h.y, hv, h.flag, h.page, h.page', h.temp⟩
  | data => exact (h.setTemp .data hv).mono fun t ht => List.mem_cons_of_mem _ ht
  | data2 => exact (h.setTemp .data2 hv).mono fun t ht => List.mem_cons_of_mem _ ht

theorem setYa (h : Same ws r r') {w w' : BitVec 16} (hw : w' = w) :
    Same ws (r.setYa w) (r'.setYa w') := by
  rw [hw]
  exact ⟨h.pc, rfl, h.x, rfl, h.sp, h.flag, h.page, h.page', h.temp⟩

theorem ite {s s' : CpuRegs} {p p' : Prop} [Decidable p] [Decidable p'] (hp : p' ↔ p)
    (h : Same ws r r') (h' : Same ws s s') :
    Same ws (if p then r else s) (if p' then r' else s') := by
  by_cases hc : p
  · rw [if_pos hc, if_pos (hp.mpr hc)]
    exact h
  · rw [if_neg hc, if_neg fun hc' => hc (hp.mp hc')]
    exact h'

/-! ### Flags -/

theorem storeFlagN (h : Same ws r r') {v v' : Byte} (hv : v' = v) :
    Same ws (r.storeFlagN v) (r'.storeFlagN v') := by
  subst hv
  refine ⟨h.pc, h.a, h.x, h.y, h.sp, ?_, h.page, h.page', h.temp⟩
  intro f
  have hf := h.flag f
  cases f <;> first | rfl | exact hf

theorem storeFlagV (h : Same ws r r') {v v' : Byte} (hv : v' = v) :
    Same ws (r.storeFlagV v) (r'.storeFlagV v') := by
  subst hv
  refine ⟨h.pc, h.a, h.x, h.y, h.sp, ?_, h.page, h.page', h.temp⟩
  intro f
  have hf := h.flag f
  cases f <;> first | rfl | exact hf

theorem storeFlagH (h : Same ws r r') {v v' : Byte} (hv : v' = v) :
    Same ws (r.storeFlagH v) (r'.storeFlagH v') := by
  subst hv
  refine ⟨h.pc, h.a, h.x, h.y, h.sp, ?_, h.page, h.page', h.temp⟩
  intro f
  have hf := h.flag f
  cases f <;> first | rfl | exact hf

theorem storeFlagZ (h : Same ws r r') {v v' : Byte} (hv : v' = v) :
    Same ws (r.storeFlagZ v) (r'.storeFlagZ v') := by
  subst hv
  refine ⟨h.pc, h.a, h.x, h.y, h.sp, ?_, h.page, h.page', h.temp⟩
  intro f
  have hf := h.flag f
  cases f <;> first | rfl | exact hf

theorem storeFlagC (h : Same ws r r') {v v' : Byte} (hv : v' = v) :
    Same ws (r.storeFlagC v) (r'.storeFlagC v') := by
  subst hv
  refine ⟨h.pc, h.a, h.x, h.y, h.sp, ?_, h.page, h.page', h.temp⟩
  intro f
  have hf := h.flag f
  cases f <;> first | rfl | exact hf

theorem storeFlagsNz (h : Same ws r r') {v v' : Byte} (hv : v' = v) :
    Same ws (r.storeFlagsNz v) (r'.storeFlagsNz v') := (h.storeFlagN hv).storeFlagZ hv

theorem setFlagSpc (h : Same ws r r') (f : Flag) : Same ws (r.setFlagSpc f) (r'.setFlagSpc f) := by
  cases f with
  | p =>
      have hhigh {s : CpuRegs} (hs : s.directPage = s.page) :
          (s.setFlagSpc .p).directPage = (s.setFlagSpc .p).page := by
        change 0x01#8 ++ s.directPage.setWidth 8 = 0x0100#16
        rw [low_page hs]
        rfl
      refine ⟨h.pc, h.a, h.x, h.y, h.sp, ?_, hhigh h.page, hhigh h.page', ?_⟩
      · intro f
        have hf := h.flag f
        cases f <;> first | rfl | exact hf
      · intro t ht
        cases t <;> exact h.temp _ ht
  | _ =>
      refine ⟨h.pc, h.a, h.x, h.y, h.sp, ?_, h.page, h.page', h.temp⟩
      intro f
      have hf := h.flag f
      cases f <;> first | rfl | exact hf

theorem clrFlagSpc (h : Same ws r r') (f : Flag) : Same ws (r.clrFlagSpc f) (r'.clrFlagSpc f) := by
  cases f with
  | p =>
      have hhigh {s : CpuRegs} (hs : s.directPage = s.page) :
          (s.clrFlagSpc .p).directPage = (s.clrFlagSpc .p).page := by
        change 0x00#8 ++ s.directPage.setWidth 8 = 0x0000#16
        rw [low_page hs]
        rfl
      refine ⟨h.pc, h.a, h.x, h.y, h.sp, ?_, hhigh h.page, hhigh h.page', ?_⟩
      · intro f
        have hf := h.flag f
        cases f <;> first | rfl | exact hf
      · intro t ht
        cases t <;> exact h.temp _ ht
  | _ =>
      refine ⟨h.pc, h.a, h.x, h.y, h.sp, ?_, h.page, h.page', h.temp⟩
      intro f
      have hf := h.flag f
      cases f <;> first | rfl | exact hf

theorem complementCarrySpc (h : Same ws r r') :
    Same ws r.complementCarrySpc r'.complementCarrySpc := by
  have hc := h.flag .c
  refine h.storeFlagC ?_
  unfold CpuRegs.flag flagStateSpc at hc
  rw [decide_eq_decide, not_iff_not] at hc
  simp only [hc]

theorem spcSetupFlags (h : Same ws r r') : Same (.psw :: ws) r.spcSetupFlags r'.spcSetupFlags := by
  have hpsw : r'.spcSetupFlags.psw = r.spcSetupFlags.psw := by
    rw [spcSetupFlags_psw, spcSetupFlags_psw]
    exact congrArg pswOf (funext h.flag)
  exact h.setTemp .psw hpsw

theorem spcRestoreFlags (h : Same ws r r') (hw : .psw ∈ ws) :
    Same ws r.spcRestoreFlags r'.spcRestoreFlags := by
  have hflag : ∀ f, r'.spcRestoreFlags.flag f = r.spcRestoreFlags.flag f := by
    intro f
    rw [spcRestoreFlags_flag, spcRestoreFlags_flag, h.psw hw]
  have hpage := spcRestoreFlags_page h.page
  have hpage' := spcRestoreFlags_page h.page'
  rw [spcRestoreFlags_eq, spcRestoreFlags_eq] at *
  exact ⟨h.pc, h.a, h.x, h.y, h.sp, hflag, hpage, hpage', h.temp⟩

end Same

end CpuRegs

end OpenSpc
