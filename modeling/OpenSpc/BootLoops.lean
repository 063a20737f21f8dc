import OpenSpc.BootRom

/-!
# The loops of the boot ROM

What the boot ROM does from one look at the ports to the next, or to what
follows from it: how long it takes, which ports it reads when, and what is left
in memory.  An acknowledgement ends a stretch.
-/

namespace OpenSpc

open CpuRegs (storeFlagsNz_z storeFlagsNz_n opCmp_z opCmp_n)

namespace Plain

variable {h : HostPorts} {t : Nat} {s : Plain}

/-- Nothing a look at a port leads to changes memory, the ports or Y. -/
structure Kept (s s' : Plain) : Prop where
  ram : s'.ram = s.ram
  portW : s'.portW = s.portW
  y : s'.regs.y = s.regs.y

/-- A branch that is not taken ends a stretch. -/
theorem Runs.falls {flag : Bool} {x y : Plain × Nat}
    (hbranch : instr h t s = if flag then some x else some y) (hflag : flag = true) :
    Runs h t s x.2 x.1 := by
  rw [if_pos hflag] at hbranch
  exact .last hbranch

/-- A branch that is taken ends a stretch. -/
theorem Runs.jumps {flag : Bool} {x y : Plain × Nat}
    (hbranch : instr h t s = if flag then some x else some y) (hflag : flag = false) :
    Runs h t s y.2 y.1 := by
  rw [if_neg (Bool.eq_false_iff.mp hflag)] at hbranch
  exact .last hbranch

/-! ## Clearing the direct page -/

/-- RAM with the direct page cleared from 1 up to `n`. -/
def clearPage (n : Nat) (ram : Ram) : Ram := fun a => if 1 ≤ a.toNat ∧ a.toNat ≤ n then 0 else ram a

/-- A byte more. -/
theorem clearPage_update (x : Byte) (hx : x ≠ 0) (ram : Ram) :
    clearPage (x - 1).toNat (Function.update ram (x.setWidth 16) 0) = clearPage x.toNat ram := by
  have hpos : x.toNat ≠ 0 := fun h => hx (BitVec.eq_of_toNat_eq h)
  have hlt := x.isLt
  have hpred : (x - 1).toNat = x.toNat - 1 := by
    rw [BitVec.toNat_sub]
    change (2 ^ 8 - 1 + x.toNat) % 2 ^ 8 = _
    omega
  have hwide : (x.setWidth 16 : BitVec 16).toNat = x.toNat := by
    rw [BitVec.toNat_setWidth]
    omega
  funext a
  unfold clearPage
  rw [hpred]
  by_cases ha : a = x.setWidth 16
  · have hnot : ¬ (1 ≤ x.toNat ∧ x.toNat ≤ x.toNat - 1) := by omega
    have hmem : 1 ≤ x.toNat ∧ x.toNat ≤ x.toNat := by omega
    rw [ha, Function.update_self, hwide, if_neg hnot, if_pos hmem]
  · have hne : a.toNat ≠ x.toNat := by
      rw [← hwide]
      exact fun h => ha (BitVec.eq_of_toNat_eq h)
    have hsame : (1 ≤ a.toNat ∧ a.toNat ≤ x.toNat - 1) ↔ 1 ≤ a.toNat ∧ a.toNat ≤ x.toNat := by omega
    rw [Function.update_of_ne ha, if_congr hsame rfl rfl]

/-- Nothing but RAM below 0xF0 is cleared. -/
theorem clear_inRam (hx : s.regs.x.toNat < 0xF0) :
    InRam ((s.atPc 0xFFC6).dpAddress s.regs.x) := by
  rw [dpAddress_atPc]
  right
  rw [BitVec.toNat_setWidth]
  omega

/-- DEC X -/
theorem decX_z (r : CpuRegs) : (opDec .x r).flag .z = decide (r.x - 1 = 0) :=
  storeFlagsNz_z _ _

/-- A pass of the loop. -/
theorem runs_clear_more (hx : s.regs.x.toNat < 0xF0) (hmore : s.regs.x - 1 ≠ 0) :
    ∃ s' : Plain, Runs h t (s.atPc 0xFFC5) (t + 10) (s'.atPc 0xFFC5) ∧
      s'.ram = Function.update s.ram (s.regs.x.setWidth 16) s.regs.a ∧ s'.portW = s.portW ∧
      s'.regs.x = s.regs.x - 1 ∧ s'.regs.a = s.regs.a := by
  have hz (r : CpuRegs) (hr : r.x = s.regs.x) : (opDec .x r).flag .z = false := by
    rw [decX_z, hr]
    exact decide_eq_false hmore
  refine ⟨_, .next (instr_FFC5 (clear_inRam hx)) rfl (.next instr_FFC6 rfl
    (.jumps instr_FFC7 (hz _ rfl))), ?_, rfl, rfl, rfl⟩
  rw [← dpAddress_atPc (s := s) 0xFFC6]
  rfl

/-- The last one. -/
theorem runs_clear_last (hx : s.regs.x.toNat < 0xF0) (hlast : s.regs.x - 1 = 0) :
    ∃ s' : Plain, Runs h t (s.atPc 0xFFC5) (t + 8) (s'.atPc 0xFFC9) ∧
      s'.ram = Function.update s.ram (s.regs.x.setWidth 16) s.regs.a ∧ s'.portW = s.portW := by
  have hz (r : CpuRegs) (hr : r.x = s.regs.x) : (opDec .x r).flag .z = true := by
    rw [decX_z, hr]
    exact decide_eq_true hlast
  refine ⟨_, .next (instr_FFC5 (clear_inRam hx)) rfl (.next instr_FFC6 rfl
    (.falls instr_FFC7 (hz _ rfl))), ?_, rfl⟩
  rw [← dpAddress_atPc (s := s) 0xFFC6]
  rfl

/-- **The loop that clears the direct page**, by induction on X. -/
theorem runs_clear (n : Nat) :
    ∀ {t : Nat} {s : Plain}, s.regs.x.toNat = n + 1 → n < 0xEF → s.regs.a = 0 →
      ∃ s' : Plain, Runs h t (s.atPc 0xFFC5) (t + (10 * n + 8)) (s'.atPc 0xFFC9) ∧
        s'.ram = clearPage (n + 1) s.ram ∧ s'.portW = s.portW := by
  have hpred (x : Byte) (hx : x ≠ 0) : (x - 1).toNat = x.toNat - 1 := by
    have hpos : x.toNat ≠ 0 := fun h => hx (BitVec.eq_of_toNat_eq h)
    have hlt := x.isLt
    rw [BitVec.toNat_sub]
    change (2 ^ 8 - 1 + x.toNat) % 2 ^ 8 = _
    omega
  induction n with
  | zero =>
      intro t s hx hn ha
      have hne : s.regs.x ≠ 0 := by
        intro hzero
        rw [hzero] at hx
        cases hx
      have hlast : s.regs.x - 1 = 0 := by
        apply BitVec.eq_of_toNat_eq
        rw [hpred _ hne, hx]
        rfl
      obtain ⟨s', hruns, hram, hport⟩ := runs_clear_last (h := h) (t := t) (s := s) (by omega) hlast
      refine ⟨s', hruns, ?_, hport⟩
      rw [hram, ha, ← hx, ← clearPage_update _ hne, hlast]
      funext a
      unfold clearPage
      rw [if_neg]
      change ¬ (1 ≤ a.toNat ∧ a.toNat ≤ 0)
      omega
  | succ n ih =>
      intro t s hx hn ha
      have hne : s.regs.x ≠ 0 := by
        intro hzero
        rw [hzero] at hx
        cases hx
      have hless := hpred _ hne
      have hmore : s.regs.x - 1 ≠ 0 := by
        intro hzero
        rw [hzero, hx] at hless
        cases hless
      obtain ⟨s₁, hruns₁, hram₁, hport₁, hx₁, ha₁⟩ :=
        runs_clear_more (h := h) (t := t) (s := s) (by omega) hmore
      have hx₂ : s₁.regs.x.toNat = n + 1 := by
        rw [hx₁, hless, hx]
        rfl
      obtain ⟨s', hruns, hram, hport⟩ := ih (t := t + 10) hx₂ (by omega) (ha₁.trans ha)
      have htime : t + (10 * (n + 1) + 8) = t + 10 + (10 * n + 8) := by omega
      refine ⟨s', ?_, ?_, hport.trans hport₁⟩
      · rw [htime]
        exact hruns₁.trans hport₁ hruns
      · have hclear := clearPage_update _ hne s.ram
        rw [← hx₁, hx₂, hx] at hclear
        rw [hram, hram₁, ha, hclear]

/-- The stack is set up, and the loop below entered. -/
theorem runs_setup :
    ∃ s' : Plain, Runs h t (s.atPc 0xFFC0) (t + 6) (s'.atPc 0xFFC5) ∧ s'.ram = s.ram ∧
      s'.portW = s.portW ∧ s'.regs.x = 0xEF ∧ s'.regs.a = 0 := by
  refine ⟨_, .next instr_FFC0 rfl (.next instr_FFC2 rfl (.last instr_FFC3)), ?_, ?_, ?_, ?_⟩
  · simp only [mapRegs_ram]
  · simp only [mapRegs_portW]
  · simp only [mapRegs_regs]
    rfl
  · simp only [mapRegs_regs]
    rfl

/-- **From the reset to the first of the two marks.** -/
theorem runs_reset :
    ∃ s' : Plain, Runs h t (s.atPc 0xFFC0) (t + 2399) (s'.atPc 0xFFCC) ∧
      s'.ram = clearPage 0xEF s.ram ∧ s'.portW = Function.update s.portW 0 0xAA := by
  obtain ⟨s₀, hsetup, hram₀, hport₀, hx, ha⟩ := runs_setup (h := h) (t := t) (s := s)
  have hx₀ : s₀.regs.x.toNat = 0xEE + 1 := by
    rw [hx]
    rfl
  obtain ⟨s₁, hclear, hram₁, hport₁⟩ := runs_clear (h := h) 0xEE (t := t + 6) hx₀ (by decide) ha
  refine ⟨_, hsetup.trans hport₀ (hclear.trans hport₁ (.last instr_FFC9)), ?_, ?_⟩
  · exact hram₁.trans (congrArg _ hram₀)
  · exact congrArg (fun p => Function.update p 0 0xAA) (hport₁.trans hport₀)

/-- The second one. -/
theorem runs_mark :
    ∃ s' : Plain, Runs h t (s.atPc 0xFFCC) (t + 5) (s'.atPc 0xFFCF) ∧ s'.ram = s.ram ∧
      s'.portW = Function.update s.portW 1 0xBB :=
  ⟨_, .last instr_FFCC, rfl, rfl⟩

/-! ## Looks at port 0 -/

/-- CMP $F4,#$CC -/
theorem cmpReady_z (r : CpuRegs) (p : Byte) :
    (opCmp .data .data2 { r with data2 := 0xCC, address := 0xF4, data := p }).flag .z =
      decide (p = 0xCC) := opCmp_z _ _ _

/-- CMP Y,$F4 sets Z if the port holds Y. -/
theorem cmpPort_z (r : CpuRegs) (p : Byte) :
    (opCmp .y .data { r with address := 0xF4, data := p }).flag .z = decide (r.y = p) :=
  opCmp_z _ _ _

/-- CMP Y,$F4 sets N if the port holds a mark further on. -/
theorem cmpPort_n (r : CpuRegs) (p : Byte) :
    (opCmp .y .data { r with address := 0xF4, data := p }).flag .n = (r.y - p).msb :=
  opCmp_n _ _ _

/-- MOV Y,$F4 -/
theorem movPort_z (r : CpuRegs) (p : Byte) :
    (opMovRead .y .data { r with address := 0xF4, data := p }).flag .z = decide (p = 0) :=
  storeFlagsNz_z _ _

/-- Waiting for the first command. -/
theorem runs_ready (hp : h (t + 3) 0 ≠ 0xCC) :
    ∃ s' : Plain, Runs h t (s.atPc 0xFFCF) (t + 9) (s'.atPc 0xFFCF) ∧ Kept s s' := by
  have hz := (cmpReady_z s.regs (h (t + 3) 0)).trans (decide_eq_false hp)
  exact ⟨_, .next instr_FFCF rfl (.jumps instr_FFD2 hz), rfl, rfl, rfl⟩

/-- The first command. -/
theorem runs_ready_command (hp : h (t + 3) 0 = 0xCC) :
    ∃ s' : Plain, Runs h t (s.atPc 0xFFCF) (t + 11) (s'.atPc 0xFFEF) ∧ Kept s s' := by
  have hz := (cmpReady_z s.regs (h (t + 3) 0)).trans (decide_eq_true hp)
  exact ⟨_, .next instr_FFCF rfl (.trans (.falls instr_FFD2 hz) rfl (.last instr_FFD4)),
    rfl, rfl, rfl⟩

/-- Waiting for the first byte of a block. -/
theorem runs_begin (hp : h (t + 2) 0 ≠ 0) :
    ∃ s' : Plain, Runs h t (s.atPc 0xFFD6) (t + 7) (s'.atPc 0xFFD6) ∧ s'.ram = s.ram ∧
      s'.portW = s.portW := by
  have hz := (movPort_z s.regs (h (t + 2) 0)).trans (decide_eq_false hp)
  exact ⟨_, .next instr_FFD6 rfl (.jumps instr_FFD8 hz), rfl, rfl⟩

/-- The first byte of a block. -/
theorem runs_begin_byte (hp : h (t + 2) 0 = 0) :
    ∃ s' : Plain, Runs h t (s.atPc 0xFFD6) (t + 5) (s'.atPc 0xFFDA) ∧ s'.ram = s.ram ∧
      s'.portW = s.portW ∧ s'.regs.y = 0 := by
  have hz := (movPort_z s.regs (h (t + 2) 0)).trans (decide_eq_true hp)
  exact ⟨_, .next instr_FFD6 rfl (.falls instr_FFD8 hz), rfl, rfl, hp⟩

/-- A byte of a block. -/
theorem runs_transfer_byte (hp : h (t + 2) 0 = s.regs.y) :
    ∃ s' : Plain, Runs h t (s.atPc 0xFFDA) (t + 5) (s'.atPc 0xFFDE) ∧ Kept s s' := by
  have hz := (cmpPort_z s.regs (h (t + 2) 0)).trans (decide_eq_true hp.symm)
  exact ⟨_, .next instr_FFDA rfl (.falls instr_FFDC hz), rfl, rfl, rfl⟩

/-- Waiting for a byte or a command. -/
theorem runs_transfer (hne : h (t + 2) 0 ≠ s.regs.y) (hp : (s.regs.y - h (t + 2) 0).msb = false) :
    ∃ s' : Plain, Runs h t (s.atPc 0xFFDA) (t + 11) (s'.atPc 0xFFDA) ∧ Kept s s' := by
  have hz := (cmpPort_z s.regs (h (t + 2) 0)).trans (decide_eq_false hne.symm)
  have hn := (cmpPort_n s.regs (h (t + 2) 0)).trans hp
  exact ⟨_, .next instr_FFDA rfl (.trans (.jumps instr_FFDC hz) rfl (.jumps instr_FFE9 hn)),
    rfl, rfl, rfl⟩

/-- A command, seen for the first time. -/
theorem runs_transfer_command (hne : h (t + 2) 0 ≠ s.regs.y)
    (hp : (s.regs.y - h (t + 2) 0).msb = true) :
    ∃ s' : Plain, Runs h t (s.atPc 0xFFDA) (t + 9) (s'.atPc 0xFFEB) ∧ Kept s s' := by
  have hz := (cmpPort_z s.regs (h (t + 2) 0)).trans (decide_eq_false hne.symm)
  have hn := (cmpPort_n s.regs (h (t + 2) 0)).trans hp
  exact ⟨_, .next instr_FFDA rfl (.trans (.jumps instr_FFDC hz) rfl (.falls instr_FFE9 hn)),
    rfl, rfl, rfl⟩

/-- The second look, which finds no command. -/
theorem runs_again (hp : (s.regs.y - h (t + 2) 0).msb = false) :
    ∃ s' : Plain, Runs h t (s.atPc 0xFFEB) (t + 7) (s'.atPc 0xFFDA) ∧ Kept s s' := by
  have hn := (cmpPort_n s.regs (h (t + 2) 0)).trans hp
  exact ⟨_, .next instr_FFEB rfl (.jumps instr_FFED hn), rfl, rfl, rfl⟩

/-- The second look, which finds a command. -/
theorem runs_again_command (hp : (s.regs.y - h (t + 2) 0).msb = true) :
    ∃ s' : Plain, Runs h t (s.atPc 0xFFEB) (t + 5) (s'.atPc 0xFFEF) ∧ Kept s s' := by
  have hn := (cmpPort_n s.regs (h (t + 2) 0)).trans hp
  exact ⟨_, .next instr_FFEB rfl (.falls instr_FFED hn), rfl, rfl, rfl⟩

/-! ## A byte -/

/-- A byte is read and acknowledged. -/
theorem runs_acknowledge :
    ∃ s' : Plain, Runs h t (s.atPc 0xFFDE) (t + 7) (s'.atPc 0xFFE2) ∧ s'.ram = s.ram ∧
      s'.portW = Function.update s.portW 0 s.regs.y ∧ s'.regs.y = s.regs.y ∧
      s'.regs.a = h (t + 2) 1 :=
  ⟨_, .next instr_FFDE rfl (.last instr_FFE0), rfl, rfl, rfl, rfl⟩

/-- INC Y -/
theorem incY_z (r : CpuRegs) : (opInc .y r).flag .z = decide (r.y + 1 = 0) :=
  storeFlagsNz_z _ _

/-- It is stored, and there are more to come in the same page. -/
theorem runs_store (ha : InRam s.target) (hy : s.regs.y + 1 ≠ 0) :
    ∃ s' : Plain, Runs h t (s.atPc 0xFFE2) (t + 13) (s'.atPc 0xFFDA) ∧
      s'.ram = Function.update s.ram s.target s.regs.a ∧ s'.portW = s.portW ∧
      s'.regs.y = s.regs.y + 1 := by
  have hz (r : CpuRegs) (hr : r.y = s.regs.y) : (opInc .y r).flag .z = false := by
    rw [incY_z, hr]
    exact decide_eq_false hy
  exact ⟨_, .next (instr_FFE2 ha) rfl (.next instr_FFE4 rfl (.jumps instr_FFE5 (hz _ rfl))),
    rfl, rfl, rfl⟩

/-- RAM when the last byte of a page is stored. -/
def crossPage (s : Plain) : Ram :=
  Function.update (Function.update s.ram s.target s.regs.a) 1
    (Function.update s.ram s.target s.regs.a 1 + 1)

/-- It is stored at the end of a page. -/
theorem runs_store_cross (ha : InRam s.target) (hy : s.regs.y + 1 = 0) :
    ∃ s' : Plain, Runs h t (s.atPc 0xFFE2) (t + 15) (s'.atPc 0xFFE9) ∧ s'.ram = s.crossPage ∧
      s'.portW = s.portW ∧ s'.regs.y = s.regs.y + 1 ∧
      s'.regs.flag .n = (Function.update s.ram s.target s.regs.a 1 + 1).msb := by
  have hz (r : CpuRegs) (hr : r.y = s.regs.y) : (opInc .y r).flag .z = true := by
    rw [incY_z, hr]
    exact decide_eq_true hy
  refine ⟨_, .next (instr_FFE2 ha) rfl (.next instr_FFE4 rfl
    (.trans (.falls instr_FFE5 (hz _ rfl)) rfl (.last instr_FFE7))), ?_, ?_, ?_, ?_⟩
  · simp only [mapRegs_ram]
    rfl
  · simp only [mapRegs_portW]
  · simp only [mapRegs_regs]
    rfl
  · exact storeFlagsNz_n _ _

/-- The next page is in the lower half of memory. -/
theorem runs_store_page (ha : InRam s.target) (hy : s.regs.y + 1 = 0)
    (hn : (Function.update s.ram s.target s.regs.a 1 + 1).msb = false) :
    ∃ s' : Plain, Runs h t (s.atPc 0xFFE2) (t + 19) (s'.atPc 0xFFDA) ∧ s'.ram = s.crossPage ∧
      s'.portW = s.portW ∧ s'.regs.y = s.regs.y + 1 := by
  obtain ⟨s₁, hruns, hram, hport, hy₁, hflag⟩ := runs_store_cross (h := h) (t := t) ha hy
  have hbpl := Runs.jumps (instr_FFE9 (h := h) (t := t + 15)) (hflag.trans hn)
  exact ⟨_, hruns.trans hport hbpl, hram, hport, hy₁⟩

/-- The next page is in the upper half of memory. -/
theorem runs_store_again (ha : InRam s.target) (hy : s.regs.y + 1 = 0)
    (hn : (Function.update s.ram s.target s.regs.a 1 + 1).msb = true) :
    ∃ s' : Plain, Runs h t (s.atPc 0xFFE2) (t + 17) (s'.atPc 0xFFEB) ∧ s'.ram = s.crossPage ∧
      s'.portW = s.portW ∧ s'.regs.y = s.regs.y + 1 := by
  obtain ⟨s₁, hruns, hram, hport, hy₁, hflag⟩ := runs_store_cross (h := h) (t := t) ha hy
  have hbpl := Runs.falls (instr_FFE9 (h := h) (t := t + 15)) (hflag.trans hn)
  exact ⟨_, hruns.trans hport hbpl, hram, hport, hy₁⟩

/-! ## Commands -/

/-- The number that the two bytes make. -/
theorem word_toNat (v w : Byte) : (word v w).toNat = v.toNat + 256 * w.toNat := by
  have hv := v.isLt
  have hw := w.isLt
  unfold word
  rw [BitVec.toNat_add, BitVec.toNat_shiftLeft, Nat.shiftLeft_eq, BitVec.toNat_setWidth,
    BitVec.toNat_setWidth]
  omega

/-- The low byte of a word can be read back. -/
theorem word_low (v w : Byte) : (word v w).setWidth 8 = v := by
  have hv := v.isLt
  apply BitVec.eq_of_toNat_eq
  rw [BitVec.toNat_setWidth, word_toNat]
  omega

/-- The high byte of a word can be read back. -/
theorem word_high (v w : Byte) : (word v w).extractLsb' 8 8 = w := by
  have hv := v.isLt
  have hw := w.isLt
  apply BitVec.eq_of_toNat_eq
  rw [BitVec.extractLsb'_toNat, word_toNat, Nat.shiftRight_eq_div_pow]
  omega

/-- A command is read and acknowledged. -/
theorem runs_command :
    ∃ s' : Plain, Runs h t (s.atPc 0xFFEF) (t + 19) (s'.atPc 0xFFF7) ∧
      s'.ram = Function.update (Function.update s.ram 0 (h (t + 2) 2)) 1 (h (t + 3) 3) ∧
      s'.portW = Function.update s.portW 0 (h (t + 12) 0) ∧ s'.regs.y = h (t + 13) 1 := by
  refine ⟨_, .next instr_FFEF rfl (.next instr_FFF1 rfl (.next instr_FFF3 rfl (.last instr_FFF5))),
    ?_, ?_, ?_⟩
  · change Function.update (Function.update s.ram 0
      ((word (h (t + 2) 2) (h (t + 3) 3)).setWidth 8)) 1
      ((word (h (t + 2) 2) (h (t + 3) 3)).extractLsb' 8 8) = _
    rw [word_low, word_high]
  · exact congrArg (Function.update s.portW 0) (word_low _ _)
  · exact word_high _ _

/-- MOV X,A behind MOV A,Y: the flags are those of Y. -/
theorem movXAY_z (r : CpuRegs) :
    (opMovRead .x .a (opMovRead .a .y r)).flag .z = decide (r.y = 0) :=
  storeFlagsNz_z _ _

/-- A block is to be received. -/
theorem runs_block (hy : s.regs.y ≠ 0) :
    ∃ s' : Plain, Runs h t (s.atPc 0xFFF7) (t + 8) (s'.atPc 0xFFD6) ∧ s'.ram = s.ram ∧
      s'.portW = s.portW := by
  have hz := (movXAY_z s.regs).trans (decide_eq_false hy)
  exact ⟨_, .next instr_FFF7 rfl (.next instr_FFF8 rfl (.jumps instr_FFF9 hz)), rfl, rfl⟩

/-- A program is to be started. -/
theorem runs_jump (hy : s.regs.y = 0) :
    ∃ s' : Plain, Runs h t (s.atPc 0xFFF7) (t + 12)
        (s'.atPc (((s.ram 1).setWidth 16 <<< 8) + (s.ram 0).setWidth 16)) ∧ s'.ram = s.ram ∧
      s'.portW = s.portW := by
  have hz := (movXAY_z s.regs).trans (decide_eq_true hy)
  exact ⟨_, .next instr_FFF7 rfl (.next instr_FFF8 rfl
    (.trans (.falls instr_FFF9 hz) rfl (.last (instr_FFFB hy)))), rfl, rfl⟩

end Plain

end OpenSpc
