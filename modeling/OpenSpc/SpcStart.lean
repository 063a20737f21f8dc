import OpenSpc.CycleStep

/-!
# Time in pieces

`SPC_START` adds to the cycles the core is owed and runs until it has run them.
As an opcode may take it past them, the next call has less to do, or nothing.
When the counters overflow they are wound back, and the timers with them.
However a time is cut into calls, the program gets equally far in it.
-/

namespace OpenSpc

open Budget (spend spend_sum spend_ends spend_alike spend_of_le spend_of_ge)

/-! ## Steps on two clocks -/

/-- Two cores at the same point of a program, one on a clock set back by `k`. -/
structure Abreast (k : BitVec 32) (m b : Bus) : Prop where
  same : Retimed k m b
  cycle : b.cpu.cycle = m.cpu.cycle

namespace Abreast

variable {k : BitVec 32} {m b : Bus}

theorem setCycle (h : Retimed k m b) (c : Nat) : Abreast k (m.setCycle c) (b.setCycle c) :=
  ⟨(h.setCycle_left c).setCycle_right c, rfl⟩

theorem trans (h : Abreast k m b) {k' : BitVec 32} {b' : Bus} (h' : Abreast k' b b') :
    Abreast (k + k') m b' :=
  ⟨h.same.trans h'.same, h'.cycle.trans h.cycle⟩

theorem symm (h : Abreast k m b) : Abreast (-k) b m where
  same :=
    { ram := h.same.ram.symm
      regs := h.same.regs.symm
      cpuRegs := h.same.cpuRegs.symm
      portR := h.same.portR.symm
      portW := h.same.portW.symm
      ffc0Address := h.same.ffc0Address.symm
      opcode := h.same.opcode.symm
      dspData := h.same.dspData.symm
      now := by rw [h.same.now, sub_neg_eq_add, sub_add_cancel]
      timers := by
        intro timer
        rw [h.same.timers]
        unfold Timer.shift
        rw [sub_neg_eq_add, sub_add_cancel] }
  cycle := h.cycle.symm

/-- **A step sees the program and not the clock.** -/
theorem stepCycle (h : Abreast k m b) (hk : 128 ∣ k.toNat) :
    Alike (fun x y => Abreast k x.1 y.1 ∧ x.2 = y.2) m.stepCycle b.stepCycle := by
  have hop := h.same.opcode
  have hpc : b.cpu.pc = m.cpu.pc := congrArg CpuRegs.pc h.same.cpuRegs
  unfold Bus.stepCycle
  rw [h.cycle, hop]
  split
  · exact h.same.fetch.bind fun x y hxy => Alike.ok ⟨setCycle hxy 1, rfl⟩
  · split
    · rename_i ys hys
      unfold Bus.stepAt
      split
      · exact Alike.error _
      · rename_i y hy
        refine (h.same.execBody hk y.body).bind ?_
        rintro ⟨exited, m₁⟩ ⟨exited', b₁⟩ ⟨hexit, hsame⟩
        cases hexit
        cases exited with
        | true => exact Alike.ok ⟨setCycle (hsame.work 1) 0, rfl⟩
        | false => exact Alike.ok ⟨setCycle (hsame.work y.work) _, rfl⟩
    · unfold Bus.invalidSpcOpcode
      rw [hop, hpc]
      exact Alike.error _

end Abreast

/-- **No step costs more than eleven cycles.** -/
theorem Bus.stepCycle_cost (b : Bus) : Ends b.stepCycle (fun x => x.2 ≤ 10) fun _ => True := by
  have htrue {α : Type} (x : Except Halt α) : Ends x (fun _ => True) fun _ => True := by
    cases x <;> trivial
  unfold stepCycle
  split
  · exact (htrue b.fetch).bind fun _ _ => Ends.ok (Nat.zero_le 10)
  · split
    · rename_i ys hys
      unfold stepAt
      split
      · exact Ends.error trivial
      · rename_i y hy
        refine (htrue (execBody y.body b)).bind ?_
        rintro ⟨exited, b₁⟩ -
        cases exited with
        | true => exact Ends.ok (Nat.zero_le 10)
        | false =>
            have hwork := (switchSpc_short hys).2 y (List.mem_of_getElem? hy)
            exact Ends.ok (Nat.sub_le_of_le_add hwork)
    · exact Ends.error trivial

/-! ## One call -/

namespace Bus

/-- The cycles the core has run beyond those it was owed. -/
def ahead (b : Bus) : Nat := (b.cpu.totalCycles - b.cpu.cycles).toNat

/-- `_Cycles += cycles`. -/
def charge (n : Nat) (b : Bus) : Bus :=
  { b with cpu := { b.cpu with cycles := b.cpu.cycles + BitVec.ofNat 32 n } }

/-- A list of calls of `SPC_START`. -/
def spcStarts (ns : List Nat) (b : Bus) : Except Halt Bus :=
  ns.foldlM (fun b n => b.spcStart (BitVec.ofNat 32 n)) b

theorem now_loadCycles (b : Bus) : b.loadCycles.now = b.cpu.totalCycles := sub_add_cancel _ _

/-- Saving the cycles and loading them again leaves the work cycles. -/
theorem loadCycles_saveCycles (b : Bus) :
    b.saveCycles.loadCycles.cpu.workCycles = b.cpu.workCycles := add_sub_cancel_right _ _

end Bus

/-! ## The counter of cycles -/

namespace Bus

/-- An instruction leaves the target cycle alone. -/
theorem executeSpc_cycles (b : Bus) :
    Ends b.executeSpc (fun b' => b'.cpu.cycles = b.cpu.cycles) fun _ => True := by
  unfold executeSpc
  exact ((Kept.cycles b.cpu.cycles).executeLoop _ b.loadCycles rfl).bind fun b₁ hb₁ => Ends.ok hb₁

/-- A call moves the counter by its cycles, and may wind it back by 0xF0000000,
a multiple of 2 ^ 28 as its 32 bits see it.  The loop leaves the counter as the
call has set it. -/
theorem spcStart_cycles (n : Nat) (b : Bus) :
    Ends (b.spcStart (BitVec.ofNat 32 n))
      (fun b' => b'.cpu.cycles.toNat ≡ b.cpu.cycles.toNat + n [MOD 2 ^ 28]) fun _ => True := by
  have hcharge : (b.charge n).cpu.cycles.toNat ≡ b.cpu.cycles.toNat + n [MOD 2 ^ 28] := by
    change (b.cpu.cycles + BitVec.ofNat 32 n).toNat % 2 ^ 28 = _
    rw [BitVec.toNat_add, BitVec.toNat_ofNat]
    omega
  have hwrap : (b.charge n).cpu.wrapSpcCyclecounter.cycles.toNat ≡
      b.cpu.cycles.toNat + n [MOD 2 ^ 28] := by
    refine Nat.ModEq.trans ?_ hcharge
    change ((b.charge n).cpu.cycles - 0xF0000000).toNat % 2 ^ 28 = _
    rw [BitVec.toNat_sub]
    change (2 ^ 32 - 0xF0000000 + _) % 2 ^ 32 % 2 ^ 28 = _
    omega
  have hexec {b₁ : Bus} (h : b₁.cpu.cycles.toNat ≡ b.cpu.cycles.toNat + n [MOD 2 ^ 28]) :
      Ends b₁.executeSpc (fun b' => b'.cpu.cycles.toNat ≡ b.cpu.cycles.toNat + n [MOD 2 ^ 28])
        fun _ => True :=
    (executeSpc_cycles b₁).mono (fun b' hb' => hb' ▸ h) fun _ _ => trivial
  unfold spcStart
  dsimp only
  split
  · split
    · exact Ends.ok hcharge
    · split
      · exact Ends.ok hcharge
      · exact hexec hwrap
  · exact hexec hcharge

/-- **Calls in a row**, by induction on them. -/
theorem spcStarts_cycles (ns : List Nat) :
    ∀ b : Bus, Ends (b.spcStarts ns)
      (fun b' => b'.cpu.cycles.toNat ≡ b.cpu.cycles.toNat + ns.sum [MOD 2 ^ 28]) fun _ => True := by
  induction ns with
  | nil => intro b; exact Ends.ok (Nat.ModEq.refl _)
  | cons n ns ih =>
      intro b
      unfold spcStarts
      rw [List.foldlM_cons, List.sum_cons]
      refine (spcStart_cycles n b).bind fun b₁ h₁ => ?_
      refine (ih b₁).mono (fun b' h' => h'.trans ?_) fun _ _ => trivial
      rw [← add_assoc]
      exact h₁.add_right ns.sum

end Bus

/-! ## Steps and calls -/

/-- Where a core rests between calls, for the state and debt of the steps. -/
structure Rested (p : Bus × Nat) (b : Bus) : Prop where
  abreast : ∃ k : BitVec 32, 128 ∣ k.toNat ∧ Abreast k p.1 b.loadCycles
  ahead : b.ahead = p.2

namespace Rested

variable {p : Bus × Nat} {b : Bus} {n : Nat}

theorem refl (b : Bus) : Rested (b.loadCycles, b.ahead) b :=
  ⟨⟨0, by decide, Retimed.refl _, rfl⟩, rfl⟩

/-- The clock as the loop of `Execute_SPC` finds it. -/
theorem work_charge (h : Rested p b) (hdebt : p.2 ≤ 10) (hn : n < 2 ^ 31) :
    (b.charge n).loadCycles.cpu.workCycles.toInt = (p.2 : Int) - n := by
  have hahead : (b.cpu.totalCycles - b.cpu.cycles).toNat = p.2 := h.ahead
  change (b.cpu.totalCycles - (b.cpu.cycles + BitVec.ofNat 32 n)).toInt = _
  rw [← sub_sub]
  generalize b.cpu.totalCycles - b.cpu.cycles = d at hahead
  have hsmall : (BitVec.ofNat 32 n).toInt = n := by
    rw [BitVec.toInt_ofNat']
    apply Int.bmod_eq_of_le <;> omega
  rw [BitVec.toInt_sub, BitVec.toInt_eq_toNat_of_lt (by omega), hahead, hsmall]
  apply Int.bmod_eq_of_le <;> omega

/-- Owing the core more does not move it. -/
theorem charge (h : Rested p b) (n : Nat) :
    ∃ k : BitVec 32, 128 ∣ k.toNat ∧ Abreast k p.1 (b.charge n).loadCycles := by
  obtain ⟨k, hk, hsame, hcycle⟩ := h.abreast
  have hnow : (b.charge n).loadCycles.now = p.1.now - k := by
    rw [← hsame.now, Bus.now_loadCycles, Bus.now_loadCycles]
    rfl
  exact ⟨k, hk, ⟨hsame.ram, hsame.regs, hsame.cpuRegs, hsame.portR, hsame.portW, hsame.ffc0Address,
    hsame.opcode, hsame.dspData, hnow, hsame.timers⟩, hcycle⟩

/-- `Wrap_SPC_Cyclecounter` sets the clock back by a number of whole ticks. -/
theorem wrap {k : BitVec 32} {m : Bus} (hk : 128 ∣ k.toNat) (h : Abreast k m b.loadCycles) :
    ∃ k' : BitVec 32, 128 ∣ k'.toNat ∧
      Abreast k' m { b with cpu := b.cpu.wrapSpcCyclecounter }.loadCycles := by
  have hsame := h.same
  have hnow : Bus.now { b with cpu := b.cpu.wrapSpcCyclecounter }.loadCycles =
      m.now - (k + 0xF0000000) := by
    rw [← sub_sub, ← hsame.now, Bus.now_loadCycles, Bus.now_loadCycles]
    rfl
  refine ⟨k + 0xF0000000, ?_, ⟨hsame.ram, hsame.regs, hsame.cpuRegs, hsame.portR, hsame.portW,
    hsame.ffc0Address, hsame.opcode, hsame.dspData, hnow, ?_⟩, h.cycle⟩
  · rw [BitVec.toNat_add]
    change 128 ∣ (k.toNat + 0xF0000000) % 2 ^ 32
    omega
  · intro timer
    change Timer.shift 0xF0000000 (b.loadCycles.cpu.timers timer) = _
    rw [hsame.timers]
    unfold Timer.shift
    rw [sub_sub]

/-- **The loop of `Execute_SPC`.** -/
theorem executeSpc (hdebt : p.2 ≤ 10)
    (habreast : ∃ k : BitVec 32, 128 ∣ k.toNat ∧ Abreast k p.1 b.loadCycles)
    (hwork : b.loadCycles.cpu.workCycles.toInt = (p.2 : Int) - n) :
    Alike Rested (spend Bus.stepCycle n p) b.executeSpc := by
  obtain ⟨k, hk, h⟩ := habreast
  obtain ⟨m, debt⟩ := p
  have hsaved {b₁ : Bus} {q : Bus × Nat} (h₁ : Abreast k q.1 b₁)
      (hwork₁ : b₁.cpu.workCycles.toInt = q.2) : Rested q b₁.saveCycles := by
    have hload := Bus.loadCycles_saveCycles b₁
    have hnow : b₁.saveCycles.loadCycles.now = q.1.now - k := by
      rw [← h₁.same.now, Bus.now_loadCycles]
      rfl
    refine ⟨⟨k, hk, ⟨h₁.same.ram, h₁.same.regs, h₁.same.cpuRegs, h₁.same.portR, h₁.same.portW,
      h₁.same.ffc0Address, h₁.same.opcode, h₁.same.dspData, hnow, h₁.same.timers⟩, h₁.cycle⟩, ?_⟩
    change (b₁.saveCycles.loadCycles.cpu.workCycles).toNat = q.2
    rw [hload]
    have hlt := BitVec.toInt_lt (x := b₁.cpu.workCycles)
    rw [BitVec.toInt_eq_toNat_cond] at hwork₁ hlt
    split at hwork₁ <;> omega
  unfold Bus.executeSpc
  dsimp only
  by_cases hpaid : n ≤ debt
  · have hdue : b.loadCycles.isDue = true := by
      rw [Bus.isDue_iff, hwork]
      dsimp only
      omega
    rw [spend_of_le _ hpaid, Bus.executeLoop_of_due hdue]
    refine Alike.ok (hsaved h ?_)
    rw [hwork]
    dsimp only
    omega
  · rw [spend_of_ge _ (by omega)]
    have hwork₀ : b.loadCycles.cpu.workCycles.toInt = -(n - debt : Nat) := by
      rw [hwork]
      dsimp only
      omega
    have hfuel : n - debt ≤ (-b.loadCycles.cpu.workCycles).toNat := by
      rw [BitVec.toInt_eq_toNat_cond] at hwork₀
      rw [BitVec.toNat_neg]
      split at hwork₀ <;> omega
    have hsteps := spend_alike (R := Abreast k) (fun s t hst => hst.stepCycle hk) (n - debt) m
      b.loadCycles 0 h
    have hloop := Bus.executeLoop_alike (n - debt) _ b.loadCycles b.loadCycles hfuel
      (Retimed.refl _) rfl hwork₀
    refine (hsteps.trans hloop).bind_right ?_
    rintro x b₁ ⟨y, ⟨hxy, hdebt'⟩, hstop⟩
    refine Alike.ok (hsaved ⟨?_, hstop.cycle.trans hxy.cycle⟩ ?_)
    · have hboth := hxy.same.trans hstop.same
      rw [add_zero] at hboth
      exact hboth
    · rw [hstop.debt, hdebt']

/-- **One call of `SPC_START`.**  One that returns at once had all it asks for
done before. -/
theorem spcStart (h : Rested p b) (hdebt : p.2 ≤ 10) (hn : n < 2 ^ 31) :
    Alike Rested (spend Bus.stepCycle n p) (b.spcStart (BitVec.ofNat 32 n)) := by
  have hahead : (b.cpu.totalCycles - b.cpu.cycles).toNat = p.2 := h.ahead
  have hwork := h.work_charge hdebt hn
  have hcharge := h.charge n
  have hexec := executeSpc hdebt hcharge hwork
  have hreturn (hpaid : n ≤ p.2) : Alike Rested (spend Bus.stepCycle n p) (.ok (b.charge n)) := by
    obtain ⟨m, debt⟩ := p
    rw [spend_of_le _ hpaid]
    refine Alike.ok ⟨hcharge, ?_⟩
    change (b.charge n).loadCycles.cpu.workCycles.toNat = debt - n
    dsimp only at hwork hdebt hpaid
    have hlt := (b.charge n).loadCycles.cpu.workCycles.isLt
    rw [BitVec.toInt_eq_toNat_cond] at hwork
    split at hwork <;> omega
  have htotal : b.cpu.totalCycles.toNat = (b.cpu.cycles.toNat + p.2) % 2 ^ 32 := by
    rw [← hahead, ← BitVec.toNat_add, add_comm, sub_add_cancel]
  have howed : (b.cpu.cycles + BitVec.ofNat 32 n).toNat = (b.cpu.cycles.toNat + n) % 2 ^ 32 := by
    rw [BitVec.toNat_add, BitVec.toNat_ofNat, Nat.mod_eq_of_lt (a := n) (by omega)]
  have hlt := b.cpu.cycles.isLt
  unfold Bus.spcStart
  dsimp only
  split
  · rename_i hle
    rw [BitVec.le_def, htotal, howed] at hle
    split
    · rename_i hmsb
      rw [BitVec.msb_eq_decide, decide_eq_true_iff, howed] at hmsb
      exact hreturn (by omega)
    · split
      · rename_i hmsb
        rw [Bool.not_eq_true', BitVec.msb_eq_decide, decide_eq_false_iff_not, htotal] at hmsb
        exact hreturn (by omega)
      · obtain ⟨k, hk, habreast⟩ := hcharge
        refine executeSpc hdebt (wrap (b := b.charge n) hk habreast) ?_
        rw [← hwork]
        change (_ - _ - (_ - _) : BitVec 32).toInt = _
        rw [sub_sub_sub_cancel_right]
        rfl
  · exact hexec

/-- **Calls in a row**, by induction on them: they take the steps that the sum
of their cycles pays for, and never run more than ten cycles ahead. -/
theorem spcStarts {ns : List Nat} (hns : ∀ n ∈ ns, n < 2 ^ 31) (h : Rested p b)
    (hdebt : p.2 ≤ 10) :
    Alike (fun q b' => Rested q b' ∧ q.2 ≤ 10) (spend Bus.stepCycle ns.sum p) (b.spcStarts ns) := by
  rw [← spend_sum]
  refine Alike.foldlM (R := fun q b' => Rested q b' ∧ q.2 ≤ 10) ns ?_ p b ⟨h, hdebt⟩
  rintro n hn q b' ⟨hrest, hq⟩
  have hcost := spend_ends (I := fun _ => True) (E := fun _ => True) (d := 10)
    (fun s _ => s.stepCycle_cost.mono (fun x hx => ⟨trivial, hx⟩) fun _ _ => trivial) n q trivial hq
  exact ((hrest.spcStart hq (hns n hn)).and_left hcost).mono fun x y hxy => ⟨hxy.1, hxy.2.2⟩

end Rested

/-! ## Any number of calls -/

/-- Two cores that rest at the same point: they show a program the same, on
clocks any number of whole ticks apart, go on with the same cycle of the same
opcode and have run equally far ahead. -/
structure RestAlike (b b' : Bus) : Prop where
  abreast : ∃ k : BitVec 32, 128 ∣ k.toNat ∧ Abreast k b.loadCycles b'.loadCycles
  ahead : b'.ahead = b.ahead

namespace RestAlike

variable {p : Bus × Nat} {b b' : Bus}

theorem symm (h : RestAlike b b') : RestAlike b' b where
  abreast := by
    obtain ⟨k, hk, hb⟩ := h.abreast
    refine ⟨-k, ?_, hb.symm⟩
    have hlt := k.isLt
    rw [BitVec.toNat_neg]
    omega
  ahead := h.ahead.symm

theorem trans {b'' : Bus} (h : RestAlike b b') (h' : RestAlike b' b'') : RestAlike b b'' where
  abreast := by
    obtain ⟨k, hk, hb⟩ := h.abreast
    obtain ⟨k', hk', hb'⟩ := h'.abreast
    refine ⟨k + k', ?_, hb.trans hb'⟩
    rw [BitVec.toNat_add]
    omega
  ahead := h'.ahead.trans h.ahead

theorem of_rested (h : Rested p b) (h' : Rested p b') : RestAlike b b' where
  abreast := by
    obtain ⟨k, hk, hb⟩ := h.abreast
    obtain ⟨k', hk', hb'⟩ := h'.abreast
    refine ⟨-k + k', ?_, hb.symm.trans hb'⟩
    have hlt := k.isLt
    rw [BitVec.toNat_add, BitVec.toNat_neg]
    omega
  ahead := h'.ahead.trans h.ahead.symm

theorem refl (b : Bus) : RestAlike b b := of_rested (Rested.refl b) (Rested.refl b)

theorem rested (h : RestAlike b b') : Rested (b.loadCycles, b.ahead) b' := ⟨h.abreast, h.ahead⟩

/-- What others do to RAM and the DSP registers. -/
theorem outside (h : RestAlike b b') (ram : Ram) (regs : Regs) :
    RestAlike { b with ram := ram, regs := regs } { b' with ram := ram, regs := regs } := by
  obtain ⟨⟨k, hk, hsame, hcycle⟩, hahead⟩ := h
  exact ⟨⟨k, hk, ⟨rfl, rfl, hsame.cpuRegs, hsame.portR, hsame.portW, hsame.ffc0Address, hsame.opcode,
    hsame.dspData, hsame.now, hsame.timers⟩, hcycle⟩, hahead⟩

theorem writePort (h : RestAlike b b') (i : Fin 4) (data : Byte) :
    RestAlike { b with cpu := spcWritePortR i data b.cpu }
      { b' with cpu := spcWritePortR i data b'.cpu } := by
  obtain ⟨⟨k, hk, hsame, hcycle⟩, hahead⟩ := h
  have hportR : Function.update b'.cpu.portR i data = Function.update b.cpu.portR i data := by
    rw [show b'.cpu.portR = b.cpu.portR from hsame.portR]
  exact ⟨⟨k, hk, ⟨hsame.ram, hsame.regs, hsame.cpuRegs, hportR, hsame.portW, hsame.ffc0Address,
    hsame.opcode, hsame.dspData, hsame.now, hsame.timers⟩, hcycle⟩, hahead⟩

end RestAlike

/-- **It makes no difference how a time is cut into calls.**  Two cores at rest
at the same point are given the same number of cycles, in any number of calls of
any size; they come to rest at the same point again, no more than ten cycles
ahead, or both stop in the same way. -/
theorem spcStarts_alike {b b' : Bus} (h : RestAlike b b') (hahead : b.ahead ≤ 10)
    {ns ns' : List Nat} (hns : ∀ n ∈ ns, n < 2 ^ 31) (hns' : ∀ n ∈ ns', n < 2 ^ 31)
    (hsum : ns.sum = ns'.sum) :
    Alike (fun c c' => RestAlike c c' ∧ c.ahead ≤ 10) (b.spcStarts ns) (b'.spcStarts ns') := by
  have hleft := (Rested.refl b).spcStarts hns hahead
  have hright := h.rested.spcStarts hns' hahead
  rw [← hsum] at hright
  refine (hleft.symm.trans hright).mono ?_
  rintro c c' ⟨q, ⟨hc, hq⟩, hc', -⟩
  exact ⟨RestAlike.of_rested hc hc', hc.ahead.trans_le hq⟩

/-- The bus after the reset. -/
def resetBus : Bus := ⟨resetSpc, resetRam, fun _ => 0⟩

end OpenSpc
