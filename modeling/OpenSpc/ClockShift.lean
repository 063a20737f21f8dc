import Mathlib.Data.BitVec
import Mathlib.Data.List.GetD
import OpenSpc.ExecuteSpc
import OpenSpc.Outcomes
import OpenSpc.TimerTicks

/-!
# The origin of the clock

A program sees the time only through the timers, and these only through the
distance from their latches.  Two buses that differ in the origin of the clock,
by a whole number of timer ticks, and in how the time is split between
`_Cycles`, `_WorkCycles` and `_TotalCycles`, show a program the same.
-/

namespace OpenSpc

/-- The clock set back by `k` cycles. -/
def Timer.shift (k : BitVec 32) (t : Timer) : Timer := { t with cycleLatch := t.cycleLatch - k }

namespace Timer

variable {k : BitVec 32}

/-- Setting the clock back does not change how far a timer has come. -/
theorem advanced_shift (timer : Fin 3) (total : BitVec 32) (t : Timer) :
    (t.shift k).advanced timer (total - k) = t.advanced timer total := by
  unfold advanced shift
  rw [sub_sub_sub_cancel_right]

/-- Only the distance from the latch counts. -/
theorem update_shift (timer : Fin 3) (on : Bool) (total : BitVec 32) (t : Timer) :
    (t.shift k).update timer on (total - k) = (t.update timer on total).map (shift k) := by
  unfold update wrap
  rw [advanced_shift]
  unfold shift
  dsimp only
  rw [sub_sub_sub_cancel_right, sub_add_eq_add_sub]
  split
  · rfl
  · split
    · rfl
    · split <;> rfl

/-- Whole ticks pass through the mask. -/
theorem sub_and_timerMask (hk : 128 ∣ k.toNat) (timer : Fin 3) (x : BitVec 32) :
    (x - k) &&& timerMask timer = (x &&& timerMask timer) - k := by
  obtain ⟨q, hq⟩ := hk
  have hx := x.isLt
  have hlt := k.isLt
  apply BitVec.eq_of_toNat_eq
  rw [and_timerMask, BitVec.toNat_sub, BitVec.toNat_sub, and_timerMask]
  unfold timerShift
  split <;> omega

/-- A timer is started the same on a clock that is set back. -/
theorem start_shift (hk : 128 ∣ k.toNat) (timer : Fin 3) (total : BitVec 32) (t : Timer) :
    (t.shift k).start timer (total - k) = (t.start timer total).shift k := by
  unfold start shift
  dsimp only
  rw [sub_and_timerMask hk]

/-- A target is written the same. -/
theorem writeTarget_shift (timer : Fin 3) (on : Bool) (total : BitVec 32) (data : Byte)
    (t : Timer) :
    (t.shift k).writeTarget timer on (total - k) data =
      (t.writeTarget timer on total data).map (shift k) := by
  unfold writeTarget
  rw [update_shift]
  change (if BitVec.ofInt 8 t.target = data then _ else _) = _
  split
  · rfl
  · cases t.update timer on total with
    | none => rfl
    | some u =>
        simp only [Option.map_some]
        generalize (if data ≠ 0 then (data.toNat : Int) else 256) = target
        unfold shift
        dsimp only
        split <;> rfl

/-- A counter is read the same. -/
theorem readCounter_shift (timer : Fin 3) (on : Bool) (total : BitVec 32) (t : Timer) :
    (t.shift k).readCounter timer on (total - k) =
      (t.readCounter timer on total).map fun p => (p.1, p.2.shift k) := by
  unfold readCounter
  rw [update_shift]
  cases t.update timer on total <;> rfl

end Timer

/-- The time at which a running program accesses the bus. -/
def Bus.now (b : Bus) : BitVec 32 := b.cpu.workCycles + b.cpu.cycles

/-- `b'` shows a program what `b` shows it, on a clock set back by `k`.  How the
time is split is left open, and so are `_cycle`, which no program sees, and what
is kept for error messages only. -/
structure Retimed (k : BitVec 32) (b b' : Bus) : Prop where
  ram : b'.ram = b.ram
  regs : b'.regs = b.regs
  cpuRegs : b'.cpu.cpuRegs = b.cpu.cpuRegs
  portR : b'.cpu.portR = b.cpu.portR
  portW : b'.cpu.portW = b.cpu.portW
  ffc0Address : b'.cpu.ffc0Address = b.cpu.ffc0Address
  opcode : b'.cpu.opcode = b.cpu.opcode
  dspData : b'.cpu.dspData = b.cpu.dspData
  now : b'.now = b.now - k
  timers : ∀ timer, b'.cpu.timers timer = (b.cpu.timers timer).shift k

namespace Retimed

variable {k : BitVec 32} {b b' : Bus}

/-- A clock that is not set back. -/
theorem refl (b : Bus) : Retimed 0 b b where
  ram := rfl
  regs := rfl
  cpuRegs := rfl
  portR := rfl
  portW := rfl
  ffc0Address := rfl
  opcode := rfl
  dspData := rfl
  now := (sub_zero b.now).symm
  timers := by
    intro timer
    unfold Timer.shift
    rw [sub_zero]

/-- Setting the clock back twice. -/
theorem trans {k' : BitVec 32} {b'' : Bus} (h : Retimed k b b') (h' : Retimed k' b' b'') :
    Retimed (k + k') b b'' where
  ram := h'.ram.trans h.ram
  regs := h'.regs.trans h.regs
  cpuRegs := h'.cpuRegs.trans h.cpuRegs
  portR := h'.portR.trans h.portR
  portW := h'.portW.trans h.portW
  ffc0Address := h'.ffc0Address.trans h.ffc0Address
  opcode := h'.opcode.trans h.opcode
  dspData := h'.dspData.trans h.dspData
  now := by rw [h'.now, h.now, sub_sub]
  timers := by
    intro timer
    rw [h'.timers, h.timers]
    unfold Timer.shift
    rw [sub_sub]

/-- Setting `_cycle` is not seen. -/
theorem setCycle_left (h : Retimed k b b') (c : Nat) : Retimed k (b.setCycle c) b' :=
  ⟨h.ram, h.regs, h.cpuRegs, h.portR, h.portW, h.ffc0Address, h.opcode, h.dspData, h.now, h.timers⟩

/-- No program sees `_cycle`. -/
theorem setCycle_right (h : Retimed k b b') (c : Nat) : Retimed k b (b'.setCycle c) :=
  ⟨h.ram, h.regs, h.cpuRegs, h.portR, h.portW, h.ffc0Address, h.opcode, h.dspData, h.now, h.timers⟩

/-- Cycles counted on both clocks. -/
theorem work (h : Retimed k b b') (n : Nat) : Retimed k (b.work n) (b'.work n) := by
  have hnow : (b'.work n).now = (b.work n).now - k := by
    have h0 := h.now
    unfold Bus.now at h0 ⊢
    unfold Bus.work
    dsimp only
    rw [add_right_comm, h0, add_right_comm b.cpu.workCycles, sub_add_eq_add_sub]
  exact ⟨h.ram, h.regs, h.cpuRegs, h.portR, h.portW, h.ffc0Address, h.opcode, h.dspData, hnow,
    h.timers⟩

/-- An operation on the registers does not see the clock. -/
theorem mapRegs (h : Retimed k b b') (f : CpuRegs → CpuRegs) :
    Retimed k (b.mapRegs f) (b'.mapRegs f) := by
  have hregs : (b'.mapRegs f).cpu.cpuRegs = (b.mapRegs f).cpu.cpuRegs := congrArg f h.cpuRegs
  exact ⟨h.ram, h.regs, hregs, h.portR, h.portW, h.ffc0Address, h.opcode, h.dspData, h.now, h.timers⟩

/-- The end of a call is not seen. -/
theorem saveCycles (h : Retimed k b b') : Retimed k b.saveCycles b'.saveCycles :=
  ⟨h.ram, h.regs, h.cpuRegs, h.portR, h.portW, h.ffc0Address, h.opcode, h.dspData, h.now, h.timers⟩

/-- The saved clock is the time. -/
theorem totalCycles (h : Retimed k b b') :
    b'.saveCycles.cpu.totalCycles = b.saveCycles.cpu.totalCycles - k := h.now

/-- The same timers are on. -/
theorem timerOn (h : Retimed k b b') (timer : Fin 3) : b'.timerOn timer = b.timerOn timer := by
  unfold Bus.timerOn
  rw [h.ram]

/-- A timer is set on both sides. -/
theorem setTimer (h : Retimed k b b') (timer : Fin 3) (t : Timer) :
    Retimed k (b.setTimer timer t) (b'.setTimer timer (t.shift k)) := by
  refine ⟨h.ram, h.regs, h.cpuRegs, h.portR, h.portW, h.ffc0Address, h.opcode, h.dspData, h.now, ?_⟩
  intro i
  change Function.update b'.cpu.timers timer (t.shift k) i =
    (Function.update b.cpu.timers timer t i).shift k
  by_cases hi : i = timer
  · rw [hi, Function.update_self, Function.update_self]
  · rw [Function.update_of_ne hi, Function.update_of_ne hi]
    exact h.timers i

/-- A store does not see the clock. -/
theorem setRam (h : Retimed k b b') (address : BitVec 16) (data : Byte) :
    Retimed k { b with ram := Function.update b.ram address data }
      { b' with ram := Function.update b'.ram address data } := by
  refine ⟨?_, h.regs, h.cpuRegs, h.portR, h.portW, h.ffc0Address, h.opcode, h.dspData, h.now,
    h.timers⟩
  rw [h.ram]

end Retimed

/-- Two accesses read the same and leave buses that show the same. -/
def SameRead (k : BitVec 32) (x y : Byte × Bus) : Prop := x.1 = y.1 ∧ Retimed k x.2 y.2

/-! ## Accesses -/

namespace Retimed

variable {k : BitVec 32} {b b' : Bus}

/-- Starting a timer sees the clock only from there on. -/
theorem spcStartTimer (h : Retimed k b b') (hk : 128 ∣ k.toNat)
    (htotal : b'.cpu.totalCycles = b.cpu.totalCycles - k) (timer : Fin 3) :
    Retimed k (b.spcStartTimer timer) (b'.spcStartTimer timer) := by
  unfold Bus.spcStartTimer
  rw [h.timers, htotal, Timer.start_shift hk]
  exact h.setTimer timer _

/-- A counter is read on both sides. -/
theorem spcReadCounter (h : Retimed k b b')
    (htotal : b'.cpu.totalCycles = b.cpu.totalCycles - k) (address : BitVec 16) :
    Alike (SameRead k) (orTrap (b.spcReadCounter address)) (orTrap (b'.spcReadCounter address)) := by
  unfold Bus.spcReadCounter
  dsimp only
  rw [h.timers, htotal, h.timerOn, Timer.readCounter_shift]
  cases (b.cpu.timers _).readCounter _ (b.timerOn _) b.cpu.totalCycles with
  | none => exact Alike.error _
  | some p => exact Alike.ok ⟨rfl, h.setTimer _ p.2⟩

/-- A target is written on both sides. -/
theorem spcWriteTimer (h : Retimed k b b')
    (htotal : b'.cpu.totalCycles = b.cpu.totalCycles - k) (address : BitVec 16) (data : Byte) :
    Alike (Retimed k) (orTrap (b.spcWriteTimer address data))
      (orTrap (b'.spcWriteTimer address data)) := by
  unfold Bus.spcWriteTimer
  dsimp only
  rw [h.timers, htotal, h.timerOn, Timer.writeTarget_shift]
  cases (b.cpu.timers _).writeTarget _ (b.timerOn _) b.cpu.totalCycles data with
  | none => exact Alike.error _
  | some t => exact Alike.ok (h.setTimer _ t)

/-- A write to CTRL: what holds of a timer before it is started, or not, holds of
it after. -/
theorem spcWriteCtrl (h : Retimed k b b') (hk : 128 ∣ k.toNat)
    (htotal : b'.cpu.totalCycles = b.cpu.totalCycles - k) (address : BitVec 16) (data : Byte) :
    Alike (Retimed k) (orTrap (b.spcWriteCtrl address data))
      (orTrap (b'.spcWriteCtrl address data)) := by
  have hstart (timer : Fin 3) {b b' : Bus} (h : Retimed k b b')
      (htotal : b'.cpu.totalCycles = b.cpu.totalCycles - k) :
      let go := fun b : Bus =>
        if !ByteMask.bit (b.ram address) timer && ByteMask.bit data timer then b.spcStartTimer timer
        else b
      Retimed k (go b) (go b') ∧ (go b').cpu.totalCycles = (go b).cpu.totalCycles - k := by
    dsimp only
    rw [h.ram]
    split
    · exact ⟨h.spcStartTimer hk htotal timer, htotal⟩
    · exact ⟨h, htotal⟩
  unfold Bus.spcWriteCtrl
  have hports : Retimed k
      { b with cpu := { b.cpu with
        ffc0Address := if ByteMask.bit data 7 then .rom else .ram
        portR := fun i =>
          if ByteMask.bit data 4 ∧ i.val < 2 then 0
          else if ByteMask.bit data 5 ∧ 2 ≤ i.val then 0 else b.cpu.portR i } }
      { b' with cpu := { b'.cpu with
        ffc0Address := if ByteMask.bit data 7 then .rom else .ram
        portR := fun i =>
          if ByteMask.bit data 4 ∧ i.val < 2 then 0
          else if ByteMask.bit data 5 ∧ 2 ≤ i.val then 0 else b'.cpu.portR i } } := by
    refine ⟨h.ram, h.regs, h.cpuRegs, ?_, h.portW, rfl, h.opcode, h.dspData, h.now, h.timers⟩
    dsimp only
    rw [h.portR]
  obtain ⟨h0, ht0⟩ := hstart 0 hports htotal
  obtain ⟨h1, ht1⟩ := hstart 1 h0 ht0
  obtain ⟨h2, ht2⟩ := hstart 2 h1 ht1
  exact Alike.ok (h2.setRam 0xF1 data)

/-- The reads of the hardware registers. -/
theorem readFuncMap (h : Retimed k b b')
    (htotal : b'.cpu.totalCycles = b.cpu.totalCycles - k) (address : BitVec 16) :
    ∀ f ∈ Bus.readFuncMap, Alike (SameRead k) (orTrap (f address b)) (orTrap (f address b')) := by
  have hcounter := h.spcReadCounter htotal address
  have hinvalid : Alike (SameRead k) (orTrap (Bus.spcReadInvalid address b))
      (orTrap (Bus.spcReadInvalid address b')) := Alike.ok ⟨rfl, h⟩
  have hram : Alike (SameRead k) (orTrap (Bus.spcReadRam address b))
      (orTrap (Bus.spcReadRam address b')) := Alike.ok ⟨by rw [h.ram], h⟩
  have hdsp : Alike (SameRead k) (orTrap (Bus.spcReadDspData address b))
      (orTrap (Bus.spcReadDspData address b')) := Alike.ok ⟨by rw [h.ram, h.regs], h⟩
  have hport : Alike (SameRead k) (orTrap (Bus.spcReadPortR address b))
      (orTrap (Bus.spcReadPortR address b')) := Alike.ok ⟨by rw [h.portR], h⟩
  unfold Bus.readFuncMap
  simp only [List.forall_mem_cons]
  exact ⟨hinvalid, hinvalid, hram, hdsp, hport, hport, hport, hport, hram, hram, hinvalid, hinvalid,
    hinvalid, hcounter, hcounter, hcounter, fun _ hf => absurd hf List.not_mem_nil⟩

/-- **A read.** -/
theorem getByteSpc (h : Retimed k b b') (address : BitVec 16) :
    Alike (SameRead k) (orTrap (b.getByteSpc address)) (orTrap (b'.getByteSpc address)) := by
  have hsaved : Retimed k { b with cpu := b.cpu.saveCycles } { b' with cpu := b'.cpu.saveCycles } :=
    h.saveCycles
  unfold Bus.getByteSpc
  rw [h.ffc0Address]
  split
  · split
    · split
      · exact Alike.ok ⟨rfl, h⟩
      · exact Alike.ok ⟨by rw [h.ram], h⟩
    · exact Alike.ok ⟨by rw [h.ram], h⟩
  · split
    · exact Alike.ok ⟨by rw [h.ram], h⟩
    · rename_i hlow hhigh
      have hlt : address.toNat - 0xF0 < Bus.readFuncMap.length := by
        change _ < 16
        omega
      have hmem := List.getElem_mem hlt
      rw [List.getD_eq_getElem _ _ hlt]
      generalize Bus.readFuncMap[address.toNat - 0xF0] = f at hmem ⊢
      exact hsaved.readFuncMap h.totalCycles address f hmem

/-- The writes of the hardware registers. -/
theorem writeFuncMap (h : Retimed k b b') (hk : 128 ∣ k.toNat)
    (htotal : b'.cpu.totalCycles = b.cpu.totalCycles - k) (address : BitVec 16) (data : Byte) :
    ∀ f ∈ Bus.writeFuncMap,
      Alike (Retimed k) (orTrap (f address data b)) (orTrap (f address data b')) := by
  have hctrl := h.spcWriteCtrl hk htotal address data
  have htimer := h.spcWriteTimer htotal address data
  have hinvalid : Alike (Retimed k) (orTrap (Bus.spcWriteInvalid address data b))
      (orTrap (Bus.spcWriteInvalid address data b')) := Alike.ok h
  have hram : Alike (Retimed k) (orTrap (Bus.spcWriteRam address data b))
      (orTrap (Bus.spcWriteRam address data b')) := Alike.ok (h.setRam address data)
  have hdsp : Alike (Retimed k) (orTrap (Bus.spcWriteDspData address data b))
      (orTrap (Bus.spcWriteDspData address data b')) :=
    Alike.ok ⟨h.ram, by rw [h.ram, h.regs], h.cpuRegs, h.portR, h.portW, h.ffc0Address, h.opcode,
      rfl, h.now, h.timers⟩
  have hport : Alike (Retimed k) (orTrap (Bus.spcWritePortW address data b))
      (orTrap (Bus.spcWritePortW address data b')) :=
    Alike.ok ⟨h.ram, h.regs, h.cpuRegs, h.portR, by rw [h.portW], h.ffc0Address, h.opcode,
      h.dspData, h.now, h.timers⟩
  unfold Bus.writeFuncMap
  simp only [List.forall_mem_cons]
  exact ⟨hinvalid, hctrl, hram, hdsp, hport, hport, hport, hport, hram, hram, htimer, htimer, htimer,
    hram, hram, hram, fun _ hf => absurd hf List.not_mem_nil⟩

/-- **A write.** -/
theorem setByteSpc (h : Retimed k b b') (hk : 128 ∣ k.toNat) (address : BitVec 16) (data : Byte) :
    Alike (Retimed k) (orTrap (b.setByteSpc address data)) (orTrap (b'.setByteSpc address data)) := by
  have hsaved : Retimed k { b with cpu := b.cpu.saveCycles } { b' with cpu := b'.cpu.saveCycles } :=
    h.saveCycles
  unfold Bus.setByteSpc
  dsimp only
  split
  · exact Alike.ok (hsaved.setRam address data)
  · rename_i hhardware
    have hlt : address.toNat - 0xF0 < Bus.writeFuncMap.length := by
      change _ < 16
      omega
    have hmem := List.getElem_mem hlt
    rw [List.getD_eq_getElem _ _ hlt]
    generalize Bus.writeFuncMap[address.toNat - 0xF0] = f at hmem ⊢
    exact hsaved.writeFuncMap hk h.totalCycles address data f hmem

/-! ## Cycles -/

/-- **The statements of a cycle**, by induction on the list. -/
theorem execBody (hk : 128 ∣ k.toNat) (body : List Stmt) :
    ∀ {b b' : Bus}, Retimed k b b' →
      Alike (fun x y => x.1 = y.1 ∧ Retimed k x.2 y.2) (Bus.execBody body b)
        (Bus.execBody body b') := by
  induction body with
  | nil => intro b b' h; exact Alike.ok ⟨rfl, h⟩
  | cons s body ih =>
      intro b b' h
      have hregs : b'.cpuRegs = b.cpuRegs := h.cpuRegs
      cases s with
      | getByte address assign =>
          unfold Bus.execBody
          rw [hregs]
          refine (h.getByteSpc _).bind ?_
          rintro ⟨v, b₁⟩ ⟨v', b₁'⟩ ⟨hv, hb⟩
          cases hv
          exact ih (hb.mapRegs _)
      | setByte address data =>
          unfold Bus.execBody
          rw [hregs]
          exact (h.setByteSpc hk _ _).bind fun x y hxy => ih hxy
      | assign f => exact ih (h.mapRegs f)
      | exitIf test =>
          unfold Bus.execBody
          rw [hregs]
          split
          · exact Alike.ok ⟨rfl, h⟩
          · exact ih h

/-- An opcode is fetched on both sides. -/
theorem fetch (h : Retimed k b b') : Alike (Retimed k) b.fetch b'.fetch := by
  unfold Bus.fetch
  have hpc : b'.cpu.pc = b.cpu.pc := congrArg CpuRegs.pc h.cpuRegs
  rw [hpc]
  refine (h.getByteSpc _).bind ?_
  rintro ⟨v, b₁⟩ ⟨v', b₁'⟩ ⟨hv, hb⟩
  cases hv
  have hregs := congrArg (fun r : CpuRegs => { r with pc := r.pc + 1 }) hb.cpuRegs
  have hnext : Retimed k
      { b₁ with cpu := { b₁.cpu with opcode := v, pc := b₁.cpu.pc + 1 } }
      { b₁' with cpu := { b₁'.cpu with opcode := v, pc := b₁'.cpu.pc + 1 } } :=
    ⟨hb.ram, hb.regs, hregs, hb.portR, hb.portW, hb.ffc0Address, rfl, hb.dspData, hb.now, hb.timers⟩
  exact Alike.ok (hnext.work 1)

end Retimed

end OpenSpc
