import OpenSpc.CoreLibrary
import OpenSpc.ForgetHistory

/-!
# The core on its bus

The results on the library leave the core open; they ask that it reaches the
machine through the bus, and that it reads no DSP register from 0x80 on.  Both
are shown here for `Execute_SPC`.
-/

namespace OpenSpc

/-! ## Accesses and cycles -/

/-- A core's actions lead from `b` to `b'`. -/
def Does (b b' : Bus) : Prop := ∃ as : List CoreAction, b.coreActs as = some b'

namespace Does

variable {b b' b'' : Bus}

/-- Doing nothing is an empty list. -/
theorem refl (b : Bus) : Does b b := ⟨[], rfl⟩

/-- Lists of actions one behind the other. -/
theorem trans (h : Does b b') (h' : Does b' b'') : Does b b'' := by
  obtain ⟨as, has⟩ := h
  obtain ⟨as', has'⟩ := h'
  refine ⟨as ++ as', ?_⟩
  unfold Bus.coreActs at has has' ⊢
  rw [List.foldlM_append, has]
  exact has'

/-- A single action. -/
theorem of_act (a : CoreAction) (h : b.act (a.on b) = some b') : Does b b' := by
  refine ⟨[a], ?_⟩
  unfold Bus.coreActs
  rw [List.foldlM_cons, h]
  rfl

/-- Counting cycles is an action. -/
theorem work (b : Bus) (n : Nat) : Does b (b.work n) := of_act (.work n) rfl

/-- Going on to a cycle is an action. -/
theorem setCycle (b : Bus) (c : Nat) : Does b (b.setCycle c) :=
  of_act (.setCycle (BitVec.ofNat 8 c)) rfl

/-- Computing on the registers is an action. -/
theorem mapRegs (b : Bus) (f : CpuRegs → CpuRegs) : Does b (b.mapRegs f) :=
  of_act (.setRegs (f b.cpuRegs)) rfl

/-- The opcode is kept beside the registers. -/
theorem setOpcode (b : Bus) (opcode : Byte) :
    Does b { b with cpu := { b.cpu with opcode := opcode } } :=
  of_act (.setOpcode opcode) rfl

/-- A read is an action. -/
theorem getByteSpc (b : Bus) (address : BitVec 16) :
    Ends (orTrap (b.getByteSpc address)) (fun p => Does b p.2) fun _ => True := by
  cases h : b.getByteSpc address with
  | none => exact Ends.error trivial
  | some p =>
      refine Ends.ok (of_act (.read address) ?_)
      change (b.getByteSpc address).map Prod.snd = _
      rw [h]
      rfl

/-- A write is an action. -/
theorem setByteSpc (b : Bus) (address : BitVec 16) (data : Byte) :
    Ends (orTrap (b.setByteSpc address data)) (Does b) fun _ => True := by
  cases h : b.setByteSpc address data with
  | none => exact Ends.error trivial
  | some b' => exact Ends.ok (of_act (.write address data) h)

/-- **The statements of a cycle**, by induction on the list. -/
theorem execBody (body : List Stmt) :
    ∀ b, Ends (Bus.execBody body b) (fun p => Does b p.2) fun _ => True := by
  induction body with
  | nil => intro b; exact Ends.ok (refl b)
  | cons s body ih =>
      intro b
      have hrest {b₁ : Bus} (h : Does b b₁) :
          Ends (Bus.execBody body b₁) (fun p => Does b p.2) fun _ => True :=
        (ih b₁).mono (fun p hp => h.trans hp) fun _ _ => trivial
      cases s with
      | getByte address assign =>
          unfold Bus.execBody
          exact (getByteSpc b _).bind fun p hp => hrest (hp.trans (mapRegs p.2 _))
      | setByte address data =>
          unfold Bus.execBody
          exact (setByteSpc b _ _).bind fun b₁ hb => hrest hb
      | assign f => exact hrest (mapRegs b f)
      | exitIf test =>
          unfold Bus.execBody
          split
          · exact Ends.ok (refl b)
          · exact ih b

/-- The fetch of an opcode is a read and two changes. -/
theorem fetch (b : Bus) : Ends b.fetch (Does b) fun _ => True := by
  unfold Bus.fetch
  refine (getByteSpc b _).bind ?_
  rintro ⟨v, b₁⟩ hb
  have hopcode : Does b₁ { b₁ with cpu := { b₁.cpu with opcode := v } } := setOpcode b₁ v
  have hnext := hopcode.trans (mapRegs _ fun r => { r with pc := r.pc + 1 })
  exact Ends.ok ((hb.trans hnext).trans (work _ 1))

/-- What was done before is part of the list. -/
theorem kept (b : Bus) : Bus.Kept (Does b) where
  fetch := by
    intro b₁ h
    exact (fetch b₁).mono (fun _ h' => h.trans h') fun _ _ => trivial
  body := by
    intro body b₁ h
    exact (execBody body b₁).mono (fun _ h' => h.trans h') fun _ _ => trivial
  work := fun b₁ n h => h.trans (work b₁ n)
  setCycle := fun b₁ c h => h.trans (setCycle b₁ c)

/-- The loop goes on from what the call has set up. -/
theorem executeSpc {b₁ : Bus} (h : Does b b₁.loadCycles) :
    Ends b₁.executeSpc (Does b) fun _ => True := by
  unfold Bus.executeSpc
  exact ((kept b).executeLoop _ b₁.loadCycles h).bind fun b₂ h₂ =>
    Ends.ok (h₂.trans (of_act .finish rfl))

/-- **A cycle**, which a call of `SPC_START` asks for. -/
theorem spcStart (b : Bus) : Ends (b.spcStart 1) (Does b) fun _ => True := by
  have hstart : Does b { b with cpu := b.cpu.spcStart 1 } := of_act .start rfl
  unfold Spc700Context.spcStart at hstart
  unfold Bus.spcStart
  dsimp only at hstart ⊢
  split
  · rename_i hle
    rw [if_pos hle] at hstart
    split
    · rename_i hmsb
      rw [if_pos hmsb] at hstart
      exact Ends.ok hstart
    · rename_i hmsb
      rw [if_neg hmsb] at hstart
      split
      · rename_i htotal
        rw [if_pos htotal] at hstart
        exact Ends.ok hstart
      · rename_i htotal
        rw [if_neg htotal] at hstart
        exact executeSpc hstart
  · rename_i hle
    rw [if_neg hle] at hstart
    exact executeSpc hstart

end Does

/-! ## The upper half of the DSP registers -/

/-- Two buses that differ at most in the DSP registers from 0x80 on. -/
structure SameLow (b b' : Bus) : Prop where
  cpu : b'.cpu = b.cpu
  ram : b'.ram = b.ram
  regs : ∀ i, i < 0x80 → b'.regs i = b.regs i

namespace SameLow

variable {b b' : Bus}

/-- What happens to the context alike. -/
theorem setCpu (h : SameLow b b') (f : Spc700Context → Spc700Context) :
    SameLow { b with cpu := f b.cpu } { b' with cpu := f b'.cpu } :=
  ⟨congrArg f h.cpu, h.ram, h.regs⟩

/-- A store to both. -/
theorem setRam (h : SameLow b b') (address : BitVec 16) (data : Byte) :
    SameLow { b with ram := Function.update b.ram address data }
      { b' with ram := Function.update b'.ram address data } := by
  refine ⟨h.cpu, ?_, h.regs⟩
  rw [h.ram]

/-- The same timers are on. -/
theorem timerOn (h : SameLow b b') (timer : Fin 3) : b'.timerOn timer = b.timerOn timer := by
  unfold Bus.timerOn
  rw [h.ram]

/-- A timer that is set on both. -/
theorem setTimer (h : SameLow b b') (timer : Fin 3) (t : Timer) :
    SameLow (b.setTimer timer t) (b'.setTimer timer t) :=
  h.setCpu fun c => { c with timers := Function.update c.timers timer t }

/-- A read of the DSP leaves bit 7 of its address out. -/
theorem spcReadDspData (h : SameLow b b') (address : BitVec 16) :
    Alike (fun x y => x.1 = y.1 ∧ SameLow x.2 y.2) (orTrap (b.spcReadDspData address))
      (orTrap (b'.spcReadDspData address)) := by
  refine Alike.ok ⟨?_, h⟩
  change b.regs ((b.ram 0xF2).toNat % 2 ^ 7) = b'.regs ((b'.ram 0xF2).toNat % 2 ^ 7)
  have hlow : (b.ram 0xF2).toNat % 2 ^ 7 < 0x80 := Nat.mod_lt _ (by decide)
  rw [h.ram, h.regs _ hlow]

/-- A counter is read without a look at the DSP registers. -/
theorem spcReadCounter (h : SameLow b b') (address : BitVec 16) :
    Alike (fun x y => x.1 = y.1 ∧ SameLow x.2 y.2) (orTrap (b.spcReadCounter address))
      (orTrap (b'.spcReadCounter address)) := by
  unfold Bus.spcReadCounter
  dsimp only
  rw [h.cpu, h.timerOn]
  cases (b.cpu.timers _).readCounter _ (b.timerOn _) b.cpu.totalCycles with
  | none => exact Alike.error _
  | some p => exact Alike.ok ⟨rfl, h.setTimer _ p.2⟩

/-- The reads of the hardware registers. -/
theorem readFuncMap (h : SameLow b b') (address : BitVec 16) :
    ∀ f ∈ Bus.readFuncMap, Alike (fun x y => x.1 = y.1 ∧ SameLow x.2 y.2)
      (orTrap (f address b)) (orTrap (f address b')) := by
  have hdsp := h.spcReadDspData address
  have hcounter := h.spcReadCounter address
  have hinvalid : Alike (fun x y => x.1 = y.1 ∧ SameLow x.2 y.2)
      (orTrap (Bus.spcReadInvalid address b)) (orTrap (Bus.spcReadInvalid address b')) :=
    Alike.ok ⟨rfl, h⟩
  have hram : Alike (fun x y => x.1 = y.1 ∧ SameLow x.2 y.2)
      (orTrap (Bus.spcReadRam address b)) (orTrap (Bus.spcReadRam address b')) :=
    Alike.ok ⟨by rw [h.ram], h⟩
  have hport : Alike (fun x y => x.1 = y.1 ∧ SameLow x.2 y.2)
      (orTrap (Bus.spcReadPortR address b)) (orTrap (Bus.spcReadPortR address b')) :=
    Alike.ok ⟨by rw [h.cpu], h⟩
  unfold Bus.readFuncMap
  simp only [List.forall_mem_cons]
  exact ⟨hinvalid, hinvalid, hram, hdsp, hport, hport, hport, hport, hram, hram, hinvalid, hinvalid,
    hinvalid, hcounter, hcounter, hcounter, fun _ hf => absurd hf List.not_mem_nil⟩

/-- **A read.** -/
theorem getByteSpc (h : SameLow b b') (address : BitVec 16) :
    Alike (fun x y => x.1 = y.1 ∧ SameLow x.2 y.2) (orTrap (b.getByteSpc address))
      (orTrap (b'.getByteSpc address)) := by
  have hram : b'.ram address = b.ram address := congrFun h.ram address
  unfold Bus.getByteSpc
  rw [hram]
  split
  · split
    · rw [h.cpu]
      split <;> exact Alike.ok ⟨rfl, h⟩
    · exact Alike.ok ⟨rfl, h⟩
  · split
    · exact Alike.ok ⟨rfl, h⟩
    · rename_i hlow hhigh
      have hlt : address.toNat - 0xF0 < Bus.readFuncMap.length := by
        change _ < 16
        omega
      have hmem := List.getElem_mem hlt
      rw [List.getD_eq_getElem _ _ hlt]
      generalize Bus.readFuncMap[address.toNat - 0xF0] = f at hmem ⊢
      exact (h.setCpu Spc700Context.saveCycles).readFuncMap address f hmem

/-- A write to the DSP goes to the same register of both. -/
theorem spcWriteDspData (h : SameLow b b') (address : BitVec 16) (data : Byte) :
    Alike SameLow (orTrap (b.spcWriteDspData address data))
      (orTrap (b'.spcWriteDspData address data)) := by
  refine Alike.ok ⟨?_, h.ram, ?_⟩
  · dsimp only
    rw [h.cpu]
  · intro i hi
    dsimp only
    rw [h.ram]
    by_cases heq : i = (b.ram 0xF2).toNat
    · rw [heq, Function.update_self, Function.update_self]
    · rw [Function.update_of_ne heq, Function.update_of_ne heq]
      exact h.regs i hi

/-- A target is written without a look at them. -/
theorem spcWriteTimer (h : SameLow b b') (address : BitVec 16) (data : Byte) :
    Alike SameLow (orTrap (b.spcWriteTimer address data))
      (orTrap (b'.spcWriteTimer address data)) := by
  unfold Bus.spcWriteTimer
  dsimp only
  rw [h.cpu, h.timerOn]
  cases (b.cpu.timers _).writeTarget _ (b.timerOn _) b.cpu.totalCycles data with
  | none => exact Alike.error _
  | some t => exact Alike.ok (h.setTimer _ t)

/-- CTRL is written without a look at them. -/
theorem spcWriteCtrl (h : SameLow b b') (address : BitVec 16) (data : Byte) :
    Alike SameLow (orTrap (b.spcWriteCtrl address data))
      (orTrap (b'.spcWriteCtrl address data)) := by
  have hstart (timer : Fin 3) {b b' : Bus} (h : SameLow b b') :
      let go := fun b : Bus =>
        if !ByteMask.bit (b.ram address) timer && ByteMask.bit data timer then b.spcStartTimer timer
        else b
      SameLow (go b) (go b') := by
    dsimp only
    rw [h.ram]
    split
    · unfold Bus.spcStartTimer
      rw [h.cpu]
      exact h.setTimer timer _
    · exact h
  have hports := h.setCpu fun c =>
    { c with
      ffc0Address := if ByteMask.bit data 7 then .rom else .ram
      portR := fun i =>
        if ByteMask.bit data 4 ∧ i.val < 2 then 0
        else if ByteMask.bit data 5 ∧ 2 ≤ i.val then 0 else c.portR i }
  exact Alike.ok ((hstart 2 (hstart 1 (hstart 0 hports))).setRam 0xF1 data)

/-- The writes of the hardware registers. -/
theorem writeFuncMap (h : SameLow b b') (address : BitVec 16) (data : Byte) :
    ∀ f ∈ Bus.writeFuncMap,
      Alike SameLow (orTrap (f address data b)) (orTrap (f address data b')) := by
  have hctrl := h.spcWriteCtrl address data
  have htimer := h.spcWriteTimer address data
  have hdsp := h.spcWriteDspData address data
  have hinvalid : Alike SameLow (orTrap (Bus.spcWriteInvalid address data b))
      (orTrap (Bus.spcWriteInvalid address data b')) := Alike.ok h
  have hram : Alike SameLow (orTrap (Bus.spcWriteRam address data b))
      (orTrap (Bus.spcWriteRam address data b')) := Alike.ok (h.setRam address data)
  have hport : Alike SameLow (orTrap (Bus.spcWritePortW address data b))
      (orTrap (Bus.spcWritePortW address data b')) :=
    Alike.ok (h.setCpu fun c =>
      { c with portW := Function.update c.portW (Fin.ofNat 4 address.toNat) data })
  unfold Bus.writeFuncMap
  simp only [List.forall_mem_cons]
  exact ⟨hinvalid, hctrl, hram, hdsp, hport, hport, hport, hport, hram, hram, htimer, htimer, htimer,
    hram, hram, hram, fun _ hf => absurd hf List.not_mem_nil⟩

/-- **A write.** -/
theorem setByteSpc (h : SameLow b b') (address : BitVec 16) (data : Byte) :
    Alike SameLow (orTrap (b.setByteSpc address data)) (orTrap (b'.setByteSpc address data)) := by
  have hsaved := h.setCpu Spc700Context.saveCycles
  unfold Bus.setByteSpc
  dsimp only
  split
  · exact Alike.ok (hsaved.setRam address data)
  · rename_i hhardware
    have hlt : address.toNat - 0xF0 < Bus.writeFuncMap.length := by
      change _ < 16
      omega
    have hmem := List.getElem_mem hlt
    rw [List.getD_eq_getElem _ _ hlt]
    generalize Bus.writeFuncMap[address.toNat - 0xF0] = f at hmem ⊢
    exact hsaved.writeFuncMap address data f hmem

/-- **The statements of a cycle**, by induction on the list. -/
theorem execBody (body : List Stmt) :
    ∀ {b b' : Bus}, SameLow b b' →
      Alike (fun x y => x.1 = y.1 ∧ SameLow x.2 y.2) (Bus.execBody body b)
        (Bus.execBody body b') := by
  induction body with
  | nil => intro b b' h; exact Alike.ok ⟨rfl, h⟩
  | cons s body ih =>
      intro b b' h
      have hregs : b'.cpuRegs = b.cpuRegs := congrArg Spc700Context.cpuRegs h.cpu
      have hmap {b b' : Bus} (h : SameLow b b') (f : CpuRegs → CpuRegs) :
          SameLow (b.mapRegs f) (b'.mapRegs f) := h.setCpu fun c => c.withRegs (f c.cpuRegs)
      cases s with
      | getByte address assign =>
          unfold Bus.execBody
          rw [hregs]
          refine (h.getByteSpc _).bind ?_
          rintro ⟨v, b₁⟩ ⟨v', b₁'⟩ ⟨hv, hb⟩
          cases hv
          exact ih (hmap hb _)
      | setByte address data =>
          unfold Bus.execBody
          rw [hregs]
          exact (h.setByteSpc _ _).bind fun x y hxy => ih hxy
      | assign f => exact ih (hmap h f)
      | exitIf test =>
          unfold Bus.execBody
          rw [hregs]
          split
          · exact Alike.ok ⟨rfl, h⟩
          · exact ih h

/-- Counting cycles on both. -/
theorem work (h : SameLow b b') (n : Nat) : SameLow (b.work n) (b'.work n) :=
  h.setCpu fun c => { c with workCycles := c.workCycles + BitVec.ofNat 32 n }

/-- Going on to a cycle on both. -/
theorem setCycle (h : SameLow b b') (c : Nat) : SameLow (b.setCycle c) (b'.setCycle c) :=
  h.setCpu fun x => { x with cycle := BitVec.ofNat 8 c }

/-- The budget is used up on both, or on neither. -/
theorem isDue (h : SameLow b b') : b'.isDue = b.isDue := by
  unfold Bus.isDue
  rw [h.cpu]

/-- An opcode is fetched on both. -/
theorem fetch (h : SameLow b b') : Alike SameLow b.fetch b'.fetch := by
  unfold Bus.fetch
  rw [h.cpu]
  refine (h.getByteSpc _).bind ?_
  rintro ⟨v, b₁⟩ ⟨v', b₁'⟩ ⟨hv, hb⟩
  cases hv
  exact Alike.ok ((hb.setCpu fun c => { c with opcode := v, pc := c.pc + 1 }).work 1)

/-- **The cycles of an opcode**, by induction on them. -/
theorem runCycles (ys : List Cycle) :
    ∀ {b b' : Bus} (c : Nat), SameLow b b' →
      Alike SameLow (Bus.runCycles ys c b) (Bus.runCycles ys c b') := by
  induction ys with
  | nil => intro b b' c h; exact Alike.error _
  | cons y ys ih =>
      intro b b' c h
      by_cases hc : b.cpu.cycle.toNat ≤ c - 1
      · rw [Bus.runCycles_next hc, Bus.runCycles_next (h.cpu ▸ hc)]
        refine (h.execBody y.body).bind ?_
        rintro ⟨exited, b₁⟩ ⟨exited', b₁'⟩ ⟨hexit, hb⟩
        cases hexit
        cases exited with
        | true => exact Alike.ok ((hb.work 1).setCycle 0)
        | false =>
            have hwork := hb.work y.work
            cases ys with
            | nil => exact Alike.ok (hwork.setCycle 0)
            | cons z zs =>
                change Alike SameLow (if (b₁.work y.work).isDue then .ok ((b₁.work y.work).setCycle c)
                    else Bus.runCycles (z :: zs) (c + 1) (b₁.work y.work))
                  (if (b₁'.work y.work).isDue then .ok ((b₁'.work y.work).setCycle c)
                    else Bus.runCycles (z :: zs) (c + 1) (b₁'.work y.work))
                rw [hwork.isDue]
                split
                · exact Alike.ok (hwork.setCycle c)
                · exact ih (c + 1) hwork
      · rw [Bus.runCycles_done hc, Bus.runCycles_done (h.cpu ▸ hc)]
        exact ih (c + 1) h

/-- The switch does the same on both. -/
theorem switch (h : SameLow b b') : Alike SameLow b.switch b'.switch := by
  unfold Bus.switch Bus.invalidSpcOpcode
  rw [h.cpu]
  split
  · exact runCycles _ 2 h
  · exact Alike.error _

/-- A pass of the loop does the same on both. -/
theorem pass (h : SameLow b b') : Alike SameLow b.pass b'.pass := by
  unfold Bus.pass
  rw [h.cpu]
  split
  · refine h.fetch.bind fun b₁ b₁' h₁ => ?_
    rw [h₁.isDue]
    split
    · exact Alike.ok (h₁.setCycle 1)
    · exact h₁.switch
  · exact h.switch

/-- **The loop**, by induction on the number of its passes. -/
theorem executeLoop (n : Nat) :
    ∀ {b b' : Bus}, SameLow b b' → Alike SameLow (b.executeLoop n) (b'.executeLoop n) := by
  induction n with
  | zero => intro b b' h; exact Alike.ok h
  | succ n ih =>
      intro b b' h
      unfold Bus.executeLoop
      rw [h.isDue]
      split
      · exact Alike.ok h
      · exact h.pass.bind fun b₁ b₁' h₁ => ih h₁

/-- **A call of `Execute_SPC` sees none of the upper registers.** -/
theorem executeSpc (h : SameLow b b') : Alike SameLow b.executeSpc b'.executeSpc := by
  have hload : SameLow b.loadCycles b'.loadCycles := h.setCpu Spc700Context.loadCycles
  unfold Bus.executeSpc
  dsimp only
  rw [hload.cpu]
  exact (executeLoop _ hload).bind fun b₁ b₁' h₁ => Alike.ok (h₁.setCpu Spc700Context.saveCycles)

/-- **A call of `SPC_START`.** -/
theorem spcStart (h : SameLow b b') (cycles : BitVec 32) :
    Alike SameLow (b.spcStart cycles) (b'.spcStart cycles) := by
  have hcharge := h.setCpu fun c => { c with cycles := c.cycles + cycles }
  unfold Bus.spcStart
  dsimp only at hcharge ⊢
  rw [h.cpu] at hcharge ⊢
  split
  · split
    · exact Alike.ok hcharge
    · split
      · exact Alike.ok hcharge
      · exact (hcharge.setCpu Spc700Context.wrapSpcCyclecounter).executeSpc
  · exact hcharge.executeSpc

end SameLow

/-- When it stops it does nothing. -/
theorem cpuCore_isBusCore : IsBusCore cpuCore := by
  intro b
  have hdoes := Does.spcStart b
  unfold cpuCore
  cases hrun : b.spcStart 1 with
  | ok b₁ =>
      rw [hrun] at hdoes
      exact hdoes
  | error e => exact Does.refl b

/-- Two cores that differ only from 0x80 on also stop together. -/
theorem cpuCore_readsLow : CoreReadsLow cpuCore := by
  intro b b' hcpu hram hregs
  have hsame : SameLow b b' := ⟨hcpu, hram, hregs⟩
  have hboth := hsame.spcStart 1
  suffices h : SameLow (cpuCore b) (cpuCore b') from ⟨h.cpu, h.ram, h.regs⟩
  unfold cpuCore
  cases hrun : b.spcStart 1 with
  | ok b₁ =>
      obtain ⟨b₁', hrun', h₁⟩ := hboth.of_ok hrun
      rw [hrun']
      exact h₁
  | error e =>
      rw [hrun] at hboth
      cases hrun' : b'.spcStart 1 with
      | ok b₁' =>
          rw [hrun'] at hboth
          exact hboth.elim
      | error e' => exact hsame

/-- **The core is one the library can be trusted with.**  All that a cycle of it
does is done by accesses to the bus, counts of cycles and changes of its own
registers, and depends on no DSP register from 0x80 on. -/
theorem cpuCore_fits : IsBusCore cpuCore ∧ CoreReadsLow cpuCore :=
  ⟨cpuCore_isBusCore, cpuCore_readsLow⟩

/-- **No call of the library on its core divides by zero**: in the state after
any calls, every program of the CPU runs through. -/
theorem cpuLibrary_never_traps (host : Nat → Byte) (cs : List ApiCall) (as : List BusAction) :
    Returns ((bootLibrary.apis host cpuCore cs).1.machine.bus.acts as) TimersInv :=
  library_never_traps cpuCore_isBusCore cs as

end OpenSpc
