import Mathlib.Data.List.GetD
import OpenSpc.CpuRegs
import OpenSpc.ForgetHistory
import OpenSpc.SpcBus

/-!
# The timers never divide by zero

`SetState` takes targets and counters from the image and leaves positions and
latches as the reset made them.  From there no program, whatever it reads and
writes and however long it waits, makes an update divide by 0 or store a
position that sixteen bits do not hold.
-/

namespace OpenSpc

/-- What the timer code relies on, for all three timers. -/
def TimersInv (b : Bus) : Prop := ∀ timer, TimerInv (b.cpu.timers timer)

/-- The next update divides by a number other than 0 and leaves its remainder,
and the next write of the target moves the position it finds by 256 or not at
all: nothing is lost in the 16-bit field. -/
structure TimerExact (timer : Fin 3) (t : Timer) : Prop where
  divisor : BitVec.ofInt 32 t.target ≠ 0
  update : ∀ on total, ∃ u, t.update timer on total = some u ∧
    u.position = if on then ((t.advanced timer total).toNat : Int) % t.target else t.position
  write : ∀ on total data, ∃ w, t.writeTarget timer on total data = some w ∧
    (w = t ∨ ∃ u, t.update timer on total = some u ∧
      w.position = if w.target ≤ u.position then u.position - 256 else u.position)

/-- The invariant of a timer gives the bounds and the exact storage. -/
theorem TimerInv.exact {t : Timer} (h : TimerInv t) (timer : Fin 3) : TimerExact timer t where
  divisor := h.target_ne_zero
  update := by
    intro on total
    obtain ⟨u, hu, -, -, hposition, -⟩ := h.update timer on total
    exact ⟨u, hu, hposition⟩
  write := by
    intro on total data
    obtain ⟨w, hw, -, hposition⟩ := h.writeTarget timer on total data
    exact ⟨w, hw, hposition⟩

namespace TimersInv

variable {b : Bus}

theorem of_timers (h : TimersInv b) {b' : Bus} (heq : b'.cpu.timers = b.cpu.timers) :
    TimersInv b' := by
  intro timer
  rw [heq]
  exact h timer

theorem setTimer (h : TimersInv b) (timer : Fin 3) {t : Timer} (ht : TimerInv t) :
    TimersInv (b.setTimer timer t) := by
  intro i
  change TimerInv (Function.update b.cpu.timers timer t i)
  by_cases hi : i = timer
  · rw [hi, Function.update_self]
    exact ht
  · rw [Function.update_of_ne hi]
    exact h i

theorem spcStartTimer (h : TimersInv b) (timer : Fin 3) : TimersInv (b.spcStartTimer timer) :=
  h.setTimer timer ((h timer).start timer _)

theorem spcStart (h : TimersInv b) (cycles : BitVec 32) :
    TimersInv { b with cpu := b.cpu.spcStart cycles } := by
  have hwrap : TimersInv { b with cpu :=
      { b.cpu with cycles := b.cpu.cycles + cycles }.wrapSpcCyclecounter.loadCycles } :=
    fun timer => (h timer).move (h timer).position_gt (h timer).position_lt _
  unfold Spc700Context.spcStart
  dsimp only
  split
  · split
    · exact h
    · split
      · exact h
      · exact hwrap
  · exact h

/-! ## Accesses -/

/-- Reading a counter never traps. -/
theorem spcReadCounter (h : TimersInv b) (address : BitVec 16) :
    Returns (b.spcReadCounter address) fun p => TimersInv p.2 :=
  Returns.map (((h _).readCounter _ _ _).mono fun _ hp => h.setTimer _ hp)

/-- Of the sixteen reads three are of a counter; the others change nothing. -/
theorem readFuncMap (h : TimersInv b) (address : BitVec 16) :
    ∀ f ∈ Bus.readFuncMap, Returns (f address b) fun p => TimersInv p.2 := by
  have hcounter := h.spcReadCounter address
  have hrest (data : Byte) : Returns (some (data, b)) fun p => TimersInv p.2 := Returns.ret h
  unfold Bus.readFuncMap
  simp only [List.forall_mem_cons]
  exact ⟨hrest _, hrest _, hrest _, hrest _, hrest _, hrest _, hrest _, hrest _, hrest _, hrest _,
    hrest _, hrest _, hrest _, hcounter, hcounter, hcounter, fun _ hf => absurd hf List.not_mem_nil⟩

/-- **A read.** -/
theorem getByteSpc (h : TimersInv b) (address : BitVec 16) :
    Returns (b.getByteSpc address) fun p => TimersInv p.2 := by
  have hsaved : TimersInv { b with cpu := b.cpu.saveCycles } := h
  unfold Bus.getByteSpc
  split
  · split
    · split <;> exact Returns.ret h
    · exact Returns.ret h
  · split
    · exact Returns.ret h
    · rename_i hlow hhigh
      rw [List.getD_eq_getElem _ _ (by change _ < 16; omega)]
      exact hsaved.readFuncMap address _ (List.getElem_mem _)

/-- Writing the control register never traps. -/
theorem spcWriteCtrl (h : TimersInv b) (address : BitVec 16) (data : Byte) :
    Returns (b.spcWriteCtrl address data) TimersInv := by
  have hstart (timer : Fin 3) (on : Bool) {b : Bus} (h : TimersInv b) :
      TimersInv (if on then b.spcStartTimer timer else b) := by
    split
    · exact h.spcStartTimer timer
    · exact h
  refine Returns.ret ?_
  exact hstart 2 _ (hstart 1 _ (hstart 0 _ h))

/-- Writing a target never traps. -/
theorem spcWriteTimer (h : TimersInv b) (address : BitVec 16) (data : Byte) :
    Returns (b.spcWriteTimer address data) TimersInv :=
  Returns.map (((h _).writeTarget _ _ _ data).mono fun _ ht => h.setTimer _ ht.1)

/-- Of the sixteen writes four are to the timers. -/
theorem writeFuncMap (h : TimersInv b) (address : BitVec 16) (data : Byte) :
    ∀ f ∈ Bus.writeFuncMap, Returns (f address data b) TimersInv := by
  have hctrl := h.spcWriteCtrl address data
  have htimer := h.spcWriteTimer address data
  have hnone : Returns (b.spcWriteInvalid address data) TimersInv := Returns.ret h
  have hram : Returns (b.spcWriteRam address data) TimersInv := Returns.ret h
  have hdsp : Returns (b.spcWriteDspData address data) TimersInv := Returns.ret h
  have hport : Returns (b.spcWritePortW address data) TimersInv := Returns.ret h
  unfold Bus.writeFuncMap
  simp only [List.forall_mem_cons]
  exact ⟨hnone, hctrl, hram, hdsp, hport, hport, hport, hport, hram, hram, htimer, htimer, htimer,
    hram, hram, hram, fun _ hf => absurd hf List.not_mem_nil⟩

/-- **A write.** -/
theorem setByteSpc (h : TimersInv b) (address : BitVec 16) (data : Byte) :
    Returns (b.setByteSpc address data) TimersInv := by
  have hsaved : TimersInv { b with cpu := b.cpu.saveCycles } := h
  unfold Bus.setByteSpc
  dsimp only
  split
  · exact Returns.ret h
  · rename_i hhardware
    rw [List.getD_eq_getElem _ _ (by change _ < 16; omega)]
    exact hsaved.writeFuncMap address data _ (List.getElem_mem _)

/-! ## Programs -/

/-- **One action.** -/
theorem act (h : TimersInv b) (a : BusAction) : Returns (b.act a) TimersInv := by
  cases a with
  | read address => exact Returns.map (h.getByteSpc address)
  | write address data => exact h.setByteSpc address data
  | work n => exact Returns.ret h
  | start cycles => exact Returns.ret (h.spcStart cycles)
  | finish => exact Returns.ret h
  | internal c => exact Returns.ret h
  | outside ram regs => exact Returns.ret h

/-- **Every program.** -/
theorem acts (h : TimersInv b) (as : List BusAction) : Returns (b.acts as) TimersInv :=
  Returns.foldlM (fun _ a hb => hb.act a) as b h

/-- What a fresh CPU has loaded. -/
theorem loaded (r : SavedRegs) (image : Ram) (regs : Regs) :
    TimersInv (loadedBus r image regs) := by
  intro timer
  have htarget (x : Byte) : 1 ≤ (x.toNat : Int) + 1 ∧ (x.toNat : Int) + 1 ≤ 256 := by
    have hlt := x.isLt
    omega
  obtain ⟨hpos, hle⟩ := htarget (image (0xFA + BitVec.ofNat 16 timer) - 1)
  have hcounter (x : Byte) : (x &&& 0xF).toNat ≤ 15 := by
    rw [TimerInv.low_nybble]
    omega
  have hzero : (-256 : Int) < 0 := by decide
  exact ⟨hpos, hle, hcounter _, hzero, hpos⟩

end TimersInv

/-- **Loaded timers stay in shape.**  From whatever image the state is set on a
fresh CPU, every program runs without a zero divisor, and leaves every timer
with a target from 1 to 256, a counter of four bits and a position between -256
and the target, which its field holds exactly. -/
theorem loaded_timers (r : SavedRegs) (image : Ram) (regs : Regs) (as : List BusAction) :
    ∃ b, (loadedBus r image regs).acts as = some b ∧
      ∀ timer, TimerInv (b.cpu.timers timer) ∧ TimerExact timer (b.cpu.timers timer) := by
  obtain ⟨b, hrun, hinv⟩ := (TimersInv.loaded r image regs).acts as
  exact ⟨b, hrun, fun timer => ⟨hinv timer, (hinv timer).exact timer⟩⟩

/-! ## The library -/

/-- What a core does in a cycle: it reaches the bus, counts time, which begins
with `_Cycles += 1` and ends with `save_cycles_spc`, and changes registers that
are its own. -/
inductive CoreAction where
  | read (address : BitVec 16)
  | write (address : BitVec 16) (data : Byte)
  | start
  | work (n : Nat)
  | finish
  | setRegs (r : CpuRegs)
  | setOpcode (opcode : Byte)
  | setCycle (c : Byte)

/-- As an action of a program on the bus as it is. -/
def CoreAction.on (b : Bus) : CoreAction → BusAction
  | .read address => .read address
  | .write address data => .write address data
  | .start => .start 1
  | .work n => .work (BitVec.ofNat 32 n)
  | .finish => .finish
  | .setRegs r => .internal (b.cpu.withRegs r)
  | .setOpcode opcode => .internal { b.cpu with opcode := opcode }
  | .setCycle c => .internal { b.cpu with cycle := c }

/-- A list of a core's actions. -/
def Bus.coreActs (b : Bus) (as : List CoreAction) : Option Bus :=
  as.foldlM (fun b a => b.act (a.on b)) b

/-- All that a cycle of the core does is done by a list of its actions, which
runs through. -/
def IsBusCore (core : Bus → Bus) : Prop :=
  ∀ b, ∃ as : List CoreAction, b.coreActs as = some (core b)

/-- A core that tries the same actions in every cycle. -/
example (as : List CoreAction) : IsBusCore fun b => (b.coreActs as).getD b := by
  intro b
  dsimp only
  cases hrun : b.coreActs as with
  | none => exact ⟨[], rfl⟩
  | some b' => exact ⟨as, hrun⟩

/-- The bus as the CPU of a machine finds it. -/
def Machine.bus (m : Machine) : Bus := ⟨m.cpu, m.dsp.spcRam, m.dsp.dspRegs⟩

section Library

variable {host : Nat → Byte} {core : Bus → Bus}

/-- A list of actions of a core is one of a program. -/
theorem TimersInv.coreActs {b : Bus} (h : TimersInv b) (as : List CoreAction) :
    Returns (b.coreActs as) TimersInv :=
  Returns.foldlM (fun b a hb => hb.act (a.on b)) as b h

/-- **A cycle of a core.** -/
theorem TimersInv.cycle (hcore : IsBusCore core) {b : Bus} (h : TimersInv b) :
    TimersInv (core b) := by
  obtain ⟨as, has⟩ := hcore b
  obtain ⟨b', hrun, hinv⟩ := h.coreActs as
  rw [has] at hrun
  cases hrun
  exact hinv

/-- Any number of steps of a core that works through its list of accesses. -/
theorem TimersInv.spcRun (hcore : IsBusCore core) (n : Nat) :
    ∀ {m : Machine}, TimersInv m.bus → TimersInv (m.spcRun core n).bus := by
  induction n with
  | zero => intro m h; exact h
  | succ n ih => intro m h; exact ih (h.cycle hcore)

/-- `DSP_Update` leaves the context alone. -/
theorem TimersInv.call (hcore : IsBusCore core) (m : Machine) (c : Call) (h : TimersInv m.bus) :
    TimersInv (m.call host core c).1.bus := by
  cases c with
  | dspUpdate buf => exact h
  | spcRun n => exact h.spcRun hcore n

/-- The timers before the first image is loaded. -/
theorem newContext_timers (s : Dsp) : TimersInv (newContext s).bus := by
  intro timer
  have hpos : (1 : Int) ≤ 256 := by decide
  have hzero : (-256 : Int) < 0 := by decide
  exact ⟨hpos, le_rfl, Nat.zero_le 15, hzero, hpos⟩

/-- Both loaders set the state of the fresh context. -/
theorem load_timers {s : Dsp} {buf : Nat → Byte} {size : Nat} {m : Machine}
    (hload : (newContext s).load buf size true = some m) : TimersInv m.bus := by
  unfold Machine.load at hload
  obtain ⟨t, ht, rfl⟩ := Option.map_eq_some_iff.mp hload
  have hset : ∃ r image, t.cpu = setState r image resetSpc := by
    cases hspc : (newContext s).loadSpc buf size with
    | some u =>
        rw [hspc] at ht
        cases ht
        unfold Machine.loadSpc at hspc
        split at hspc
        · cases hspc
        · cases hspc
          exact ⟨_, _, rfl⟩
    | none =>
        rw [hspc] at ht
        dsimp only at ht
        unfold Machine.loadZst at ht
        split at ht
        · cases ht
        · cases ht
          exact ⟨_, _, rfl⟩
  obtain ⟨r, image, hcpu⟩ := hset
  exact (TimersInv.loaded r image t.dsp.dspRegs).of_timers (congrArg Spc700Context.timers hcpu)

/-- **One call of the library.** -/
theorem TimersInv.api (hcore : IsBusCore core) (s : Library) (c : ApiCall)
    (h : TimersInv s.machine.bus) : TimersInv (s.api host core c).1.machine.bus := by
  cases c with
  | init buf size =>
      change TimersInv (s.init buf size).1.machine.bus
      unfold Library.init
      dsimp only
      split
      · rename_i hload
        exact load_timers hload
      · exact newContext_timers _
  | run cyc buf size =>
      change TimersInv (s.machine.exec host core _).1.bus
      rw [Machine.exec_eq_run]
      exact TwoRuns.invariant (I := fun m : Machine => TimersInv m.bus)
        (fun m c => TimersInv.call hcore m c) _ _ h
  | writePort i b => exact h
  | readPort i => exact h
  | setChannelMask mask => exact h

/-- **No call of the library divides by zero**: in the state after any calls,
every program of the CPU runs through. -/
theorem library_never_traps (hcore : IsBusCore core) (cs : List ApiCall) (as : List BusAction) :
    Returns ((bootLibrary.apis host core cs).1.machine.bus.acts as) TimersInv := by
  have hboot : TimersInv bootLibrary.machine.bus := newContext_timers zeroDsp
  rw [Library.apis_eq_run]
  have hinv : TimersInv (TwoRuns.run (Library.api host core) bootLibrary cs).1.machine.bus :=
    TwoRuns.invariant (I := fun s : Library => TimersInv s.machine.bus)
      (fun s c => TimersInv.api hcore s c) cs bootLibrary hboot
  exact hinv.acts as

end Library

end OpenSpc
