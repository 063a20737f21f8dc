import OpenSpc.CoreSafety
import OpenSpc.RunLockstep

/-!
# The library on its core

`Library.apis` takes the CPU as a function that runs one cycle and never fails.
Here the library calls `SPC_START` as the source does, with as many cycles as
`Run` hands it at a time, and ends when the core does.  Until then nobody can
tell it from the library on single cycles.
-/

namespace OpenSpc

/-! ## The calls -/

/-- `SpcCpu::Run`, as one call of `SPC_START`. -/
def Machine.start (n : Nat) (s : Machine) : Except Halt Machine := do
  let b ← s.bus.spcStart (BitVec.ofNat 32 n)
  .ok { cpu := b.cpu, dsp := { s.dsp with spcRam := b.ram, dspRegs := b.regs } }

/-- What one call does, and the stereo pair it stores. -/
def Machine.tryCall (host : Nat → Byte) (s : Machine) :
    Call → Except Halt (Machine × List (Int × Int))
  | .dspUpdate buf =>
      let u := dspUpdate host buf.isSome s.dsp
      .ok ({ s with dsp := u.dsp }, u.sample.toList)
  | .spcRun n => do
      let s ← s.start n
      .ok (s, [])

namespace Library

/-- One call of the interface. -/
def tryApi (host : Nat → Byte) (s : Library) : ApiCall → Except Halt (Library × ApiResult)
  | .run cyc buf size => do
      let p := runPlan s.mixLeft cyc buf (size % 2 ^ 64).toNat
      let (m, pairs) ← TwoRuns.tryRun (Machine.tryCall host) s.machine p.calls
      .ok ({ machine := m, mixLeft := p.mixLeft }, { ret := p.ret, pairs := pairs.flatten })
  | .init buf size => .ok (s.init buf size)
  | .writePort i b =>
      .ok ({ s with machine := { s.machine with cpu := spcWritePortR i b s.machine.cpu } },
        { ret := 0, pairs := [] })
  | .readPort i => .ok (s, { ret := (spcReadPortW i s.machine.cpu).toInt, pairs := [] })
  | .setChannelMask mask =>
      .ok ({ s with machine := { s.machine with dsp := { s.machine.dsp with channelMask := mask } } },
        { ret := 0, pairs := [] })

/-- A sequence of calls. -/
def tryApis (host : Nat → Byte) (s : Library) (cs : List ApiCall) :
    Except Halt (Library × List ApiResult) :=
  TwoRuns.tryRun (tryApi host) s cs

end Library

/-- One cycle of the core, which does nothing once it has stopped. -/
def cpuCore (b : Bus) : Bus :=
  match b.spcStart 1 with
  | .ok b' => b'
  | .error _ => b

/-! ## Single cycles -/

/-- A machine with the CPU's side of it replaced. -/
def Machine.withBus (s : Machine) (b : Bus) : Machine :=
  { cpu := b.cpu, dsp := { s.dsp with spcRam := b.ram, dspRegs := b.regs } }

/-- A core that stands at an opcode stands there after any number of cycles. -/
theorem StandsAt.spcRun {e : Halt} (n : Nat) :
    ∀ {s : Machine}, StandsAt e s.bus → StandsAt e (s.spcRun cpuCore n).bus := by
  induction n with
  | zero => intro s h; exact h
  | succ n ih =>
      intro s h
      refine ih (s := s.withBus (cpuCore s.bus)) ?_
      have hnext := h.spcStart 1
      change StandsAt e (cpuCore s.bus)
      unfold cpuCore
      cases hrun : s.bus.spcStart 1 with
      | ok b =>
          rw [hrun] at hnext
          exact hnext
      | error e' => exact h

/-- **Cycle by cycle**, by induction on their number: as long as the core does
not stop, it is called once for each; and when it does, it stays where it is. -/
theorem Machine.spcRun_cpuCore (n : Nat) :
    ∀ {s : Machine}, CoreInv s.bus → s.bus.ahead ≤ 10 →
      Ends (s.bus.spcStarts (List.replicate n 1))
        (fun b => s.spcRun cpuCore n = s.withBus b ∧ CoreInv b ∧ b.ahead ≤ 10)
        fun e => StandsAt e (s.spcRun cpuCore n).bus := by
  induction n with
  | zero => intro s h hahead; exact Ends.ok ⟨rfl, h, hahead⟩
  | succ n ih =>
      intro s h hahead
      have hstands := h.spcStart_stands hahead
      have hsafe := spcStarts_safe h hahead (show ∀ k ∈ [1], k < 2 ^ 31 by decide)
      have hone : s.bus.spcStarts [1] = s.bus.spcStart 1 := bind_pure _
      unfold Bus.spcStarts
      rw [List.replicate_succ, List.foldlM_cons]
      change Ends (s.bus.spcStart 1 >>= fun b => b.spcStarts (List.replicate n 1)) _ _
      rw [hone] at hsafe
      change Ends _ (fun b => (s.withBus (cpuCore s.bus)).spcRun cpuCore n = s.withBus b ∧ _)
        fun e => StandsAt e ((s.withBus (cpuCore s.bus)).spcRun cpuCore n).bus
      unfold cpuCore
      cases hrun : s.bus.spcStart 1 with
      | error e =>
          rw [hrun] at hstands
          have hat : StandsAt e s.bus := hstands
          exact Ends.error (hat.spcRun n)
      | ok b =>
          rw [hrun] at hsafe
          exact ih (s := s.withBus b) hsafe.1 hsafe.2.ahead

/-! ## Both libraries -/

/-- Two machines whose CPUs rest at the same point and whose DSPs are the same. -/
structure MachineAlike (m m' : Machine) : Prop where
  cpu : RestAlike m.bus m'.bus
  dsp : m'.dsp = m.dsp
  safe : CoreInv m.bus
  ahead : m.bus.ahead ≤ 10

namespace MachineAlike

variable {host : Nat → Byte} {m m' : Machine}

/-- **Some cycles**, one by one and at a time. -/
theorem start (h : MachineAlike m m') {n : Nat} (hn : n < 2 ^ 31) :
    Ends (m'.start n) (MachineAlike (m.spcRun cpuCore n))
      fun e => StandsAt e (m.spcRun cpuCore n).bus := by
  have hones : ∀ k ∈ List.replicate n 1, k < 2 ^ 31 := by
    intro k hk
    rw [List.eq_of_mem_replicate hk]
    decide
  have hall : ∀ k ∈ [n], k < 2 ^ 31 := by
    intro k hk
    rw [List.mem_singleton.mp hk]
    exact hn
  have hboth := spcStarts_alike h.cpu h.ahead hones hall (by simp)
  have hone : m'.bus.spcStarts [n] = m'.bus.spcStart (BitVec.ofNat 32 n) := bind_pure _
  have hends := hboth.ends (Machine.spcRun_cpuCore n h.safe h.ahead)
  rw [hone] at hends
  refine hends.bind ?_
  rintro b' ⟨b, ⟨hrest, -⟩, hrun, hinv, hb⟩
  obtain ⟨k, hk, hsame, hcycle⟩ := hrest.abreast
  have hram : b'.ram = b.ram := hsame.ram
  have hregs : b'.regs = b.regs := hsame.regs
  rw [hrun]
  refine Ends.ok ⟨hrest, ?_, hinv, hb⟩
  unfold Machine.withBus
  dsimp only
  rw [h.dsp, hram, hregs]

/-- **One call.** -/
theorem call (h : MachineAlike m m') {c : Call} (hc : ∀ n, c = .spcRun n → n < 2 ^ 31) :
    Ends (m'.tryCall host c)
      (fun p => MachineAlike (m.call host cpuCore c).1 p.1 ∧ p.2 = (m.call host cpuCore c).2)
      fun e => StandsAt e (m.call host cpuCore c).1.bus := by
  cases c with
  | dspUpdate buf =>
      have hrest : RestAlike { m.bus with
          ram := (dspUpdate host buf.isSome m.dsp).dsp.spcRam
          regs := (dspUpdate host buf.isSome m.dsp).dsp.dspRegs }
        { m'.bus with
          ram := (dspUpdate host buf.isSome m.dsp).dsp.spcRam
          regs := (dspUpdate host buf.isSome m.dsp).dsp.dspRegs } := h.cpu.outside _ _
      have hinv : CoreInv (m.call host cpuCore (.dspUpdate buf)).1.bus :=
        ⟨h.safe.timers, h.safe.cycle⟩
      unfold Machine.tryCall
      rw [h.dsp]
      exact Ends.ok ⟨⟨hrest, rfl, hinv, h.ahead⟩, rfl⟩
  | spcRun n => exact (h.start (hc n rfl)).bind fun m₁ hm => Ends.ok ⟨hm, rfl⟩

end MachineAlike

/-- Neither the DSP nor the clock brings a core on that has stopped. -/
theorem StandsAt.call {e : Halt} {m : Machine} (h : StandsAt e m.bus) (host : Nat → Byte)
    (c : Call) : StandsAt e (m.call host cpuCore c).1.bus := by
  cases c with
  | dspUpdate buf => exact ⟨h.fetched, h.opcode, h.error⟩
  | spcRun n => exact h.spcRun n

/-! ### The numbers of cycles `Run` hands over -/

/-- Between two samples the core is asked for a whole period. -/
theorem mem_bufferLoop {n k : Nat} {buf : Option Nat} (h : Call.spcRun n ∈ bufferLoop k buf) :
    n = tsCyc := by
  induction k generalizing buf with
  | zero => cases h
  | succ k ih =>
      unfold bufferLoop at h
      rw [List.mem_cons, List.mem_cons] at h
      obtain h | h | h := h
      · cases h
      · cases h
        rfl
      · exact ih h

/-- The core is first asked for what was left. -/
theorem mem_drainCalls {n m : Nat} (h : Call.spcRun n ∈ drainCalls m) : n = m := by
  unfold drainCalls at h
  split at h
  · rw [List.mem_singleton] at h
    cases h
    rfl
  · cases h

/-- Never more than a sample period at a time, and never more left of one. -/
theorem runPlan_small {m : Nat} (hm : m ≤ tsCyc) (cyc : Int) (buf : Bool) (size : Nat) :
    (∀ n, Call.spcRun n ∈ (runPlan m cyc buf size).calls → n ≤ tsCyc) ∧
      ∃ m' : Nat, (runPlan m cyc buf size).mixLeft = m' ∧ m' ≤ tsCyc := by
  have hbody {n k : Nat} {pair : Option Nat}
      (h : Call.spcRun n ∈ drainCalls m ++ bufferLoop k pair) : n ≤ tsCyc := by
    obtain h | h := List.mem_append.mp h
    · exact (mem_drainCalls h).trans_le hm
    · exact (mem_bufferLoop h).le
  rcases runPlan_cases m cyc buf size with
    ⟨-, hplan⟩ | ⟨-, hlt, hplan⟩ | ⟨-, k, -, hplan⟩ | ⟨-, k, r, hr, -, hplan⟩
  · rw [hplan]
    exact ⟨fun n h => hbody h, 0, rfl, Nat.zero_le _⟩
  · rw [hplan]
    refine ⟨fun n h => ?_, m - cyc.toNat, ?_, ?_⟩
    · rw [List.mem_singleton] at h
      cases h
      omega
    · dsimp only
      omega
    · omega
  · rw [hplan]
    exact ⟨fun n h => hbody h, m, rfl, hm⟩
  · rw [hplan]
    refine ⟨fun n h => ?_, tsCyc - r, ?_, Nat.sub_le _ _⟩
    · obtain h | h := List.mem_append.mp h
      · exact hbody h
      · rw [List.mem_cons, List.mem_singleton] at h
        obtain h | h := h
        · cases h
        · cases h
          exact hr.2.le
    · dsimp only
      omega

/-- Two libraries with such machines, equally far into a sample period. -/
structure LibraryAlike (s s' : Library) : Prop where
  machine : MachineAlike s.machine s'.machine
  mixLeft : s'.mixLeft = s.mixLeft
  small : ∃ m : Nat, s.mixLeft = m ∧ m ≤ tsCyc

namespace LibraryAlike

variable {host : Nat → Byte} {s s' : Library}

/-- The reset is paid for later. -/
theorem ahead_resetSpc : (resetSpc.totalCycles - resetSpc.cycles).toNat ≤ 10 := by decide

/-- A CPU that has just been set up. -/
theorem fresh {m : Machine} (htimers : TimersInv m.bus) (hcycle : m.cpu.cycle = 0)
    (hahead : m.bus.ahead ≤ 10) : MachineAlike m m where
  cpu := RestAlike.refl _
  dsp := rfl
  safe := ⟨htimers, by
    intro ys _
    change m.cpu.cycle.toNat ≤ _
    rw [hcycle]
    exact Nat.zero_le _⟩
  ahead := hahead

/-- A new context is like itself. -/
theorem newContext (d : Dsp) : MachineAlike (newContext d) (newContext d) :=
  fresh (newContext_timers d) rfl ahead_resetSpc

/-- The CPU of a loaded image. -/
theorem load_cpu {d : Dsp} {buf : Nat → Byte} {size : Nat} {m : Machine}
    (hload : (OpenSpc.newContext d).load buf size true = some m) :
    ∃ r image, m.cpu = setState r image resetSpc := by
  unfold Machine.load Machine.loadSpc Machine.loadZst at hload
  obtain ⟨t, ht, rfl⟩ := Option.map_eq_some_iff.mp hload
  dsimp only at ht
  split at ht
  · rename_i u hu
    split at hu
    · cases hu
    · cases hu
      cases ht
      exact ⟨_, _, rfl⟩
  · split at ht
    · cases ht
    · cases ht
      exact ⟨_, _, rfl⟩

/-- `SetState` does not touch the clock. -/
theorem load {d : Dsp} {buf : Nat → Byte} {size : Nat} {m : Machine}
    (hload : (OpenSpc.newContext d).load buf size true = some m) : MachineAlike m m := by
  obtain ⟨r, image, hcpu⟩ := load_cpu hload
  refine fresh (load_timers hload) ?_ ?_
  · rw [hcpu]
    rfl
  · change (m.cpu.totalCycles - m.cpu.cycles).toNat ≤ 10
    rw [hcpu]
    exact ahead_resetSpc

/-- A file is loaded into both, or into neither. -/
theorem init (h : LibraryAlike s s') (buf : Nat → Byte) (size : Nat) :
    LibraryAlike (s.init buf size).1 (s'.init buf size).1 ∧
      (s'.init buf size).2 = (s.init buf size).2 := by
  unfold Library.init
  rw [h.machine.dsp]
  dsimp only
  split
  · rename_i m hload
    exact ⟨⟨load hload, rfl, 0, rfl, Nat.zero_le _⟩, rfl⟩
  · exact ⟨⟨newContext _, rfl, 0, rfl, Nat.zero_le _⟩, rfl⟩

/-- **A call of `OSPC_Run`.** -/
theorem run (h : LibraryAlike s s') (cyc : Int) (buf : Bool) (size : Int) :
    Ends (s'.tryApi host (.run cyc buf size))
      (fun p => LibraryAlike (s.run host cpuCore cyc buf size).1 p.1 ∧
        p.2 = (s.run host cpuCore cyc buf size).2)
      fun e => StandsAt e (s.run host cpuCore cyc buf size).1.machine.bus := by
  obtain ⟨m, hm, hsmall⟩ := h.small
  obtain ⟨hcalls, hleft⟩ := runPlan_small hsmall cyc buf (size % 2 ^ 64).toNat
  rw [← hm] at hcalls hleft
  unfold Library.tryApi Library.run
  dsimp only
  rw [h.mixLeft, Machine.exec_eq_run]
  generalize runPlan s.mixLeft cyc buf (size % 2 ^ 64).toNat = p at hcalls hleft
  have hstep : ∀ c ∈ p.calls, ∀ m m', MachineAlike m m' → Ends (m'.tryCall host c)
      (fun q => MachineAlike (m.call host cpuCore c).1 q.1 ∧ q.2 = (m.call host cpuCore c).2)
      fun e => StandsAt e (m.call host cpuCore c).1.bus := by
    intro c hc m m' hm
    refine hm.call ?_
    rintro n rfl
    have hle := hcalls n hc
    unfold tsCyc at hle
    omega
  refine (TwoRuns.follow_kept (E := fun e m => StandsAt e m.bus) p.calls hstep
    (fun e m c he => he.call host c) _ _ h.machine).bind ?_
  rintro ⟨m', pairs⟩ ⟨hmachine, hpairs⟩
  dsimp only at hpairs
  refine Ends.ok ⟨⟨hmachine, rfl, hleft⟩, ?_⟩
  rw [hpairs]

/-- **One call of the library.** -/
theorem api (h : LibraryAlike s s') (c : ApiCall) :
    Ends (s'.tryApi host c)
      (fun p => LibraryAlike (s.api host cpuCore c).1 p.1 ∧ p.2 = (s.api host cpuCore c).2)
      fun e => StandsAt e (s.api host cpuCore c).1.machine.bus := by
  cases c with
  | init buf size => exact Ends.ok (h.init buf size)
  | run cyc buf size => exact h.run cyc buf size
  | writePort i b =>
      have hrest := h.machine.cpu.writePort i b
      exact Ends.ok ⟨⟨⟨hrest, h.machine.dsp, ⟨h.machine.safe.timers, h.machine.safe.cycle⟩,
        h.machine.ahead⟩, h.mixLeft, h.small⟩, rfl⟩
  | readPort i =>
      obtain ⟨k, hk, hsame, hcycle⟩ := h.machine.cpu.abreast
      have hport : s'.machine.cpu.portW = s.machine.cpu.portW := hsame.portW
      refine Ends.ok ⟨h, ?_⟩
      unfold spcReadPortW
      rw [hport]
      rfl
  | setChannelMask mask =>
      have hdsp : ({ s'.machine.dsp with channelMask := mask } : Dsp) =
          { s.machine.dsp with channelMask := mask } := by
        rw [h.machine.dsp]
      exact Ends.ok ⟨⟨⟨h.machine.cpu, hdsp, h.machine.safe, h.machine.ahead⟩, h.mixLeft, h.small⟩,
        rfl⟩

end LibraryAlike

/-- **The library on its core gives what it gives on single cycles.**  Whatever
calls a host makes, the library that hands its core the cycles of a call of
`Run` in pieces returns the same values and stores the same samples as the one
that steps it cycle by cycle, up to the call in which the core comes to SLEEP or
STOP.  Then all calls before that one have returned, and behind it the library
on single cycles stands at the opcode, 0xEF or 0xFF, that the error names. -/
theorem tryApis_follow (host : Nat → Byte) (cs : List ApiCall) :
    Ends (bootLibrary.tryApis host cs)
      (fun p => LibraryAlike (bootLibrary.apis host cpuCore cs).1 p.1 ∧
        p.2 = (bootLibrary.apis host cpuCore cs).2)
      fun e => ∃ done c, done ++ [c] <+: cs ∧ (∃ p, bootLibrary.tryApis host done = .ok p) ∧
        StandsAt e (bootLibrary.apis host cpuCore (done ++ [c])).1.machine.bus := by
  have hboot : LibraryAlike bootLibrary bootLibrary :=
    ⟨LibraryAlike.fresh (newContext_timers zeroDsp) rfl LibraryAlike.ahead_resetSpc,
      rfl, 0, rfl, Nat.zero_le _⟩
  simp only [Library.apis_eq_run]
  exact TwoRuns.follow (E := fun e s => StandsAt e s.machine.bus) cs
    (fun c _ s s' h => h.api c) _ _ hboot

end OpenSpc
