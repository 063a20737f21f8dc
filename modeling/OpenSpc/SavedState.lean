import OpenSpc.CoreLibrary
import OpenSpc.TwinStep

/-!
# What an image keeps of the CPU

An image holds PC, A, X, Y, the status word and SP.  Between two instructions
this is all there is to know of the registers: a library goes on in the same way
when they are set again from these.
-/

namespace OpenSpc

open CpuRegs (Temp Same)
open Budget (spend spend_alike spend_ends)

/-! ## Calls of the core -/

theorem Rested.withRegs {p : Bus × Nat} {b : Bus} (h : Rested p b) (r : CpuRegs) :
    Rested (p.1.withRegs r, p.2) (b.withRegs r) := by
  obtain ⟨⟨k, hk, hsame, hcycle⟩, hahead⟩ := h
  exact ⟨⟨k, hk, hsame.mapRegs fun _ => r, hcycle⟩, hahead⟩

/-- Two cores at rest that go on in the same way. -/
def RestTwin (b b' : Bus) : Prop := ∃ c, Twin b c ∧ RestAlike c b'

namespace RestTwin

variable {b b' : Bus}

/-- What others see of the cores, and do to RAM and the DSP registers. -/
theorem outside (h : RestTwin b b') (ram : Ram) (regs : Regs) :
    RestTwin { b with ram := ram, regs := regs } { b' with ram := ram, regs := regs } := by
  obtain ⟨c, ⟨ws, ws', ⟨r, rfl, hr⟩, hflows⟩, hrest⟩ := h
  exact ⟨_, ⟨ws, ws', ⟨r, rfl, hr⟩, hflows⟩, hrest.outside ram regs⟩

theorem writePort (h : RestTwin b b') (i : Fin 4) (data : Byte) :
    RestTwin { b with cpu := spcWritePortR i data b.cpu }
      { b' with cpu := spcWritePortR i data b'.cpu } := by
  obtain ⟨c, ⟨ws, ws', ⟨r, rfl, hr⟩, hflows⟩, hrest⟩ := h
  exact ⟨_, ⟨ws, ws', ⟨r, rfl, hr⟩, hflows⟩, hrest.writePort i data⟩

theorem seen (h : RestTwin b b') :
    b'.ram = b.ram ∧ b'.regs = b.regs ∧ b'.cpu.portW = b.cpu.portW := by
  obtain ⟨c, ⟨ws, ws', ⟨r, rfl, hr⟩, hflows⟩, ⟨k, hk, hsame, hcycle⟩, hahead⟩ := h
  exact ⟨hsame.ram, hsame.regs, hsame.portW⟩

/-- What the steps have made of two cores, and where the calls leave them. -/
theorem of_rested {p q : Bus × Nat} (htwin : Twin p.1 q.1) (hdebt : p.2 = q.2) (h : Rested p b)
    (h' : Rested q b') : RestTwin b b' := by
  obtain ⟨ws, ws', ⟨r, hq, hr⟩, hflows⟩ := htwin
  obtain ⟨k, hk, hsame, hcycle⟩ := h.abreast
  have hregs : b.cpuRegs = p.1.cpuRegs := hsame.cpuRegs
  have hrest : b.rest = p.1.rest := by
    have hop : b.cpu.opcode = p.1.cpu.opcode := hsame.opcode
    have hc : b.cpu.cycle = p.1.cpu.cycle := hcycle
    unfold Bus.rest
    rw [hop, hc]
  have hq' : q = (p.1.withRegs r, p.2) := Prod.ext hq hdebt.symm
  rw [← hregs] at hr
  rw [← hrest] at hflows
  rw [hq'] at h'
  exact ⟨b.withRegs r, ⟨ws, ws', ⟨r, rfl, hr⟩, hflows⟩, RestAlike.of_rested (h.withRegs r) h'⟩

/-- **A call of `SPC_START`.** -/
theorem spcStart (h : RestTwin b b') (hahead : b.ahead ≤ 10) {n : Nat} (hn : n < 2 ^ 31) :
    Alike (fun c c' => RestTwin c c' ∧ c.ahead ≤ 10) (b.spcStart (BitVec.ofNat 32 n))
      (b'.spcStart (BitVec.ofNat 32 n)) := by
  obtain ⟨m, ⟨ws, ws', ⟨r, rfl, hr⟩, hflows⟩, hrest⟩ := h
  have hload : Twin b.loadCycles (b.withRegs r).loadCycles := ⟨ws, ws', ⟨r, rfl, hr⟩, hflows⟩
  have hsteps := spend_alike (R := Twin) (fun _ _ => Twin.stepCycle) n _ _ b.ahead hload
  have hcost := spend_ends (I := fun _ => True) (E := fun _ => True) (d := 10)
    (fun s _ => s.stepCycle_cost.mono (fun x hx => ⟨trivial, hx⟩) fun _ _ => trivial) n
    (b.loadCycles, b.ahead) trivial hahead
  have hleft := ((Rested.refl b).spcStart hahead hn).and_left hcost
  have hright := hrest.rested.spcStart hahead hn
  refine (hleft.symm.trans (hsteps.trans hright)).mono ?_
  rintro c c' ⟨p, ⟨hp, -, hdebt⟩, q, ⟨htwin, hpq⟩, hq⟩
  exact ⟨of_rested htwin hpq hp hq, hp.ahead.trans_le hdebt⟩

end RestTwin

/-! ## Calls of the library -/

/-- Two machines with such CPUs. -/
structure MachineTwin (m m' : Machine) : Prop where
  cpu : RestTwin m.bus m'.bus
  dsp : m'.dsp = m.dsp
  ahead : m.bus.ahead ≤ 10

namespace MachineTwin

variable {host : Nat → Byte} {m m' : Machine}

/-- Some cycles. -/
theorem start (h : MachineTwin m m') {n : Nat} (hn : n < 2 ^ 31) :
    Alike MachineTwin (m.start n) (m'.start n) := by
  refine (h.cpu.spcStart h.ahead hn).bind ?_
  rintro b b' ⟨hrest, hahead⟩
  obtain ⟨hram, hregs, -⟩ := hrest.seen
  refine Alike.ok ⟨hrest, ?_, hahead⟩
  dsimp only
  rw [h.dsp, hram, hregs]

/-- **One call.** -/
theorem call (h : MachineTwin m m') {c : Call} (hc : ∀ n, c = .spcRun n → n < 2 ^ 31) :
    Alike (fun x y => MachineTwin x.1 y.1 ∧ x.2 = y.2) (m.tryCall host c) (m'.tryCall host c) := by
  cases c with
  | dspUpdate buf =>
      unfold Machine.tryCall
      rw [h.dsp]
      exact Alike.ok ⟨⟨h.cpu.outside _ _, rfl, h.ahead⟩, rfl⟩
  | spcRun n => exact (h.start (hc n rfl)).bind fun s s' hs => Alike.ok ⟨hs, rfl⟩

end MachineTwin

/-- Two libraries with such machines, equally far into a sample period. -/
structure LibraryTwin (s s' : Library) : Prop where
  machine : MachineTwin s.machine s'.machine
  mixLeft : s'.mixLeft = s.mixLeft
  small : ∃ m : Nat, s.mixLeft = m ∧ m ≤ tsCyc

namespace LibraryTwin

variable {host : Nat → Byte} {s s' : Library}

/-- A CPU between two instructions whose direct page is the one P selects. -/
theorem standing {m : Machine} (hpage : m.cpu.cpuRegs.directPage = m.cpu.cpuRegs.page)
    (hcycle : m.cpu.cycle = 0) (hahead : m.bus.ahead ≤ 10) : MachineTwin m m where
  cpu := ⟨m.bus, Twin.done ⟨m.cpu.cpuRegs, rfl, Same.refl hpage⟩ (congrArg BitVec.toNat hcycle),
    RestAlike.refl _⟩
  dsp := rfl
  ahead := hahead

/-- A fresh machine is its own twin. -/
theorem newContext (d : Dsp) : MachineTwin (newContext d) (newContext d) :=
  standing rfl rfl LibraryAlike.ahead_resetSpc

/-- The registers `SetState` leaves. -/
theorem setState_page (r : SavedRegs) (image : Ram) :
    (setState r image resetSpc).cpuRegs.directPage = (setState r image resetSpc).cpuRegs.page := by
  unfold setState
  rw [CpuRegs.spcRestoreFlags_cpuRegs]
  exact CpuRegs.spcRestoreFlags_page rfl

/-- So is a machine that an image has just been loaded into. -/
theorem load {d : Dsp} {buf : Nat → Byte} {size : Nat} {m : Machine}
    (hload : (OpenSpc.newContext d).load buf size true = some m) : MachineTwin m m := by
  obtain ⟨r, image, hcpu⟩ := LibraryAlike.load_cpu hload
  refine standing ?_ ?_ ?_
  · rw [hcpu]
    exact setState_page r image
  · rw [hcpu]
    rfl
  · change (m.cpu.totalCycles - m.cpu.cycles).toNat ≤ 10
    rw [hcpu]
    exact LibraryAlike.ahead_resetSpc

/-- Loading an image makes twins of any two libraries. -/
theorem init (h : LibraryTwin s s') (buf : Nat → Byte) (size : Nat) :
    LibraryTwin (s.init buf size).1 (s'.init buf size).1 ∧
      (s.init buf size).2 = (s'.init buf size).2 := by
  unfold Library.init
  rw [h.machine.dsp]
  dsimp only
  split
  · rename_i m hload
    exact ⟨⟨load hload, rfl, 0, rfl, Nat.zero_le _⟩, rfl⟩
  · exact ⟨⟨newContext _, rfl, 0, rfl, Nat.zero_le _⟩, rfl⟩

/-- **A call of `OSPC_Run`.** -/
theorem run (h : LibraryTwin s s') (cyc : Int) (buf : Bool) (size : Int) :
    Alike (fun x y => LibraryTwin x.1 y.1 ∧ x.2 = y.2) (s.tryApi host (.run cyc buf size))
      (s'.tryApi host (.run cyc buf size)) := by
  obtain ⟨m, hm, hsmall⟩ := h.small
  obtain ⟨hcalls, hleft⟩ := runPlan_small hsmall cyc buf (size % 2 ^ 64).toNat
  rw [← hm] at hcalls hleft
  unfold Library.tryApi
  dsimp only
  rw [h.mixLeft]
  generalize runPlan s.mixLeft cyc buf (size % 2 ^ 64).toNat = p at hcalls hleft
  have hstep : ∀ c ∈ p.calls, ∀ m m', MachineTwin m m' →
      Alike (fun x y => MachineTwin x.1 y.1 ∧ x.2 = y.2) (m.tryCall host c)
        (m'.tryCall host c) := by
    intro c hc m m' hm
    refine hm.call ?_
    rintro n rfl
    have hle := hcalls n hc
    unfold tsCyc at hle
    omega
  refine (TwoRuns.tryRun_alike p.calls hstep _ _ h.machine).bind ?_
  rintro ⟨x, pairs⟩ ⟨y, pairs'⟩ ⟨hmachine, rfl⟩
  exact Alike.ok ⟨⟨hmachine, rfl, hleft⟩, rfl⟩

/-- **One call of the library.** -/
theorem api (h : LibraryTwin s s') (c : ApiCall) :
    Alike (fun x y => LibraryTwin x.1 y.1 ∧ x.2 = y.2) (s.tryApi host c) (s'.tryApi host c) := by
  cases c with
  | init buf size => exact Alike.ok (h.init buf size)
  | run cyc buf size => exact h.run cyc buf size
  | writePort i b =>
      exact Alike.ok ⟨⟨⟨h.machine.cpu.writePort i b, h.machine.dsp, h.machine.ahead⟩, h.mixLeft,
        h.small⟩, rfl⟩
  | readPort i =>
      obtain ⟨-, -, hport⟩ := h.machine.cpu.seen
      have hread : s'.machine.cpu.portW = s.machine.cpu.portW := hport
      refine Alike.ok ⟨h, ?_⟩
      unfold spcReadPortW
      rw [hread]
  | setChannelMask mask =>
      have hdsp : ({ s'.machine.dsp with channelMask := mask } : Dsp) =
          { s.machine.dsp with channelMask := mask } := by
        rw [h.machine.dsp]
      exact Alike.ok ⟨⟨⟨h.machine.cpu, hdsp, h.machine.ahead⟩, h.mixLeft, h.small⟩, rfl⟩

/-- **A sequence of calls.** -/
theorem apis (h : LibraryTwin s s') (cs : List ApiCall) :
    Alike (fun x y => LibraryTwin x.1 y.1 ∧ x.2 = y.2) (s.tryApis host cs) (s'.tryApis host cs) :=
  TwoRuns.tryRun_alike cs (fun c _ _ _ hs => hs.api c) s s' h

theorem boot : LibraryTwin bootLibrary bootLibrary :=
  ⟨standing rfl rfl LibraryAlike.ahead_resetSpc, rfl, 0, rfl, Nat.zero_le _⟩

end LibraryTwin

/-! ## Saving and restoring -/

/-- The registers an image holds, the flags as `spc_setup_flags` puts them
together. -/
def Spc700Context.saved (c : Spc700Context) : SavedRegs where
  pc := c.pc
  a := c.a
  x := c.x
  y := c.y
  psw := c.cpuRegs.spcSetupFlags.psw
  sp := c.sp

/-- All registers set again, as `SetState` does on a fresh CPU. -/
def Library.reloaded (image : Ram) (s : Library) : Library :=
  { s with machine := { s.machine with
    cpu := s.machine.cpu.withRegs (setState s.machine.cpu.saved image resetSpc).cpuRegs } }

/-- **The flags come back.** -/
theorem same_saved {c : Spc700Context} (hpage : c.cpuRegs.directPage = c.cpuRegs.page)
    (image : Ram) : Same [] c.cpuRegs (setState c.saved image resetSpc).cpuRegs := by
  have hflag : ∀ f, (setState c.saved image resetSpc).cpuRegs.flag f = c.cpuRegs.flag f := by
    intro f
    unfold setState
    rw [CpuRegs.spcRestoreFlags_cpuRegs, Spc700Context.cpuRegs_withRegs,
      CpuRegs.spcRestoreFlags_flag]
    change decide (c.cpuRegs.spcSetupFlags.psw &&& f.mask ≠ 0) = _
    rw [CpuRegs.spcSetupFlags_psw, CpuRegs.pswOf_mask]
  exact ⟨rfl, rfl, rfl, rfl, rfl, hflag, hpage, LibraryTwin.setState_page _ _,
    fun t ht => absurd ht List.not_mem_nil⟩

/-- Between two instructions the registers may be set again. -/
theorem LibraryTwin.reloaded {s : Library} (h : LibraryTwin s s) (hcycle : s.machine.cpu.cycle = 0)
    (image : Ram) : LibraryTwin s (s.reloaded image) := by
  obtain ⟨c, ⟨ws, ws', ⟨r, -, hr⟩, -⟩, -⟩ := h.machine.cpu
  have htwin : Twin s.machine.bus (s.reloaded image).machine.bus :=
    Twin.done ⟨_, rfl, same_saved hr.page image⟩ (congrArg BitVec.toNat hcycle)
  exact ⟨⟨⟨_, htwin, RestAlike.refl _⟩, rfl, h.machine.ahead⟩, rfl, h.small⟩

/-- A library is its own twin after any calls: its direct page follows P. -/
theorem LibraryTwin.of_boot {host : Nat → Byte} {before : List ApiCall} {s : Library}
    {results : List ApiResult} (hbefore : bootLibrary.tryApis host before = .ok (s, results)) :
    LibraryTwin s s := by
  obtain ⟨⟨s', results'⟩, hrun, hself, -⟩ := (LibraryTwin.boot.apis before).of_ok hbefore
  rw [hbefore] at hrun
  cases hrun
  exact hself

/-- **An image keeps all of the CPU's registers.**  Whatever calls have been
made, when the core stands between two instructions its registers can be set
again from PC, A, X, Y, the status word and SP: all later calls return the same
values and store the same samples, or stop in the same way.  For no opcode reads
a temporary that it has not written. -/
theorem saved_resumes (host : Nat → Byte) {before : List ApiCall} {s : Library}
    {results : List ApiResult} (hbefore : bootLibrary.tryApis host before = .ok (s, results))
    (hcycle : s.machine.cpu.cycle = 0) (image : Ram) (after : List ApiCall) :
    Alike (fun x y => LibraryTwin x.1 y.1 ∧ x.2 = y.2) (s.tryApis host after)
        ((s.reloaded image).tryApis host after) ∧
      ∀ opcode ys, switchSpc opcode = some ys → WrittenFirst ys := by
  have htwin : LibraryTwin s s := LibraryTwin.of_boot hbefore
  exact ⟨(htwin.reloaded hcycle image).apis after, fun _ _ hys => switchSpc_first hys⟩

/-- Behind the first instruction of the boot ROM, which leaves 0xEF in `_data`
and in the byte of N. -/
theorem firstInstruction_resumes :
    ∃ s results, bootLibrary.tryApis (fun _ => 0) [.run 8 false 0] = .ok (s, results) ∧
      (s.reloaded resetRam).machine.cpu.cpuRegs ≠ s.machine.cpu.cpuRegs ∧
      Alike (fun x y => LibraryTwin x.1 y.1 ∧ x.2 = y.2)
          (s.tryApis (fun _ => 0) [.run 64 false 0, .readPort 0])
          ((s.reloaded resetRam).tryApis (fun _ => 0) [.run 64 false 0, .readPort 0]) ∧
        ∀ opcode ys, switchSpc opcode = some ys → WrittenFirst ys := by
  have hcheck : (match bootLibrary.tryApis (fun _ => 0) [.run 8 false 0] with
      | .ok p => decide (p.1.machine.cpu.cycle = 0 ∧
          (p.1.reloaded resetRam).machine.cpu.cpuRegs ≠ p.1.machine.cpu.cpuRegs)
      | .error _ => false) = true := by decide +kernel
  cases hrun : bootLibrary.tryApis (fun _ => 0) [.run 8 false 0] with
  | error e =>
      rw [hrun] at hcheck
      cases hcheck
  | ok p =>
      rw [hrun] at hcheck
      obtain ⟨hcycle, hdiffer⟩ := of_decide_eq_true hcheck
      exact ⟨p.1, p.2, rfl, hdiffer, saved_resumes (fun _ => 0) hrun hcycle resetRam _⟩

end OpenSpc
