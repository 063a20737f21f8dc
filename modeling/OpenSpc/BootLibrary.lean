import OpenSpc.BootUpload
import OpenSpc.CoreLibrary
import OpenSpc.UpdateFrame

/-!
# Uploading through the library

The host of an upload as a client of the library, which runs it cycle by cycle.
The DSP works on in the meantime; while FLG keeps it from writing echoes it
changes its registers only, and these the boot ROM does not look at.
-/

namespace OpenSpc

open ByteMask (bit)
open Handshake (act Fair)

/-! ## A client -/

/-- A move of the host, through the interface. -/
def apiMove (memory : Nat → Byte) (x : Host × Library) : Except Halt (Host × Library) := do
  let (s, echo) ← x.2.tryApi memory (.readPort 0)
  match x.1.move (BitVec.ofInt 8 echo.ret) with
  | (y, none) => .ok (y, s)
  | (y, some w) =>
      let (s, _) ← s.tryApi memory (.writePort w.1 w.2)
      .ok (y, s)

/-- Some moves. -/
def apiMoves (memory : Nat → Byte) : Nat → Host × Library → Except Halt (Host × Library)
  | 0, x => .ok x
  | n + 1, x => apiMoves memory n x >>= apiMove memory

/-- Some moves, and a cycle. -/
def apiTick (memory : Nat → Byte) (moves : Nat) (x : Host × Library) :
    Except Halt (Host × Library) := do
  let (y, s) ← apiMoves memory moves x
  let (s, _) ← s.tryApi memory (.run 1 false 0)
  .ok (y, s)

/-- The first `t` cycles. -/
def apiRun (memory : Nat → Byte) (schedule : Nat → Nat) (x : Host × Library) :
    Nat → Except Halt (Host × Library)
  | 0 => .ok x
  | t + 1 => apiRun memory schedule x t >>= apiTick memory (schedule t)

/-! ## What its calls do -/

/-- The DSP when the next cycle starts. -/
def beforeCycle (memory : Nat → Byte) (s : Library) : Dsp :=
  if s.mixLeft = 0 then dspNext memory s.machine.dsp else s.machine.dsp

/-- FLG keeps the DSP from writing echoes. -/
def EchoOff (s : Dsp) : Prop := bit (s.dspRegs 0x6C) 5 = true ∨ bit (s.dspRegs 0x6C) 7 = true

instance (s : Dsp) : Decidable (EchoOff s) := inferInstanceAs (Decidable (_ ∨ _))

def Library.setPorts (ports : Ports) (s : Library) : Library :=
  { s with machine := { s.machine with cpu := { s.machine.cpu with portR := ports } } }

section

variable {memory : Nat → Byte} {s : Library}

/-- **The moves before a cycle** change the ports and nothing else. -/
theorem apiMoves_eq (n : Nat) (x : Host) (s : Library) :
    apiMoves memory n (x, s) =
      .ok (((act (s.machine.cpu.portW 0))^[n] (x, s.machine.cpu.portR)).1,
        s.setPorts ((act (s.machine.cpu.portW 0))^[n] (x, s.machine.cpu.portR)).2) := by
  induction n with
  | zero => rfl
  | succ n ih =>
      unfold apiMoves
      rw [ih, Function.iterate_succ_apply']
      generalize (act (s.machine.cpu.portW 0))^[n] (x, s.machine.cpu.portR) = y
      have hread : (spcReadPortW 0 (s.setPorts y.2).machine.cpu).toInt =
          (s.machine.cpu.portW 0).toInt := rfl
      change apiMove memory (y.1, s.setPorts y.2) = _
      unfold apiMove act Library.tryApi
      dsimp only [bind, Except.bind]
      rw [hread, BitVec.ofInt_toInt]
      rcases y.1.move (s.machine.cpu.portW 0) with ⟨x', _ | w⟩ <;> rfl

/-- The plan of a call for one cycle. -/
theorem runPlan_cycle (m : Nat) : ∃ m' : Nat, ∃ ret,
    runPlan m 1 false 0 = ⟨(if m = 0 then [.dspUpdate none] else []) ++ [.spcRun 1], m', ret⟩ := by
  match m with
  | 0 => exact ⟨31, 4, rfl⟩
  | 1 => exact ⟨1, 0, rfl⟩
  | n + 2 =>
      refine ⟨n + 1, 0, ?_⟩
      unfold runPlan
      dsimp only
      rw [if_neg (by simp), if_pos (by omega)]
      congr 1
      omega

/-- The core runs for a cycle. -/
theorem tryRun_start (m : Machine) : TwoRuns.tryRun (Machine.tryCall memory) m [.spcRun 1] =
    (m.bus.spcStart 1).map fun b => (m.withBus b, [[]]) := by
  unfold TwoRuns.tryRun Machine.tryCall Machine.start
  change ((m.bus.spcStart 1 >>= _) >>= _) >>= _ = _
  cases m.bus.spcStart 1 <;> rfl

/-- **A call for one cycle** updates the DSP first if a sample is due. -/
theorem tryApi_cycle (memory : Nat → Byte) {m : Nat} (hmix : s.mixLeft = m) : ∃ m' : Nat, ∃ result,
    s.tryApi memory (.run 1 false 0) =
      (Bus.spcStart 1 ⟨s.machine.cpu, (beforeCycle memory s).spcRam,
        (beforeCycle memory s).dspRegs⟩).map fun b =>
          (⟨⟨b.cpu, { beforeCycle memory s with spcRam := b.ram, dspRegs := b.regs }⟩, m'⟩,
            result) := by
  obtain ⟨m', ret, hplan⟩ := runPlan_cycle m
  have hcall : s.tryApi memory (.run 1 false 0) =
      (TwoRuns.tryRun (Machine.tryCall memory) s.machine (runPlan m 1 false 0).calls).map fun p =>
        (⟨p.1, (runPlan m 1 false 0).mixLeft⟩, ⟨(runPlan m 1 false 0).ret, p.2.flatten⟩) := by
    rw [← hmix]
    change (TwoRuns.tryRun (Machine.tryCall memory) s.machine
      (runPlan s.mixLeft 1 false 0).calls >>= _) = _
    cases TwoRuns.tryRun (Machine.tryCall memory) s.machine (runPlan s.mixLeft 1 false 0).calls <;>
      rfl
  rw [hcall, hplan]
  unfold beforeCycle
  refine ⟨m', ⟨ret, []⟩, ?_⟩
  by_cases hdue : m = 0
  · rw [if_pos hdue, if_pos (by omega)]
    have hupdate : TwoRuns.tryRun (Machine.tryCall memory) s.machine
        ([.dspUpdate none] ++ [.spcRun 1]) =
        (TwoRuns.tryRun (Machine.tryCall memory)
          { s.machine with dsp := dspNext memory s.machine.dsp } [.spcRun 1]).map
          fun p => (p.1, [] :: p.2) := by
      change (TwoRuns.tryRun (Machine.tryCall memory)
        { s.machine with dsp := dspNext memory s.machine.dsp } [.spcRun 1] >>= _) = _
      cases TwoRuns.tryRun (Machine.tryCall memory)
        { s.machine with dsp := dspNext memory s.machine.dsp } [.spcRun 1] <;> rfl
    rw [hupdate, tryRun_start]
    unfold Machine.bus
    dsimp only
    cases Bus.spcStart 1 ⟨s.machine.cpu, (dspNext memory s.machine.dsp).spcRam,
      (dspNext memory s.machine.dsp).dspRegs⟩ <;> rfl
  · rw [if_neg hdue, if_neg (by omega), List.nil_append, tryRun_start]
    unfold Machine.bus
    cases Bus.spcStart 1 ⟨s.machine.cpu, s.machine.dsp.spcRam, s.machine.dsp.dspRegs⟩ <;> rfl

/-- An update leaves FLG as the prelude has it. -/
theorem dspNext_flg (d : Dsp) : (dspNext memory d).dspRegs 0x6C = (prelude d).dspRegs 0x6C := by
  have hecho := (echoUnit_frame memory true (voiceLoop memory (prelude d, freshLocals) 8).1
    (voiceLoop memory (prelude d, freshLocals) 8).2).2.2.2.2.2.2
  have hloop := (voiceLoop_frame memory (prelude d, freshLocals) 8).regs 0x6C (by decide)
    (by decide) (by decide)
  unfold dspNext dspUpdate
  dsimp only
  rw [hecho, hloop]

/-- **The DSP does not touch RAM**, and FLG stays as far as it matters. -/
theorem EchoOff.beforeCycle (memory : Nat → Byte) (h : EchoOff s.machine.dsp) :
    (beforeCycle memory s).spcRam = s.machine.dsp.spcRam ∧ EchoOff (beforeCycle memory s) := by
  have hecho := prelude_flg_echo h
  unfold OpenSpc.beforeCycle
  split
  · refine ⟨?_, Or.inl ?_⟩
    · rw [dspNext_spcRam, if_pos hecho]
    · rw [dspNext_flg]
      exact hecho
  · exact ⟨rfl, h⟩

/-! ## The whole upload -/

/-- What the DSP makes of its registers while the host runs the library. -/
def dspInput (memory : Nat → Byte) (schedule : Nat → Nat) (x : Host × Library) : DspInput :=
  fun t =>
    match apiRun memory schedule x t with
    | .ok (_, s) => (beforeCycle memory s).dspRegs
    | .error _ => fun _ => 0

/-- A library on a bus, with no echo being written. -/
structure OnBus (s : Library) (b : Bus) : Prop where
  bus : s.machine.bus = b
  mixLeft : ∃ m : Nat, s.mixLeft = m
  echoOff : EchoOff s.machine.dsp

/-- **A cycle** of the library is a cycle on the bus, if it leaves the DSP
registers alone. -/
theorem apiTick_follows {b b' : Bus} {x y : Host} (h : OnBus s b) (n : Nat)
    (htick : hostTick n (beforeCycle memory s).dspRegs (x, b) = .ok (y, b'))
    (hregs : b'.regs = (beforeCycle memory s).dspRegs) :
    ∃ s', apiTick memory n (x, s) = .ok (y, s') ∧ OnBus s' b' := by
  obtain ⟨rfl, ⟨m, hmix⟩, hecho⟩ := h
  obtain ⟨hram, hecho'⟩ := hecho.beforeCycle memory
  unfold hostTick at htick
  rw [iterate_hostMove] at htick
  unfold apiTick
  rw [apiMoves_eq]
  change Except.map (Prod.mk ((act (s.machine.cpu.portW 0))^[n] (x, s.machine.cpu.portR)).1)
    (Bus.spcStart 1 ⟨{ s.machine.cpu with
      portR := ((act (s.machine.cpu.portW 0))^[n] (x, s.machine.cpu.portR)).2 },
      s.machine.dsp.spcRam, (beforeCycle memory s).dspRegs⟩) = _ at htick
  generalize (act (s.machine.cpu.portW 0))^[n] (x, s.machine.cpu.portR) = z at htick ⊢
  obtain ⟨m', result, hcall⟩ := tryApi_cycle memory (s := s.setPorts z.2) hmix
  change _ = Except.map _ (Bus.spcStart 1 ⟨{ s.machine.cpu with portR := z.2 },
    (beforeCycle memory s).spcRam, (beforeCycle memory s).dspRegs⟩) at hcall
  rw [hram] at hcall
  cases hstart : Bus.spcStart 1 ⟨{ s.machine.cpu with portR := z.2 }, s.machine.dsp.spcRam,
      (beforeCycle memory s).dspRegs⟩ with
  | error e =>
      rw [hstart] at htick
      cases htick
  | ok b₁ =>
      rw [hstart] at htick hcall
      cases htick
      change ∃ s', (Library.tryApi memory (s.setPorts z.2) (.run 1 false 0) >>= _) = _ ∧ _
      rw [hcall]
      refine ⟨⟨⟨b'.cpu, { beforeCycle memory s with spcRam := b'.ram, dspRegs := b'.regs }⟩, m'⟩,
        rfl, rfl, ⟨m', rfl⟩, ?_⟩
      unfold EchoOff at hecho' ⊢
      rw [← hregs] at hecho'
      exact hecho'

/-- **The host's run on the bus is one through the library**, by induction on
the cycles. -/
theorem apiRun_follows {schedule : Nat → Nat} {x : Host} {b : Bus} (h : OnBus s b) {t : Nat}
    (hkeeps : KeepsDsp schedule (dspInput memory schedule (x, s)) (x, b) t) :
    ∀ u ≤ t, ∃ y b' s', hostRun schedule (dspInput memory schedule (x, s)) (x, b) u = .ok (y, b') ∧
      apiRun memory schedule (x, s) u = .ok (y, s') ∧ OnBus s' b' := by
  intro u
  induction u with
  | zero => exact fun _ => ⟨x, b, s, rfl, rfl, h⟩
  | succ u ih =>
      intro hu
      obtain ⟨y, b', s', hrun, hapi, hbus⟩ := ih (by omega)
      obtain ⟨y', b'', hrun', hregs⟩ := hkeeps u hu
      have hinput : dspInput memory schedule (x, s) u = (beforeCycle memory s').dspRegs := by
        unfold dspInput
        rw [hapi]
      have htick := hrun'
      change (hostRun _ _ _ u >>= hostTick _ _) = _ at htick
      rw [hrun, hinput] at htick
      rw [hinput] at hregs
      obtain ⟨s'', hapi', hbus'⟩ := apiTick_follows hbus _ htick hregs
      refine ⟨y', b'', s'', hrun', ?_, hbus'⟩
      change (apiRun _ _ _ u >>= apiTick _ _) = _
      rw [hapi]
      exact hapi'

/-- **A program is uploaded and started.**  From the start of the boot ROM, with
P clear, a client of the library sends any blocks that fit, and then an address,
while it runs the library cycle by cycle.  Whenever it gets to make its moves,
the core comes to that address in the end, between two instructions, with the
blocks in RAM as they were sent, and the rest of RAM as the boot ROM left it.
Port 0 must not hold 0xCC before: the boot ROM would take that for the mark of
the first command, with whatever the other ports hold. -/
theorem upload_starts (memory : Nat → Byte) {s : Library} (hb : Boots s.machine.bus)
    (hmix : 0 ≤ s.mixLeft) (hecho : EchoOff s.machine.dsp) {schedule : Nat → Nat}
    (hfair : Fair schedule) (hport : s.machine.cpu.portR 0 ≠ 0xCC) (entry : BitVec 16)
    (bs : List Block) :
    ∃ t e s', apiRun memory schedule (freshHost (upload entry 0xCC bs), s) t =
        .ok (⟨e, [], []⟩, s') ∧
      s'.machine.cpu.pc = entry ∧ s'.machine.cpu.cycle = 0 ∧
      ∀ a : BitVec 16, 2 ≤ a.toNat → s'.machine.dsp.spcRam a =
        loadBlocks bs (Plain.clearPage 0xEF s.machine.dsp.spcRam) a := by
  obtain ⟨t, e, b', hkeeps, hrun, hpc, hcycle, hram⟩ := upload_runs hb hfair
    (dspInput memory schedule (freshHost (upload entry 0xCC bs), s)) hport entry bs
  obtain ⟨y, b'', s', hrun', hapi, hbus, -, -⟩ :=
    apiRun_follows ⟨rfl, Int.eq_ofNat_of_zero_le hmix, hecho⟩ hkeeps t le_rfl
  rw [hrun] at hrun'
  cases hrun'
  rw [← hbus] at hpc hcycle hram
  exact ⟨t, e, s', hapi, hpc, hcycle, hram⟩

/-- Two blocks on a library that was given an empty file, by a client that
moves in every third cycle. -/
theorem emptyFile_upload_starts :
    ∃ t e s', apiRun (fun _ => 0) (fun t => if t % 3 = 0 then 1 else 0)
        (freshHost (upload 0x0300 0xCC [⟨0x0300, [0x00, 0xEF], by decide, by decide⟩,
          ⟨0x0010, [0x2A], by decide, by decide⟩]),
          (Library.init ⟨newContext zeroDsp, 0⟩ (fun _ => 0) 0).1) t = .ok (⟨e, [], []⟩, s') ∧
      s'.machine.cpu.pc = 0x0300 ∧ s'.machine.cpu.cycle = 0 ∧
      ∀ a : BitVec 16, 2 ≤ a.toNat → s'.machine.dsp.spcRam a =
        loadBlocks [⟨0x0300, [0x00, 0xEF], by decide, by decide⟩,
          ⟨0x0010, [0x2A], by decide, by decide⟩] (Plain.clearPage 0xEF resetRam) a :=
  upload_starts (fun _ => 0) (by decide) (by decide) (by decide)
    (fun t => ⟨3 * t, by omega, by
      rw [if_pos (Nat.mul_mod_right 3 t)]
      exact Nat.one_pos⟩) (by decide) _ _

end

end OpenSpc
