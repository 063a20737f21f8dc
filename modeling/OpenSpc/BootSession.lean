import OpenSpc.BootLoops
import OpenSpc.Handshake
import OpenSpc.SpcStart

/-!
# A host that talks to a program

The host makes any number of moves in any cycle: it reads port 0 to see whether
its message is acknowledged, and writes a port.  While a stretch of a program
lasts it reads the same all the time, as the program writes to the ports at the
end of it only.
-/

namespace OpenSpc

open Handshake (put act during)

/-- The ports, the first of which carries the marks. -/
abbrev Ports := Fin 4 → Byte

abbrev Host := Handshake.Sender (0 : Fin 4) Byte

/-- A move of the host. -/
def hostMove (x : Host × Bus) : Host × Bus :=
  let y := x.1.move (spcReadPortW 0 x.2.cpu)
  match y.2 with
  | none => (y.1, x.2)
  | some w => (y.1, { x.2 with cpu := spcWritePortR w.1 w.2 x.2.cpu })

/-- A cycle, and what happens before it: some moves of the host, and what the DSP
makes of its registers. -/
def hostTick (moves : Nat) (regs : Regs) (x : Host × Bus) : Except Halt (Host × Bus) :=
  let y := hostMove^[moves] x
  ({ y.2 with regs := regs }.spcStart 1).map (Prod.mk y.1)

/-- The first `t` cycles. -/
def hostRun (schedule : Nat → Nat) (dsp : DspInput) (x : Host × Bus) :
    Nat → Except Halt (Host × Bus)
  | 0 => .ok x
  | t + 1 => hostRun schedule dsp x t >>= hostTick (schedule t) (dsp t)

/-- **The moves before a cycle** change the ports and nothing else. -/
theorem iterate_hostMove (n : Nat) (x : Host) (b : Bus) :
    hostMove^[n] (x, b) =
      (((act (b.cpu.portW 0))^[n] (x, b.cpu.portR)).1,
        b.setInput ((act (b.cpu.portW 0))^[n] (x, b.cpu.portR)).2 b.regs) := by
  induction n with
  | zero => rfl
  | succ n ih =>
      rw [Function.iterate_succ_apply', Function.iterate_succ_apply', ih]
      generalize (act (b.cpu.portW 0))^[n] (x, b.cpu.portR) = y
      unfold hostMove act
      dsimp only
      change (match (y.1.move (b.cpu.portW 0)).2 with | none => _ | some w => _) = _
      cases (y.1.move (b.cpu.portW 0)).2 <;> rfl

namespace Rested

variable {p : Bus × Nat} {b : Bus}

/-- New ports and registers for both. -/
theorem setInput (h : Rested p b) (ports : Ports) (regs : Regs) :
    Rested (p.1.setInput ports regs, p.2) (b.setInput ports regs) := by
  obtain ⟨⟨k, hk, hsame, hcycle⟩, hahead⟩ := h
  exact ⟨⟨k, hk, ⟨hsame.ram, rfl, hsame.cpuRegs, rfl, hsame.portW, hsame.ffc0Address,
    hsame.opcode, hsame.dspData, hsame.now, hsame.timers⟩, hcycle⟩, hahead⟩

/-- The ports that the CPU reads are the same. -/
theorem portR (h : Rested p b) : b.cpu.portR = p.1.cpu.portR := by
  obtain ⟨k, hk, hsame, hcycle⟩ := h.abreast
  exact hsame.portR

/-- The ports that the CPU writes are the same. -/
theorem portW (h : Rested p b) : b.cpu.portW = p.1.cpu.portW := by
  obtain ⟨k, hk, hsame, hcycle⟩ := h.abreast
  exact hsame.portW

/-- The DSP registers are the same. -/
theorem regs (h : Rested p b) : b.regs = p.1.regs := by
  obtain ⟨k, hk, hsame, hcycle⟩ := h.abreast
  exact hsame.regs

end Rested

section

variable {schedule : Nat → Nat} {dsp : DspInput} {start : Host × Bus}

/-- A cycle of the host's run. -/
theorem hostRun_tick {t : Nat} {x : Host} {ports : Ports} {b : Bus} {p q : Bus × Nat}
    (hrun : hostRun schedule dsp start t = .ok (x, b)) (hrest : Rested p b) (hdebt : p.2 ≤ 10)
    (hports : p.1.cpu.portR = ports) {y : Host × Ports}
    (hy : (act (p.1.cpu.portW 0))^[schedule t] (x, ports) = y)
    (hstep : Budget.unit Bus.stepCycle (p.1.setInput y.2 (dsp t), p.2) = .ok q) :
    ∃ b', hostRun schedule dsp start (t + 1) = .ok (y.1, b') ∧ Rested q b' ∧ q.2 ≤ 10 := by
  have hone : Budget.spend Bus.stepCycle 1 (p.1.setInput y.2 (dsp t), p.2) = .ok q :=
    (bind_pure _).trans hstep
  have hcost := Budget.spend_ends (I := fun _ => True) (E := fun _ => True) (d := 10)
    (fun s _ => Ends.mono s.stepCycle_cost (fun x hx => ⟨trivial, hx⟩) fun _ _ => trivial) 1
    (p.1.setInput y.2 (dsp t), p.2) trivial hdebt
  have hstart := (hrest.setInput y.2 (dsp t)).spcStart (n := 1) hdebt (by decide)
  rw [hone] at hcost hstart
  have hmoves : hostMove^[schedule t] (x, b) = (y.1, b.setInput y.2 b.regs) := by
    rw [iterate_hostMove, hrest.portR, hrest.portW, hports, hy]
  have htick : hostRun schedule dsp start (t + 1) =
      ((b.setInput y.2 (dsp t)).spcStart 1).map (Prod.mk y.1) := by
    change (hostRun schedule dsp start t >>= hostTick (schedule t) (dsp t)) = _
    rw [hrun]
    change hostTick (schedule t) (dsp t) (x, b) = _
    unfold hostTick
    rw [hmoves]
    rfl
  change Alike Rested (.ok q) ((b.setInput y.2 (dsp t)).spcStart 1) at hstart
  cases hcall : (b.setInput y.2 (dsp t)).spcStart 1 with
  | error e =>
      rw [hcall] at hstart
      cases hstart
  | ok b' =>
      rw [hcall] at hstart htick
      exact ⟨b', htick, hstart, hcost.2⟩

/-- No cycle changed the DSP registers. -/
def KeepsDsp (schedule : Nat → Nat) (dsp : DspInput) (start : Host × Bus) (t : Nat) : Prop :=
  ∀ u < t, ∃ x b, hostRun schedule dsp start (u + 1) = .ok (x, b) ∧ b.regs = dsp u

/-- One more cycle that leaves the DSP registers alone. -/
theorem KeepsDsp.succ {t : Nat} (h : KeepsDsp schedule dsp start t) {x : Host} {b : Bus}
    (hrun : hostRun schedule dsp start (t + 1) = .ok (x, b)) (hregs : b.regs = dsp t) :
    KeepsDsp schedule dsp start (t + 1) := by
  intro u hu
  obtain hlt | rfl := Nat.lt_succ_iff_lt_or_eq.mp hu
  · exact h u hlt
  · exact ⟨x, b, hrun, hregs⟩

/-- Between two instructions, `t` cycles after the start: the host is as in `y`,
and the core as in `s`. -/
def Meets (schedule : Nat → Nat) (dsp : DspInput) (start : Host × Bus) (t : Nat)
    (y : Host × Ports) (s : Plain) : Prop :=
  KeepsDsp schedule dsp start t ∧
    ∃ m b, hostRun schedule dsp start t = .ok (y.1, b) ∧ Rested (m, 0) b ∧ m.cpu.portR = y.2 ∧
      Shows s m ∧ m.cpu.cycle = 0

/-- The ports while a stretch lasts that starts at time `t`. -/
def portsFrom (schedule : Nat → Nat) (t : Nat) (y : Host × Ports) (s : Plain) : HostPorts :=
  fun u => (during schedule (s.portW 0) t y (u + 1)).2

/-- **A stretch of a program**, by induction on its cycles. -/
theorem Meets.runs {t t' : Nat} {y : Host × Ports} {s s' : Plain}
    (h : Meets schedule dsp start t y s)
    (hruns : Plain.Runs (portsFrom schedule t y s) t s t' s') :
    t < t' ∧ Meets schedule dsp start t' (during schedule (s.portW 0) t y t') s' := by
  obtain ⟨hkeeps, m, b, hrun, hrest, hports, hshows, hcycle⟩ := h
  obtain ⟨m', hreach, hcycle'⟩ := reaches_runs (d := dsp) hruns hshows hcycle
  have hlt := hreach.lt
  have hstep : ∀ k, k ≤ t' - t → KeepsDsp schedule dsp start (t + k) ∧ ∃ b' q,
      hostRun schedule dsp start (t + k) =
        .ok ((during schedule (s.portW 0) t y (t + k)).1, b') ∧
      Rested q b' ∧ q.2 ≤ 10 ∧ q.1.cpu.portR = (during schedule (s.portW 0) t y (t + k)).2 ∧
      Bus.ticks (portsFrom schedule t y s) dsp t k (m, 0) = .ok q := by
    intro k
    induction k with
    | zero =>
        intro _
        rw [Nat.add_zero, Handshake.during_self]
        exact ⟨hkeeps, b, _, hrun, hrest, Nat.zero_le 10, hports, rfl⟩
    | succ k ih =>
        intro hk
        obtain ⟨hkeeps', b', q, hrun', hrest', hdebt, hports', hticks⟩ := ih (by omega)
        have hquiet : q.1.cpu.portW = s.portW := by
          obtain rfl | hpos := Nat.eq_zero_or_pos k
          · cases hticks
            exact hshows.portW
          · obtain ⟨x, hx, hportW, -⟩ := hreach.quiet k hpos hk
            rw [hx] at hticks
            cases hticks
            exact hportW
        obtain ⟨q', hticks', hports'', hregs⟩ : ∃ q',
            Bus.ticks (portsFrom schedule t y s) dsp t (k + 1) (m, 0) = .ok q' ∧
              q'.1.cpu.portR = portsFrom schedule t y s (t + k) ∧ q'.1.regs = dsp (t + k) := by
          obtain hend | hmore := hk.eq_or_lt
          · have htime : t' - 1 = t + k := by omega
            have hports'' := hreach.ports
            have hregs := hreach.regs
            rw [htime] at hports'' hregs
            exact ⟨_, hend ▸ hreach.run, hports'', hregs⟩
          · obtain ⟨x, hx, -, hinput⟩ := hreach.quiet (k + 1) (Nat.succ_pos k) hmore
            exact ⟨x, hx, hinput⟩
        have hmoves : (act (q.1.cpu.portW 0))^[schedule (t + k)]
            ((during schedule (s.portW 0) t y (t + k)).1,
              (during schedule (s.portW 0) t y (t + k)).2) =
            during schedule (s.portW 0) t y (t + k + 1) := by
          rw [hquiet, Handshake.during_succ (Nat.le_add_right t k)]
        have hunit := hticks'
        rw [Bus.ticks_succ, hticks] at hunit
        obtain ⟨b'', hrun'', hrest'', hdebt''⟩ :=
          hostRun_tick hrun' hrest' hdebt hports' hmoves hunit
        exact ⟨hkeeps'.succ hrun'' (hrest''.regs.trans hregs), b'', q', hrun'', hrest'', hdebt'',
          hports'', hticks'⟩
  obtain ⟨hkeeps', b', q, hrun', hrest', -, hports', hticks⟩ := hstep (t' - t) le_rfl
  rw [Nat.add_sub_cancel' hlt.le] at hkeeps' hrun' hports'
  rw [hreach.run] at hticks
  cases hticks
  exact ⟨hlt, hkeeps', m', b', hrun', hrest', hports', hreach.shows, hcycle'⟩

end

end OpenSpc
