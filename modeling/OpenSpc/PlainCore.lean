import OpenSpc.CycleStep

/-!
# Programs that keep to memory and the ports

A program in the boot ROM or in RAM that accesses RAM and the four ports, and
no other hardware register, depends neither on the clock nor on the timers nor
on the DSP.  Such a program is run here instruction by instruction, on registers,
RAM and what it has written to the ports.  What it reads from the ports may be
something else in every cycle, and so may the DSP registers.  An instruction
that writes a port does so at its very end.
-/

namespace OpenSpc

/-- What the host has written to the ports, in every cycle. -/
abbrev HostPorts := Nat → Fin 4 → Byte

/-- What the DSP has made of its registers, in every cycle. -/
abbrev DspInput := Nat → Regs

/-- What such a program works on. -/
structure Plain where
  regs : CpuRegs
  ram : Ram
  portW : Fin 4 → Byte

/-- An address that is neither in the boot ROM nor a hardware register. -/
def InRam (address : BitVec 16) : Prop :=
  (0x0100 ≤ address.toNat ∧ address.toNat < 0xFFC0) ∨ address.toNat < 0xF0

instance (address : BitVec 16) : Decidable (InRam address) := inferInstanceAs (Decidable (_ ∨ _))

/-- One of the ports. -/
def IsPort (address : BitVec 16) : Prop := 0xF4 ≤ address.toNat ∧ address.toNat < 0xF8

instance (address : BitVec 16) : Decidable (IsPort address) := inferInstanceAs (Decidable (_ ∧ _))

/-- A byte of the boot ROM. -/
def bootRom (address : BitVec 16) : Byte := spcRomCode.getD (address.toNat - 0xFFC0) 0

namespace Plain

def mapRegs (f : CpuRegs → CpuRegs) (s : Plain) : Plain := { s with regs := f s.regs }

/-- An operation on the registers. -/
@[simp] theorem mapRegs_regs (f : CpuRegs → CpuRegs) (s : Plain) :
    (s.mapRegs f).regs = f s.regs := rfl

/-- It leaves RAM. -/
@[simp] theorem mapRegs_ram (f : CpuRegs → CpuRegs) (s : Plain) : (s.mapRegs f).ram = s.ram := rfl

/-- It leaves the ports. -/
@[simp] theorem mapRegs_portW (f : CpuRegs → CpuRegs) (s : Plain) :
    (s.mapRegs f).portW = s.portW := rfl

/-- A read. -/
def get (ports : Fin 4 → Byte) (address : BitVec 16) (s : Plain) : Option Byte :=
  if 0xFFC0 ≤ address.toNat then some (bootRom address)
  else if InRam address then some (s.ram address)
  else if IsPort address then some (ports (Fin.ofNat 4 address.toNat))
  else none

/-- A write, to a port only at the end of an instruction. -/
def set (last : Bool) (address : BitVec 16) (data : Byte) (s : Plain) : Option Plain :=
  if InRam address then some { s with ram := Function.update s.ram address data }
  else if IsPort address then
    if last then some { s with portW := Function.update s.portW (Fin.ofNat 4 address.toNat) data }
    else none
  else none

/-- The statements of a cycle, and whether one of them left the opcode. -/
def body (ports : Fin 4 → Byte) (last : Bool) : List Stmt → Plain → Option (Bool × Plain)
  | [], s => some (false, s)
  | .getByte address assign :: rest, s =>
      (s.get ports (address s.regs)).bind fun v => body ports last rest (s.mapRegs (assign v))
  | .setByte address data :: rest, s =>
      (s.set last (address s.regs) (data s.regs)).bind (body ports last rest)
  | .assign f :: rest, s => body ports last rest (s.mapRegs f)
  | .exitIf test :: rest, s => if test s.regs then some (true, s) else body ports last rest s

/-- The cycles of an opcode from time `t` on, and the time behind them. -/
def cycles (h : HostPorts) : Nat → List Cycle → Plain → Option (Plain × Nat)
  | _, [], _ => none
  | t, y :: ys, s =>
      (body (h t) (ys.isEmpty && y.work == 1) y.body s).bind fun p =>
        if p.1 then some (p.2, t + 1)
        else if ys.isEmpty then some (p.2, t + y.work)
        else cycles h (t + y.work) ys p.2

/-- An instruction. -/
def instr (h : HostPorts) (t : Nat) (s : Plain) : Option (Plain × Nat) :=
  (s.get (h t) s.regs.pc).bind fun opcode =>
    (switchSpc opcode).bind fun ys =>
      cycles h (t + 1) ys (s.mapRegs fun r => { r with pc := r.pc + 1 })

end Plain

namespace Bus

/-- What comes from outside. -/
def setInput (ports : Fin 4 → Byte) (regs : Regs) (b : Bus) : Bus :=
  { b with cpu := { b.cpu with portR := ports }, regs := regs }

/-- It is as it was. -/
structure SameInput (b b' : Bus) : Prop where
  portR : b'.cpu.portR = b.cpu.portR
  regs : b'.regs = b.regs

/-- Inputs that are the same as a third. -/
theorem SameInput.trans {b b' b'' : Bus} (h : SameInput b b') (h' : SameInput b' b'') :
    SameInput b b'' :=
  ⟨h'.portR.trans h.portR, h'.regs.trans h.regs⟩

/-- `n` cycles from time `t` on. -/
def ticks (h : HostPorts) (d : DspInput) : Nat → Nat → Bus × Nat → Except Halt (Bus × Nat)
  | _, 0, x => .ok x
  | t, n + 1, x => Budget.unit stepCycle (x.1.setInput (h t) (d t), x.2) >>= ticks h d (t + 1) n

/-- Cycles in two parts. -/
theorem ticks_add (h : HostPorts) (d : DspInput) (t m n : Nat) (x : Bus × Nat) :
    ticks h d t (m + n) x = ticks h d t m x >>= ticks h d (t + m) n := by
  induction m generalizing t x with
  | zero =>
      rw [Nat.zero_add]
      rfl
  | succ m ih =>
      rw [Nat.succ_add]
      change (Budget.unit stepCycle (x.1.setInput (h t) (d t), x.2) >>= ticks h d (t + 1) (m + n)) =
        (Budget.unit stepCycle (x.1.setInput (h t) (d t), x.2) >>= ticks h d (t + 1) m) >>=
          ticks h d (t + (m + 1)) n
      rw [bind_assoc]
      congr 1
      funext y
      rw [ih, Nat.add_right_comm t 1 m]
      rfl

/-- The last cycle apart. -/
theorem ticks_succ (h : HostPorts) (d : DspInput) (t n : Nat) (x : Bus × Nat) :
    ticks h d t (n + 1) x =
      ticks h d t n x >>= fun y =>
        Budget.unit stepCycle (y.1.setInput (h (t + n)) (d (t + n)), y.2) := by
  rw [ticks_add]
  congr 1
  funext y
  exact bind_pure _

end Bus

/-! ## What the bus makes of it -/

/-- A bus that shows such a program what it works on. -/
structure Shows (s : Plain) (b : Bus) : Prop where
  regs : b.cpu.cpuRegs = s.regs
  ram : b.ram = s.ram
  portW : b.cpu.portW = s.portW
  rom : b.cpu.ffc0Address = .rom

namespace Shows

variable {s s' : Plain} {b : Bus}

/-- The input is not shown. -/
theorem setInput (h : Shows s b) (ports : Fin 4 → Byte) (regs : Regs) :
    Shows s (b.setInput ports regs) :=
  ⟨h.regs, h.ram, h.portW, h.rom⟩

/-- An operation on the registers is shown. -/
theorem mapRegs (h : Shows s b) (f : CpuRegs → CpuRegs) : Shows (s.mapRegs f) (b.mapRegs f) :=
  ⟨congrArg f h.regs, h.ram, h.portW, h.rom⟩

/-- The counters of the loop are not shown. -/
theorem of_frame (h : Shows s b) (n c : Nat) : Shows s ((b.work n).setCycle c) :=
  ⟨h.regs, h.ram, h.portW, h.rom⟩

/-- **A read.** -/
theorem getByteSpc (h : Shows s b) {address : BitVec 16} {v : Byte}
    (hget : s.get b.cpu.portR address = some v) :
    ∃ b', b.getByteSpc address = some (v, b') ∧ Shows s b' ∧ b.SameInput b' := by
  unfold Plain.get at hget
  unfold Bus.getByteSpc
  by_cases hrom : 0xFFC0 ≤ address.toNat
  · rw [if_pos hrom, Option.some_inj] at hget
    subst hget
    rw [if_pos (by omega), if_pos hrom, h.rom]
    unfold bootRom
    exact ⟨b, rfl, h, rfl, rfl⟩
  · rw [if_neg hrom] at hget
    by_cases hram : InRam address
    · rw [if_pos hram] at hget
      cases hget
      rw [← h.ram]
      by_cases hpage : 0x0100 ≤ address.toNat
      · rw [if_pos hpage, if_neg hrom]
        exact ⟨b, rfl, h, rfl, rfl⟩
      · have hlow : address.toNat < 0xF0 := by
          unfold InRam at hram
          omega
        rw [if_neg hpage, if_pos hlow]
        exact ⟨b, rfl, h, rfl, rfl⟩
    · rw [if_neg hram] at hget
      by_cases hport : IsPort address
      · rw [if_pos hport] at hget
        cases hget
        obtain ⟨hlow, hhigh⟩ := hport
        have hfun : Bus.readFuncMap.getD (address.toNat - 0xF0) Bus.spcReadInvalid =
            Bus.spcReadPortR := by
          obtain ⟨i, hi⟩ : ∃ i : Fin 4, address.toNat - 0xF0 = i.val + 4 :=
            ⟨⟨address.toNat - 0xF4, by omega⟩, by dsimp only; omega⟩
          rw [hi]
          fin_cases i <;> rfl
        rw [if_neg (by omega), if_neg (by omega), hfun]
        exact ⟨b.saveCycles, rfl, ⟨h.regs, h.ram, h.portW, h.rom⟩, rfl, rfl⟩
      · rw [if_neg hport] at hget
        cases hget

/-- **A write**, which leaves the ports alone before the end. -/
theorem setByteSpc (h : Shows s b) {last : Bool} {address : BitVec 16} {data : Byte}
    (hset : s.set last address data = some s') :
    (∃ b', b.setByteSpc address data = some b' ∧ Shows s' b' ∧ b.SameInput b') ∧
      (last = false → s'.portW = s.portW) := by
  unfold Plain.set at hset
  unfold Bus.setByteSpc
  dsimp only
  by_cases hram : InRam address
  · rw [if_pos hram] at hset
    cases hset
    unfold InRam at hram
    have hwrite : Function.update b.ram address data = Function.update s.ram address data := by
      rw [h.ram]
    rw [if_pos (by omega)]
    exact ⟨⟨_, rfl, ⟨h.regs, hwrite, h.portW, h.rom⟩, rfl, rfl⟩, fun _ => rfl⟩
  · rw [if_neg hram] at hset
    by_cases hport : IsPort address
    · rw [if_pos hport] at hset
      cases last with
      | false => cases hset
      | true =>
          cases hset
          obtain ⟨hlow, hhigh⟩ := hport
          have hfun : Bus.writeFuncMap.getD (address.toNat - 0xF0) Bus.spcWriteInvalid =
              Bus.spcWritePortW := by
            obtain ⟨i, hi⟩ : ∃ i : Fin 4, address.toNat - 0xF0 = i.val + 4 :=
              ⟨⟨address.toNat - 0xF4, by omega⟩, by dsimp only; omega⟩
            rw [hi]
            fin_cases i <;> rfl
          have hwrite : Function.update b.cpu.portW (Fin.ofNat 4 address.toNat) data =
              Function.update s.portW (Fin.ofNat 4 address.toNat) data := by
            rw [h.portW]
          rw [if_neg (by omega), hfun]
          exact ⟨⟨_, rfl, ⟨h.regs, h.ram, hwrite, h.rom⟩, rfl, rfl⟩, fun hlast => by cases hlast⟩
    · rw [if_neg hport] at hset
      cases hset

/-- **The statements of a cycle**, by induction on the list. -/
theorem execBody (last : Bool) (body : List Stmt) :
    ∀ {s : Plain} {b : Bus} {exited : Bool} {s' : Plain}, Shows s b →
      Plain.body b.cpu.portR last body s = some (exited, s') →
      (∃ b', Bus.execBody body b = .ok (exited, b') ∧ Shows s' b' ∧ b.SameInput b') ∧
        (last = false → s'.portW = s.portW) := by
  induction body with
  | nil =>
      intro s b exited s' h hbody
      cases hbody
      exact ⟨⟨b, rfl, h, rfl, rfl⟩, fun _ => rfl⟩
  | cons stmt body ih =>
      intro s b exited s' h hbody
      have hregs : b.cpuRegs = s.regs := h.regs
      cases stmt with
      | getByte address assign =>
          unfold Plain.body at hbody
          obtain ⟨v, hv, hbody⟩ := Option.bind_eq_some_iff.mp hbody
          obtain ⟨b₁, hb₁, h₁, hinput⟩ := h.getByteSpc hv
          have hmapped : b.SameInput (b₁.mapRegs (assign v)) := ⟨hinput.portR, hinput.regs⟩
          rw [← hmapped.portR] at hbody
          obtain ⟨⟨b', hb', h', hinput'⟩, hquiet⟩ := ih (h₁.mapRegs (assign v)) hbody
          refine ⟨⟨b', ?_, h', hmapped.trans hinput'⟩, hquiet⟩
          unfold Bus.execBody
          rw [hregs, hb₁]
          exact hb'
      | setByte address data =>
          unfold Plain.body at hbody
          obtain ⟨s₁, hs₁, hbody⟩ := Option.bind_eq_some_iff.mp hbody
          obtain ⟨⟨b₁, hb₁, h₁, hinput⟩, hquiet₁⟩ := h.setByteSpc hs₁
          rw [← hinput.portR] at hbody
          obtain ⟨⟨b', hb', h', hinput'⟩, hquiet⟩ := ih h₁ hbody
          refine ⟨⟨b', ?_, h', hinput.trans hinput'⟩,
            fun hlast => (hquiet hlast).trans (hquiet₁ hlast)⟩
          unfold Bus.execBody
          rw [hregs, hb₁]
          exact hb'
      | assign f =>
          obtain ⟨hrun, hquiet⟩ := ih (s := s.mapRegs f) (b := b.mapRegs f) (h.mapRegs f) hbody
          obtain ⟨b', hb', h', hinput⟩ := hrun
          exact ⟨⟨b', hb', h', hinput.portR, hinput.regs⟩, hquiet⟩
      | exitIf test =>
          unfold Plain.body at hbody
          unfold Bus.execBody
          rw [hregs]
          by_cases htest : test s.regs = true
          · rw [if_pos htest] at hbody ⊢
            cases hbody
            exact ⟨⟨b, rfl, h, rfl, rfl⟩, fun _ => rfl⟩
          · rw [if_neg htest] at hbody ⊢
            exact ih h hbody

end Shows

/-! ## Instructions -/

namespace Bus

/-- While a debt is paid off nothing happens but outside. -/
theorem ticks_idle (h : HostPorts) (d : DspInput) (b : Bus) (debt : Nat) :
    ∀ n t, b.cpu.portR = h t → b.regs = d t →
      ticks h d (t + 1) n (b, n + debt) = .ok (b.setInput (h (t + n)) (d (t + n)), debt) := by
  intro n
  induction n generalizing b with
  | zero =>
      intro t hports hregs
      rw [Nat.zero_add]
      change Except.ok (b, debt) = Except.ok (b.setInput (h t) (d t), debt)
      rw [← hports, ← hregs]
      rfl
  | succ n ih =>
      intro t _ _
      have hrest := ih (b.setInput (h (t + 1)) (d (t + 1))) (t + 1) rfl rfl
      rw [Nat.add_right_comm t 1 n] at hrest
      rw [Nat.succ_add]
      exact hrest

end Bus

/-- Between two instructions: the program goes from `s` at time `t` to `s'` at
time `t'`, and what it has written to the ports does not change before the end.
What comes from outside stays as it is put there. -/
structure Reaches (h : HostPorts) (d : DspInput) (t : Nat) (s : Plain) (t' : Nat) (s' : Plain)
    (b b' : Bus) : Prop where
  lt : t < t'
  run : Bus.ticks h d t (t' - t) (b, 0) = .ok (b', 0)
  shows : Shows s' b'
  ports : b'.cpu.portR = h (t' - 1)
  regs : b'.regs = d (t' - 1)
  quiet : ∀ m, 0 < m → m < t' - t → ∃ x, Bus.ticks h d t m (b, 0) = .ok x ∧
    x.1.cpu.portW = s.portW ∧ x.1.cpu.portR = h (t + m - 1) ∧ x.1.regs = d (t + m - 1)

section Cycles

variable {h : HostPorts} {d : DspInput} {cs : List Cycle}

/-- One cycle and the time it takes. -/
theorem ticks_work {t w : Nat} (hw : 0 < w) {s s₁ : Plain} {b b₁ : Bus}
    (hstep : (b.setInput (h t) (d t)).stepCycle = .ok (b₁, w - 1)) (h₁ : Shows s₁ b₁)
    (hportR : b₁.cpu.portR = h t) (hregs : b₁.regs = d t)
    (hquiet : w = 1 ∨ s₁.portW = s.portW) :
    Reaches h d t s (t + w) s₁ b (b₁.setInput (h (t + (w - 1))) (d (t + (w - 1)))) := by
  obtain ⟨n, rfl⟩ : ∃ n, w = n + 1 := ⟨w - 1, by omega⟩
  have hfirst (m : Nat) : Bus.ticks h d t (m + 1) (b, 0) = Bus.ticks h d (t + 1) m (b₁, n) := by
    change ((b.setInput (h t) (d t)).stepCycle >>= Bus.ticks h d (t + 1) m) = _
    rw [hstep]
    rfl
  refine ⟨Nat.lt_add_of_pos_right hw, ?_, h₁.setInput _ _, rfl, rfl, ?_⟩
  · rw [Nat.add_sub_cancel_left, hfirst]
    exact Bus.ticks_idle h d b₁ 0 n t hportR hregs
  · intro m hpos hm
    obtain ⟨m, rfl⟩ : ∃ k, m = k + 1 := ⟨m - 1, by omega⟩
    have hidle := Bus.ticks_idle h d b₁ (n - m) m t hportR hregs
    rw [Nat.add_sub_cancel' (by omega)] at hidle
    refine ⟨_, (hfirst m).trans hidle, ?_, rfl, rfl⟩
    obtain hone | hsame := hquiet
    · omega
    · exact h₁.portW.trans hsame

/-- One after the other. -/
theorem Reaches.trans {t t₁ t' : Nat} {s s₁ s' : Plain} {b b₁ b' : Bus}
    (h₁ : Reaches h d t s t₁ s₁ b b₁) (h' : Reaches h d t₁ s₁ t' s' b₁ b')
    (hsame : s₁.portW = s.portW) : Reaches h d t s t' s' b b' := by
  have hlt := h₁.lt
  have hlt' := h'.lt
  have hafter (n : Nat) : Bus.ticks h d t (t₁ - t + n) (b, 0) = Bus.ticks h d t₁ n (b₁, 0) := by
    rw [Bus.ticks_add, h₁.run, Nat.add_sub_cancel' hlt.le]
    rfl
  refine ⟨hlt.trans hlt', ?_, h'.shows, h'.ports, h'.regs, ?_⟩
  · have hsplit : t' - t = t₁ - t + (t' - t₁) := by omega
    rw [hsplit, hafter]
    exact h'.run
  · intro m hpos hm
    obtain hearly | hat | hlate := lt_trichotomy m (t₁ - t)
    · exact h₁.quiet m hpos hearly
    · have htime : t + (t₁ - t) - 1 = t₁ - 1 := by omega
      rw [hat, htime]
      exact ⟨_, h₁.run, h₁.shows.portW.trans hsame, h₁.ports, h₁.regs⟩
    · obtain ⟨x, hx, hport, hinput⟩ := h'.quiet (m - (t₁ - t)) (by omega) (by omega)
      have htime : t₁ + (m - (t₁ - t)) - 1 = t + m - 1 := by omega
      rw [htime] at hinput
      refine ⟨x, ?_, hport.trans hsame, hinput⟩
      rw [← hx, ← hafter, Nat.add_sub_cancel' hlate.le]

/-- **The cycles of an opcode**, by induction on them. -/
theorem reaches_cycles (ys : List Cycle) :
    ∀ {t t' c : Nat} {s s' : Plain} {b : Bus}, Shows s b → switchSpc b.cpu.opcode = some cs →
      ys = cs.drop c → b.cpu.cycle.toNat = c + 1 → Plain.cycles h t ys s = some (s', t') →
      ∃ b', Reaches h d t s t' s' b b' ∧ b'.cpu.cycle = 0 := by
  induction ys with
  | nil =>
      intro t t' c s s' b hb hop hys hc hcycles
      cases hcycles
  | cons y ys ih =>
      intro t t' c s s' b hb hop hys hc hcycles
      have hsome : cs[c]? = some y := by
        rw [← List.head?_drop, ← hys]
        rfl
      have hrest : ys = cs.drop (c + 1) := by
        rw [← List.drop_drop, ← hys]
        rfl
      have hlt : c < cs.length := (List.getElem?_eq_some_iff.mp hsome).1
      have hlen := (switchSpc_short hop).1.2
      unfold Plain.cycles at hcycles
      obtain ⟨⟨exited, s₁⟩, hbody, hcycles⟩ := Option.bind_eq_some_iff.mp hcycles
      obtain ⟨⟨b₁, hb₁, h₁, hinput⟩, hquiet⟩ := (hb.setInput (h t) (d t)).execBody _ y.body hbody
      have hstep : (b.setInput (h t) (d t)).stepCycle =
          if exited then .ok ((b₁.work 1).setCycle 0, 0)
          else .ok ((b₁.work y.work).setCycle (if c + 1 = cs.length then 0 else c + 2),
            y.work - 1) := by
        have hc' : (b.setInput (h t) (d t)).cpu.cycle.toNat = c + 1 := hc
        have hop' : switchSpc (b.setInput (h t) (d t)).cpu.opcode = some cs := hop
        unfold Bus.stepCycle Bus.stepAt
        rw [hc', if_neg (Nat.not_succ_le_zero c), hop']
        dsimp only
        rw [Nat.add_sub_cancel, hsome]
        dsimp only
        rw [hb₁]
        rfl
      have hframe := CycleFrame.execBody y.body (b.setInput (h t) (d t))
      rw [hb₁] at hframe
      have hop₁ : b₁.cpu.opcode = b.cpu.opcode := hframe.opcode
      dsimp only at hcycles
      cases exited with
      | true =>
          rw [if_pos rfl] at hcycles hstep
          cases hcycles
          exact ⟨_, ticks_work (w := 1) (by decide) hstep (h₁.of_frame 1 0) hinput.portR hinput.regs
            (Or.inl rfl), rfl⟩
      | false =>
          rw [if_neg Bool.false_ne_true] at hcycles hstep
          have hpos := y.work_pos
          cases ys with
          | nil =>
              have hlast : c + 1 = cs.length := by
                have := List.drop_eq_nil_iff.mp hrest.symm
                omega
              have hwork : y.work = 1 ∨ s₁.portW = s.portW := by
                by_cases hone : y.work = 1
                · exact Or.inl hone
                · refine Or.inr (hquiet ?_)
                  rw [Bool.and_eq_false_iff]
                  exact Or.inr (beq_eq_false_iff_ne.mpr hone)
              rw [if_pos hlast] at hstep
              cases hcycles
              exact ⟨_, ticks_work hpos hstep (h₁.of_frame _ 0) hinput.portR hinput.regs hwork, rfl⟩
          | cons z zs =>
              have hmore : c + 1 < cs.length := by
                by_contra hge
                rw [List.drop_eq_nil_of_le (not_lt.mp hge)] at hrest
                cases hrest
              rw [if_neg (Nat.ne_of_lt hmore)] at hstep
              have hsame : s₁.portW = s.portW := hquiet rfl
              have hreach := ticks_work hpos hstep (h₁.of_frame _ _) hinput.portR hinput.regs
                (Or.inr hsame)
              have hop' : switchSpc b₁.cpu.opcode = some cs := by rw [hop₁, hop]
              have hnext := Bus.toNat_setCycle (b₁.work y.work) (show c + 2 < 256 by omega)
              obtain ⟨b', hreach', hzero⟩ := ih (c := c + 1) hreach.shows hop' hrest hnext hcycles
              exact ⟨b', hreach.trans hreach' hsame, hzero⟩

/-- **An instruction.** -/
theorem reaches_instr {t t' : Nat} {s s' : Plain} {b : Bus} (hb : Shows s b)
    (hcycle : b.cpu.cycle = 0) (hinstr : Plain.instr h t s = some (s', t')) :
    ∃ b', Reaches h d t s t' s' b b' ∧ b'.cpu.cycle = 0 := by
  unfold Plain.instr at hinstr
  obtain ⟨opcode, hop, hinstr⟩ := Option.bind_eq_some_iff.mp hinstr
  obtain ⟨cs, hcs, hcycles⟩ := Option.bind_eq_some_iff.mp hinstr
  have hpc : b.cpu.pc = s.regs.pc := congrArg CpuRegs.pc hb.regs
  obtain ⟨b₁, hb₁, h₁, hinput⟩ := (hb.setInput (h t) (d t)).getByteSpc hop
  have hfetched : Shows (s.mapRegs fun r => { r with pc := r.pc + 1 })
      ((({ b₁ with cpu := { b₁.cpu with opcode := opcode, pc := b₁.cpu.pc + 1 } } : Bus).work
        1).setCycle 1) :=
    ⟨congrArg (fun r : CpuRegs => { r with pc := r.pc + 1 }) h₁.regs, h₁.ram, h₁.portW, h₁.rom⟩
  have hstep : (b.setInput (h t) (d t)).stepCycle =
      .ok (((({ b₁ with cpu := { b₁.cpu with opcode := opcode, pc := b₁.cpu.pc + 1 } } : Bus).work
        1).setCycle 1), 1 - 1) := by
    unfold Bus.stepCycle Bus.fetch
    rw [if_pos (show (b.setInput (h t) (d t)).cpu.cycle.toNat ≤ 0 from by
      change b.cpu.cycle.toNat ≤ 0
      rw [hcycle]
      exact le_rfl)]
    change ((orTrap ((b.setInput (h t) (d t)).getByteSpc b.cpu.pc) >>= _) >>= _) = _
    rw [hpc, hb₁]
    rfl
  have hfetch := ticks_work (s := s) (by decide) hstep hfetched hinput.portR hinput.regs
    (Or.inr rfl)
  have hone := Bus.toNat_setCycle
    (({ b₁ with cpu := { b₁.cpu with opcode := opcode, pc := b₁.cpu.pc + 1 } } : Bus).work 1)
    (by decide : 1 < 256)
  obtain ⟨b', hreach, hzero⟩ := reaches_cycles cs (c := 0) hfetch.shows hcs rfl hone hcycles
  exact ⟨b', hfetch.trans hreach rfl, hzero⟩

end Cycles

/-! ## Stretches of a program -/

/-- Some instructions, the last of which alone may write to the ports. -/
inductive Plain.Runs (h : HostPorts) : Nat → Plain → Nat → Plain → Prop where
  | last {t t' : Nat} {s s' : Plain} (hinstr : Plain.instr h t s = some (s', t')) :
      Plain.Runs h t s t' s'
  | next {t t₁ t' : Nat} {s s₁ s' : Plain} (hinstr : Plain.instr h t s = some (s₁, t₁))
      (hquiet : s₁.portW = s.portW) (hruns : Plain.Runs h t₁ s₁ t' s') : Plain.Runs h t s t' s'

/-- One stretch after another. -/
theorem Plain.Runs.trans {h : HostPorts} {t t₁ t' : Nat} {s s₁ s' : Plain}
    (hfirst : Plain.Runs h t s t₁ s₁) (hquiet : s₁.portW = s.portW)
    (hruns : Plain.Runs h t₁ s₁ t' s') : Plain.Runs h t s t' s' := by
  induction hfirst with
  | last hinstr => exact .next hinstr hquiet hruns
  | next hinstr hsame _ ih => exact .next hinstr hsame (ih (hquiet.trans hsame.symm) hruns)

/-- **A stretch**, by induction on its instructions. -/
theorem reaches_runs {h : HostPorts} {t t' : Nat} {s s' : Plain} (hruns : Plain.Runs h t s t' s') :
    ∀ {b : Bus}, Shows s b → b.cpu.cycle = 0 →
      ∃ b', Reaches h d t s t' s' b b' ∧ b'.cpu.cycle = 0 := by
  induction hruns with
  | last hinstr => exact fun hb hcycle => reaches_instr hb hcycle hinstr
  | next hinstr hquiet _ ih =>
      intro b hb hcycle
      obtain ⟨b₁, hreach, hzero⟩ := reaches_instr hb hcycle hinstr
      obtain ⟨b', hreach', hzero'⟩ := ih hreach.shows hzero
      exact ⟨b', hreach.trans hreach' hquiet, hzero'⟩

end OpenSpc
