import OpenSpc.BootReceiver

/-!
# Messages to the boot ROM

From a look at the mark to the acknowledgement the host has nothing to do, and
from then on it may go on to the next message while the byte is still being
stored.  So a message is received after another, and none is lost or taken twice.
-/

namespace OpenSpc

open Handshake (Serving Pending Fair sent during movesBefore movesBefore_mono)
open Plain (word)
open Receiver (target stored Takes Receives)

/-- All of the messages but `ms` are received, and the ports were `p` with the
last of them. -/
def Awaits (schedule : Nat → Nat) (dsp : DspInput) (start : Host × Bus) (t : Nat) (r : Receiver)
    (p : Ports) (ms : List HostMessage) : Prop :=
  ∃ y s, Meets schedule dsp start t y s ∧ r.phase.At s ∧ s.ram = r.ram ∧
    r.phase.Echoes (p 0) (s.portW 0) ∧ Serving (s.portW 0) p ms y

section

variable {schedule : Nat → Nat} {dsp : DspInput} {start : Host × Bus} {t : Nat} {r : Receiver}
  {p : Ports} {m : HostMessage} {ms : List HostMessage}

/-- The ports when a message is sent. -/
theorem portsFrom_sent {y : Host × Ports} {s : Plain} (hne : s.portW 0 ≠ m.mark) {u v : Nat}
    (htu : t ≤ u) (huv : u ≤ v) (hsent : during schedule (s.portW 0) t y u = sent p m ms) :
    during schedule (s.portW 0) t y v = sent p m ms := by
  rw [Handshake.during_trans htu huv, hsent]
  exact Handshake.iterate_sent hne _

/-- **A message is seen.**  While it is not sent the boot ROM waits, and the
host gets to the end of it by the time `T`. -/
theorem sees_message (T : Nat) (htakes : Takes (p 0) (m.after p) r) :
    ∀ (d : Nat) {t : Nat} {y : Host × Ports} {s : Plain}, T - t = d →
      Meets schedule dsp start t y s → r.phase.At s → s.ram = r.ram →
      r.phase.Echoes (p 0) (s.portW 0) →
      Pending (s.portW 0) p m ms y ∧ movesBefore schedule t + y.1.left ≤ movesBefore schedule T ∨
        y = sent p m ms →
      ∃ t' s', Meets schedule dsp start t' (sent p m ms) s' ∧ Sees (r.phase.kind (m.after p)) s' ∧
        s'.ram = r.ram ∧ s'.portW 0 = s.portW 0 := by
  intro d
  induction d using Nat.strong_induction_on with
  | _ d ih =>
      intro t y s hd hmeets hat hram hecho hhost
      have hne : s.portW 0 ≠ m.mark := by
        have hne := htakes.hears.ne hecho
        rwa [m.after_flag] at hne
      have hview (u : Nat) (hu : t ≤ u) :
          Pending (s.portW 0) p m ms (during schedule (s.portW 0) t y u) ∧
              movesBefore schedule u + (during schedule (s.portW 0) t y u).1.left ≤
                movesBefore schedule T ∨
            during schedule (s.portW 0) t y u = sent p m ms := by
        obtain ⟨hpending, hleft⟩ | hsent := hhost
        · have hmono := movesBefore_mono schedule hu
          refine (hpending.iterate hne _).imp_left fun hlater => ⟨hlater.1, ?_⟩
          have hcount := hlater.2
          unfold during
          omega
        · right
          rw [hsent]
          exact Handshake.iterate_sent hne _
      obtain ⟨hpending, hleft⟩ | hsent := hview (t + r.phase.look + 1) (by omega)
      · have hlate : t + r.phase.look + 1 < T := by
          by_contra hge
          have hmono := movesBefore_mono schedule (not_lt.mp hge)
          have hpos := hpending.left_pos
          omega
        obtain ⟨s', ⟨⟨n, hn, hruns⟩, hram', hport⟩, hat'⟩ :=
          looks_old (h := portsFrom schedule t y s) hat htakes.hears hecho hpending.keeps_flag
        obtain ⟨-, hmeets'⟩ := hmeets.runs hruns
        have hhost' := hview (t + n) (Nat.le_add_right t n)
        rw [← hport] at hecho hhost' hmeets' ⊢
        exact ih (T - (t + n)) (by omega) rfl hmeets' hat' (hram'.trans hram) hecho hhost'
      · obtain ⟨s', ⟨⟨n, hn, hruns⟩, hram', hport⟩, hsees⟩ :=
          looks_new (h := portsFrom schedule t y s) hat htakes.hears fun u hu =>
            congrArg Prod.snd (portsFrom_sent hne (by omega) (Nat.succ_le_succ hu) hsent)
        obtain ⟨-, hmeets'⟩ := hmeets.runs hruns
        have hlater : t + r.phase.look + 1 ≤ t + n := by omega
        rw [portsFrom_sent hne (by omega) hlater hsent] at hmeets'
        exact ⟨t + n, s', hmeets', hsees, hram'.trans hram, congrFun hport 0⟩

/-- After an acknowledgement the host goes on, and so does the boot ROM. -/
theorem Awaits.of_runs {n : Nat} {s s' : Plain}
    (hmeets : Meets schedule dsp start t (sent p m ms) s) (hecho : s.portW 0 = m.mark)
    (hnext : ∀ m' ∈ ms.head?, m.mark ≠ m'.mark)
    (hruns : Plain.Runs (portsFrom schedule t (sent p m ms) s) t s (t + n) s')
    (hat : r.phase.At s') (hram : s'.ram = r.ram) (hport : s'.portW = s.portW)
    (hechoes : r.phase.Echoes m.mark m.mark) :
    Awaits schedule dsp start (t + n) r (m.after p) ms := by
  obtain ⟨-, hmeets'⟩ := hmeets.runs hruns
  have hserving := (Serving.of_sent p m ms).iterate hnext
    (movesBefore schedule (t + n) - movesBefore schedule t)
  refine ⟨_, s', hmeets', hat, hram, ?_, ?_⟩
  · rw [m.after_flag, hport, hecho]
    exact hechoes
  · unfold during
    rw [hport, hecho]
    exact hserving

/-- **A byte is acknowledged and stored.** -/
theorem stores_byte (htakes : Takes (p 0) (m.after p) r)
    (hnext : ∀ m' ∈ ms.head?, m.mark ≠ m'.mark) {s : Plain}
    (hmeets : Meets schedule dsp start t (sent p m ms) (s.atPc 0xFFDE))
    (hkind : r.phase.kind (m.after p) = some s.regs.y) (hram : s.ram = r.ram)
    (hne : s.portW 0 ≠ m.mark) :
    ∃ t', Awaits schedule dsp start t' (r.receive (m.after p)) (m.after p) ms := by
  have hmark : s.regs.y = m.mark := (htakes.index hkind).symm.trans (m.after_flag p)
  have hstay (u : Nat) :
      during schedule ((s.atPc 0xFFDE).portW 0) t (sent p m ms) u = sent p m ms :=
    Handshake.iterate_sent hne _
  obtain ⟨s₁, hruns₁, hram₁, hport₁, hy₁, ha₁⟩ := Plain.runs_acknowledge (s := s)
    (h := portsFrom schedule t (sent p m ms) (s.atPc 0xFFDE)) (t := t)
  obtain ⟨-, hmeets₁⟩ := hmeets.runs hruns₁
  rw [hstay] at hmeets₁
  have hdata : s₁.regs.a = m.after p 1 := ha₁.trans (congrFun (congrArg Prod.snd (hstay _)) 1)
  have hecho : s₁.portW 0 = m.mark := by
    rw [hport₁, Function.update_self, hmark]
  have ha : InRam (target s₁.ram s₁.regs.y) := by
    rw [hram₁, hram, hy₁]
    exact htakes.inRam _ hkind
  obtain ⟨n, s', hruns, hat, hram', hport⟩ := runs_stored ha
    (h := portsFrom schedule (t + 7) (sent p m ms) (s₁.atPc 0xFFE2)) (t := t + 7)
  have hreceive : r.receive (m.after p) = r.store s.regs.y (m.after p 1) := by
    unfold Receiver.receive
    rw [hkind]
  rw [hy₁] at hat hram'
  rw [hram₁, hram, hdata] at hram'
  rw [hreceive]
  exact ⟨_, Awaits.of_runs hmeets₁ hecho hnext hruns hat hram' hport
    ⟨rfl, congrArg (· + 1) hmark⟩⟩

/-- **A command is acknowledged and followed.** -/
theorem follows_command (hnext : ∀ m' ∈ ms.head?, m.mark ≠ m'.mark) {s : Plain}
    (hmeets : Meets schedule dsp start t (sent p m ms) (s.atPc 0xFFEF))
    (hkind : r.phase.kind (m.after p) = none) (hram : s.ram = r.ram)
    (hne : s.portW 0 ≠ m.mark) :
    ∃ t', Awaits schedule dsp start t' (r.receive (m.after p)) (m.after p) ms := by
  have hstay (u : Nat) :
      during schedule ((s.atPc 0xFFEF).portW 0) t (sent p m ms) u = sent p m ms :=
    Handshake.iterate_sent hne _
  have hports (u : Nat) : portsFrom schedule t (sent p m ms) (s.atPc 0xFFEF) u = m.after p :=
    congrArg Prod.snd (hstay _)
  obtain ⟨s₁, hruns₁, hram₁, hport₁, hy₁⟩ := Plain.runs_command (s := s)
    (h := portsFrom schedule t (sent p m ms) (s.atPc 0xFFEF)) (t := t)
  obtain ⟨-, hmeets₁⟩ := hmeets.runs hruns₁
  rw [hstay] at hmeets₁
  rw [hports, hports, hram] at hram₁
  rw [hports] at hport₁ hy₁
  have hecho : s₁.portW 0 = m.mark := by
    rw [hport₁, Function.update_self, m.after_flag]
  obtain ⟨n, s', hruns, hat, hram', hport⟩ := runs_commanded (s := s₁)
    (h := portsFrom schedule (t + 19) (sent p m ms) (s₁.atPc 0xFFF7)) (t := t + 19)
  have hreceive : r.receive (m.after p) = r.command (m.after p) := by
    unfold Receiver.receive
    rw [hkind]
  have hphase : (if s₁.regs.y = 0 then Phase.started (word (s₁.ram 0) (s₁.ram 1)) else .block) =
      (r.command (m.after p)).phase := by
    rw [hy₁, hram₁]
    rfl
  rw [hphase] at hat
  rw [hreceive]
  refine ⟨_, Awaits.of_runs hmeets₁ hecho hnext hruns hat (hram'.trans hram₁) hport ?_⟩
  change (if m.after p 1 = 0 then Phase.started _ else .block).Echoes _ _
  split <;> rfl

/-- **A message is received.** -/
theorem Awaits.receive (hfair : Fair schedule) (h : Awaits schedule dsp start t r p (m :: ms))
    (htakes : Takes (p 0) (m.after p) r) (hnext : ∀ m' ∈ ms.head?, m.mark ≠ m'.mark) :
    ∃ t', Awaits schedule dsp start t' (r.receive (m.after p)) (m.after p) ms := by
  obtain ⟨y, s, hmeets, hat, hram, hecho, hserving⟩ := h
  have hne : s.portW 0 ≠ m.mark := by
    have hne := htakes.hears.ne hecho
    rwa [m.after_flag] at hne
  obtain ⟨T, hT⟩ := hfair.reaches t y.1.left
  obtain ⟨t', s', hmeets', hsees, hram', hport⟩ := sees_message T htakes _ rfl hmeets hat hram hecho
    (hserving.imp_left fun hpending => ⟨hpending, hT⟩)
  generalize hkind : r.phase.kind (m.after p) = kind at hsees
  cases hsees with
  | command s' => exact follows_command hnext hmeets' hkind hram' (hport.trans_ne hne)
  | byte s' => exact stores_byte htakes hnext hmeets' hkind hram' (hport.trans_ne hne)

/-- **All messages are received**, by induction on them. -/
theorem Awaits.receives (hfair : Fair schedule) {r' : Receiver} {p' : Ports}
    (hall : Receives r p ms r' p') :
    ∀ {t : Nat}, Awaits schedule dsp start t r p ms →
      ∃ t', Awaits schedule dsp start t' r' p' [] := by
  induction hall with
  | nil r p => exact fun h => ⟨_, h⟩
  | @cons r r' p p' m ms htakes hrest ih =>
      intro t h
      have hnext : ∀ m' ∈ ms.head?, m.mark ≠ m'.mark := by
        intro m' hm'
        cases hrest with
        | nil r p => cases hm'
        | cons htakes' _ =>
            cases hm'
            have hne := htakes'.hears.ne htakes.echoes
            rwa [m.after_flag, m'.after_flag] at hne
      obtain ⟨t', h'⟩ := h.receive hfair htakes hnext
      exact ih h'

/-! ## From the start of the boot ROM -/

/-- The core is about to enter the boot ROM as it does after a reset, with the
direct page in page 0, as P is clear. -/
structure Boots (b : Bus) : Prop where
  pc : b.cpu.pc = 0xFFC0
  directPage : b.cpu.directPage = 0
  cycle : b.cpu.cycle = 0
  rom : b.cpu.ffc0Address = .rom
  ahead : b.ahead ≤ 10

instance (b : Bus) : Decidable (Boots b) :=
  decidable_of_iff (b.cpu.pc = 0xFFC0 ∧ b.cpu.directPage = 0 ∧ b.cpu.cycle = 0 ∧
    b.cpu.ffc0Address = .rom ∧ b.ahead ≤ 10)
    ⟨fun ⟨h₁, h₂, h₃, h₄, h₅⟩ => ⟨h₁, h₂, h₃, h₄, h₅⟩,
      fun h => ⟨h.pc, h.directPage, h.cycle, h.rom, h.ahead⟩⟩

/-- A receiver that nothing was sent to. -/
def freshReceiver (b : Bus) : Receiver := ⟨.ready, Plain.clearPage 0xEF b.ram⟩

/-- A host that waits for the boot ROM to announce itself. -/
def freshHost (ms : List HostMessage) : Host := ⟨0xAA, [], ms⟩

/-- What it works on. -/
def bootPlain (b : Bus) : Plain := Plain.atPc 0xFFC0 ⟨b.cpu.cpuRegs, b.ram, b.cpu.portW⟩

/-- **It enters the boot ROM** when it has paid off what it is ahead. -/
theorem Boots.meets {b : Bus} (hb : Boots b) (x : Host) :
    Meets schedule dsp (x, b) b.ahead (during schedule (b.cpu.portW 0) 0 (x, b.cpu.portR) b.ahead)
      (bootPlain b) := by
  have hstep : ∀ k, k ≤ b.ahead → KeepsDsp schedule dsp (x, b) k ∧ ∃ ports regs b',
      hostRun schedule dsp (x, b) k =
        .ok ((during schedule (b.cpu.portW 0) 0 (x, b.cpu.portR) k).1, b') ∧
      Rested (b.loadCycles.setInput ports regs, b.ahead - k) b' ∧
      ports = (during schedule (b.cpu.portW 0) 0 (x, b.cpu.portR) k).2 := by
    intro k
    induction k with
    | zero =>
        intro _
        rw [Handshake.during_self]
        exact ⟨fun u hu => absurd hu (Nat.not_lt_zero u), _, _, b, rfl, Rested.refl b, rfl⟩
    | succ k ih =>
        intro hk
        obtain ⟨hkeeps, ports, regs, b', hrun, hrest, hports⟩ := ih (by omega)
        have hdebt : b.ahead - k = b.ahead - (k + 1) + 1 := by omega
        have hahead := hb.ahead
        rw [hdebt] at hrest
        obtain ⟨b'', hrun', hrest', -⟩ := hostRun_tick hrun hrest (by omega) hports
          (Handshake.during_succ (Nat.zero_le k) _).symm rfl
        exact ⟨hkeeps.succ hrun' hrest'.regs, _, _, b'', hrun', hrest', rfl⟩
  obtain ⟨hkeeps, ports, regs, b', hrun, hrest, hports⟩ := hstep b.ahead le_rfl
  rw [Nat.sub_self] at hrest
  refine ⟨hkeeps, _, b', hrun, hrest, hports, ⟨?_, rfl, rfl, hb.rom⟩, hb.cycle⟩
  change b.cpu.cpuRegs = { b.cpu.cpuRegs with pc := 0xFFC0, directPage := 0 }
  rw [← hb.pc, ← hb.directPage]
  rfl

/-- **The boot ROM gets ready.** -/
theorem Awaits.ready {b : Bus} (hb : Boots b) (hnext : ∀ m ∈ ms.head?, (0xAA : Byte) ≠ m.mark) :
    ∃ t, Awaits schedule dsp (freshHost ms, b) t (freshReceiver b) b.cpu.portR ms := by
  have hmeets : Meets schedule dsp (freshHost ms, b) b.ahead _ _ := hb.meets (freshHost ms)
  obtain ⟨s₁, hruns₁, hram₁, hport₁⟩ := Plain.runs_reset (t := b.ahead)
    (s := ⟨b.cpu.cpuRegs, b.ram, b.cpu.portW⟩)
    (h := portsFrom schedule b.ahead
      (during schedule (b.cpu.portW 0) 0 (freshHost ms, b.cpu.portR) b.ahead) (bootPlain b))
  obtain ⟨-, hmeets₁⟩ := hmeets.runs hruns₁
  change Meets _ _ _ _ (during schedule (b.cpu.portW 0) b.ahead _ _) _ at hmeets₁
  rw [← Handshake.during_trans (Nat.zero_le b.ahead) (Nat.le_add_right b.ahead 2399)] at hmeets₁
  have hserving : Serving 0xAA b.cpu.portR ms (during schedule (b.cpu.portW 0) 0
      (freshHost ms, b.cpu.portR) (b.ahead + 2399)) := by
    unfold during
    by_cases hecho : b.cpu.portW 0 = 0xAA
    · rw [hecho]
      exact (Serving.start 0xAA b.cpu.portR ms).iterate hnext _
    · rw [Function.iterate_fixed (Handshake.act_of_move (Handshake.move_of_ne rfl hecho) _)]
      exact Serving.start 0xAA b.cpu.portR ms
  generalize during schedule _ 0 (freshHost ms, b.cpu.portR) (b.ahead + 2399) = y
    at hserving hmeets₁
  obtain ⟨s₂, hruns₂, hram₂, hport₂⟩ := Plain.runs_mark (s := s₁) (t := b.ahead + 2399)
    (h := portsFrom schedule (b.ahead + 2399) y (s₁.atPc 0xFFCC))
  obtain ⟨-, hmeets₂⟩ := hmeets₁.runs hruns₂
  have hecho₁ : (s₁.atPc 0xFFCC).portW 0 = 0xAA := by
    change s₁.portW 0 = _
    rw [hport₁]
    rfl
  have hecho₂ : (s₂.atPc 0xFFCF).portW 0 = 0xAA := by
    change s₂.portW 0 = _
    rw [hport₂]
    exact hecho₁
  refine ⟨_, _, _, hmeets₂, .ready s₂, hram₂.trans hram₁, hecho₂, ?_⟩
  rw [hecho₁, hecho₂]
  exact hserving.iterate hnext _

/-- **From the start to the last message.** -/
theorem Awaits.boot {b : Bus} (hb : Boots b) (hfair : Fair schedule) {p' : Ports}
    (hall : Receives (freshReceiver b) b.cpu.portR ms r p') :
    ∃ t, Awaits schedule dsp (freshHost ms, b) t r p' [] := by
  have hnext : ∀ m ∈ ms.head?, (0xAA : Byte) ≠ m.mark := by
    intro m hm
    cases hall with
    | nil => cases hm
    | cons htakes _ =>
        cases hm
        have hne := htakes.hears.ne (show (freshReceiver b).phase.Echoes _ 0xAA from rfl)
        rwa [m.after_flag] at hne
  obtain ⟨t, h⟩ := Awaits.ready hb hnext
  exact h.receives hfair hall

/-- The core has left the DSP registers alone so far. -/
theorem Awaits.keepsDsp (h : Awaits schedule dsp start t r p ms) :
    KeepsDsp schedule dsp start t := by
  obtain ⟨y, s, ⟨hkeeps, -⟩, -⟩ := h
  exact hkeeps

/-- What is left at the end. -/
theorem Awaits.done (h : Awaits schedule dsp start t r p []) :
    ∃ e b s, hostRun schedule dsp start t = .ok (⟨e, [], []⟩, b) ∧ b.cpu.portR = p ∧
      b.cpu.cycle = 0 ∧ Shows s b ∧ r.phase.At s ∧ s.ram = r.ram ∧ r.phase.Echoes (p 0) (s.portW 0) := by
  obtain ⟨y, s, ⟨-, m, b, hrun, hrest, hports, hshows, hcycle⟩, hat, hram, hecho, hserving⟩ := h
  obtain ⟨⟨k, hk, hsame, hcycle'⟩, hahead⟩ := hrest
  have hy : y = (⟨s.portW 0, [], []⟩, p) := hserving
  have hportR : b.cpu.portR = m.cpu.portR := hsame.portR
  have hshows' : Shows s b :=
    ⟨hsame.cpuRegs.trans hshows.regs, hsame.ram.trans hshows.ram, hsame.portW.trans hshows.portW,
      hsame.ffc0Address.trans hshows.rom⟩
  refine ⟨s.portW 0, b, s, ?_, ?_, hcycle'.trans hcycle, hshows', hat, hram, hecho⟩
  · rw [hrun, hy]
  · rw [hportR, hports, hy]

/-- **No message is lost, and none is taken twice.**  Messages that the boot ROM
can take, one after the other, are sent to a core that enters the boot ROM with
P clear; the host makes its moves at any time, and only has to make them at all.
Then they are all received, each once and in order, and the last of them is
acknowledged. -/
theorem messages_received {b : Bus} (hb : Boots b) (hfair : Fair schedule) {p' : Ports}
    (hall : Receives (freshReceiver b) b.cpu.portR ms r p') :
    ∃ t e b' s, hostRun schedule dsp (freshHost ms, b) t = .ok (⟨e, [], []⟩, b') ∧
      b'.cpu.portR = p' ∧ b'.cpu.cycle = 0 ∧ Shows s b' ∧ r.phase.At s ∧ s.ram = r.ram ∧
      r.phase.Echoes (p' 0) (s.portW 0) := by
  obtain ⟨t, h⟩ := Awaits.boot hb hfair hall
  exact ⟨t, h.done⟩

/-- A command, on a core that was reset. -/
theorem resetBus_message_received :
    ∃ t e b' s, hostRun (fun _ => 1) (fun _ _ => 0)
        (freshHost [⟨[(⟨1, by decide⟩, 0x01), (⟨3, by decide⟩, 0x03)], 0xCC⟩], resetBus) t =
        .ok (⟨e, [], []⟩, b') ∧
      b'.cpu.portR = ![0xCC, 0x01, 0x00, 0x03] ∧ b'.cpu.cycle = 0 ∧ Shows s b' ∧
      Phase.block.At s ∧
      s.ram = Function.update (Function.update (Plain.clearPage 0xEF resetBus.ram) 0 0x00) 1 0x03 ∧
      Phase.block.Echoes 0xCC (s.portW 0) := by
  have hafter : (⟨[(⟨1, by decide⟩, 0x01), (⟨3, by decide⟩, 0x03)], 0xCC⟩ : HostMessage).after
      resetBus.cpu.portR = ![0xCC, 0x01, 0x00, 0x03] := by
    funext i
    fin_cases i <;> rfl
  have hreceives : Receives (freshReceiver resetBus) resetBus.cpu.portR
      [⟨[(⟨1, by decide⟩, 0x01), (⟨3, by decide⟩, 0x03)], 0xCC⟩]
      ⟨.block, Function.update (Function.update (Plain.clearPage 0xEF resetBus.ram) 0 0x00) 1 0x03⟩
      ![0xCC, 0x01, 0x00, 0x03] := by
    rw [← hafter]
    exact .cons ⟨⟨by decide, rfl⟩, fun y hy => by cases hy⟩ (.nil _ _)
  exact messages_received (by decide) (fun t => ⟨t, le_rfl, Nat.one_pos⟩) hreceives

end

end OpenSpc
