import OpenSpc.BootSession

/-!
# What the boot ROM receives

The boot ROM as a receiver of messages: a command names an address, and is
followed by the bytes of a block or starts a program there.  It takes every
message that is sent to it, once and in order, whenever in a cycle the host
gets to make its moves.
-/

namespace OpenSpc

open Handshake (Serving Pending Fair sent during movesBefore movesBefore_mono)
open Plain (word)

/-! ## The receiver -/

abbrev HostMessage := Handshake.Message (0 : Fin 4) Byte

/-- What the boot ROM waits for. -/
inductive Phase where
  | ready
  | block
  | transfer (y : Byte)
  | started (pc : BitVec 16)

structure Receiver where
  phase : Phase
  ram : Ram

/-- What the ports are taken for: a byte at an index, or a command. -/
def Phase.kind (p : Ports) : Phase → Option Byte
  | .ready => none
  | .block => some 0
  | .transfer y => if p 0 = y then some y else none
  | .started _ => none

/-- Whether the ports are taken for anything, when port 0 held `q` before. -/
def Phase.Hears (q : Byte) (p : Ports) : Phase → Prop
  | .ready => q ≠ 0xCC ∧ p 0 = 0xCC
  | .block => q ≠ 0 ∧ p 0 = 0
  | .transfer y => p 0 = y ∨ (y - p 0).msb = true
  | .started _ => False

/-- What is in port 0 on the other side. -/
def Phase.Echoes (q echo : Byte) : Phase → Prop
  | .ready => echo = 0xAA
  | .block => echo = q
  | .transfer y => echo = q ∧ y = q + 1
  | .started _ => echo = q

/-- No acknowledgement is taken for the next one. -/
theorem Phase.Hears.ne {phase : Phase} {q echo : Byte} {p : Ports} (h : phase.Hears q p)
    (hecho : phase.Echoes q echo) : echo ≠ p 0 := by
  have hsucc : ∀ x : Byte, x ≠ x + 1 ∧ (x + 1 - x).msb = false := by decide
  cases phase with
  | ready =>
      rw [show echo = 0xAA from hecho, h.2]
      decide
  | block =>
      rw [show echo = q from hecho, h.2]
      exact h.1
  | transfer y =>
      obtain ⟨rfl, rfl⟩ := hecho
      intro heq
      obtain hy | hmsb := h
      · exact (hsucc echo).1 (heq.trans hy)
      · rw [← heq, (hsucc echo).2] at hmsb
        cases hmsb
  | started pc => exact h.elim

namespace Receiver

/-- Where the byte at an index goes. -/
def target (ram : Ram) (y : Byte) : BitVec 16 := word (ram 0) (ram 1) + y.setWidth 16

/-- A command, in ports 1 to 3. -/
def command (p : Ports) (r : Receiver) : Receiver where
  phase := if p 1 = 0 then .started (word (p 2) (p 3)) else .block
  ram := Function.update (Function.update r.ram 0 (p 2)) 1 (p 3)

/-- RAM with a byte in it; behind a page the pointer moves on. -/
def stored (y data : Byte) (ram : Ram) : Ram :=
  let ram' := Function.update ram (target ram y) data
  if y + 1 = 0 then Function.update ram' 1 (ram' 1 + 1) else ram'

/-- A byte, in port 1. -/
def store (y data : Byte) (r : Receiver) : Receiver where
  phase := .transfer (y + 1)
  ram := stored y data r.ram

/-- A message. -/
def receive (p : Ports) (r : Receiver) : Receiver :=
  match r.phase.kind p with
  | none => r.command p
  | some y => r.store y (p 1)

/-- It can be taken, and a byte goes to RAM. -/
structure Takes (q : Byte) (p : Ports) (r : Receiver) : Prop where
  hears : r.phase.Hears q p
  inRam : ∀ y ∈ r.phase.kind p, InRam (target r.ram y)

/-- Messages that are received one after the other. -/
inductive Receives : Receiver → Ports → List HostMessage → Receiver → Ports → Prop
  | nil (r : Receiver) (p : Ports) : Receives r p [] r p
  | cons {r r' : Receiver} {p p' : Ports} {m : HostMessage} {ms : List HostMessage}
      (htakes : r.Takes (p 0) (m.after p))
      (hrest : Receives (r.receive (m.after p)) (m.after p) ms r' p') :
      Receives r p (m :: ms) r' p'

/-- What is sent later is received later. -/
theorem Receives.append {r r₁ r' : Receiver} {p p₁ p' : Ports} {ms ms' : List HostMessage}
    (h : Receives r p ms r₁ p₁) (h' : Receives r₁ p₁ ms' r' p') :
    Receives r p (ms ++ ms') r' p' := by
  induction h with
  | nil _ _ => exact h'
  | cons htakes _ ih => exact .cons htakes (ih h')

variable {r : Receiver} {q : Byte} {p : Ports}

/-- A byte is at the index in port 0. -/
theorem Takes.index (h : r.Takes q p) {y : Byte} (hkind : r.phase.kind p = some y) : p 0 = y := by
  obtain ⟨hhears, -⟩ := h
  generalize r.phase = phase at hhears hkind
  cases phase with
  | ready => cases hkind
  | block =>
      cases hkind
      exact hhears.2
  | transfer y' =>
      change (if p 0 = y' then some y' else none) = some y at hkind
      split at hkind
      · rename_i heq
        cases hkind
        exact heq
      · cases hkind
  | started pc => cases hkind

/-- After a message its mark is echoed. -/
theorem Takes.echoes (h : r.Takes q p) : (r.receive p).phase.Echoes (p 0) (p 0) := by
  unfold receive
  cases hkind : r.phase.kind p with
  | none =>
      change (if p 1 = 0 then Phase.started (word (p 2) (p 3)) else .block).Echoes _ _
      split <;> rfl
  | some y => exact ⟨rfl, congrArg (· + 1) (h.index hkind).symm⟩

end Receiver

/-! ## Waiting -/

/-- Where the boot ROM is while it waits. -/
inductive Phase.At : Phase → Plain → Prop
  | ready (s : Plain) : Phase.At .ready (s.atPc 0xFFCF)
  | block (s : Plain) : Phase.At .block (s.atPc 0xFFD6)
  | transfer (s : Plain) : Phase.At (.transfer s.regs.y) (s.atPc 0xFFDA)
  | again (s : Plain) : Phase.At (.transfer s.regs.y) (s.atPc 0xFFEB)
  | started (pc : BitVec 16) (s : Plain) : Phase.At (.started pc) (s.atPc pc)

/-- Where it is when it has seen a byte or a command. -/
inductive Sees : Option Byte → Plain → Prop
  | command (s : Plain) : Sees none (s.atPc 0xFFEF)
  | byte (s : Plain) : Sees (some s.regs.y) (s.atPc 0xFFDE)

/-- When it looks at port 0. -/
def Phase.look : Phase → Nat
  | .ready => 3
  | _ => 2

/-- The program goes on for more than `k` cycles, and nothing happens to memory
or the ports. -/
structure Looks (h : HostPorts) (t k : Nat) (s s' : Plain) : Prop where
  runs : ∃ n, k < n ∧ Plain.Runs h t s (t + n) s'
  ram : s'.ram = s.ram
  portW : s'.portW = s.portW

section

variable {h : HostPorts} {t : Nat} {s : Plain} {phase : Phase} {q echo : Byte} {p : Ports}

/-- A look that keeps everything but the registers. -/
theorem Looks.of_kept {s s' : Plain} {k n : Nat} {pc pc' : BitVec 16} (hn : k < n)
    (hruns : Plain.Runs h t (s.atPc pc) (t + n) (s'.atPc pc')) (hkept : Plain.Kept s s') :
    Looks h t k (s.atPc pc) (s'.atPc pc') := ⟨⟨n, hn, hruns⟩, hkept.ram, hkept.portW⟩

/-- A look behind a stretch that reads nothing. -/
theorem Looks.trans {s₁ s' : Plain} {k n l : Nat} (hruns : Plain.Runs h t s (t + n) s₁)
    (hram : s₁.ram = s.ram) (hport : s₁.portW = s.portW) (hn : k < n)
    (hlooks : Looks h (t + n) l s₁ s') : Looks h t k s s' := by
  obtain ⟨⟨n', hn', hruns'⟩, hram', hport'⟩ := hlooks
  rw [Nat.add_assoc] at hruns'
  exact ⟨⟨n + n', by omega, hruns.trans hport hruns'⟩, hram'.trans hram, hport'.trans hport⟩

/-- **A look at the old mark** leads back to waiting. -/
theorem looks_old (hat : phase.At s) (hhears : phase.Hears q p) (hecho : phase.Echoes q echo)
    (hq : h (t + phase.look) 0 = q) : ∃ s', Looks h t phase.look s s' ∧ phase.At s' := by
  have hsucc : ∀ x : Byte, x ≠ x + 1 ∧ (x + 1 - x).msb = false := by decide
  cases hat with
  | ready s =>
      obtain ⟨s', hruns, hkept⟩ := Plain.runs_ready (s := s) (hq ▸ hhears.1)
      exact ⟨_, Looks.of_kept (by decide) hruns hkept, .ready s'⟩
  | block s =>
      obtain ⟨s', hruns, hram, hport⟩ := Plain.runs_begin (s := s) (hq ▸ hhears.1)
      exact ⟨_, ⟨⟨7, by decide, hruns⟩, hram, hport⟩, .block s'⟩
  | transfer s =>
      have hne : h (t + 2) 0 ≠ s.regs.y := by
        rw [show h (t + 2) 0 = q from hq, hecho.2]
        exact (hsucc q).1
      have hmsb : (s.regs.y - h (t + 2) 0).msb = false := by
        rw [show h (t + 2) 0 = q from hq, hecho.2]
        exact (hsucc q).2
      obtain ⟨s', hruns, hkept⟩ := Plain.runs_transfer hne hmsb
      exact ⟨_, Looks.of_kept (show 2 < 11 by decide) hruns hkept, hkept.y ▸ .transfer s'⟩
  | again s =>
      have hmsb : (s.regs.y - h (t + 2) 0).msb = false := by
        rw [show h (t + 2) 0 = q from hq, hecho.2]
        exact (hsucc q).2
      obtain ⟨s', hruns, hkept⟩ := Plain.runs_again hmsb
      exact ⟨_, Looks.of_kept (show 2 < 7 by decide) hruns hkept, hkept.y ▸ .transfer s'⟩
  | started pc s => exact hhears.elim

/-- The transfer loop finds a byte. -/
theorem looks_byte (hp : h (t + 2) 0 = s.regs.y) :
    ∃ s', Looks h t 2 (s.atPc 0xFFDA) s' ∧ Sees (some s.regs.y) s' := by
  obtain ⟨s', hruns, hkept⟩ := Plain.runs_transfer_byte hp
  exact ⟨_, Looks.of_kept (by decide) hruns hkept, hkept.y ▸ .byte s'⟩

/-- The second look of the transfer loop finds a command. -/
theorem looks_command (hp : (s.regs.y - h (t + 2) 0).msb = true) :
    ∃ s', Looks h t 2 (s.atPc 0xFFEB) s' ∧ Sees none s' := by
  obtain ⟨s', hruns, hkept⟩ := Plain.runs_again_command hp
  exact ⟨_, Looks.of_kept (by decide) hruns hkept, .command s'⟩

/-- **A look at the new mark** finds out what it is. -/
theorem looks_new (hat : phase.At s) (hhears : phase.Hears q p)
    (hp : ∀ u, t + phase.look ≤ u → h u = p) :
    ∃ s', Looks h t phase.look s s' ∧ Sees (phase.kind p) s' := by
  cases hat with
  | ready s =>
      have hp0 : h (t + 3) 0 = 0xCC := (congrFun (hp (t + 3) le_rfl) 0).trans hhears.2
      obtain ⟨s', hruns, hkept⟩ := Plain.runs_ready_command (s := s) hp0
      exact ⟨_, Looks.of_kept (by decide) hruns hkept, .command s'⟩
  | block s =>
      have hp0 (n : Nat) (hn : 2 ≤ n) : h (t + n) 0 = 0 :=
        (congrFun (hp (t + n) (Nat.add_le_add_left hn t)) 0).trans hhears.2
      obtain ⟨s₁, hruns, hram, hport, hy⟩ := Plain.runs_begin_byte (s := s) (hp0 2 le_rfl)
      obtain ⟨s', hlooks, hsees⟩ :=
        looks_byte (h := h) (t := t + 5) (s := s₁) ((hp0 7 (by decide)).trans hy.symm)
      rw [hy] at hsees
      exact ⟨s', Looks.trans hruns hram hport (by decide) hlooks, hsees⟩
  | transfer s =>
      have hp0 (n : Nat) (hn : 2 ≤ n) : h (t + n) 0 = p 0 :=
        congrFun (hp (t + n) (Nat.add_le_add_left hn t)) 0
      change ∃ s', _ ∧ Sees (if p 0 = s.regs.y then some s.regs.y else none) s'
      split
      · rename_i heq
        exact looks_byte ((hp0 2 le_rfl).trans heq)
      · rename_i hne
        have hmsb := hhears.resolve_left hne
        rw [← hp0 2 le_rfl] at hne
        obtain ⟨s₁, hruns, hkept⟩ := Plain.runs_transfer_command hne
          ((congrArg (fun x => (s.regs.y - x).msb) (hp0 2 le_rfl)).trans hmsb)
        rw [← hkept.y, ← hp0 11 (by decide)] at hmsb
        obtain ⟨s', hlooks, hsees⟩ := looks_command (h := h) (t := t + 9) hmsb
        exact ⟨s', Looks.trans hruns hkept.ram hkept.portW (show 2 < 9 by decide) hlooks, hsees⟩
  | again s =>
      have hp0 (n : Nat) (hn : 2 ≤ n) : h (t + n) 0 = p 0 :=
        congrFun (hp (t + n) (Nat.add_le_add_left hn t)) 0
      change ∃ s', _ ∧ Sees (if p 0 = s.regs.y then some s.regs.y else none) s'
      split
      · rename_i heq
        have hmsb : (s.regs.y - h (t + 2) 0).msb = false := by
          rw [hp0 2 le_rfl, heq, sub_self]
          rfl
        obtain ⟨s₁, hruns, hkept⟩ := Plain.runs_again hmsb
        obtain ⟨s', hlooks, hsees⟩ := looks_byte (h := h) (t := t + 7) (s := s₁)
          ((hp0 9 (by decide)).trans (heq.trans hkept.y.symm))
        rw [hkept.y] at hsees
        exact ⟨s', Looks.trans hruns hkept.ram hkept.portW (show 2 < 7 by decide) hlooks, hsees⟩
      · rename_i hne
        have hmsb := hhears.resolve_left hne
        rw [← hp0 2 le_rfl] at hmsb
        exact looks_command hmsb
  | started pc s => exact hhears.elim

/-- **What a byte leads to** after it is acknowledged. -/
theorem runs_stored (ha : InRam (Receiver.target s.ram s.regs.y)) :
    ∃ n s', Plain.Runs h t (s.atPc 0xFFE2) (t + n) s' ∧
      (Phase.transfer (s.regs.y + 1)).At s' ∧
      s'.ram = Receiver.stored s.regs.y s.regs.a s.ram ∧ s'.portW = s.portW := by
  unfold Receiver.stored
  by_cases hy : s.regs.y + 1 = 0
  · rw [if_pos hy]
    cases hn : (Function.update s.ram s.target s.regs.a 1 + 1).msb with
    | false =>
        obtain ⟨s', hruns, hram, hport, hy'⟩ := Plain.runs_store_page (h := h) (t := t) ha hy hn
        exact ⟨19, _, hruns, hy' ▸ .transfer s', hram, hport⟩
    | true =>
        obtain ⟨s', hruns, hram, hport, hy'⟩ := Plain.runs_store_again (h := h) (t := t) ha hy hn
        exact ⟨17, _, hruns, hy' ▸ .again s', hram, hport⟩
  · rw [if_neg hy]
    obtain ⟨s', hruns, hram, hport, hy'⟩ := Plain.runs_store (h := h) (t := t) ha hy
    exact ⟨13, _, hruns, hy' ▸ .transfer s', hram, hport⟩

/-- **What a command leads to** after it is acknowledged. -/
theorem runs_commanded :
    ∃ n s', Plain.Runs h t (s.atPc 0xFFF7) (t + n) s' ∧
      (if s.regs.y = 0 then Phase.started (word (s.ram 0) (s.ram 1)) else .block).At s' ∧
      s'.ram = s.ram ∧ s'.portW = s.portW := by
  by_cases hy : s.regs.y = 0
  · rw [if_pos hy]
    obtain ⟨s', hruns, hram, hport⟩ := Plain.runs_jump (h := h) (t := t) hy
    have hword : ((s.ram 1).setWidth 16 <<< 8) + (s.ram 0).setWidth 16 =
        word (s.ram 0) (s.ram 1) := add_comm _ _
    rw [hword] at hruns
    exact ⟨12, _, hruns, .started _ s', hram, hport⟩
  · rw [if_neg hy]
    obtain ⟨s', hruns, hram, hport⟩ := Plain.runs_block (h := h) (t := t) hy
    exact ⟨8, _, hruns, .block s', hram, hport⟩

end

end OpenSpc
