import OpenSpc.VoicePass

/-!
# What one update does

`DSP_Update` as its parts see it.  For a voice, an update is one
`VoiceCell.pass` on the cell the prelude leaves (`dspUpdate_cell`); outputs
chain from voice to voice (`prevOut_succ`); the events of an update are those
of the eight passes and of the echo slot (`mem_dspUpdate_log`).  Everything
the echo unit reads is what the prelude leaves, since no pass writes it.
-/

namespace OpenSpc

open ByteMask (bit)

/-! ## The voice loop as a whole -/

/-- `s'` differs from `s` at most in what some voice owns. -/
structure LoopFrame (s s' : Dsp) : Prop where
  channelMask : s'.channelMask = s.channelMask
  noiseCnt : s'.noiseCnt = s.noiseCnt
  noiseLev : s'.noiseLev = s.noiseLev
  firLbuf : s'.firLbuf = s.firLbuf
  firRbuf : s'.firRbuf = s.firRbuf
  firPtr : s'.firPtr = s.firPtr
  echoPtr : s'.echoPtr = s.echoPtr
  spcRam : s'.spcRam = s.spcRam
  regs : ∀ i : Nat, i ≠ 0x4C → i ≠ 0x7C →
    (∀ v : Fin 8, i ≠ 16 * (v : Nat) + 8 ∧ i ≠ 16 * (v : Nat) + 9) →
    s'.dspRegs i = s.dspRegs i

/-- One pass more. -/
theorem LoopFrame.step {s s' s'' : Dsp} {v : Fin 8} (h : LoopFrame s s')
    (h' : VoiceFrame v s' s'') : LoopFrame s s'' where
  channelMask := h'.channelMask.trans h.channelMask
  noiseCnt := h'.noiseCnt.trans h.noiseCnt
  noiseLev := h'.noiseLev.trans h.noiseLev
  firLbuf := h'.firLbuf.trans h.firLbuf
  firRbuf := h'.firRbuf.trans h.firRbuf
  firPtr := h'.firPtr.trans h.firPtr
  echoPtr := h'.echoPtr.trans h.echoPtr
  spcRam := h'.spcRam.trans h.spcRam
  regs := fun i h1 h2 h3 =>
    (h'.regs i h1 h2 (h3 v).1 (h3 v).2).trans (h.regs i h1 h2 h3)

section Loop

variable (host : Nat → Byte) (p : Dsp × Locals)

/-- **The voice loop stays in its frame**, by induction on the passes. -/
theorem voiceLoop_frame (n : Nat) : LoopFrame p.1 (voiceLoop host p n).1 := by
  induction n with
  | zero => constructor <;> intros <;> rfl
  | succ n ih =>
      unfold voiceLoop
      split
      · exact ih.step (voiceBody_frame host _ _)
      · exact ih

/-- The voice loop leaves the input of every voice. -/
theorem voiceLoop_input (w : Fin 8) (n : Nat) :
    voiceInput host w (voiceLoop host p n).1 = voiceInput host w p.1 := by
  induction n with
  | zero => rfl
  | succ n ih =>
      unfold voiceLoop
      split
      · rw [(voiceBody_frame host _ _).input host w, ih]
      · exact ih

/-- Until its own pass, a voice's cell is as it was when the loop started. -/
theorem voiceLoop_cell_before (v : Fin 8) (n : Nat) (hn : n ≤ v) :
    voiceCell v (voiceLoop host p n).1 = voiceCell v p.1 := by
  induction n with
  | zero => rfl
  | succ n ih =>
      have hlt : n < 8 := by omega
      have hne : v ≠ ⟨n, hlt⟩ := by
        intro h
        rw [h] at hn
        exact absurd hn (by simp)
      rw [voiceLoop, dif_pos hlt, (voiceBody_frame host _ _).cell hne]
      exact ih (by omega)

/-- The pass of voice `v` in the loop entered with `p`. -/
def loopPass (v : Fin 8) : VoiceCell.Pass :=
  VoiceCell.pass v (voiceInput host v p.1) (voiceLoop host p v).2.outx (voiceCell v p.1)

/-- The pass of voice `v` is `VoiceCell.pass` on the cell the loop started
with. -/
theorem voiceLoop_pass (v : Fin 8) :
    voiceCell v (voiceLoop host p (v + 1)).1 = (loopPass host p v).cell ∧
    (voiceLoop host p (v + 1)).2.outx = (loopPass host p v).outx ∧
    (voiceLoop host p (v + 1)).2.log = (voiceLoop host p v).2.log ++ (loopPass host p v).log := by
  have h := voiceBody_pass host v (voiceLoop host p v)
  dsimp only at h
  rw [voiceLoop_input, voiceLoop_cell_before host p v v le_rfl] at h
  rw [voiceLoop, dif_pos v.isLt]
  exact h

/-- After its own pass, a voice's cell is not touched again. -/
theorem voiceLoop_cell_after (v : Fin 8) (k : Nat) :
    voiceCell v (voiceLoop host p (v + 1 + k)).1 = (loopPass host p v).cell := by
  induction k with
  | zero => exact (voiceLoop_pass host p v).1
  | succ k ih =>
      rw [← Nat.add_assoc, voiceLoop]
      split
      · rename_i hlt
        have hne : v ≠ ⟨v + 1 + k, hlt⟩ := by
          intro h
          have := congrArg Fin.val h
          simp only at this
          omega
        rw [(voiceBody_frame host _ _).cell hne]
        exact ih
      · exact ih

/-- **The voice loop, cell by cell.** -/
theorem voiceLoop_cell (v : Fin 8) :
    voiceCell v (voiceLoop host p 8).1 = (loopPass host p v).cell := by
  have h := voiceLoop_cell_after host p v (7 - v)
  have hsum : (v : Nat) + 1 + (7 - v) = 8 := by omega
  rwa [hsum] at h

/-- The log of the loop is made of the logs of its passes. -/
theorem mem_voiceLoop_log (e : Event) (n : Nat) (hn : n ≤ 8) :
    e ∈ (voiceLoop host p n).2.log ↔
      e ∈ p.2.log ∨ ∃ v : Fin 8, (v : Nat) < n ∧ e ∈ (loopPass host p v).log := by
  induction n with
  | zero => simp [voiceLoop]
  | succ n ih =>
      have hpass := (voiceLoop_pass host p ⟨n, hn⟩).2.2
      dsimp only at hpass
      rw [hpass, List.mem_append, ih (by omega), or_assoc]
      apply or_congr_right
      constructor
      · rintro (⟨v, hv, he⟩ | he)
        · exact ⟨v, by omega, he⟩
        · exact ⟨⟨n, hn⟩, by simp, he⟩
      · rintro ⟨v, hv, he⟩
        by_cases hvn : (v : Nat) < n
        · exact Or.inl ⟨v, hvn, he⟩
        · have hve : v = ⟨n, hn⟩ := Fin.ext (by simp only; omega)
          rw [hve] at he
          exact Or.inr he

end Loop

/-! ## The update -/

section Step

variable (host : Nat → Byte) (sound : Bool) (s : Dsp)

/-- The output of the voice before `v` in this update, 0 for voice 0. -/
def prevOut (v : Nat) : Int := (voiceLoop host (prelude s, freshLocals) v).2.outx

/-- The pass voice `v` makes in this update. -/
def cellPass (v : Fin 8) : VoiceCell.Pass :=
  VoiceCell.pass v (voiceInput host v (prelude s)) (prevOut host s v) (voiceCell v (prelude s))

/-- The first voice gets silence. -/
theorem prevOut_zero : prevOut host s 0 = 0 := rfl

/-- Every other voice gets what the pass before hands on. -/
theorem prevOut_succ (v : Fin 8) : prevOut host s (v + 1) = (cellPass host s v).outx :=
  (voiceLoop_pass host (prelude s, freshLocals) v).2.1

/-- The echo unit owns the FIR buffers, the echo pointer and RAM; it leaves
the rest alone. -/
theorem echoUnit_frame (x : Locals) :
    let t := (echoUnit host sound s x).dsp
    t.channelMask = s.channelMask ∧ t.keyedOn = s.keyedOn ∧ t.keys = s.keys ∧
      t.voiceState = s.voiceState ∧ t.noiseCnt = s.noiseCnt ∧ t.noiseLev = s.noiseLev ∧
      t.dspRegs = s.dspRegs := by
  unfold echoUnit
  dsimp only
  split <;> exact ⟨rfl, rfl, rfl, rfl, rfl, rfl, rfl⟩

/-- **An update, seen from a voice.** -/
theorem dspUpdate_cell (v : Fin 8) :
    voiceCell v (dspUpdate host sound s).dsp = (cellPass host s v).cell := by
  have h := voiceLoop_cell host (prelude s, freshLocals) v
  obtain ⟨-, -, hkeys, hvoice, -, -, hregs⟩ := echoUnit_frame host sound
    (voiceLoop host (prelude s, freshLocals) 8).1 (voiceLoop host (prelude s, freshLocals) 8).2
  rw [← show _ = (cellPass host s v).cell from h]
  unfold dspUpdate voiceCell
  dsimp only
  rw [hkeys, hvoice, hregs]

/-- The echo unit reads its slot, and writes it unless FLG says otherwise. -/
theorem echoUnit_log (x : Locals) :
    (echoUnit host sound s x).log = x.log ++ (slotIndices (echoBase s)).map .read ++
      if !bit (s.dspRegs 0x6C) 5 then (slotIndices (echoBase s)).map .write else [] := rfl

/-- Registers the voice loop leaves as the prelude left them. -/
theorem loop_reg (i : Nat) (h : i % 16 ≠ 8 ∧ i % 16 ≠ 9) (h4 : i ≠ 0x4C) (h7 : i ≠ 0x7C) :
    (voiceLoop host (prelude s, freshLocals) 8).1.dspRegs i = (prelude s).dspRegs i :=
  (voiceLoop_frame host (prelude s, freshLocals) 8).regs i h4 h7 (fun v => by omega)

/-- The echo unit works on the slot the prelude's state points to. -/
theorem loop_echoBase :
    echoBase (voiceLoop host (prelude s, freshLocals) 8).1 = echoBase (prelude s) := by
  unfold echoBase
  rw [loop_reg host s 0x6D (by decide) (by decide) (by decide),
    (voiceLoop_frame host (prelude s, freshLocals) 8).echoPtr]

/-- The events of an update: those of the passes, the four reads of the echo
slot, and its four writes unless FLG bit 5 forbids them. -/
theorem mem_dspUpdate_log (e : Event) :
    e ∈ (dspUpdate host sound s).log ↔
      (∃ v : Fin 8, e ∈ (cellPass host s v).log) ∨
      e ∈ (slotIndices (echoBase (prelude s))).map .read ∨
      (bit ((prelude s).dspRegs 0x6C) 5 = false ∧
        e ∈ (slotIndices (echoBase (prelude s))).map .write) := by
  have hpasses : e ∈ (voiceLoop host (prelude s, freshLocals) 8).2.log ↔
      ∃ v : Fin 8, e ∈ (cellPass host s v).log := by
    rw [mem_voiceLoop_log host _ e 8 le_rfl]
    constructor
    · rintro (h | ⟨v, -, h⟩)
      · exact absurd h List.not_mem_nil
      · exact ⟨v, h⟩
    · rintro ⟨v, h⟩
      exact Or.inr ⟨v, v.isLt, h⟩
  unfold dspUpdate
  dsimp only
  rw [echoUnit_log, loop_echoBase, loop_reg host s 0x6C (by decide) (by decide) (by decide),
    List.mem_append, List.mem_append, hpasses, or_assoc]
  apply or_congr_right
  apply or_congr_right
  cases bit ((prelude s).dspRegs 0x6C) 5 <;> simp

/-! ## The prelude -/

/-- What the prelude leaves of a cell. -/
theorem prelude_cell (v : Fin 8) :
    voiceCell v (prelude s) =
      if bit (s.dspRegs 0x6C) 7 then
        { voiceCell v s with
          vp := { (voiceCell v s).vp with onCnt := 0 }
          key := false
          kon := false }
      else { voiceCell v s with endx := (voiceCell v s).endx && !(voiceCell v s).kon } := by
  have hnoise (t : Dsp) : voiceCell v (noiseStep t) = voiceCell v t := by
    unfold noiseStep
    dsimp only
    split <;> rfl
  unfold prelude
  dsimp only
  rw [hnoise, voiceCell_setEndx, ByteMask.bit_and_not]
  split
  · have h1 : 16 * (v : Nat) + 8 ≠ 0x4C := by omega
    have h2 : 16 * (v : Nat) + 8 ≠ 0x5C := by omega
    have h3 : 16 * (v : Nat) + 8 ≠ 0x6C := by omega
    have h4 : 16 * (v : Nat) + 9 ≠ 0x4C := by omega
    have h5 : 16 * (v : Nat) + 9 ≠ 0x5C := by omega
    have h6 : 16 * (v : Nat) + 9 ≠ 0x6C := by omega
    have hzero : bit 0#8 v = false := by simp [bit]
    simp [voiceCell, dspReset, Function.update_of_ne, h1, h2, h3, h4, h5, h6, hzero]
  · rfl

/-- Registers the prelude never writes. -/
theorem prelude_reg {i : Nat} (h4 : i ≠ 0x4C) (h5 : i ≠ 0x5C) (h6 : i ≠ 0x6C) (h7 : i ≠ 0x7C) :
    (prelude s).dspRegs i = s.dspRegs i := by
  unfold prelude noiseStep dspReset Dsp.setReg
  dsimp only
  split <;> split <;> simp [h4, h5, h6, h7]

/-- A reset sets three bits of FLG. -/
theorem prelude_flg : (prelude s).dspRegs 0x6C =
    if bit (s.dspRegs 0x6C) 7 then s.dspRegs 0x6C ||| 0xE0 else s.dspRegs 0x6C := by
  unfold prelude noiseStep dspReset Dsp.setReg
  dsimp only
  split <;> split <;> simp_all

/-- A reset clears KOF. -/
theorem prelude_kof : (prelude s).dspRegs 0x5C =
    if bit (s.dspRegs 0x6C) 7 then 0 else s.dspRegs 0x5C := by
  unfold prelude noiseStep dspReset Dsp.setReg
  dsimp only
  split <;> split <;> simp_all

/-- The prelude leaves RAM. -/
theorem prelude_spcRam : (prelude s).spcRam = s.spcRam := by
  unfold prelude noiseStep dspReset Dsp.setReg
  dsimp only
  split <;> split <;> rfl

/-- What the prelude leaves of a voice's input: a reset clears KOF, and the
noise generator is clocked. -/
theorem prelude_input (v : Fin 8) :
    voiceInput host v (prelude s) =
      { voiceInput host v s with
        kof := !bit (s.dspRegs 0x6C) 7 && bit (s.dspRegs 0x5C) v
        noiseLev := (prelude s).noiseLev } := by
  have hkof : bit ((prelude s).dspRegs 0x5C) v =
      (!bit (s.dspRegs 0x6C) 7 && bit (s.dspRegs 0x5C) v) := by
    rw [prelude_kof]
    split <;> simp_all [bit]
  have hvoice (j : Nat) (hj : j < 8) : (prelude s).dspRegs (16 * v + j) = s.dspRegs (16 * v + j) :=
    prelude_reg s (by omega) (by omega) (by omega) (by omega)
  unfold voiceInput dirEntry
  rw [prelude_spcRam, hkof, hvoice 2 (by decide), hvoice 3 (by decide), hvoice 4 (by decide),
    hvoice 5 (by decide), hvoice 6 (by decide), hvoice 7 (by decide),
    prelude_reg s (i := 0x5D) (by decide) (by decide) (by decide) (by decide),
    prelude_reg s (i := 0x3D) (by decide) (by decide) (by decide) (by decide),
    prelude_reg s (i := 0x2D) (by decide) (by decide) (by decide) (by decide)]

/-- The noise generator before it is counted down: a reset restarts it. -/
def noiseEntry : Int × Nat :=
  if bit (s.dspRegs 0x6C) 7 then (0, 0x4000) else (s.noiseCnt, s.noiseLev)

/-- The noise generator is a function of FLG and of its own state. -/
theorem prelude_noise :
    ((prelude s).noiseCnt, (prelude s).noiseLev) =
      let cnt := (noiseEntry s).1 - envCnt (((prelude s).dspRegs 0x6C).toNat % 2 ^ 5)
      if cnt ≤ 0 then (cntInit, noiseNext (noiseEntry s).2) else (cnt, (noiseEntry s).2) := by
  rw [prelude_flg]
  unfold prelude noiseStep noiseEntry dspReset Dsp.setReg
  dsimp only
  cases hr : bit (s.dspRegs 0x6C) 7
  · simp only [Bool.false_eq_true, if_false]
    rw [Function.update_of_ne (by decide)]
    split <;> rfl
  · simp only [if_true]
    rw [Function.update_of_ne (by decide), Function.update_of_ne (by decide),
      Function.update_of_ne (by decide), Function.update_self]
    split <;> rfl

end Step

end OpenSpc
