import OpenSpc.DspStep

/-!
# What the echo unit reads

Besides the accumulators the echo unit reads its ring, its filter and SPC RAM,
and of the registers only those at 0x0C to 0x0F of each page: volumes, feedback,
FLG, ESA, EDL and the filter coefficients.  Two states that agree there are
treated alike.
-/

namespace OpenSpc

open ByteMask (bit)

/-- The two states agree on everything the echo unit reads. -/
structure EchoReads (s s' : Dsp) : Prop where
  firLbuf : s'.firLbuf = s.firLbuf
  firRbuf : s'.firRbuf = s.firRbuf
  firPtr : s'.firPtr = s.firPtr
  echoPtr : s'.echoPtr = s.echoPtr
  spcRam : s'.spcRam = s.spcRam
  regs : ∀ i, i < 0x80 → 0x0C ≤ i % 16 → s'.dspRegs i = s.dspRegs i

namespace EchoReads

variable {s s' : Dsp}

/-- The slot is the same. -/
theorem base (h : EchoReads s s') : echoBase s' = echoBase s := by
  unfold echoBase
  rw [h.regs 0x6D (by decide) (by decide), h.echoPtr]

/-- The same is read from the slot. -/
theorem read (h : EchoReads s s') (host : Nat → Byte) :
    EchoReads (echoRead host s) (echoRead host s') where
  firLbuf := by
    unfold echoRead
    rw [h.base, h.firLbuf, h.firPtr, h.spcRam]
  firRbuf := by
    unfold echoRead
    rw [h.base, h.firRbuf, h.firPtr, h.spcRam]
  firPtr := h.firPtr
  echoPtr := h.echoPtr
  spcRam := h.spcRam
  regs := h.regs

/-- The filter sees the same taps. -/
theorem acc (h : EchoReads s s') (buf : Fin 8 → Int) {k : Nat} (hk : k ≤ 7) :
    firAcc s' buf k = firAcc s buf k := by
  induction k with
  | zero =>
      unfold firAcc
      rw [h.firPtr, h.regs 0x7F (by decide) (by decide)]
  | succ k ih =>
      unfold firAcc
      rw [ih (by omega), h.firPtr, h.regs (0x7F - 16 * (k + 1)) (by omega) (by omega)]

/-- The same is written to the slot. -/
theorem write (h : EchoReads s s') (l r : Int) : EchoReads (echoWrite s l r) (echoWrite s' l r) where
  firLbuf := h.firLbuf
  firRbuf := h.firRbuf
  firPtr := h.firPtr
  echoPtr := h.echoPtr
  spcRam := by
    unfold echoWrite
    rw [h.base, h.spcRam]
  regs := h.regs

/-- The slot is left for the same one. -/
theorem advance (h : EchoReads s s') : EchoReads (echoAdvance s) (echoAdvance s') where
  firLbuf := h.firLbuf
  firRbuf := h.firRbuf
  firPtr := h.firPtr
  echoPtr := by
    unfold echoAdvance echoSize
    rw [h.echoPtr, h.regs 0x7D (by decide) (by decide)]
  spcRam := h.spcRam
  regs := h.regs

/-- The filter moves on. -/
theorem nextTap (h : EchoReads s s') :
    EchoReads { s with firPtr := s.firPtr + 7 } { s' with firPtr := s'.firPtr + 7 } :=
  ⟨h.1, h.2, congrArg (· + 7) h.firPtr, h.4, h.5, h.6⟩

/-- The outputs are the same. -/
theorem out (h : EchoReads s s') (acc fir : Int) :
    mainOut s' acc fir 0x0C 0x2C = mainOut s acc fir 0x0C 0x2C ∧
      mainOut s' acc fir 0x1C 0x3C = mainOut s acc fir 0x1C 0x3C := by
  unfold mainOut
  rw [h.regs 0x0C (by decide) (by decide), h.regs 0x1C (by decide) (by decide),
    h.regs 0x2C (by decide) (by decide), h.regs 0x3C (by decide) (by decide)]
  exact ⟨rfl, rfl⟩

/-- The feedback is the same. -/
theorem feedback (h : EchoReads s s') (acc fir : Int) :
    echoFeedback s' acc fir = echoFeedback s acc fir := by
  unfold echoFeedback
  rw [h.regs 0x0D (by decide) (by decide)]

/-- The echo slot and the pointer after an update, given the sums. -/
theorem store (h : EchoReads s s') (echol echor vl vr : Int) (writes : Bool) :
    EchoReads
      (echoAdvance (if writes then
        echoWrite s (echoFeedback s echol vl) (echoFeedback s echor vr) else s))
      (echoAdvance (if writes then
        echoWrite s' (echoFeedback s' echol vl) (echoFeedback s' echor vr) else s')) := by
  rw [h.feedback, h.feedback]
  cases writes
  · exact h.advance
  · exact (h.write _ _).advance

/-- **The echo unit agrees**, given accumulators that agree. -/
theorem unit (h : EchoReads s s') (host : Nat → Byte) (sound : Bool) (x : Locals)
    (l : List Event) :
    EchoReads (echoUnit host sound s x).dsp (echoUnit host sound s' { x with log := l }).dsp ∧
      (echoUnit host sound s' { x with log := l }).sample = (echoUnit host sound s x).sample := by
  have hread := h.read host
  unfold echoUnit
  generalize echoRead host s = t at *
  generalize echoRead host s' = t' at *
  have hl : firAcc t' t'.firLbuf 7 = firAcc t t.firLbuf 7 := by rw [hread.firLbuf, hread.acc _ le_rfl]
  have hr : firAcc t' t'.firRbuf 7 = firAcc t t.firRbuf 7 := by rw [hread.firRbuf, hread.acc _ le_rfl]
  have hwrites : bit (t'.dspRegs 0x6C) 5 = bit (t.dspRegs 0x6C) 5 :=
    congrArg (bit · 5) (hread.regs 0x6C (by decide) (by decide))
  dsimp only
  generalize bit (t.dspRegs 0x6C) 5 = w at *
  generalize bit (t'.dspRegs 0x6C) 5 = w' at *
  subst hwrites
  have hstore := hread.nextTap.store x.echol x.echor (firAcc t t.firLbuf 7)
    (firAcc t t.firRbuf 7) (!w')
  have hsilent := hstore.regs 0x6C (by decide) (by decide)
  rw [hl, hr, (hread.out _ _).1, (hread.out _ _).2, hsilent]
  exact ⟨hstore, rfl⟩

/-- It touches the same slot. -/
theorem unit_log (h : EchoReads s s') (host : Nat → Byte) (sound : Bool) (x : Locals) :
    (echoUnit host sound s' x).log = (echoUnit host sound s x).log := by
  rw [echoUnit_log, echoUnit_log, h.base, h.regs 0x6C (by decide) (by decide)]

end EchoReads

end OpenSpc
