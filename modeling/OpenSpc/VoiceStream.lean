import OpenSpc.BrrStream

/-!
# A voice on its stream

A pass of the voice loop, seen from the stream of the sample the voice plays: a
start puts the voice at the beginning, and every pass of a sounding voice takes
what is due.
-/

namespace OpenSpc

/-- The stream of the sample a voice would start with. -/
def voiceStream (i : VoiceInput) (vp : VoiceState) (h : DecoderInv vp) : BrrStream where
  ram := i.mem.ram
  vptr := i.mem.vptr i.entry
  lptr := i.mem.lptr i.entry
  prev1 := vp.smp1
  prev2 := vp.smp2
  isSample1 := h.smp1
  isSample2 := h.smp2

/-- The position in the stream does not depend on the envelope, the countdown
or the resampler. -/
theorem BrrStream.At.control {S : BrrStream} {k : Nat} {vp : VoiceState} (h : S.At k vp)
    (cnt : Int) (st : EnvState) (x : Int) (n : Nat) (p mix : Int) :
    S.At k { vp with
      envcnt := cnt, envstate := st, envx := x, onCnt := n, pitch := p, mixfrac := mix } := by
  refine ⟨h.history, h.ring, ?_⟩
  rcases h.place with ⟨hk, ha⟩ | ⟨q, a, r, hk, hpos, hle, hin⟩
  · exact Or.inl ⟨hk, ha.1, ha.2, ha.3, ha.4⟩
  · exact Or.inr ⟨q, a, r, hk, hpos, hle, hin.1, hin.2, hin.3, hin.4, hin.5, hin.6, hin.7⟩

/-- **A start decodes the first four samples.** -/
theorem BrrStream.brrDecode_start {S : BrrStream} {m : Mem} {entry : Nat} {vp : VoiceState}
    (h : S.At 0 vp) (hb : S.Backs m entry) (v : Fin 8) (hmix : vp.mixfrac = 3 * 4096) :
    (brrDecode m entry v vp).endx = false ∧ (brrDecode m entry v vp).ended = false ∧
      S.At 4 (brrDecode m entry v vp).vp := by
  have hahead : S.Ahead vp := by
    rcases h.place with ⟨-, ha⟩ | ⟨q, a, r, hzero, hpos, -⟩
    · exact ha
    · omega
  obtain ⟨hendx, hended⟩ :=
    OpenSpc.brrDecode_start m entry v hahead.headerCnt hahead.endBits hahead.half hmix
  have hat := h.brrDecode hb hended
  rw [hmix] at hat
  exact ⟨hendx, hended, hat⟩

section Pass

variable {v : Fin 8} {i : VoiceInput} {outx : Int} {c : VoiceCell}

/-- A start puts the voice before the first sample, with four due. -/
theorem VoiceCell.keyRules_start_at (hinv : DecoderInv c.vp) (h : c.starts = true) :
    (voiceStream i c.vp hinv).At 0 (c.keyRules i).vp ∧ (c.keyRules i).vp.mixfrac = 3 * 4096 := by
  rw [keyRules_vp, if_pos h]
  exact ⟨⟨rfl, RecentRing.Holds.start _ _, Or.inl ⟨rfl, rfl, rfl, rfl, rfl⟩⟩, rfl⟩

/-- A voice that is still keyed on after its pass, at a level from zero on, went
through the decode loop and met no end of its sample. -/
theorem VoiceCell.pass_keyed (h : (pass v i outx c).cell.key = true)
    (hx : 0 ≤ (pass v i outx c).cell.vp.envx) :
    ∃ vp, c.playing i = some vp ∧ (decode v i outx vp).ended = false ∧
      (pass v i outx c).cell.vp =
        { (decode v i outx vp).vp with
          mixfrac := (decode v i outx vp).vp.mixfrac + effPitch i outx } := by
  rcases pass_cases v i outx c with
    ⟨hk, hpass⟩ | ⟨-, -, hpass⟩ | ⟨vp, b, -, -, hneg, hpass⟩ | ⟨vp, b, hk, hadv, hpos, hpass⟩
  · rw [hpass] at h
    exact absurd (h.symm.trans hk) (by decide)
  · rw [hpass] at h
    cases h
  · rw [hpass] at hx
    exact absurd hneg hx.not_gt
  · rw [hpass] at h ⊢
    have hended : ((c.keyRules i).key && !(decode v i outx vp).ended) = true := h
    rw [hk, Bool.true_and, Bool.not_eq_true'] at hended
    exact ⟨vp, playing_eq_some.mpr ⟨b, hk, hadv, hpos⟩, hended, rfl⟩

/-- The voice goes into the decode loop at the position the key rules left it
at. -/
theorem VoiceCell.playing_at {S : BrrStream} {k : Nat} {vp : VoiceState}
    (h : S.At k (c.keyRules i).vp) (hplaying : c.playing i = some vp) :
    S.At k vp ∧ vp.mixfrac = (c.keyRules i).vp.mixfrac := by
  obtain ⟨b, -, hadv, -⟩ := playing_eq_some.mp hplaying
  have hframe := advanceEnvelope_frame hadv
  rw [hframe]
  exact ⟨h.control _ _ _ _ _ _, rfl⟩

/-- **One update of a sounding voice.**  It takes what is due, and ends up that
much further on in the stream. -/
theorem VoiceCell.pass_at {S : BrrStream} {k : Nat} (hb : S.Backs i.mem i.entry)
    (h : S.At k (c.keyRules i).vp) (hkey : (pass v i outx c).cell.key = true)
    (hx : 0 ≤ (pass v i outx c).cell.vp.envx) :
    ∃ vp, c.playing i = some vp ∧
      S.At (k + samplesDue (c.keyRules i).vp.mixfrac) (decode v i outx vp).vp ∧
      (decode v i outx vp).vp.mixfrac = (c.keyRules i).vp.mixfrac
        - 4096 * samplesDue (c.keyRules i).vp.mixfrac ∧
      (pass v i outx c).cell.vp =
        { (decode v i outx vp).vp with
          mixfrac := (decode v i outx vp).vp.mixfrac + effPitch i outx } := by
  obtain ⟨vp, hplaying, hended, hpass⟩ := pass_keyed hkey hx
  obtain ⟨hat, hmix⟩ := playing_at h hplaying
  rw [← hmix]
  have hat' : S.At k { vp with pitch := effPitch i outx } := hat.control _ _ _ _ _ _
  exact ⟨vp, hplaying, hat'.brrDecode hb hended, brrDecode_mixfrac _ _ _ _, hpass⟩

end Pass

end OpenSpc
