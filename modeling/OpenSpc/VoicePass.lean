import OpenSpc.VoiceCell

/-!
# The voice loop, one cell at a time

Each block of statements of the voice loop acts on the cell of its voice as the
corresponding function of `VoiceCell` does, and stays inside the frame of that
voice.  Composed over the eight passes this gives `voiceLoop_cell`: after the
loop, the cell of voice `v` is one `VoiceCell.pass` of the cell before it, and
the only thing voice `v` learns of the others is the output of voice `v - 1`.
-/

namespace OpenSpc

open ByteMask (bit)

section Stages

variable (host : Nat → Byte) (v : Fin 8) (s : Dsp)

/-- Starting a voice leaves the other voices alone. -/
theorem keyOnVoice_frame : VoiceFrame v s (keyOnVoice host v s).1 := by
  unfold keyOnVoice
  dsimp only
  split
  · exact .refl v s
  · split
    · refine (VoiceFrame.setVoice _).trans (.setKeys _ fun w hw => ?_)
      rw [bit_set_mask]
      simp [hw, Dsp.setVoice]
    · exact .setVoice _

/-- What starting a voice does to its cell. -/
theorem keyOnVoice_cell :
    voiceCell v (keyOnVoice host v s).1 = (voiceCell v s).keyOn (voiceInput host v s) := by
  have hstarts : (voiceCell v s).starts = decide ((s.voiceState v).onCnt = 1) := rfl
  unfold keyOnVoice VoiceCell.keyOn
  rw [hstarts]
  by_cases h0 : (s.voiceState v).onCnt = 0
  · have hrec : { s.voiceState v with onCnt := (s.voiceState v).onCnt - 1 } = s.voiceState v := by
      cases hv : s.voiceState v
      simp_all
    simp only [h0, if_true]
    change _ = { voiceCell v s with vp := { s.voiceState v with onCnt := (s.voiceState v).onCnt - 1 } }
    rw [hrec]
    rfl
  · by_cases h1 : (s.voiceState v).onCnt = 1
    · simp only [h1, if_neg (by decide : ¬ (1 : Nat) = 0), Nat.sub_self, decide_true, if_true]
      rw [voiceCell_setKeys, voiceCell_setVoice, bit_set_mask]
      simp [voiceInput, voiceCell]
    · have h2 : ¬ (s.voiceState v).onCnt - 1 = 0 := by omega
      simp only [h0, h1, h2, if_false, decide_false, Bool.false_eq_true]
      exact voiceCell_setVoice v s _

/-- Accepting a key-on leaves the other voices alone. -/
theorem acceptVoice_frame : VoiceFrame v s (acceptVoice v s).1 := by
  unfold acceptVoice
  split
  · exact VoiceFrame.clearKon.trans (.setVoice _)
  · exact .refl v s

/-- What accepting a key-on does to the cell of the voice. -/
theorem acceptVoice_cell :
    voiceCell v (acceptVoice v s).1 = (voiceCell v s).accept (voiceInput host v s) := by
  unfold acceptVoice VoiceCell.accept VoiceCell.accepts
  change _ = if (bit (s.dspRegs 0x4C) v && !bit (s.dspRegs 0x5C) v) = true then _ else _
  split
  · rw [voiceCell_setVoice, voiceCell_setKon, bit_clear_mask]
    simp [voiceCell]
  · rfl

/-- Keying a voice off leaves the other voices alone. -/
theorem keyOffVoice_frame : VoiceFrame v s (keyOffVoice v s).1 := by
  unfold keyOffVoice
  split
  · exact .setVoice _
  · exact .refl v s

/-- What keying a voice off does to its cell. -/
theorem keyOffVoice_cell :
    voiceCell v (keyOffVoice v s).1 = (voiceCell v s).keyOff (voiceInput host v s) := by
  unfold keyOffVoice VoiceCell.keyOff
  change _ = if (bit s.keys v && bit (s.dspRegs 0x5C) v) = true then _ else _
  split
  · exact voiceCell_setVoice v s _
  · rfl

theorem silenceVoice_frame (x : Locals) : VoiceFrame v s (silenceVoice v s x).1 :=
  (VoiceFrame.setEnvx 0).trans (.setOutx 0)

theorem silenceVoice_cell (x : Locals) :
    voiceCell v (silenceVoice v s x).1 = (voiceCell v s).silence := by
  unfold silenceVoice
  rw [voiceCell_setOutx, voiceCell_setEnvx]
  rfl

/-- The decode loop writes the state and the `ENDX` bit of its own voice only.
-/
theorem applyDecode_frame (d : Decode) : VoiceFrame v s (applyDecode v d s) := by
  have hend : ∀ t : Dsp, VoiceFrame v t (if d.endx then
      t.setReg 0x7C (t.dspRegs 0x7C ||| voiceMask v) else t) := by
    intro t
    split
    · exact .setEndx
    · exact .refl v t
  unfold applyDecode
  dsimp only
  split
  · refine ((VoiceFrame.setVoice _).trans (hend _)).trans (.trans (.setKeys _ ?_) (.setEnvx 0))
    intro w hw
    rw [bit_clear_mask]
    simp [hw]
  · exact (VoiceFrame.setVoice _).trans (hend _)

/-- What the decode loop does to the cell of its voice. -/
theorem applyDecode_cell (d : Decode) :
    voiceCell v (applyDecode v d s) =
      { voiceCell v s with
        vp := d.vp
        key := (voiceCell v s).key && !d.ended
        endx := (voiceCell v s).endx || d.endx
        envxReg := if d.ended then 0 else (voiceCell v s).envxReg } := by
  have hend : voiceCell v (if d.endx then
        (s.setVoice v d.vp).setReg 0x7C ((s.setVoice v d.vp).dspRegs 0x7C ||| voiceMask v)
        else s.setVoice v d.vp) =
      { voiceCell v s with vp := d.vp, endx := (voiceCell v s).endx || d.endx } := by
    cases hx : d.endx
    · rw [if_neg (by simp), voiceCell_setVoice]
      simp
    · rw [if_pos rfl, voiceCell_setEndx, bit_set_mask, voiceCell_setVoice]
      simp
  unfold applyDecode
  dsimp only
  cases he : d.ended
  · rw [if_neg (by simp), hend]
    simp
  · rw [if_pos rfl, voiceCell_setEnvx, voiceCell_setKeys, bit_clear_mask, hend]
    simp

theorem playVoice_frame (envx : Int) (x : Locals) :
    VoiceFrame v s (playVoice host v envx s x).1 :=
  ((applyDecode_frame v s _).trans (.setVoice _)).trans (.setOutx _)

theorem voiceSource_eq (vp : VoiceState) :
    voiceSource s v vp = if (voiceInput host v s).non then
        short ((voiceInput host v s).noiseLev * 2) else interpolate vp := rfl

theorem mixVoice_outx (outx : Int) (x : Locals) :
    (mixVoice v s outx x).outx = outx ∧ (mixVoice v s outx x).log = x.log := by
  unfold mixVoice
  dsimp only
  split
  · exact ⟨rfl, rfl⟩
  · split <;> exact ⟨rfl, rfl⟩

/-- The active part of the source's pass is `VoiceCell.play`. -/
theorem playVoice_play (envx : Int) (x : Locals) :
    let r := playVoice host v envx s x
    let p := VoiceCell.play v (voiceInput host v s) x.outx envx (voiceCell v s)
    voiceCell v r.1 = p.cell ∧ r.2.outx = p.outx ∧ r.2.log = x.log ++ p.log := by
  intro r p
  have hinput (d : Decode) : voiceInput host v (applyDecode v d s) = voiceInput host v s :=
    (applyDecode_frame v s d).input host v
  have hr : r = playVoice host v envx s x := rfl
  have hp : p = VoiceCell.play v (voiceInput host v s) x.outx envx (voiceCell v s) := rfl
  unfold playVoice at hr
  unfold VoiceCell.play at hp
  simp only [voiceSource_eq host, hinput] at hr
  rw [hr, hp]
  refine ⟨?_, (mixVoice_outx v _ _ _).1, (mixVoice_outx v _ _ _).2⟩
  rw [voiceCell_setOutx, voiceCell_setVoice, applyDecode_cell]
  rfl

/-! ## The whole pass -/

theorem keyRules_frame :
    VoiceFrame v s (keyOffVoice v (acceptVoice v (keyOnVoice host v s).1).1).1 :=
  ((keyOnVoice_frame host v s).trans (acceptVoice_frame v _)).trans (keyOffVoice_frame v _)

/-- The three key rules on a cell, in the order of the loop. -/
theorem keyRules_cell :
    voiceCell v (keyOffVoice v (acceptVoice v (keyOnVoice host v s).1).1).1 =
      (voiceCell v s).keyRules (voiceInput host v s) := by
  have hon := (keyOnVoice_frame host v s).input host v
  have hacc := (acceptVoice_frame v (keyOnVoice host v s).1).input host v
  rw [keyOffVoice_cell host, acceptVoice_cell host, keyOnVoice_cell, hacc, hon]
  rfl

/-- The events of the three key rules, in the order of the loop. -/
theorem keyRules_log :
    (keyOnVoice host v s).2 ++ (acceptVoice v (keyOnVoice host v s).1).2
      ++ (keyOffVoice v (acceptVoice v (keyOnVoice host v s).1).1).2 =
      (voiceCell v s).keyEvents v (voiceInput host v s) := by
  have hon : (keyOnVoice host v s).2 = if (voiceCell v s).starts then
      [.keyOn v, .read (dirEntry s v), .read (dirEntry s v + 1)] else [] := by
    have hstarts : (voiceCell v s).starts = decide ((s.voiceState v).onCnt = 1) := rfl
    unfold keyOnVoice
    dsimp only
    rw [hstarts]
    by_cases h0 : (s.voiceState v).onCnt = 0
    · simp [h0]
    · by_cases h1 : (s.voiceState v).onCnt = 1
      · simp [h1]
      · have h2 : ¬ (s.voiceState v).onCnt - 1 = 0 := by omega
        simp [h0, h1, h2]
  have hacc (t : Dsp) : (acceptVoice v t).2 =
      if (voiceCell v t).accepts (voiceInput host v t) then [.accept v] else [] := by
    unfold acceptVoice
    change _ = if (bit (t.dspRegs 0x4C) v && !bit (t.dspRegs 0x5C) v) = true then _ else _
    split <;> rfl
  have hoff (t : Dsp) : (keyOffVoice v t).2 =
      if (voiceCell v t).key && (voiceInput host v t).kof then [.keyOff v] else [] := by
    unfold keyOffVoice
    change _ = if (bit t.keys v && bit (t.dspRegs 0x5C) v) = true then _ else _
    split <;> rfl
  have hi := (keyOnVoice_frame host v s).input host v
  have hi' := ((keyOnVoice_frame host v s).trans (acceptVoice_frame v _)).input host v
  have hkon : (voiceCell v (keyOnVoice host v s).1).kon = (voiceCell v s).kon := by
    rw [keyOnVoice_cell]
    unfold VoiceCell.keyOn
    split <;> rfl
  rw [hon, hacc, hoff, hi, hi', acceptVoice_cell host, keyOnVoice_cell, hi]
  unfold VoiceCell.keyEvents VoiceCell.accepts
  rw [keyOnVoice_cell] at hkon
  rw [hkon]
  rfl

/-- **A pass stays in its frame.**  Nothing but what voice `v` owns changes in
the pass for voice `v`. -/
theorem voiceBody_frame (p : Dsp × Locals) : VoiceFrame v p.1 (voiceBody host v p).1 := by
  unfold voiceBody
  dsimp only
  split
  · split
    · refine (keyRules_frame host v p.1).trans (.trans (.setKeys _ ?_) (silenceVoice_frame v _ _))
      intro w hw
      rw [bit_clear_mask]
      simp [hw]
    · rename_i vp b _
      have hset := (keyRules_frame host v p.1).trans
        ((VoiceFrame.setVoice vp).trans (.setEnvx b))
      split
      · exact hset.trans (silenceVoice_frame v _ _)
      · exact hset.trans (playVoice_frame host v _ _ _)
  · exact (keyRules_frame host v p.1).trans (silenceVoice_frame v _ _)

/-- **A pass is `VoiceCell.pass`.**  On the cell of its voice, on the output
handed to the next voice and on the log, the source's pass is the cell's. -/
theorem voiceBody_pass (p : Dsp × Locals) :
    let r := voiceBody host v p
    let q := VoiceCell.pass v (voiceInput host v p.1) p.2.outx (voiceCell v p.1)
    voiceCell v r.1 = q.cell ∧ r.2.outx = q.outx ∧ r.2.log = p.2.log ++ q.log := by
  have hcell := keyRules_cell host v p.1
  have hinput := (keyRules_frame host v p.1).input host v
  have hlog := keyRules_log host v p.1
  unfold voiceBody VoiceCell.pass
  dsimp only
  rw [← hcell, ← hlog]
  generalize hs : (keyOffVoice v (acceptVoice v (keyOnVoice host v p.1).1).1).1 = s at *
  have hkey : bit s.keys v = (voiceCell v s).key := rfl
  have henv : advanceEnvelope (s.dspRegs (16 * v + 5)) (s.dspRegs (16 * v + 6))
      (s.dspRegs (16 * v + 7)) (s.voiceState v) =
    advanceEnvelope (voiceInput host v p.1).adsr1 (voiceInput host v p.1).adsr2
      (voiceInput host v p.1).gain (voiceCell v s).vp := by rw [← hinput]; rfl
  rw [hkey, henv]
  cases hk : (voiceCell v s).key
  · simp only [Bool.false_eq_true, if_false]
    exact ⟨silenceVoice_cell v s _, rfl, by simp [silenceVoice]⟩
  · simp only [if_true]
    cases hadv : advanceEnvelope (voiceInput host v p.1).adsr1 (voiceInput host v p.1).adsr2
        (voiceInput host v p.1).gain (voiceCell v s).vp with
    | none =>
        refine ⟨?_, rfl, by simp [silenceVoice]⟩
        rw [silenceVoice_cell, voiceCell_setKeys, bit_clear_mask]
        simp
    | some r =>
        obtain ⟨vp, envxReg⟩ := r
        dsimp only
        by_cases hneg : vp.envx < 0
        · rw [if_pos hneg, if_pos hneg]
          refine ⟨?_, rfl, by simp [silenceVoice]⟩
          rw [silenceVoice_cell, voiceCell_setEnvx, voiceCell_setVoice]
          dsimp only
          rw [hk]
        rw [if_neg hneg, if_neg hneg]
        have hframe : VoiceFrame v s ((s.setVoice v vp).setReg (16 * v + 8) envxReg) :=
          (VoiceFrame.setVoice vp).trans (.setEnvx envxReg)
        have hplay := playVoice_play host v ((s.setVoice v vp).setReg (16 * v + 8) envxReg)
          vp.envx { p.2 with log := p.2.log ++ (keyOnVoice host v p.1).2
            ++ (acceptVoice v (keyOnVoice host v p.1).1).2
            ++ (keyOffVoice v (acceptVoice v (keyOnVoice host v p.1).1).1).2 }
        dsimp only at hplay
        rw [hframe.input host v, hinput, voiceCell_setEnvx, voiceCell_setVoice] at hplay
        dsimp only at hplay
        rw [hk] at hplay
        obtain ⟨h1, h2, h3⟩ := hplay
        exact ⟨h1, h2, by rw [h3]; simp [List.append_assoc]⟩

end Stages

end OpenSpc
