import OpenSpc.KeyedOff
import OpenSpc.RamBounds

/-!
# What ENVX says about the level

`AdvanceEnvelope` stores the upper bits of the level in ENVX on two paths.  The
one at its end shifts the level right by 4; the one for `RELEASE` shifts it by
8, and so shows a voice that fades out at a sixteenth of its level.
`envx_mirrors_iff` says that this is the only place where ENVX and the level
disagree, and from which level on they do.
-/

namespace OpenSpc

open ByteMask (bit)

/-! ## The end of a sample -/

/-- The current block ends the sample with its loop flag clear, and more
samples are due than it has left. -/
def SampleEnds (vp : VoiceState) : Prop := vp.endBits = 1 ∧ blockLeft vp < samplesDue vp.mixfrac

instance (vp : VoiceState) : Decidable (SampleEnds vp) := inferInstanceAs (Decidable (_ ∧ _))

section Loop

variable (m : Mem) (entry : Nat) (v : Fin 8)

/-- The flags that end a sample. -/
theorem endBits_eq_one {n : Nat} (h : n < 4) :
    n = 1 ↔ n.testBit 0 = true ∧ n.testBit 1 = false := by
  have hall : ∀ k : Fin 4, (k : Nat) = 1 ↔ (k : Nat).testBit 0 = true ∧ (k : Nat).testBit 1 = false := by
    decide
  exact hall ⟨n, h⟩

/-- A block that does not end the sample is followed by a whole one, so a pass
inside a block has enough nybbles left. -/
theorem decodeLoop_runs_on : ∀ n d, DecoderInv d.vp → d.ended = false →
    n ≤ blockLeft d.vp + (if d.vp.endBits = 1 then 0 else 16) →
    (decodeLoop m entry v n d).ended = false := by
  intro n
  induction n with
  | zero => intro d _ hd _; exact hd
  | succ n ih =>
      intro d hinv hd hn
      have hpass (d : Decode) (hinv : DecoderInv d.vp) (hd : d.ended = false)
          (hcnt : d.vp.headerCnt ≠ 0) (hleft : n < blockLeft d.vp + (if d.vp.endBits = 1 then 0 else 16)) :
          (decodeLoop m entry v n (decodePass m.ram d)).ended = false := by
        obtain ⟨hone, hend, -, -⟩ := decodePass_left m.ram hcnt hinv.half_le
        exact ih _ (hinv.decodePass hcnt m.ram) hd (by rw [hend]; omega)
      unfold decodeLoop
      split
      · dsimp only
        by_cases hcnt : d.vp.headerCnt = 0
        · have hempty := blockLeft_empty hcnt
          have hfew : n < 16 := by
            split at hn <;> omega
          cases h0 : d.vp.endBits.testBit 0
          · rw [enterBlock_header m entry v hcnt h0]
            have hnew := readHeader_blockLeft hinv hcnt m.ram
            dsimp only
            rw [hd, if_neg Bool.false_ne_true]
            apply hpass _ (hinv.readHeader hcnt m.ram) rfl (by simp [readHeader])
            dsimp only
            omega
          · cases h1 : d.vp.endBits.testBit 1
            · have hone := (endBits_eq_one hinv.endBits_lt).mpr ⟨h0, h1⟩
              rw [hone, if_pos rfl] at hn
              omega
            · rw [enterBlock_loop m entry v hcnt h0 h1]
              have hinv' := hinv.setMemPtr (m.lptr entry)
              have hnew := readHeader_blockLeft hinv' hcnt m.ram
              dsimp only
              rw [hd, if_neg Bool.false_ne_true]
              apply hpass _ (hinv'.readHeader hcnt m.ram) rfl (by simp [readHeader])
              dsimp only
              omega
        · rw [enterBlock_keep m entry v hcnt, hd, if_neg Bool.false_ne_true]
          exact hpass d hinv hd hcnt hn
      · exact hd

/-- The last block ends the sample as soon as it is used up. -/
theorem decodeLoop_ends : ∀ n d, DecoderInv d.vp → d.ended = false → d.vp.endBits = 1 →
    samplesDue d.vp.mixfrac = n → blockLeft d.vp < n →
    (decodeLoop m entry v n d).ended = true := by
  intro n
  induction n with
  | zero => intro d _ _ _ _ hleft; exact absurd hleft (Nat.not_lt_zero _)
  | succ n ih =>
      intro d hinv hd hone hdue hleft
      have hmix : d.vp.mixfrac ≥ 0 := by
        by_contra hneg
        rw [samplesDue_of_neg (by omega)] at hdue
        omega
      unfold decodeLoop
      rw [if_pos hmix]
      dsimp only
      by_cases hcnt : d.vp.headerCnt = 0
      · rw [enterBlock_end m entry v hcnt (by rw [hone]; decide) (by rw [hone]; decide), if_pos rfl]
      · rw [enterBlock_keep m entry v hcnt, hd, if_neg Bool.false_ne_true]
        obtain ⟨hpass, hend, -, -⟩ := decodePass_left m.ram hcnt hinv.half_le
        have hspent := decodePass_mixfrac m.ram d
        have hsucc := samplesDue_succ hmix
        exact ih _ (hinv.decodePass hcnt m.ram) hd (hend.trans hone) (by rw [hspent]; omega)
          (by omega)

/-- **When a decode loop ends the sample.** -/
theorem brrDecode_ended_iff {vp : VoiceState} (hinv : DecoderInv vp)
    (hmix : vp.mixfrac ≤ 0x7FFF) : (brrDecode m entry v vp).ended = true ↔ SampleEnds vp := by
  constructor
  · intro hended
    by_contra hgoes
    have hdue : samplesDue vp.mixfrac ≤ 8 := by
      unfold samplesDue
      omega
    have hrest : samplesDue vp.mixfrac ≤ blockLeft vp + (if vp.endBits = 1 then 0 else 16) := by
      split
      · rename_i hone
        by_contra hleft
        exact hgoes ⟨hone, by omega⟩
      · omega
    have hruns := decodeLoop_runs_on m entry v (samplesDue vp.mixfrac)
      { vp := vp, endx := false, ended := false, log := [] } hinv rfl hrest
    unfold brrDecode at hended
    rw [hruns] at hended
    cases hended
  · rintro ⟨hone, hleft⟩
    exact decodeLoop_ends m entry v _ _ hinv rfl hone rfl hleft

end Loop

section Update

variable {host : Nat → Byte} {s : Dsp} {v : Fin 8}

/-- In an update that does not start it, a voice's sample ends exactly if its
state before the update says so. -/
theorem updateDecode_ended_iff (h : DspInv s) (hno : .keyOn v ∉ dspLog host s) {d : Decode}
    (hd : updateDecode host s v = some d) : d.ended = true ↔ SampleEnds (s.voiceState v) := by
  unfold updateDecode at hd
  obtain ⟨w, hplaying, rfl⟩ := Option.map_eq_some_iff.mp hd
  obtain ⟨b, -, hadv, -⟩ := VoiceCell.playing_eq_some.mp hplaying
  have hinv : VoiceInv w := ((h.prelude_voice v).keyRules).advanceEnvelope hadv
  have hframe := advanceEnvelope_frame hadv
  obtain ⟨n, hpre⟩ := prelude_vp s v
  rw [VoiceCell.keyRules_vp, if_neg (fun hs => hno (mem_dspLog_keyOn_starts.mpr hs)), hpre]
    at hframe
  have hended := brrDecode_ended_iff (voiceInput host v (prelude s)).mem
    (voiceInput host v (prelude s)).entry v (hinv.toDecoderInv.setPitch
      (VoiceCell.effPitch (voiceInput host v (prelude s)) (prevOut host s v))) hinv.mixfrac_le
  refine Iff.trans hended ?_
  unfold SampleEnds blockLeft
  rw [hframe]

/-- ENVX shows the upper bits of the level of voice `v` after the update, and 0
if the voice is silent. -/
def EnvxMirrors (host : Nat → Byte) (s : Dsp) (v : Fin 8) : Prop :=
  (dspNext host s).dspRegs (16 * v + 8) =
    if bit (dspNext host s).keys v then
      BitVec.ofInt 8 (((dspNext host s).voiceState v).envx / 2 ^ 4)
    else 0

/-- The update finds voice `v` in `RELEASE`, or keys it off, at a level of 24 or
more, and neither starts it nor ends its sample nor resets the DSP. -/
def FadesOut (s : Dsp) (v : Fin 8) : Prop :=
  bit (s.dspRegs 0x6C) 7 = false ∧ bit s.keys v = true ∧ (s.voiceState v).onCnt ≠ 1 ∧
    ((s.voiceState v).envstate = .release ∨ bit (s.dspRegs 0x5C) v = true) ∧
    24 ≤ (s.voiceState v).envx ∧ ¬ SampleEnds (s.voiceState v)

/-- Shifted by 8 or by 4, a level reads the same only below 16. -/
theorem shifted_level_iff {x : Int} (h0 : 0 ≤ x) (h1 : x ≤ 0x7FF) :
    BitVec.ofInt 8 (x / 2 ^ 8) = BitVec.ofInt 8 (x / 2 ^ 4) ↔ x < 16 := by
  constructor
  · intro heq
    have hnat := congrArg BitVec.toNat heq
    rw [BitVec.toNat_ofInt, BitVec.toNat_ofInt, Int.emod_eq_of_lt (by omega) (by omega),
      Int.emod_eq_of_lt (by omega) (by omega)] at hnat
    omega
  · intro hlow
    have hshift : x / 2 ^ 8 = x / 2 ^ 4 := by omega
    rw [hshift]

/-- What a voice that fades out has at the entry of its call. -/
theorem FadesOut.entry (host : Nat → Byte) (h : FadesOut s v) :
    .keyOn v ∉ dspLog host s ∧ ∃ vp, envelopeEntry host s v = some vp ∧
      vp.envstate = .release ∧ vp.envx = (s.voiceState v).envx := by
  obtain ⟨hflg, hkey, hcnt, hrel, -, -⟩ := h
  have hno : .keyOn v ∉ dspLog host s := by
    rw [mem_dspLog_keyOn _ _ hflg]
    exact hcnt
  obtain ⟨vp, hvp⟩ := envelopeEntry_of_key host hkey hflg
  obtain ⟨-, -, hx, -, hst⟩ := envelopeEntry_some hvp
  rw [if_neg hno] at hx hst
  refine ⟨hno, vp, hvp, ?_, hx⟩
  rw [hst]
  split
  · rfl
  · rename_i hoff
    rw [mem_dspLog_keyOff hflg] at hoff
    exact hrel.resolve_right fun hkof => hoff ⟨Or.inl hkey, hkof⟩

/-- A call in `RELEASE` shows the level it leaves shifted by 8. -/
theorem envelopeCall_fading {vp w : VoiceState} {b : Byte} (hst : vp.envstate = .release)
    (hcall : envelopeCall s v vp = some (w, b)) :
    8 < vp.envx ∧ w.envx = vp.envx - 8 ∧ b = BitVec.ofInt 8 (w.envx / 2 ^ 8) := by
  unfold envelopeCall at hcall
  rcases advanceEnvelope_cases (s.dspRegs (16 * v + 5)) (s.dspRegs (16 * v + 6))
      (s.dspRegs (16 * v + 7)) vp with
    ⟨-, -, he⟩ | ⟨-, hhigh, he⟩ | ⟨hrel, -, -⟩ | ⟨hrel, -, -⟩
  · rw [he] at hcall
    cases hcall
  · rw [he] at hcall
    cases hcall
    exact ⟨hhigh, rfl, rfl⟩
  · exact absurd hst hrel
  · exact absurd hst hrel

/-- A voice that fades out at 24 or more shows a level that is not its own. -/
theorem FadesOut.not_mirrors (h : FadesOut s v) (hinv : DspInv s) : ¬ EnvxMirrors host s v := by
  obtain ⟨hno, vp, hvp, hst, hx⟩ := h.entry host
  obtain ⟨-, -, -, -, hlevel, hgoes⟩ := h
  have htop := (hinv.voice v).envx_le
  intro hmirrors
  unfold EnvxMirrors at hmirrors
  rcases dspNext_envelope host s v with
    ⟨hnone, -⟩ | ⟨vp', hvp', hcall, -⟩ | ⟨vp', w, b, hvp', hcall, hneg, -⟩ |
      ⟨vp', w, b, d, hvp', hcall, hd, -, hkey, hreg, hx', -, -⟩
  · rw [hvp] at hnone
    cases hnone
  · rw [hvp] at hvp'
    cases hvp'
    rcases envelopeCall_release (s := s) (v := v) hst with ⟨hlow, -⟩ | ⟨-, b, hsome⟩
    · omega
    · rw [hsome] at hcall
      cases hcall
  · rw [hvp] at hvp'
    cases hvp'
    obtain ⟨hhigh, hw, -⟩ := envelopeCall_fading hst hcall
    omega
  · rw [hvp] at hvp'
    cases hvp'
    have hended : d.ended = false := by
      by_contra hend
      rw [Bool.not_eq_false, updateDecode_ended_iff hinv hno hd] at hend
      exact hgoes hend
    obtain ⟨-, hw, hb⟩ := envelopeCall_fading hst hcall
    rw [hkey, hreg, hx', hended, hb] at hmirrors
    simp only [Bool.not_false, if_true, Bool.false_eq_true, if_false] at hmirrors
    have hlow := (shifted_level_iff (by omega) (by omega)).mp hmirrors
    omega

/-- In `RELEASE` without fading out: the level is low, or the sample ends. -/
theorem low_of_not_fadesOut (hinv : DspInv s) (h : ¬ FadesOut s v) {vp : VoiceState}
    (hvp : envelopeEntry host s v = some vp) (hst : vp.envstate = .release) {d : Decode}
    (hd : updateDecode host s v = some d) (hended : d.ended = false) : vp.envx < 24 := by
  obtain ⟨hflg, hor, hlevel, -, hstage⟩ := envelopeEntry_some hvp
  by_cases hstart : .keyOn v ∈ dspLog host s
  · rw [if_pos hstart] at hlevel
    omega
  · rw [if_neg hstart] at hlevel hstage
    by_contra hlarge
    refine h ⟨hflg, hor.resolve_right hstart, ?_, ?_, by omega, ?_⟩
    · rwa [mem_dspLog_keyOn _ _ hflg] at hstart
    · by_cases hoff : .keyOff v ∈ dspLog host s
      · rw [mem_dspLog_keyOff hflg] at hoff
        exact Or.inr hoff.2
      · rw [if_neg hoff] at hstage
        exact Or.inl (hstage.symm.trans hst)
    · rw [← updateDecode_ended_iff hinv hstart hd, hended]
      exact Bool.false_ne_true

/-- Every other voice is shown as it is. -/
theorem envxMirrors_of_not_fadesOut (hinv : DspInv s) (h : ¬ FadesOut s v) :
    EnvxMirrors host s v := by
  unfold EnvxMirrors
  rcases dspNext_envelope host s v with
    ⟨-, hkey, hreg, -⟩ | ⟨vp, -, -, hkey, hreg, -⟩ | ⟨vp, w, b, hvp, hcall, hneg, -⟩ |
      ⟨vp, w, b, d, hvp, hcall, hd, -, hkey, hreg, hx, -, -⟩
  · rw [hkey, hreg]
    rfl
  · rw [hkey, hreg]
    rfl
  · obtain ⟨h0, h1⟩ := hinv.entry_envx hvp
    exact absurd hneg (advanceEnvelope_bounds hcall h0 h1).1.not_gt
  · rw [hkey, hreg, hx]
    cases hended : d.ended
    · simp only [Bool.not_false, if_true, Bool.false_eq_true, if_false]
      by_cases hst : vp.envstate = .release
      · have hlow := low_of_not_fadesOut hinv h hvp hst hd hended
        obtain ⟨hhigh, hw, hb⟩ := envelopeCall_fading hst hcall
        rw [hb]
        exact (shifted_level_iff (by omega) (by omega)).mpr (by omega)
      · rw [envelopeCall_mode s v hst] at hcall
        cases hcall
        rfl
    · simp

end Update

/-- **ENVX and its one exception.**  In every run, after every update, ENVX of
voice `v` mirrors the level unless the voice fades out in that update. -/
theorem envx_mirrors_iff {host : Nat → Byte} {s : Nat → Dsp} (hrun : IsDspRun host s)
    (h0 : Reachable (s 0)) (v : Fin 8) (t : Nat) :
    EnvxMirrors host (s t) v ↔ ¬ FadesOut (s t) v := by
  have hinv := (hrun.reachable h0 t).inv
  constructor
  · intro hmirrors hfades
    exact hfades.not_mirrors hinv hmirrors
  · exact envxMirrors_of_not_fadesOut hinv

/-- A voice that is not keyed off, at a level that ENVX has something to show
of. -/
theorem overlapRun_mirrors :
    bit (overlapRun (fun _ => 0) 10).keys (0 : Fin 8) = true ∧
      24 ≤ ((overlapRun (fun _ => 0) 10).voiceState 0).envx ∧
      EnvxMirrors (fun _ => 0) (overlapRun (fun _ => 0) 10) 0 := by
  have hkey : (overlapCell (fun _ => 0) 10).key = true := by decide +kernel
  have hlevel : 24 ≤ (overlapCell (fun _ => 0) 10).vp.envx := by decide +kernel
  have hstage : (overlapCell (fun _ => 0) 10).vp.envstate ≠ .release := by decide +kernel
  have hkof : (overlapRun (fun _ => 0) 10).dspRegs 0x5C = 0 :=
    drivenRun_reg (f := fun _ => 0) (fun _ _ => rfl) 10
  have hrun : IsDspRun (fun _ => 0) (overlapRun fun _ => 0) :=
    drivenRun_isRun fun t s => (overlapWrite_noteWrite t s).1
  have hstart : Reachable (overlapRun (fun _ => 0) 0) := .write (.reset .boot) rfl
  rw [← overlapRun_key] at hkey
  rw [← overlapRun_voice] at hlevel hstage
  refine ⟨hkey, hlevel, (envx_mirrors_iff hrun hstart 0 10).mpr ?_⟩
  rintro ⟨-, -, -, hrelease | hoff, -, -⟩
  · exact hstage hrelease
  · rw [hkof] at hoff
    exact absurd hoff (by decide)

/-! ## A voice that fades out -/

/-- The voice of the run in its eleventh update. -/
theorem releasedNote_voice :
    (releasedNote fun _ => 0).voiceState 0 = (overlapCell (fun _ => 0) 10).vp := by
  have hvoice (s : Dsp) (i : Nat) (b : Byte) :
      (s.setReg i b).voiceState 0 = (voiceCell 0 s).vp := rfl
  unfold releasedNote
  rw [hvoice, overlapRun_cell]

/-- The note fades out. -/
theorem releasedNote_fadesOut : FadesOut (releasedNote fun _ => 0) 0 := by
  have hcnt : (overlapCell (fun _ => 0) 10).vp.onCnt ≠ 1 := by decide +kernel
  have hlevel : 24 ≤ (overlapCell (fun _ => 0) 10).vp.envx := by decide +kernel
  have hgoes : ¬ SampleEnds (overlapCell (fun _ => 0) 10).vp := by decide +kernel
  unfold FadesOut
  rw [releasedNote_flg, releasedNote_voice, releasedNote_kof]
  exact ⟨by decide, releasedNote_key, hcnt, Or.inr (by decide), hlevel, hgoes⟩

/-- **A level that ENVX does not show.**  The keyed-off voice goes on at 0x7E8;
ENVX reads 7. -/
theorem releasedNote_not_mirrors :
    Reachable (releasedNote fun _ => 0) ∧
      ¬ EnvxMirrors (fun _ => 0) (releasedNote fun _ => 0) 0 :=
  ⟨releasedNote_reachable _,
    releasedNote_fadesOut.not_mirrors (releasedNote_reachable fun _ => 0).inv⟩

end OpenSpc
