import OpenSpc.KeyProtocol

/-!
# What ENDX says about the current note

KON clears a voice's bit of ENDX when it is examined, but the note it asks for
starts eight updates later, and until then an earlier note of the voice can
still run into its end block and set the bit again.  The start itself does not
touch ENDX.  `endxOfNote_iff` says that a bit left over in this way is the only
thing that keeps ENDX from describing the current note, and
`staleEndx_origin` says where such a bit comes from.
-/

namespace OpenSpc

open ByteMask (bit)

/-- Register and RAM traffic that leaves ENDX alone. -/
def NoteWrite (s s' : Dsp) : Prop := BusWrite s s' ∧ s'.dspRegs 0x7C = s.dspRegs 0x7C

/-- A run in which only the DSP itself touches ENDX. -/
abbrev IsNoteRun (host : Nat → Byte) (s : Nat → Dsp) : Prop :=
  InterferedRun.IsRun (dspNext host) NoteWrite s

section OneUpdate

variable {host : Nat → Byte} {s : Dsp} {v : Fin 8}

/-- A voice starts exactly if its countdown stands at one and no reset
intervenes. -/
theorem mem_dspLog_keyOn_flg :
    .keyOn v ∈ dspLog host s ↔
      bit (s.dspRegs 0x6C) 7 = false ∧ (s.voiceState v).onCnt = 1 := by
  cases hflg : bit (s.dspRegs 0x6C) 7
  · rw [mem_dspLog_keyOn _ _ hflg]
    simp
  · rw [mem_dspLog_voice rfl]
    unfold cellPass
    rw [VoiceCell.mem_pass_log_key _ _ _ _ (by simp) (by simp), VoiceCell.mem_keyEvents,
      prelude_cell, hflg]
    simp [VoiceCell.starts]

/-- The same of the cell. -/
theorem mem_dspLog_keyOn_cell (hflg : bit (s.dspRegs 0x6C) 7 = false) :
    .keyOn v ∈ dspLog host s ↔ (voiceCell v s).vp.onCnt = 1 :=
  mem_dspLog_keyOn host v hflg

/-- **One update of ENDX.**  KON clears the bit, an end block sets it. -/
theorem dspNext_endx :
    bit ((dspNext host s).dspRegs 0x7C) v = true ↔
      (voiceCell v (prelude s)).endx = true ∨ .endBlock v ∈ dspLog host s := by
  rw [dspNext_endxBit, mem_dspLog_voice rfl]
  exact VoiceCell.pass_endx _ _ _ _

/-- The prelude sets no bit of ENDX. -/
theorem prelude_endx_clear (h : bit (s.dspRegs 0x7C) v = false) :
    (voiceCell v (prelude s)).endx = false := by
  rw [prelude_cell]
  split
  · exact h
  · simp [voiceCell, h]

/-- The update that starts a voice logs no end block of it. -/
theorem keyOn_not_endBlock (h : .keyOn v ∈ dspLog host s) : .endBlock v ∉ dspLog host s := by
  obtain ⟨hflg, hcnt⟩ := mem_dspLog_keyOn_flg.mp h
  obtain ⟨hvp, -⟩ := prelude_quiet host v hflg
  rw [mem_dspLog_voice rfl]
  exact VoiceCell.pass_starts_log _ _ _ _ (by simp [VoiceCell.starts, hvp, hcnt])

end OneUpdate

/-- ENDX describes the note that voice `v` starts at update `t`: its bit is
clear from then on until the decoder leaves an end block of that note, or the
voice starts again. -/
def EndxOfNote (host : Nat → Byte) (s : Nat → Dsp) (v : Fin 8) (t : Nat) : Prop :=
  .keyOn v ∈ dspLog host (s t) →
    ∀ d, (∀ u, t ≤ u → u ≤ t + d → .endBlock v ∉ dspLog host (s u)) →
      (∀ u, t < u → u ≤ t + d → .keyOn v ∉ dspLog host (s u)) →
      bit ((dspNext host (s (t + d))).dspRegs 0x7C) v = false

/-- An update that is about to start voice `v` finds its bit of ENDX set, and
no new KON that would clear it. -/
def StaleEndx (s : Dsp) (v : Fin 8) : Prop :=
  bit (s.dspRegs 0x6C) 7 = false ∧ (s.voiceState v).onCnt = 1 ∧
    bit (s.dspRegs 0x7C) v = true ∧ bit (s.dspRegs 0x4C) v = false

/-- The exception in terms of the voice's cell. -/
theorem staleEndx_of_cell {s : Dsp} {v : Fin 8} (hflg : bit (s.dspRegs 0x6C) 7 = false)
    (hcnt : (voiceCell v s).vp.onCnt = 1) (hendx : (voiceCell v s).endx = true)
    (hkon : (voiceCell v s).kon = false) : StaleEndx s v :=
  ⟨hflg, hcnt, hendx, hkon⟩

/-- A stale bit is set. -/
theorem StaleEndx.endx {s : Dsp} {v : Fin 8} (h : StaleEndx s v) : (voiceCell v s).endx = true :=
  h.2.2.1

section Runs

variable {host : Nat → Byte} {s : Nat → Dsp}

/-- A stale bit survives the start of the new note. -/
theorem StaleEndx.not_endxOfNote {v : Fin 8} {t : Nat} (hstale : StaleEndx (s t) v) :
    ¬ EndxOfNote host s v t := by
  intro hnote
  obtain ⟨hflg, hcnt, hendx, hkon⟩ := hstale
  have hstart : .keyOn v ∈ dspLog host (s t) := mem_dspLog_keyOn_flg.mpr ⟨hflg, hcnt⟩
  have hclear := hnote hstart 0
    (fun u h1 h2 => by
      rw [show u = t by omega]
      exact keyOn_not_endBlock hstart)
    (fun u h1 h2 => absurd h1 (by omega))
  have hset : bit ((dspNext host (s t)).dspRegs 0x7C) v = true := by
    rw [dspNext_endx, prelude_cell, hflg]
    left
    simp [voiceCell, hendx, hkon]
  rw [Nat.add_zero, hset] at hclear
  exact absurd hclear (by decide)

/-- **ENDX and its one exception.**  Where the bit is clear after the starting
update, neither the bus nor an update without an end block sets it. -/
theorem endxOfNote_iff (h : IsNoteRun host s) (v : Fin 8) (t : Nat) :
    EndxOfNote host s v t ↔ ¬ StaleEndx (s t) v := by
  constructor
  · intro hnote hstale
    exact hstale.not_endxOfNote hnote
  · intro hfresh hstart d hend _
    obtain ⟨hflg, hcnt⟩ := mem_dspLog_keyOn_flg.mp hstart
    have hfirst : bit ((dspNext host (s t)).dspRegs 0x7C) v = false := by
      by_contra hset
      rw [Bool.not_eq_false, dspNext_endx] at hset
      rcases hset with hpre | hblock
      · rw [prelude_cell, hflg] at hpre
        simp only [Bool.false_eq_true, if_false, voiceCell, Bool.and_eq_true,
          Bool.not_eq_true'] at hpre
        exact hfresh ⟨hflg, hcnt, hpre.1, hpre.2⟩
      · exact keyOn_not_endBlock hstart hblock
    refine h.lasts (P := fun x => bit (x.dspRegs 0x7C) v = false) hfirst ?_
      (C := fun u => .endBlock v ∉ dspLog host (s u)) ?_ d
      (fun u h1 h2 => hend u (by omega) h2)
    · intro x y hxy hx
      rw [hxy.2]
      exact hx
    · intro u hblock hu
      by_contra hset
      rw [Bool.not_eq_false, dspNext_endx, prelude_endx_clear hu] at hset
      rcases hset with hset | hset
      · exact absurd hset (by decide)
      · exact hblock hset

/-- A set bit of ENDX after an update that examined KON comes from an end
block passed since, with no further KON after it. -/
theorem endx_origin (h : IsNoteRun host s) (hflg : ∀ t, bit ((s t).dspRegs 0x6C) 7 = false)
    {v : Fin 8} {t : Nat} (hkon : bit ((s t).dspRegs 0x4C) v = true) :
    ∀ d, bit ((s (t + d + 1)).dspRegs 0x7C) v = true →
      ∃ u, t ≤ u ∧ u ≤ t + d ∧ .endBlock v ∈ dspLog host (s u) ∧
        ∀ w, u < w → w ≤ t + d → bit ((s w).dspRegs 0x4C) v = false := by
  intro d
  induction d with
  | zero =>
      intro hset
      rw [(h (t + 0)).2, dspNext_endx, prelude_cell, hflg] at hset
      rcases hset with hset | hset
      · simp [voiceCell, hkon] at hset
      · exact ⟨t, le_rfl, le_rfl, hset, fun w h1 h2 => absurd h1 (by omega)⟩
  | succ d ih =>
      intro hset
      rw [(h (t + (d + 1))).2, dspNext_endx, prelude_cell, hflg] at hset
      rcases hset with hset | hset
      · simp only [Bool.false_eq_true, if_false, voiceCell, Bool.and_eq_true,
          Bool.not_eq_true'] at hset
        obtain ⟨u, h1, h2, hblock, hfree⟩ := ih hset.1
        refine ⟨u, h1, by omega, hblock, fun w h3 h4 => ?_⟩
        by_cases hw : w = t + (d + 1)
        · rw [hw]
          exact hset.2
        · exact hfree w h3 (by omega)
      · exact ⟨t + (d + 1), by omega, le_rfl, hset, fun w h1 h2 => absurd h1 (by omega)⟩

/-- **Where a stale bit comes from.**  The decoder left an end block of the
old note in one of the eight updates in which the new start was pending, and
no KON for the voice was examined after that. -/
theorem staleEndx_origin (h : IsNoteRun host s) (hkey : IsKeyRun host s) {v : Fin 8} {t : Nat}
    (hstale : StaleEndx (s t) v) :
    ∃ u, t - 8 ≤ u ∧ u < t ∧ .endBlock v ∈ dspLog host (s u) ∧
      ∀ w, u < w → w ≤ t → bit ((s w).dspRegs 0x4C) v = false := by
  obtain ⟨hflg, hcnt, hendx, hkon⟩ := hstale
  have hstart : .keyOn v ∈ dspLog host (s t) := mem_dspLog_keyOn_flg.mpr ⟨hflg, hcnt⟩
  obtain ⟨h8, hacc, -⟩ := (hkey.keyOn_iff v t).mp hstart
  rw [mem_dspLog_accept (hkey.noReset _)] at hacc
  unfold keyOnRequested at hacc
  rw [Bool.and_eq_true] at hacc
  have ht : t - 8 + 7 + 1 = t := by omega
  obtain ⟨u, h1, h2, hblock, hfree⟩ := endx_origin h hkey.noReset hacc.1 7 (by rwa [ht])
  refine ⟨u, h1, by omega, hblock, fun w h3 h4 => ?_⟩
  by_cases hw : w = t
  · rw [hw]
    exact hkon
  · exact hfree w h3 (by omega)

end Runs

/-! ## A note that ends while the next one is pending -/

/-- Voice 0 plays samples of a single end block at the highest pitch; it is
keyed on before update 0 and again before update 10. -/
def overlapWrite (t : Nat) (s : Dsp) : Dsp :=
  { s with
    spcRam := fun _ => 1
    dspRegs := fun i =>
      if i = 0x7C then s.dspRegs 0x7C
      else if i = 0x6C then 0x20
      else if i = 0x4C then if t = 0 ∨ t = 10 then 1 else 0
      else if i = 2 then 0xFF
      else if i = 3 then 0x3F
      else if i = 7 then 0x7F
      else 0 }

/-- The run with this traffic. -/
def overlapRun (host : Nat → Byte) : Nat → Dsp := drivenRun host overlapWrite

/-- This traffic leaves ENDX alone. -/
theorem overlapWrite_noteWrite (t : Nat) (s : Dsp) : NoteWrite s (overlapWrite t s) := ⟨rfl, rfl⟩

/-- This is a run of notes. -/
theorem overlapRun_isNoteRun (host : Nat → Byte) : IsNoteRun host (overlapRun host) :=
  drivenRun_isRun overlapWrite_noteWrite

/-- The run begins after a reset, and FLG never asks for another. -/
theorem overlapRun_isKeyRun (host : Nat → Byte) : IsKeyRun host (overlapRun host) :=
  drivenRun_isKeyRun (fun _ _ => rfl) 0x20 (by decide) fun _ _ => rfl

/-- What voice 0 reads in this run, the noise level apart. -/
def overlapInput (host : Nat → Byte) : VoiceInput where
  mem := ⟨host, fun _ => 1⟩
  entry := 0
  pitch := 0x3FFF
  adsr1 := 0
  adsr2 := 0
  gain := 0x7F
  kof := false
  non := false
  pmon := false
  noiseLev := 0

/-- The cell of voice 0 in this run. -/
def overlapCell (host : Nat → Byte) : Nat → VoiceCell
  | 0 =>
      { vp := zeroVoice, key := false, kon := true, endx := false, envxReg := 0, outxReg := 0 }
  | t + 1 =>
      let c := overlapCell host t
      let c := { c with endx := c.endx && !c.kon }
      { (VoiceCell.pass 0 (overlapInput host) 0 c).cell with
        kon := decide (t + 1 = 0 ∨ t + 1 = 10), envxReg := 0, outxReg := 0 }

/-- A voice that does not play noise does not depend on the noise level. -/
theorem VoiceCell.pass_noiseLev (v : Fin 8) (i : VoiceInput) (outx : Int) (c : VoiceCell)
    (n : Nat) (h : i.non = false) :
    pass v { i with noiseLev := n } outx c = pass v i outx c := by
  have hplay (envx : Int) (c : VoiceCell) :
      play v { i with noiseLev := n } outx envx c = play v i outx envx c := by
    unfold play decode effPitch
    dsimp only
    rw [h]
    simp only [Bool.false_eq_true, if_false]
  have hrules (c : VoiceCell) : c.keyRules { i with noiseLev := n } = c.keyRules i := by
    unfold keyRules keyOn accept keyOff accepts
    rfl
  have hevents (c : VoiceCell) : c.keyEvents v { i with noiseLev := n } = c.keyEvents v i := by
    unfold keyEvents keyOn accept accepts
    rfl
  unfold pass
  simp only [hplay, hrules, hevents]

/-- FLG is set in every update. -/
theorem overlapRun_flg (host : Nat → Byte) (t : Nat) :
    (overlapRun host t).dspRegs 0x6C = 0x20 :=
  drivenRun_reg (f := fun _ => 0x20) (fun _ _ => rfl) t

/-- What voice 0 reads after this traffic. -/
theorem overlapWrite_input (host : Nat → Byte) (t : Nat) (s : Dsp) :
    voiceInput host 0 (prelude (overlapWrite t s)) =
      { overlapInput host with noiseLev := (prelude (overlapWrite t s)).noiseLev } := by
  rw [prelude_input]
  simp [voiceInput, dirEntry, overlapWrite, overlapInput, bit]

/-- The cell of voice 0 after this traffic. -/
theorem overlapWrite_cell (t : Nat) (s : Dsp) :
    voiceCell 0 (overlapWrite t s) =
      { voiceCell 0 s with kon := decide (t = 0 ∨ t = 10), envxReg := 0, outxReg := 0 } := by
  have hkon : bit (if t = 0 ∨ t = 10 then 1 else 0 : Byte) (0 : Fin 8) =
      decide (t = 0 ∨ t = 10) := by
    split <;> simp_all [bit]
  rw [← hkon]
  rfl

/-- What voice 0 reads in this run. -/
theorem overlapRun_input (host : Nat → Byte) (t : Nat) :
    voiceInput host 0 (prelude (overlapRun host t)) =
      { overlapInput host with noiseLev := (prelude (overlapRun host t)).noiseLev } := by
  cases t <;> exact overlapWrite_input host _ _

/-- The cell of voice 0 in this run, by induction on the updates. -/
theorem overlapRun_cell (host : Nat → Byte) (t : Nat) :
    voiceCell 0 (overlapRun host t) = overlapCell host t := by
  induction t with
  | zero =>
      have hstart : overlapRun host 0 = overlapWrite 0 (dspReset zeroDsp) := rfl
      rw [hstart, overlapWrite_cell]
      simp [voiceCell, overlapCell, dspReset, zeroDsp, zeroVoice, bit]
  | succ t ih =>
      have hnext : overlapRun host (t + 1) =
          overlapWrite (t + 1) (dspNext host (overlapRun host t)) := rfl
      have hpass : (cellPass host (overlapRun host t) 0).cell =
          (VoiceCell.pass 0 (overlapInput host) 0 { overlapCell host t with
            endx := (overlapCell host t).endx && !(overlapCell host t).kon }).cell := by
        unfold cellPass
        rw [overlapRun_input, VoiceCell.pass_noiseLev _ _ _ _ _ rfl, prelude_cell,
          overlapRun_flg, ih]
        rfl
      rw [hnext, overlapWrite_cell, dspNext_cell, hpass]
      rfl

/-- The state of voice 0 can be computed without the others. -/
theorem overlapRun_voice (host : Nat → Byte) (t : Nat) :
    (overlapRun host t).voiceState 0 = (overlapCell host t).vp :=
  congrArg VoiceCell.vp (overlapRun_cell host t)

/-- So can its bit of `keys`. -/
theorem overlapRun_key (host : Nat → Byte) (t : Nat) :
    bit (overlapRun host t).keys (0 : Fin 8) = (overlapCell host t).key :=
  congrArg VoiceCell.key (overlapRun_cell host t)

/-- **A stale ENDX bit.**  The first note passes its end block while the second
one is pending; the second note starts in update 18 with ENDX set. -/
theorem overlapRun_not_endxOfNote :
    IsNoteRun (fun _ => 0) (overlapRun fun _ => 0) ∧
      IsKeyRun (fun _ => 0) (overlapRun fun _ => 0) ∧
      ¬ EndxOfNote (fun _ => 0) (overlapRun fun _ => 0) 0 18 := by
  have hkeyrun := overlapRun_isKeyRun fun _ => 0
  have hcnt : (overlapCell (fun _ => 0) 18).vp.onCnt = 1 := by decide +kernel
  have hendx : (overlapCell (fun _ => 0) 18).endx = true := by decide +kernel
  have hkon : (overlapCell (fun _ => 0) 18).kon = false := by decide +kernel
  rw [← overlapRun_cell] at hcnt hendx hkon
  have hstale := staleEndx_of_cell (hkeyrun.noReset 18) hcnt hendx hkon
  exact ⟨overlapRun_isNoteRun _, hkeyrun, hstale.not_endxOfNote⟩

/-- The first note starts in update 8 with ENDX clear. -/
theorem overlapRun_endxOfNote :
    .keyOn 0 ∈ dspLog (fun _ => 0) (overlapRun (fun _ => 0) 8) ∧
      EndxOfNote (fun _ => 0) (overlapRun fun _ => 0) 0 8 := by
  have hflg := (overlapRun_isKeyRun fun _ => 0).noReset 8
  have hcnt : (overlapCell (fun _ => 0) 8).vp.onCnt = 1 := by decide +kernel
  have hendx : (overlapCell (fun _ => 0) 8).endx = false := by decide +kernel
  rw [← overlapRun_cell] at hcnt hendx
  refine ⟨(mem_dspLog_keyOn_cell hflg).mpr hcnt,
    (endxOfNote_iff (overlapRun_isNoteRun _) 0 8).mpr fun hstale => ?_⟩
  have hset := hstale.endx
  rw [hendx] at hset
  cases hset

end OpenSpc
