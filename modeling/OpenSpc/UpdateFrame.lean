import OpenSpc.EchoRing

/-!
# What one sample may touch

The emulated program and the DSP share RAM and the register file.  An update
writes at most the four bytes of the current echo slot, which never crosses the
end of RAM because the echo pointer stays a multiple of four through every
change of EDL, and of the registers at most ENVX, OUTX, ENDX and KON, plus FLG
and KOF when it resets.
-/

namespace OpenSpc

open ByteMask (bit)

section Update

variable {host : Nat → Byte} {s : Dsp}

/-- The echo pointer of an update is a multiple of a slot. -/
theorem DspInv.prelude_aligned (h : DspInv s) : 4 ∣ (prelude s).echoPtr := by
  rw [prelude_echoPtr]
  split
  · exact dvd_zero 4
  · exact h.echoPtr

/-- After the prelude, FLG bit 5 forbids echo writes also if bit 7 was set. -/
theorem prelude_flg_echo (h : bit (s.dspRegs 0x6C) 5 = true ∨ bit (s.dspRegs 0x6C) 7 = true) :
    bit ((prelude s).dspRegs 0x6C) 5 = true := by
  have hor (x : Byte) : bit (x ||| 0xE0) 5 = true := by simp [bit]
  rw [prelude_flg]
  split
  · exact hor _
  · rename_i hreset
    exact h.resolve_right hreset

/-- Registers an update leaves alone: only voices, ENDX and KON, and in a reset
FLG and KOF, are written. -/
theorem dspNext_reg {i : Nat} (h4 : i ≠ 0x4C) (h7 : i ≠ 0x7C)
    (hv : ∀ v : Fin 8, i ≠ 16 * (v : Nat) + 8 ∧ i ≠ 16 * (v : Nat) + 9)
    (hreset : bit (s.dspRegs 0x6C) 7 = true → i ≠ 0x6C ∧ i ≠ 0x5C) :
    (dspNext host s).dspRegs i = s.dspRegs i := by
  have hecho := (echoUnit_frame host true (voiceLoop host (prelude s, freshLocals) 8).1
    (voiceLoop host (prelude s, freshLocals) 8).2).2.2.2.2.2.2
  have hloop := (voiceLoop_frame host (prelude s, freshLocals) 8).regs i h4 h7 hv
  unfold dspNext dspUpdate
  dsimp only
  rw [hecho, hloop]
  dsimp only
  by_cases h6 : i = 0x6C
  · subst i
    rw [prelude_flg, if_neg fun h => (hreset h).1 rfl]
  · by_cases h5 : i = 0x5C
    · subst i
      rw [prelude_kof, if_neg fun h => (hreset h).2 rfl]
    · exact prelude_reg s h4 h5 h6 h7

/-- A pass sets no bit of KON. -/
theorem VoiceCell.pass_kon {v : Fin 8} {i : VoiceInput} {outx : Int} {c : VoiceCell}
    (h : (pass v i outx c).cell.kon = true) : c.kon = true := by
  have hrules : (c.keyRules i).kon = true := by
    rcases pass_cases v i outx c with
      ⟨-, hpass⟩ | ⟨-, -, hpass⟩ | ⟨vp, b, -, -, -, hpass⟩ | ⟨vp, b, -, -, -, hpass⟩
    · rw [hpass] at h
      exact h
    · rw [hpass] at h
      exact h
    · rw [hpass] at h
      exact h
    · rw [hpass] at h
      exact h
  by_contra hclear
  have hkon : (c.keyRules i).kon = false := by
    unfold keyRules keyOn accept keyOff
    grind
  rw [hkon] at hrules
  cases hrules

/-- An update sets no bit of KON. -/
theorem dspNext_kon {i : Nat} (h : bit ((dspNext host s).dspRegs 0x4C) i = true) :
    bit (s.dspRegs 0x4C) i = true := by
  have hi : i < 8 := by
    by_contra hge
    unfold bit at h
    rw [BitVec.getLsbD_of_ge _ i (by omega)] at h
    cases h
  have hpre := VoiceCell.pass_kon ((dspNext_konBit host s ⟨i, hi⟩).symm.trans h)
  rw [prelude_cell] at hpre
  split at hpre
  · cases hpre
  · exact hpre

end Update

/-- What an update may have changed between `s` and `s'`. -/
structure UpdateFrame (s s' : Dsp) : Prop where
  aligned : 4 ∣ echoBase (prelude s)
  inside : echoBase (prelude s) + 3 < 0x10000
  ram : ∀ a, (∀ k : Fin 4, a ≠ BitVec.ofNat 16 (echoBase (prelude s) + k)) →
    s'.spcRam a = s.spcRam a
  protectedRam : bit (s.dspRegs 0x6C) 5 = true ∨ bit (s.dspRegs 0x6C) 7 = true →
    s'.spcRam = s.spcRam
  regs : ∀ i, i ≠ 0x4C → i ≠ 0x7C →
    (∀ v : Fin 8, i ≠ 16 * (v : Nat) + 8 ∧ i ≠ 16 * (v : Nat) + 9) →
    (bit (s.dspRegs 0x6C) 7 = true → i ≠ 0x6C ∧ i ≠ 0x5C) → s'.dspRegs i = s.dspRegs i
  kon : ∀ i, bit (s'.dspRegs 0x4C) i = true → bit (s.dspRegs 0x4C) i = true

/-- **What one sample may touch.**  From every reachable state an update stays in
its frame, and what it leaves does not depend on whether the sample is stored. -/
theorem update_frame (host : Nat → Byte) {s : Dsp} (h : Reachable s) :
    UpdateFrame s (dspNext host s) ∧
      ∀ sound, (dspUpdate host sound s).dsp = dspNext host s := by
  have haligned := h.inv.prelude_aligned
  refine ⟨?_, fun sound => dspUpdate_dsp host sound s⟩
  exact
    { aligned := by unfold echoBase; omega
      inside := (slot_index haligned 3).1
      ram := by
        intro a ha
        rw [dspNext_spcRam]
        split
        · rfl
        · rw [echoWrite_off haligned, prelude_spcRam]
          intro k
          rw [← (slot_index haligned k).2]
          exact ha k
      protectedRam := by
        intro hflg
        rw [dspNext_spcRam, if_pos (prelude_flg_echo hflg)]
      regs := fun i h4 h7 hv hreset => dspNext_reg h4 h7 hv hreset
      kon := fun i hi => dspNext_kon hi }

/-- An update that starts a voice and writes an echo sample that is not 0; the
byte behind its slot stays. -/
theorem echoNoteRun_frame :
    (dspNext (fun _ => 0) (echoNoteRun (fun _ => 0) 8)).spcRam 0xFF20 = 0xFD ∧
      (dspNext (fun _ => 0) (echoNoteRun (fun _ => 0) 8)).spcRam 0xFF24 = 1 := by
  have hbase : echoBase (prelude (echoNoteRun (fun _ => 0) 8)) = 0xFF20 := by decide +kernel
  have hbehind : (echoNoteRun (fun _ => 0) 8).spcRam 0xFF24 = 1 := by decide +kernel
  have hptr : (echoNoteRun (fun _ => 0) 8).echoPtr = 32 := by decide +kernel
  have hout : echoOut (fun _ => 0) (echoNoteRun (fun _ => 0) 8) = (253, 253) := by decide +kernel
  have hesa : (echoNoteRun (fun _ => 0) 8).dspRegs 0x6D = 0xFF :=
    drivenRun_reg (f := fun _ => 0xFF) (fun _ _ => rfl) 8
  refine ⟨?_, ?_⟩
  · have hslot := echoWrite_at (s := echoNoteRun (fun _ => 0) 8) (l := 253) (r := 253)
      (by rw [hptr]; decide) 0
    rw [hesa, hptr] at hslot
    rw [(echoNoteRun_isEchoRun _).ram 8, echoNoteRun_flg, hout]
    exact hslot
  · rw [← hbehind]
    refine (update_frame (fun _ => 0) (echoNoteRun_reachable _ 8)).1.ram _ fun k => ?_
    rw [hbase]
    revert k
    decide

end OpenSpc
