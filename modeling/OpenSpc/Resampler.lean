import OpenSpc.BrrPlayback

/-!
# The resampler stays on its tables

The pointers `G1` to `G4` start inside one table, two of them at its ends, and
are indexed with offsets of either sign.  All four indices are inside the table
because the decode loop leaves `mixfrac` in the half-open interval from -4096 to
0, whichever way it ends; and it ends within eight samples because a pitch,
modulated or not, is less than eight samples long.
-/

namespace OpenSpc

open ByteMask (bit)
open Narrow (Fits)

/-! ## Where the loop ends -/

section Loop

variable (m : Mem) (entry : Nat) (v : Fin 8)

/-- **The bound of the loop is no cut-off.**  Passes beyond the samples due
change nothing. -/
theorem decodeLoop_more (n : Nat) {d : Decode} (hd : d.ended = false)
    (hn : samplesDue d.vp.mixfrac ≤ n) :
    decodeLoop m entry v n d = decodeLoop m entry v (samplesDue d.vp.mixfrac) d := by
  induction n generalizing d with
  | zero =>
      have hzero : samplesDue d.vp.mixfrac = 0 := by omega
      rw [hzero]
  | succ n ih =>
      by_cases hmix : d.vp.mixfrac ≥ 0
      · have hsucc := samplesDue_succ hmix
        rw [hsucc]
        simp only [decodeLoop]
        rw [if_pos hmix, if_pos hmix]
        cases he : (enterBlock m entry v d).ended
        · have hkeep := enterBlock_mixfrac m entry v he
          have hpass := decodePass_mixfrac m.ram (enterBlock m entry v d)
          rw [hkeep] at hpass
          have hnext := ih (d := decodePass m.ram (enterBlock m entry v d)) he (by rw [hpass]; omega)
          rw [hpass] at hnext
          exact hnext
        · rfl
      · rw [samplesDue_of_neg (by omega)]
        simp only [decodeLoop]
        rw [if_neg hmix]

end Loop

/-! ## The Gaussian table -/

/-- The table index of one of the four products of the interpolation. -/
def gaussIndex (vp : VoiceState) (k : Fin 4) : Int :=
  match k with
  | 0 => -1 + -(vp.mixfrac / 2 ^ 4)
  | 1 => 255 + -(vp.mixfrac / 2 ^ 4)
  | 2 => 512 + vp.mixfrac / 2 ^ 4
  | 3 => 256 + vp.mixfrac / 2 ^ 4

/-- Every product of the interpolation reads the table there. -/
theorem gaussTap_index (vp : VoiceState) (k : Fin 4) :
    gaussTap vp k = gaussAt (gaussIndex vp k) * vp.sampbuf (vp.sampptr + k) := by
  fin_cases k <;> rfl

theorem gaussTable_length : gaussTable.length = 512 := by decide +kernel

/-- **The four indices are inside the table.** -/
theorem gaussIndex_bounds {vp : VoiceState} (h : -4096 ≤ vp.mixfrac ∧ vp.mixfrac ≤ -1)
    (k : Fin 4) : 0 ≤ gaussIndex vp k ∧ gaussIndex vp k < gaussTable.length := by
  rw [gaussTable_length]
  unfold gaussIndex
  fin_cases k <;> dsimp only <;> omega

/-! ## The output of a voice -/

theorem shiftEven_even (x : Int) : 2 ∣ shiftEven x := by
  unfold shiftEven
  exact dvd_mul_left _ _

/-- Every voice hands on an even output. -/
theorem prevOut_even (host : Nat → Byte) (s : Dsp) (v : Fin 8) : 2 ∣ prevOut host s (v + 1) := by
  rw [prevOut_succ]
  unfold cellPass
  rcases VoiceCell.pass_cases v (voiceInput host v (prelude s)) (prevOut host s v)
      (voiceCell v (prelude s)) with
    ⟨-, hpass⟩ | ⟨-, -, hpass⟩ | ⟨vp, b, -, -, -, hpass⟩ | ⟨vp, b, -, -, -, hpass⟩
  · rw [hpass]
    exact dvd_zero 2
  · rw [hpass]
    exact dvd_zero 2
  · rw [hpass]
    exact dvd_zero 2
  · rw [hpass]
    exact shiftEven_even _

/-! ## The invariant -/

/-- The decoder's counters stay where the code indexes with them. -/
structure CountersInRange (vp : VoiceState) : Prop where
  sampptr : (vp.sampptr : Nat) ≤ 3
  headerCnt : vp.headerCnt ≤ 8
  half : vp.half ≤ 1
  half_one : vp.half = 1 → 0 < vp.headerCnt

theorem DecoderInv.counters {vp : VoiceState} (h : DecoderInv vp) : CountersInRange vp where
  sampptr := by omega
  headerCnt := h.headerCnt_le
  half := h.half_le
  half_one := by
    intro hhalf
    by_contra hcnt
    have hzero := h.half_zero (by omega)
    omega

/-- The decode loop entered with `vp` is over after at most eight samples, with
the result `d`, and leaves the resampler on its tables: each of the four
products that follow takes its factor from inside the table. -/
structure ResamplerSafe (m : Mem) (entry : Nat) (v : Fin 8) (vp : VoiceState) (d : Decode) :
    Prop where
  few : samplesDue vp.mixfrac ≤ 8
  stops : ∀ n, 8 ≤ n →
    decodeLoop m entry v n { vp := vp, endx := false, ended := false, log := [] } = d
  spent : d.vp.mixfrac = vp.mixfrac - 4096 * samplesDue vp.mixfrac
  position : -4096 ≤ d.vp.mixfrac ∧ d.vp.mixfrac ≤ -1
  taps : ∀ k, (0 ≤ gaussIndex d.vp k ∧ gaussIndex d.vp k < gaussTable.length) ∧
    gaussTap d.vp k = gaussAt (gaussIndex d.vp k) * d.vp.sampbuf (d.vp.sampptr + k)
  counters : CountersInRange d.vp

/-- Entered within eight samples, the loop is safe. -/
theorem VoiceInv.resamplerSafe {vp : VoiceState} (h : VoiceInv vp) (m : Mem) (entry : Nat)
    (v : Fin 8) (p : Int) :
    ResamplerSafe m entry v { vp with pitch := p } (brrDecode m entry v { vp with pitch := p }) := by
  have hlow := h.mixfrac_ge
  have hhigh := h.mixfrac_le
  have hfew : samplesDue vp.mixfrac ≤ 8 := by
    unfold samplesDue
    omega
  have hbounds : -4096 ≤ (brrDecode m entry v { vp with pitch := p }).vp.mixfrac ∧
      (brrDecode m entry v { vp with pitch := p }).vp.mixfrac < 0 :=
    brrDecode_mixfrac_bounds m entry v hlow
  have hposition : -4096 ≤ (brrDecode m entry v { vp with pitch := p }).vp.mixfrac ∧
      (brrDecode m entry v { vp with pitch := p }).vp.mixfrac ≤ -1 := by omega
  exact
    { few := hfew
      stops := fun n hn => decodeLoop_more m entry v n rfl (le_trans hfew hn)
      spent := brrDecode_mixfrac m entry v _
      position := hposition
      taps := fun k => ⟨gaussIndex_bounds hposition k, gaussTap_index _ k⟩
      counters := ((h.toDecoderInv.setPitch p).brrDecode m entry v).counters }

/-- **The resampler's position invariant.**  In an update from a reachable state,
whatever the voice before it puts out, a voice that reaches its decode loop is
left on the tables, at an effective pitch below eight samples, and its output
is an even 16-bit value. -/
theorem resampler_position {host : Nat → Byte} {s : Dsp} (h : Reachable s) {v : Fin 8}
    {d : Decode} (hd : updateDecode host s v = some d) :
    CountersInRange (s.voiceState v) ∧
    (∃ vp, (voiceCell v (prelude s)).playing (voiceInput host v (prelude s)) = some vp ∧
      ResamplerSafe ⟨host, s.spcRam⟩ (dirEntry s v) v
        { vp with pitch := updatePitch host s v } d) ∧
    (0 ≤ updatePitch host s v ∧ updatePitch host s v ≤ 0x7FFF) ∧
    (2 ∣ prevOut host s (v + 1) ∧ Fits 15 (prevOut host s (v + 1))) := by
  have hinv := h.inv
  unfold updateDecode at hd
  obtain ⟨vp, hplaying, rfl⟩ := Option.map_eq_some_iff.mp hd
  obtain ⟨b, -, hadv, -⟩ := VoiceCell.playing_eq_some.mp hplaying
  have hvp : VoiceInv vp := ((hinv.prelude_voice v).keyRules).advanceEnvelope hadv
  have hmem : (voiceInput host v (prelude s)).mem = ⟨host, s.spcRam⟩ ∧
      (voiceInput host v (prelude s)).entry = dirEntry s v := by
    rw [prelude_input]
    exact ⟨rfl, rfl⟩
  refine ⟨(hinv.voice v).toDecoderInv.counters, ⟨vp, hplaying, ?_⟩, hinv.updatePitch_bounds v,
    prevOut_even host s v, hinv.prevOut_fits (v + 1) (by omega)⟩
  rw [← hmem.1, ← hmem.2]
  exact hvp.resamplerSafe _ _ v _

/-- The second update of the note in `overlapRun`. -/
theorem overlapRun_resampler :
    ∃ d, updateDecode (fun _ => 0) (overlapRun (fun _ => 0) 9) 0 = some d ∧
      -4096 ≤ d.vp.mixfrac ∧ d.vp.mixfrac ≤ -1 := by
  obtain ⟨d, hd, -⟩ := (overlapRun_playsNote.mono (m := 1) (by decide)).follows
  obtain ⟨-, ⟨vp, -, hsafe⟩, -⟩ :=
    resampler_position (overlapRun_playsNote.run.reachable overlapRun_playsNote.reachable 1) hd
  exact ⟨d, hd, hsafe.position⟩

end OpenSpc
