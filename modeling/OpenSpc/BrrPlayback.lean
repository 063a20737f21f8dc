import OpenSpc.EndxBit
import OpenSpc.VoiceStream

/-!
# Playing a sample at any pitch

From the update that starts a voice on, as long as it stays keyed on and nobody
writes to its sample, the resampler pulls samples of the stream in order,
whatever its pitches are: how many it has pulled, where between two samples it
stands, and which four it interpolates are functions of the pitches alone.
-/

namespace OpenSpc

open ByteMask (bit)

/-- The decode loop of voice `v` in the update from `s`, if the voice gets that
far. -/
def updateDecode (host : Nat → Byte) (s : Dsp) (v : Fin 8) : Option Decode :=
  ((voiceCell v (prelude s)).playing (voiceInput host v (prelude s))).map
    (VoiceCell.decode v (voiceInput host v (prelude s)) (prevOut host s v))

/-! ## One update -/

section Update

variable {host : Nat → Byte} {s : Dsp} {v : Fin 8}

/-- A start is logged by the pass that finds the countdown at 1. -/
theorem mem_dspLog_keyOn_starts :
    .keyOn v ∈ dspLog host s ↔ (voiceCell v (prelude s)).starts = true := by
  rw [mem_dspLog_voice rfl]
  unfold cellPass
  rw [VoiceCell.mem_pass_log_key _ _ _ _ (by simp) (by simp), VoiceCell.mem_keyEvents]
  simp

/-- The same seen from the state: what an update does to the voice it leaves
keyed on. -/
theorem update_at {S : BrrStream} {k : Nat} {mix : Int}
    (hb : S.Backs ⟨host, s.spcRam⟩ (dirEntry s v))
    (h : S.At k ((voiceCell v (prelude s)).keyRules (voiceInput host v (prelude s))).vp)
    (hmix : ((voiceCell v (prelude s)).keyRules (voiceInput host v (prelude s))).vp.mixfrac = mix)
    (hkey : bit (dspNext host s).keys v = true)
    (hx : 0 ≤ ((dspNext host s).voiceState v).envx) :
    ∃ d, updateDecode host s v = some d ∧ S.At (k + samplesDue mix) d.vp ∧
      d.vp.mixfrac = mix - 4096 * samplesDue mix ∧
      (dspNext host s).voiceState v =
        { d.vp with mixfrac := d.vp.mixfrac + updatePitch host s v } := by
  have hin : S.Backs (voiceInput host v (prelude s)).mem (voiceInput host v (prelude s)).entry := by
    rw [prelude_input]
    exact hb
  rw [dspNext_keyBit] at hkey
  rw [dspNext_voiceState] at hx
  obtain ⟨vp, hplaying, hat, hafter, hvp⟩ := VoiceCell.pass_at hin h hkey hx
  rw [hmix] at hat hafter
  refine ⟨VoiceCell.decode v (voiceInput host v (prelude s)) (prevOut host s v) vp, ?_, hat,
    hafter, ?_⟩
  · unfold updateDecode
    rw [hplaying]
    rfl
  · rw [dspNext_voiceState]
    exact hvp

/-- A voice that is left keyed on, at a level from zero on, has been through its
decode loop. -/
theorem dspNext_keyed (hkey : bit (dspNext host s).keys v = true)
    (hx : 0 ≤ ((dspNext host s).voiceState v).envx) :
    ∃ d, updateDecode host s v = some d ∧
      (dspNext host s).voiceState v =
        { d.vp with mixfrac := d.vp.mixfrac + updatePitch host s v } := by
  rw [dspNext_keyBit] at hkey
  rw [dspNext_voiceState] at hx
  obtain ⟨w, hplaying, -, hvp⟩ := VoiceCell.pass_keyed hkey hx
  refine ⟨VoiceCell.decode v (voiceInput host v (prelude s)) (prevOut host s v) w, ?_, ?_⟩
  · unfold updateDecode
    rw [hplaying]
    rfl
  · rw [dspNext_voiceState]
    exact hvp

/-- The prelude touches at most the countdown of a voice. -/
theorem prelude_vp (s : Dsp) (v : Fin 8) :
    ∃ n, (voiceCell v (prelude s)).vp = { s.voiceState v with onCnt := n } := by
  rw [prelude_cell]
  split
  · exact ⟨0, rfl⟩
  · exact ⟨(s.voiceState v).onCnt, rfl⟩

/-- A voice that is not started goes into its pass where it was. -/
theorem keyRules_at {S : BrrStream} {k : Nat} (h : S.At k (s.voiceState v))
    (hno : .keyOn v ∉ dspLog host s) :
    S.At k ((voiceCell v (prelude s)).keyRules (voiceInput host v (prelude s))).vp ∧
      ((voiceCell v (prelude s)).keyRules (voiceInput host v (prelude s))).vp.mixfrac =
        (s.voiceState v).mixfrac := by
  obtain ⟨n, hvp⟩ := prelude_vp s v
  rw [VoiceCell.keyRules_vp, if_neg (fun hs => hno (mem_dspLog_keyOn_starts.mpr hs)), hvp]
  exact ⟨h.control _ _ _ _ _ _, rfl⟩

end Update

/-! ## Counting samples -/

/-- Where the resampler stands before update `n`, in units of 1/4096 sample
from the first sample of the stream: three samples ahead, and the pitches so
far. -/
def resampled (p : Nat → Int) (n : Nat) : Int := 3 * 4096 + ∑ i ∈ Finset.range n, p i

/-- Samples pulled from the stream by the end of the decode loop of update
`n`. -/
def samplesPulled (p : Nat → Int) (n : Nat) : Nat := (resampled p n / 4096 + 1).toNat

section Counting

variable {p : Nat → Int}

/-- One pitch more. -/
theorem resampled_succ (p : Nat → Int) (n : Nat) :
    resampled p (n + 1) = resampled p n + p n := by
  unfold resampled
  rw [Finset.sum_range_succ, add_assoc]

/-- The position does not fall behind its start. -/
theorem resampled_ge (hp : ∀ i, 0 ≤ p i) (n : Nat) : 3 * 4096 ≤ resampled p n := by
  have hsum : 0 ≤ ∑ i ∈ Finset.range n, p i := Finset.sum_nonneg fun i _ => hp i
  unfold resampled
  omega

/-- The four samples of the interpolation have been pulled. -/
theorem four_le_samplesPulled (hp : ∀ i, 0 ≤ p i) (n : Nat) : 4 ≤ samplesPulled p n := by
  have hge := resampled_ge hp n
  unfold samplesPulled
  omega

/-- What is due in update `n + 1` is what the count grows by. -/
theorem samplesPulled_succ (hp : ∀ i, 0 ≤ p i) (n : Nat) :
    samplesPulled p n + samplesDue (resampled p (n + 1) - 4096 * samplesPulled p n) =
      samplesPulled p (n + 1) := by
  have hge := resampled_ge hp n
  have hpn := hp n
  unfold samplesPulled samplesDue
  rw [resampled_succ]
  omega

end Counting

/-! ## A note -/

/-- The stream of the sample voice `v` refers to in `s`. -/
def noteStream (host : Nat → Byte) (v : Fin 8) {s : Dsp} (h : Reachable s) : BrrStream :=
  voiceStream (voiceInput host v s) (s.voiceState v) (h.inv.voice v).toDecoderInv

/-- A started voice goes into its pass at the beginning of the stream, three
samples behind. -/
theorem start_at {host : Nat → Byte} {v : Fin 8} {s : Dsp} (h : Reachable s)
    (hstart : .keyOn v ∈ dspLog host s) :
    (noteStream host v h).At 0
        ((voiceCell v (prelude s)).keyRules (voiceInput host v (prelude s))).vp ∧
      ((voiceCell v (prelude s)).keyRules (voiceInput host v (prelude s))).vp.mixfrac =
        3 * 4096 := by
  obtain ⟨n, hvp⟩ := prelude_vp s v
  have hstarts := mem_dspLog_keyOn_starts.mp hstart
  have hinv : DecoderInv (voiceCell v (prelude s)).vp := by
    rw [hvp]
    exact (h.inv.voice v).toDecoderInv.setOnCnt n
  have hstream : noteStream host v h =
      voiceStream (voiceInput host v (prelude s)) (voiceCell v (prelude s)).vp hinv := by
    simp only [prelude_input, hvp]
    rfl
  rw [hstream]
  exact VoiceCell.keyRules_start_at hinv hstarts

/-- Update 0 of the run starts voice `v`, which then stays keyed on, and is not
started again, up to update `n`; meanwhile DIR, SRCN, the directory entry and
the sample are left alone. -/
structure PlaysNote (host : Nat → Byte) (v : Fin 8) (n : Nat) (s : Nat → Dsp) : Prop where
  run : IsDspRun host s
  reachable : Reachable (s 0)
  start : .keyOn v ∈ dspLog host (s 0)
  once : ∀ t, 0 < t → t ≤ n → .keyOn v ∉ dspLog host (s t)
  keyed : ∀ t, t ≤ n → bit (dspNext host (s t)).keys v = true
  dir : ∀ t, t ≤ n → (s t).dspRegs 0x5D = (s 0).dspRegs 0x5D
  srcn : ∀ t, t ≤ n → (s t).dspRegs (16 * v + 4) = (s 0).dspRegs (16 * v + 4)
  inRam : dirEntry (s 0) v + 3 < 0x10000
  entry : ∀ t, t ≤ n → ∀ i, i < 4 → (s t).spcRam (BitVec.ofNat 16 (dirEntry (s 0) v + i)) =
    (s 0).spcRam (BitVec.ofNat 16 (dirEntry (s 0) v + i))
  sample : ∀ t, t ≤ n → ∀ x, (noteStream host v reachable).Uses x →
    (s t).spcRam x = (s 0).spcRam x

namespace PlaysNote

variable {host : Nat → Byte} {v : Fin 8} {n : Nat} {s : Nat → Dsp}

/-- A note that is played up to an update is played up to every earlier one. -/
theorem mono (h : PlaysNote host v n s) {m : Nat} (hm : m ≤ n) : PlaysNote host v m s where
  run := h.run
  reachable := h.reachable
  start := h.start
  once := fun t h0 ht => h.once t h0 (ht.trans hm)
  keyed := fun t ht => h.keyed t (ht.trans hm)
  dir := fun t ht => h.dir t (ht.trans hm)
  srcn := fun t ht => h.srcn t (ht.trans hm)
  inRam := h.inRam
  entry := fun t ht => h.entry t (ht.trans hm)
  sample := fun t ht => h.sample t (ht.trans hm)

/-- The memory of every update holds the sample. -/
theorem backs (h : PlaysNote host v n s) {t : Nat} (ht : t ≤ n) :
    (noteStream host v h.reachable).Backs ⟨host, (s t).spcRam⟩ (dirEntry (s t) v) where
  ram := h.sample t ht
  lptr := by
    have hentry : dirEntry (s t) v = dirEntry (s 0) v := by
      unfold dirEntry
      rw [h.dir t ht, h.srcn t ht]
    have hin := h.inRam
    have hbyte (i : Nat) (hi : i < 4) : ramAt host (s t).spcRam (dirEntry (s 0) v + i) =
        ramAt host (s 0).spcRam (dirEntry (s 0) v + i) := by
      unfold ramAt
      rw [if_pos (by omega), if_pos (by omega)]
      exact h.entry t ht i hi
    rw [hentry]
    exact congrArg₂ (· ++ ·) (hbyte 3 (by decide)) (hbyte 2 (by decide))

/-- The effective pitches of the note. -/
theorem pitch_nonneg (h : PlaysNote host v n s) (t : Nat) : 0 ≤ updatePitch host (s t) v :=
  ((IsDspRun.reachable h.run h.reachable t).inv.updatePitch_bounds v).1

/-- By induction on the updates of the note: each one takes up the stream where
the one before left it. -/
theorem follows (h : PlaysNote host v n s) :
    ∃ d, updateDecode host (s n) v = some d ∧
      (noteStream host v h.reachable).At
        (samplesPulled (fun t => updatePitch host (s t) v) n) d.vp ∧
      d.vp.mixfrac = resampled (fun t => updatePitch host (s t) v) n
        - 4096 * samplesPulled (fun t => updatePitch host (s t) v) n ∧
      (dspNext host (s n)).voiceState v =
        { d.vp with mixfrac := d.vp.mixfrac + updatePitch host (s n) v } := by
  have hlevel (t : Nat) : 0 ≤ ((dspNext host (s t)).voiceState v).envx :=
    ((IsDspRun.reachable h.run h.reachable t).update host |>.inv.voice v).envx_nonneg
  induction n with
  | zero =>
      obtain ⟨hat, hmix⟩ := start_at h.reachable h.start
      exact update_at (h.backs le_rfl) hat hmix (h.keyed 0 le_rfl) (hlevel 0)
  | succ n ih =>
      obtain ⟨d, -, hat, hmix, hvp⟩ := ih (h.mono n.le_succ)
      have hcount := samplesPulled_succ h.pitch_nonneg n
      have hstate : (s (n + 1)).voiceState v =
          { d.vp with mixfrac := d.vp.mixfrac + updatePitch host (s n) v } := by
        rw [(h.run n).voiceState]
        exact hvp
      have hplace : (noteStream host v h.reachable).At
          (samplesPulled (fun t => updatePitch host (s t) v) n) ((s (n + 1)).voiceState v) := by
        rw [hstate]
        exact hat.control _ _ _ _ _ _
      obtain ⟨hrules, hmix'⟩ := keyRules_at hplace (h.once (n + 1) n.succ_pos le_rfl)
      have hentry : ((s (n + 1)).voiceState v).mixfrac =
          resampled (fun t => updatePitch host (s t) v) (n + 1)
            - 4096 * samplesPulled (fun t => updatePitch host (s t) v) n := by
        rw [hstate, resampled_succ, ← sub_add_eq_add_sub, ← hmix]
      obtain ⟨d', hd', hat', hafter, hvp'⟩ :=
        update_at (h.backs le_rfl) hrules (hmix'.trans hentry) (h.keyed (n + 1) le_rfl)
          (hlevel (n + 1))
      rw [hcount] at hat'
      refine ⟨d', hd', hat', ?_, hvp'⟩
      rw [hafter, ← hcount]
      push_cast
      ring

end PlaysNote

/-- **On-the-fly decoding is block decoding.**  For every run of pitches, the
decode loop of update `n` of a note has taken exactly `samplesPulled` samples
of the stream, `mixfrac` is what the pitches have left of the last one, and the
ring shows the last four samples in order. -/
theorem decode_follows_stream {host : Nat → Byte} {v : Fin 8} {n : Nat} {s : Nat → Dsp}
    (h : PlaysNote host v n s) :
    let p := fun t => updatePitch host (s t) v
    let stream := noteStream host v h.reachable
    ∃ d, updateDecode host (s n) v = some d ∧
      stream.At (samplesPulled p n) d.vp ∧
      d.vp.mixfrac = 3 * 4096 + ∑ i ∈ Finset.range n, p i - 4096 * samplesPulled p n ∧
      (∀ j : Fin 4, d.vp.sampbuf (d.vp.sampptr + j) = stream.sample (samplesPulled p n - 4 + j)) ∧
      (dspNext host (s n)).voiceState v = { d.vp with mixfrac := d.vp.mixfrac + p n } := by
  intro p stream
  obtain ⟨d, hd, hat, hmix, hvp⟩ := h.follows
  exact ⟨d, hd, hat, hmix, hat.ring.read (four_le_samplesPulled h.pitch_nonneg n), hvp⟩

/-- What the traffic of this run sets, whatever happened before. -/
theorem overlapRun_sets (host : Nat → Byte) (t : Nat) :
    (overlapRun host t).spcRam = (fun _ => 1) ∧ (overlapRun host t).dspRegs 0x5D = 0 ∧
      (overlapRun host t).dspRegs (16 * (0 : Fin 8) + 4) = 0 := by
  cases t <;> exact ⟨rfl, rfl, rfl⟩

/-- The first three updates of the first note of `overlapRun`. -/
theorem overlapRun_playsNote :
    PlaysNote (fun _ => 0) 0 2 fun t => overlapRun (fun _ => 0) (8 + t) where
  run := fun t => (overlapRun_isKeyRun _).run (8 + t)
  reachable := by
    have hbus (t : Nat) (s : Dsp) : BusWrite s (overlapWrite t s) := rfl
    exact drivenRun_reachable hbus 8
  start := by
    have hcnt : (overlapCell (fun _ => 0) 8).vp.onCnt = 1 := by decide +kernel
    rw [← overlapRun_cell] at hcnt
    exact (mem_dspLog_keyOn_cell ((overlapRun_isKeyRun _).noReset 8)).mpr hcnt
  once := by
    intro t h0 h2 hon
    have hcnt : ∀ u : Fin 2, (overlapCell (fun _ => 0) (9 + u)).vp.onCnt ≠ 1 := by decide +kernel
    rw [mem_dspLog_keyOn_cell ((overlapRun_isKeyRun _).noReset (8 + t))] at hon
    apply hcnt ⟨t - 1, by omega⟩
    have ht : 9 + (t - 1) = 8 + t := by omega
    rw [← overlapRun_cell, ht]
    exact hon
  keyed := by
    intro t h2
    have hkey : ∀ u : Fin 3, (overlapCell (fun _ => 0) (9 + u)).key = true := by decide +kernel
    have hcell := hkey ⟨t, by omega⟩
    have ht : 9 + t = 8 + t + 1 := by omega
    rw [ht, ← overlapRun_cell] at hcell
    rw [← ((overlapRun_isKeyRun _).run (8 + t)).keys]
    exact hcell
  dir := by
    intro t _
    rw [(overlapRun_sets _ _).2.1, (overlapRun_sets _ _).2.1]
  srcn := by
    intro t _
    rw [(overlapRun_sets _ _).2.2, (overlapRun_sets _ _).2.2]
  inRam := by
    unfold dirEntry
    rw [(overlapRun_sets _ _).2.1, (overlapRun_sets _ _).2.2]
    decide
  entry := by
    intro t _ i _
    rw [(overlapRun_sets _ _).1, (overlapRun_sets _ _).1]
  sample := by
    intro t _ x _
    rw [(overlapRun_sets _ _).1, (overlapRun_sets _ _).1]

/-- The third update of that note. -/
theorem overlapRun_follows_stream :
    let p := fun t => updatePitch (fun _ => 0) (overlapRun (fun _ => 0) (8 + t)) 0
    let stream := noteStream (fun _ => 0) 0 overlapRun_playsNote.reachable
    ∃ d, updateDecode (fun _ => 0) (overlapRun (fun _ => 0) (8 + 2)) 0 = some d ∧
      stream.At (samplesPulled p 2) d.vp ∧
      d.vp.mixfrac = 3 * 4096 + ∑ i ∈ Finset.range 2, p i - 4096 * samplesPulled p 2 ∧
      (∀ j : Fin 4, d.vp.sampbuf (d.vp.sampptr + j) = stream.sample (samplesPulled p 2 - 4 + j)) ∧
      (dspNext (fun _ => 0) (overlapRun (fun _ => 0) (8 + 2))).voiceState 0 =
        { d.vp with mixfrac := d.vp.mixfrac + p 2 } :=
  decode_follows_stream overlapRun_playsNote

end OpenSpc
