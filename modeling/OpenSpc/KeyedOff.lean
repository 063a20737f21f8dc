import OpenSpc.EnvelopeStages

/-!
# A keyed-off voice dies on schedule

A key-off puts the voice in `RELEASE`, which no register write undoes: only a
new start leads out of it.  From there every update takes 8 off the envelope,
and the update that would bring it to zero or below silences the voice.
`keyed_off_schedule` gives the level after each update and the exact update of
the death; the sample's own end and a reset are the only things that come
earlier.
-/

namespace OpenSpc

open ByteMask (bit)

section Update

variable {host : Nat → Byte} {s : Dsp} {v : Fin 8}

/-- A sounding voice makes its call, unless the update resets. -/
theorem envelopeEntry_of_key (host : Nat → Byte) (hkey : bit s.keys v = true)
    (hflg : bit (s.dspRegs 0x6C) 7 = false) :
    ∃ vp, envelopeEntry host s v = some vp := by
  have hpre := (prelude_quiet host v hflg).2.1
  unfold envelopeEntry
  dsimp only
  rw [VoiceCell.keyRules_key, hpre, hkey, Bool.true_or, if_pos rfl]
  exact ⟨_, rfl⟩

/-- A voice that sounds after an update made its call in it. -/
theorem envelopeEntry_of_alive (halive : bit (dspNext host s).keys v = true) :
    ∃ vp, envelopeEntry host s v = some vp := by
  obtain ⟨vp, w, b, hvp, -⟩ := dspNext_alive halive
  exact ⟨vp, hvp⟩

/-- The call of a voice in `RELEASE`. -/
theorem envelopeCall_release {vp : VoiceState} (hst : vp.envstate = .release) :
    (vp.envx ≤ 8 ∧ envelopeCall s v vp = none) ∨
      8 < vp.envx ∧ ∃ b, envelopeCall s v vp = some ({ vp with envx := vp.envx - 8 }, b) := by
  unfold envelopeCall
  rcases advanceEnvelope_cases (s.dspRegs (16 * v + 5)) (s.dspRegs (16 * v + 6))
      (s.dspRegs (16 * v + 7)) vp with
    ⟨-, hlow, hcall⟩ | ⟨-, hhigh, hcall⟩ | ⟨hrel, -, -⟩ | ⟨hrel, -, -⟩
  · exact Or.inl ⟨hlow, hcall⟩
  · exact Or.inr ⟨hhigh, _, hcall⟩
  · exact absurd hst hrel
  · exact absurd hst hrel

/-- The update resets the DSP, or the sample of voice `v` ends in it. -/
def CutShort (host : Nat → Byte) (s : Dsp) (v : Fin 8) : Prop :=
  bit (s.dspRegs 0x6C) 7 = true ∨ ∃ d, updateDecode host s v = some d ∧ d.ended = true

/-- **One update of a voice in `RELEASE`.**  If it survives it has lost 8, and
it survives if it can afford that and its sample goes on. -/
theorem released_step {vp : VoiceState} (hvp : envelopeEntry host s v = some vp)
    (hst : vp.envstate = .release) :
    (bit (dspNext host s).keys v = true →
      8 < vp.envx ∧ ((dspNext host s).voiceState v).envstate = .release ∧
        ((dspNext host s).voiceState v).envx = vp.envx - 8) ∧
    (8 < vp.envx → bit (dspNext host s).keys v = true ∨ CutShort host s v) := by
  rcases dspNext_envelope host s v with
    ⟨hnone, -⟩ | ⟨vp', hvp', hcall, hdead, -, -⟩ | ⟨vp', w, b, hvp', hcall, hneg, -⟩ |
      ⟨vp', w, b, d, hvp', hcall, hd, -, hkey, -, hx, -, hstage⟩
  · rw [hvp] at hnone
    cases hnone
  · rw [hvp] at hvp'
    cases hvp'
    rw [hdead]
    refine ⟨fun h => absurd h (by decide), fun hhigh => ?_⟩
    rcases envelopeCall_release (s := s) (v := v) hst with ⟨hlow, -⟩ | ⟨-, b, hsome⟩
    · omega
    · rw [hsome] at hcall
      cases hcall
  · rw [hvp] at hvp'
    cases hvp'
    rcases envelopeCall_release (s := s) (v := v) hst with ⟨-, hnone⟩ | ⟨hhigh, b', hsome⟩
    · rw [hnone] at hcall
      cases hcall
    · rw [hsome] at hcall
      cases hcall
      dsimp only at hneg
      omega
  · rw [hvp] at hvp'
    cases hvp'
    rcases envelopeCall_release (s := s) (v := v) hst with ⟨-, hnone⟩ | ⟨hhigh, b', hsome⟩
    · rw [hnone] at hcall
      cases hcall
    · rw [hsome] at hcall
      cases hcall
      rw [hkey, hx, hstage]
      cases hended : d.ended
      · exact ⟨fun _ => ⟨hhigh, hst, rfl⟩, fun _ => Or.inl rfl⟩
      · exact ⟨fun h => absurd h (by decide), fun _ => Or.inr (Or.inr ⟨d, hd, hended⟩)⟩

/-- A voice in `RELEASE` that is not started goes into its call as it was. -/
theorem released_entry {vp : VoiceState} (hst : (s.voiceState v).envstate = .release)
    (hno : .keyOn v ∉ dspLog host s) (hvp : envelopeEntry host s v = some vp) :
    vp.envstate = .release ∧ vp.envx = (s.voiceState v).envx := by
  obtain ⟨-, -, hx, -, hstage⟩ := envelopeEntry_some hvp
  rw [if_neg hno] at hx hstage
  refine ⟨?_, hx⟩
  rw [hstage]
  split
  · rfl
  · exact hst

/-- A silent voice that is not started stays silent. -/
theorem dspNext_silent (hkey : bit s.keys v = false) (hno : .keyOn v ∉ dspLog host s) :
    bit (dspNext host s).keys v = false := by
  rcases dspNext_envelope host s v with
    ⟨-, hdead, -⟩ | ⟨vp, -, -, hdead, -⟩ | ⟨vp, w, b, hvp, -⟩ | ⟨vp, w, b, d, hvp, -⟩
  · exact hdead
  · exact hdead
  all_goals
    obtain ⟨-, hor, -⟩ := envelopeEntry_some hvp
    rcases hor with h | h
    · rw [hkey] at h
      cases h
    · exact absurd h hno

end Update

/-- The number of updates a voice released at level `e` lives through, the one
that silences it included. -/
def releaseLength (e : Int) : Nat := max 1 ((e + 7) / 8).toNat

/-- No release takes more than 256 updates. -/
theorem releaseLength_le {e : Int} (h : e ≤ 0x7FF) : releaseLength e ≤ 256 := by
  unfold releaseLength
  omega

section Runs

variable {host : Nat → Byte} {s : Nat → Dsp} {v : Fin 8} {t : Nat}

/-- The update that observes the key-off finds the voice in `RELEASE`, at its
old level unless it starts it as well. -/
theorem keyedOff_entry (hoff : .keyOff v ∈ dspLog host (s t)) {vp : VoiceState}
    (hvp : envelopeEntry host (s t) v = some vp) :
    vp.envstate = .release ∧
      vp.envx = if .keyOn v ∈ dspLog host (s t) then 0 else ((s t).voiceState v).envx := by
  obtain ⟨-, -, hx, -, hstage⟩ := envelopeEntry_some hvp
  rw [if_pos hoff] at hstage
  exact ⟨hstage, hx⟩

/-- A voice that sounds after an update, without being started in it, sounded
before it. -/
theorem alive_before (hrun : IsDspRun host s) (hno : .keyOn v ∉ dspLog host (s (t + 1)))
    (halive : bit (dspNext host (s (t + 1))).keys v = true) :
    bit (dspNext host (s t)).keys v = true := by
  by_contra hdead
  have hkey : bit (s (t + 1)).keys v = false := by
    rw [(hrun t).keys]
    simpa using hdead
  rw [dspNext_silent hkey hno] at halive
  cases halive

/-- By induction on the updates since the key-off: a voice that still sounds is
in `RELEASE` and has lost 8 in each of them. -/
theorem keyedOff_level (hrun : IsDspRun host s) (hoff : .keyOff v ∈ dspLog host (s t)) (k : Nat)
    (hno : ∀ u, t < u → u ≤ t + k → .keyOn v ∉ dspLog host (s u))
    (halive : bit (dspNext host (s (t + k))).keys v = true) :
    ((dspNext host (s (t + k))).voiceState v).envstate = .release ∧
      ((dspNext host (s (t + k))).voiceState v).envx = ((s t).voiceState v).envx - 8 * (k + 1) ∧
      0 < ((dspNext host (s (t + k))).voiceState v).envx := by
  obtain ⟨vp, hvp⟩ := envelopeEntry_of_alive halive
  induction k generalizing vp with
  | zero =>
      obtain ⟨hst, hx⟩ := keyedOff_entry hoff hvp
      obtain ⟨hhigh, hstage, hnext⟩ := (released_step hvp hst).1 halive
      refine ⟨hstage, ?_⟩
      rw [hnext]
      split at hx
      · omega
      · push_cast
        omega
  | succ k ih =>
      have hlast := hno (t + (k + 1)) (by omega) le_rfl
      have hbefore := alive_before hrun hlast halive
      obtain ⟨vp', hvp'⟩ := envelopeEntry_of_alive hbefore
      obtain ⟨hst', hx', -⟩ := ih (fun u h1 h2 => hno u h1 (by omega)) hbefore vp' hvp'
      rw [← (hrun (t + k)).voiceState] at hst' hx'
      obtain ⟨hst, hx⟩ := released_entry hst' hlast hvp
      obtain ⟨hhigh, hstage, hnext⟩ := (released_step hvp hst).1 halive
      refine ⟨hstage, ?_⟩
      rw [hnext, hx]
      rw [hx] at hhigh
      push_cast
      omega

/-- By induction on the updates since the key-off: as long as the level lasts
and nothing cuts it short, the voice sounds. -/
theorem keyedOff_survives (hrun : IsDspRun host s) (hkey : bit (s t).keys v = true)
    (hoff : .keyOff v ∈ dspLog host (s t)) (k : Nat)
    (hno : ∀ u, t ≤ u → u ≤ t + k → .keyOn v ∉ dspLog host (s u))
    (hcut : ∀ u, t ≤ u → u ≤ t + k → ¬ CutShort host (s u) v)
    (hlong : 8 * ((k : Int) + 1) < ((s t).voiceState v).envx) :
    bit (dspNext host (s (t + k))).keys v = true := by
  have hflg (u : Nat) (h1 : t ≤ u) (h2 : u ≤ t + k) : bit ((s u).dspRegs 0x6C) 7 = false := by
    by_contra hreset
    exact hcut u h1 h2 (Or.inl (by simpa using hreset))
  induction k with
  | zero =>
      obtain ⟨vp, hvp⟩ := envelopeEntry_of_key host hkey (hflg t le_rfl (by omega))
      obtain ⟨hst, hx⟩ := keyedOff_entry hoff hvp
      rw [if_neg (hno t le_rfl (by omega))] at hx
      have hstep := (released_step hvp hst).2 (by omega)
      exact hstep.resolve_right (hcut t le_rfl (by omega))
  | succ k ih =>
      have halive := ih (fun u h1 h2 => hno u h1 (by omega)) (fun u h1 h2 => hcut u h1 (by omega))
        (by push_cast at hlong; omega) (fun u h1 h2 => hflg u h1 (by omega))
      obtain ⟨hst', hx', -⟩ := keyedOff_level hrun hoff k
        (fun u h1 h2 => hno u (by omega) (by omega)) halive
      rw [← (hrun (t + k)).voiceState] at hst' hx'
      rw [← (hrun (t + k)).keys] at halive
      obtain ⟨vp, hvp⟩ := envelopeEntry_of_key host halive
        (hflg (t + (k + 1)) (by omega) le_rfl)
      have hlast := hno (t + (k + 1)) (by omega) le_rfl
      obtain ⟨hst, hx⟩ := released_entry hst' hlast hvp
      have hstep := (released_step hvp hst).2
        (by rw [hx, hx']; push_cast at hlong; omega)
      exact hstep.resolve_right (hcut (t + (k + 1)) (by omega) le_rfl)

/-- What becomes of voice `v` after its key-off in update `t`.  After the
`k + 1`-st update counted from `t` it has lost `8 * (k + 1)` if it still sounds;
it is silent from update number `releaseLength` on, and before that only if a
reset, the end of its sample, or a start in update `t` itself cut it short; once
silent it stays silent. -/
def DiesOnSchedule (host : Nat → Byte) (s : Nat → Dsp) (v : Fin 8) (t : Nat) : Prop :=
  let e := ((s t).voiceState v).envx
  releaseLength e ≤ 256 ∧
  ∀ k, (∀ u, t < u → u ≤ t + k → .keyOn v ∉ dspLog host (s u)) →
    (bit (dspNext host (s (t + k))).keys v = true →
      ((dspNext host (s (t + k))).voiceState v).envx = e - 8 * (k + 1)) ∧
    (releaseLength e ≤ k + 1 → bit (dspNext host (s (t + k))).keys v = false) ∧
    (k + 1 < releaseLength e → bit (dspNext host (s (t + k))).keys v = false →
      (∃ u, t ≤ u ∧ u ≤ t + k ∧ CutShort host (s u) v) ∨ .keyOn v ∈ dspLog host (s t)) ∧
    ∀ j, j ≤ k → bit (dspNext host (s (t + j))).keys v = false →
      bit (dspNext host (s (t + k))).keys v = false

/-- **A keyed-off voice dies on schedule**, whatever is written to the registers
and to RAM. -/
theorem keyedOff_diesOnSchedule (hrun : IsDspRun host s) (h0 : Reachable (s 0))
    (hkey : bit (s t).keys v = true) (hoff : .keyOff v ∈ dspLog host (s t)) :
    DiesOnSchedule host s v t := by
  have hle := ((hrun.reachable h0 t).inv.voice v).envx_le
  refine ⟨releaseLength_le hle, fun k hno => ⟨fun halive => ?_, fun hdue => ?_, ?_, ?_⟩⟩
  · exact (keyedOff_level hrun hoff k hno halive).2.1
  · by_contra halive
    obtain ⟨-, hx, hpos⟩ := keyedOff_level hrun hoff k hno (by simpa using halive)
    unfold releaseLength at hdue
    omega
  · intro hearly hdead
    by_contra hwhole
    push Not at hwhole
    obtain ⟨hcut, hstart⟩ := hwhole
    have halive := keyedOff_survives hrun hkey hoff k (fun u h1 h2 => ?_) hcut
      (by unfold releaseLength at hearly; omega)
    · rw [hdead] at halive
      cases halive
    · rcases Nat.eq_or_lt_of_le h1 with rfl | h1
      · exact hstart
      · exact hno u h1 h2
  · intro j hj hdead
    by_contra halive
    rw [Bool.not_eq_false] at halive
    obtain ⟨d, rfl⟩ := Nat.exists_eq_add_of_le hj
    induction d with
    | zero =>
        rw [Nat.add_zero, hdead] at halive
        cases halive
    | succ d ih =>
        exact ih (fun u h1 h2 => hno u h1 (by omega)) (by omega)
          (alive_before hrun (hno _ (by omega) (by omega)) halive)

end Runs

/-! ## A released voice -/

/-- The note of `overlapRun`, with a key-off written before update 10. -/
def releasedNote (host : Nat → Byte) : Dsp := (overlapRun host 10).setReg 0x5C 1

/-- This state can be reached. -/
theorem releasedNote_reachable (host : Nat → Byte) : Reachable (releasedNote host) := by
  have hbus (t : Nat) (s : Dsp) : BusWrite s (overlapWrite t s) := rfl
  exact .write (drivenRun_reachable hbus 10) rfl

/-- The run from a state without any further traffic. -/
def quietRun (host : Nat → Byte) (s : Dsp) (t : Nat) : Dsp := (dspNext host)^[t] s

/-- The states follow one another as in a run of the DSP. -/
theorem quietRun_isRun (host : Nat → Byte) (s : Dsp) : IsDspRun host (quietRun host s) := by
  intro t
  unfold quietRun
  rw [Function.iterate_succ_apply']
  rfl

/-- FLG does not reset. -/
theorem releasedNote_flg (host : Nat → Byte) : (releasedNote host).dspRegs 0x6C = 0x20 := by
  unfold releasedNote Dsp.setReg
  dsimp only
  rw [Function.update_of_ne (by decide), overlapRun_flg]

/-- KOF asks for a key-off. -/
theorem releasedNote_kof (host : Nat → Byte) : (releasedNote host).dspRegs 0x5C = 1 := by
  unfold releasedNote Dsp.setReg
  dsimp only
  rw [Function.update_self]

/-- The key-off is observed if the voice sounds. -/
theorem releasedNote_keyOff (host : Nat → Byte)
    (hkey : bit (releasedNote host).keys (0 : Fin 8) = true) :
    .keyOff 0 ∈ dspLog host (releasedNote host) := by
  rw [mem_dspLog_keyOff (by rw [releasedNote_flg]; decide), releasedNote_kof]
  exact ⟨Or.inl hkey, by decide⟩

/-- The voice sounds. -/
theorem releasedNote_key : bit (releasedNote fun _ => 0).keys (0 : Fin 8) = true := by
  have hcell : (overlapCell (fun _ => 0) 10).key = true := by decide +kernel
  have hbit (s : Dsp) (i : Nat) (b : Byte) :
      bit (s.setReg i b).keys (0 : Fin 8) = (voiceCell 0 s).key := rfl
  unfold releasedNote
  rw [hbit, overlapRun_cell]
  exact hcell

/-- The note dies on schedule. -/
theorem releasedNote_diesOnSchedule :
    DiesOnSchedule (fun _ => 0) (quietRun (fun _ => 0) (releasedNote fun _ => 0)) 0 0 :=
  keyedOff_diesOnSchedule (quietRun_isRun _ _) (releasedNote_reachable _) releasedNote_key
    (releasedNote_keyOff _ releasedNote_key)

end OpenSpc
