import OpenSpc.BrrPlayback

/-!
# The envelope state machine

An update calls `AdvanceEnvelope` for a voice exactly when the voice sounds
after the key rules.  `dspNext_envelope` says what an update makes of a voice's
envelope, in terms of that one call; the stages only move forward between two
starts, and the level and the counter stay in their ranges whatever the program
writes in between.
-/

namespace OpenSpc

open ByteMask (bit)

/-! ## The envelope step, branch by branch -/

section Call

variable {adsr1 adsr2 gain : Byte} {vp w : VoiceState} {b : Byte}

/-- **The ways through `AdvanceEnvelope`.** -/
theorem advanceEnvelope_cases (adsr1 adsr2 gain : Byte) (vp : VoiceState) :
    (vp.envstate = .release ∧ vp.envx ≤ 8 ∧ advanceEnvelope adsr1 adsr2 gain vp = none) ∨
    (vp.envstate = .release ∧ 8 < vp.envx ∧
      advanceEnvelope adsr1 adsr2 gain vp =
        some ({ vp with envx := vp.envx - 8 }, BitVec.ofInt 8 ((vp.envx - 8) / 2 ^ 8))) ∨
    (vp.envstate ≠ .release ∧ bit adsr1 7 = true ∧
      advanceEnvelope adsr1 adsr2 gain vp =
        some (adsrStep adsr1 adsr2 vp,
          BitVec.ofInt 8 ((adsrStep adsr1 adsr2 vp).envx / 2 ^ 4))) ∨
    (vp.envstate ≠ .release ∧ bit adsr1 7 = false ∧
      advanceEnvelope adsr1 adsr2 gain vp =
        some (gainStep gain vp, BitVec.ofInt 8 ((gainStep gain vp).envx / 2 ^ 4))) := by
  unfold advanceEnvelope
  by_cases hrel : vp.envstate = .release
  · rw [if_pos hrel]
    by_cases hlow : vp.envx ≤ 8
    · exact Or.inl ⟨hrel, hlow, if_pos (by omega)⟩
    · exact Or.inr (Or.inl ⟨hrel, by omega, if_neg (by omega)⟩)
  · rw [if_neg hrel]
    cases hmode : bit adsr1 7
    · exact Or.inr (Or.inr (Or.inr ⟨hrel, rfl, rfl⟩))
    · exact Or.inr (Or.inr (Or.inl ⟨hrel, rfl, rfl⟩))

/-- The stages in the order of a note. -/
def EnvState.rank : EnvState → Nat
  | .attack => 0
  | .decay => 1
  | .sustain => 2
  | .release => 3

/-- `RELEASE` is the last stage. -/
theorem rank_release (st : EnvState) : st.rank ≤ EnvState.release.rank := by
  cases st <;> decide

/-- An attack goes on, or enters `DECAY` at the top. -/
theorem attackLevel_stage (vp : VoiceState) (x cnt : Int) :
    (attackLevel vp x cnt).envstate = vp.envstate ∨
      (attackLevel vp x cnt).envstate = .decay ∧ (attackLevel vp x cnt).envx = 0x7FF := by
  unfold attackLevel
  split
  · exact Or.inr ⟨rfl, rfl⟩
  · exact Or.inl rfl

/-- The `ATTACK` case of the ADSR half. -/
theorem adsrStep_attack (h : vp.envstate = .attack) :
    adsrStep adsr1 adsr2 vp =
      if adsr1.toNat % 2 ^ 4 = 0xF then attackLevel vp (vp.envx + 0x400) vp.envcnt
      else if vp.envcnt - envCnt (2 * (adsr1.toNat % 2 ^ 4) + 1) > 0 then
        { vp with envcnt := vp.envcnt - envCnt (2 * (adsr1.toNat % 2 ^ 4) + 1) }
      else attackLevel vp (vp.envx + 0x20) cntInit := by
  unfold adsrStep
  split
  · rfl
  all_goals
    rename_i hst
    rw [h] at hst
    cases hst

/-- `ATTACK` is left for `DECAY`, at the top. -/
theorem adsrStep_attack_stage (h : vp.envstate = .attack) :
    (adsrStep adsr1 adsr2 vp).envstate = .attack ∨
      (adsrStep adsr1 adsr2 vp).envstate = .decay ∧ (adsrStep adsr1 adsr2 vp).envx = 0x7FF := by
  rw [adsrStep_attack h, ← h]
  split
  · exact attackLevel_stage _ _ _
  · split
    · exact Or.inl rfl
    · exact attackLevel_stage _ _ _

/-- `DECAY` goes on, or enters `SUSTAIN`. -/
theorem adsrStep_decay_stage (h : vp.envstate = .decay) :
    (adsrStep adsr1 adsr2 vp).envstate = .decay ∨ (adsrStep adsr1 adsr2 vp).envstate = .sustain := by
  unfold adsrStep
  rw [h]
  dsimp only
  split <;> split <;> simp

/-- `SUSTAIN` goes on. -/
theorem adsrStep_sustain_stage (h : vp.envstate = .sustain) :
    (adsrStep adsr1 adsr2 vp).envstate = .sustain := by
  unfold adsrStep
  rw [h]
  dsimp only
  split <;> rfl

/-- GAIN mode does not change the stage. -/
theorem gainStep_stage (gain : Byte) (vp : VoiceState) :
    (gainStep gain vp).envstate = vp.envstate := by
  unfold gainStep
  dsimp only
  split
  · rfl
  · split <;> rfl

/-- **A call moves the stage forward.** -/
theorem advanceEnvelope_rank (h : advanceEnvelope adsr1 adsr2 gain vp = some (w, b)) :
    vp.envstate.rank ≤ w.envstate.rank := by
  rcases advanceEnvelope_cases adsr1 adsr2 gain vp with
    ⟨-, -, hcall⟩ | ⟨-, -, hcall⟩ | ⟨hrel, -, hcall⟩ | ⟨-, -, hcall⟩
  · rw [hcall] at h
    cases h
  · rw [hcall] at h
    cases h
    exact le_rfl
  · rw [hcall] at h
    cases h
    cases hst : vp.envstate
    · exact Nat.zero_le _
    · rcases adsrStep_decay_stage hst with hnew | hnew
      · rw [hnew]
      · rw [hnew]
        decide
    · rw [adsrStep_sustain_stage hst]
    · exact absurd hst hrel
  · rw [hcall] at h
    cases h
    rw [gainStep_stage]

/-- **How `ATTACK` is left in a call.** -/
theorem advanceEnvelope_attack (h : advanceEnvelope adsr1 adsr2 gain vp = some (w, b))
    (hst : vp.envstate = .attack) :
    w.envstate = .attack ∨ w.envstate = .decay ∧ w.envx = 0x7FF := by
  rcases advanceEnvelope_cases adsr1 adsr2 gain vp with
    ⟨hrel, -, -⟩ | ⟨hrel, -, -⟩ | ⟨-, -, hcall⟩ | ⟨-, -, hcall⟩
  · rw [hst] at hrel
    cases hrel
  · rw [hst] at hrel
    cases hrel
  · rw [hcall] at h
    cases h
    exact adsrStep_attack_stage hst
  · rw [hcall] at h
    cases h
    rw [gainStep_stage]
    exact Or.inl hst

/-- A call that comes out in `DECAY` was entered in `DECAY` or `ATTACK`. -/
theorem advanceEnvelope_decay (h : advanceEnvelope adsr1 adsr2 gain vp = some (w, b))
    (hst : w.envstate = .decay) : vp.envstate = .decay ∨ vp.envstate = .attack := by
  have hrank := advanceEnvelope_rank h
  rw [hst] at hrank
  cases hv : vp.envstate
  · exact Or.inr rfl
  · exact Or.inl rfl
  · rw [hv] at hrank
    exact absurd hrank (by decide)
  · rw [hv] at hrank
    exact absurd hrank (by decide)

/-! ### The counter -/

/-- The counter of a sounding voice runs from `CNT_INIT` down to 1. -/
def CountInv (cnt : Int) : Prop := 1 ≤ cnt ∧ cnt ≤ cntInit

/-- The counter starts in its range. -/
theorem countInv_init : CountInv cntInit := by
  unfold CountInv cntInit
  decide

/-- Counted down by any rate, unless that exhausts it. -/
theorem CountInv.sub {cnt : Int} (h : CountInv cnt) (i : Nat) (hpos : 0 < cnt - envCnt i) :
    CountInv (cnt - envCnt i) := by
  obtain ⟨-, hle⟩ := h
  have hrate := (envCnt_bounds i).1
  exact ⟨by omega, by omega⟩

/-- The attack keeps the counter in its range. -/
theorem CountInv.attackLevel {cnt : Int} (h : CountInv cnt) (vp : VoiceState) (x : Int) :
    CountInv (attackLevel vp x cnt).envcnt := by
  unfold OpenSpc.attackLevel
  split <;> exact h

/-- ADSR mode keeps the counter in its range. -/
theorem CountInv.adsrStep (h : CountInv vp.envcnt) (adsr1 adsr2 : Byte) :
    CountInv (adsrStep adsr1 adsr2 vp).envcnt := by
  unfold OpenSpc.adsrStep
  dsimp only
  split
  · split
    · exact h.attackLevel _ _
    · split
      · exact h.sub _ ‹_›
      · exact countInv_init.attackLevel _ _
  · split
    · split <;> exact countInv_init
    · split <;> exact h.sub _ (by omega)
  · split
    · exact h.sub _ ‹_›
    · exact countInv_init
  · exact h

/-- GAIN mode keeps the counter in its range. -/
theorem CountInv.gainStep (h : CountInv vp.envcnt) (gain : Byte) :
    CountInv (gainStep gain vp).envcnt := by
  unfold OpenSpc.gainStep
  dsimp only
  split
  · exact h
  · split
    · exact h.sub _ ‹_›
    · exact countInv_init

/-- **The counter never runs out of its range.** -/
theorem CountInv.advanceEnvelope (h : CountInv vp.envcnt)
    (hcall : advanceEnvelope adsr1 adsr2 gain vp = some (w, b)) : CountInv w.envcnt := by
  rcases advanceEnvelope_cases adsr1 adsr2 gain vp with
    ⟨-, -, he⟩ | ⟨-, -, he⟩ | ⟨-, -, he⟩ | ⟨-, -, he⟩
  · rw [he] at hcall
    cases hcall
  · rw [he] at hcall
    cases hcall
    exact h
  · rw [he] at hcall
    cases hcall
    exact h.adsrStep adsr1 adsr2
  · rw [he] at hcall
    cases hcall
    exact h.gainStep gain

/-! ### The level -/

/-- The exponential step takes off between 0 and 8. -/
theorem expDecrease_drop {x : Int} (h0 : 0 ≤ x) (h1 : x ≤ 0x7FF) :
    expDecrease x ≤ x ∧ x ≤ expDecrease x + 8 := by
  unfold expDecrease
  omega

/-- An attack does not fall. -/
theorem attackLevel_rise {vp : VoiceState} {x cnt : Int} (hx : vp.envx ≤ x)
    (h1 : vp.envx ≤ 0x7FF) : vp.envx ≤ (attackLevel vp x cnt).envx := by
  unfold attackLevel
  split
  · exact h1
  · exact hx

/-- In ADSR mode the level does not fall in `ATTACK`. -/
theorem adsrStep_rise (hst : vp.envstate = .attack) (h1 : vp.envx ≤ 0x7FF) :
    vp.envx ≤ (adsrStep adsr1 adsr2 vp).envx := by
  rw [adsrStep_attack hst]
  split
  · exact attackLevel_rise (by omega) h1
  · split
    · exact le_rfl
    · exact attackLevel_rise (by omega) h1

/-- After the attack the level does not rise, and falls by 8 at most. -/
theorem adsrStep_drop (hst : vp.envstate ≠ .attack) (h0 : 0 ≤ vp.envx) (h1 : vp.envx ≤ 0x7FF) :
    (adsrStep adsr1 adsr2 vp).envx ≤ vp.envx ∧ vp.envx ≤ (adsrStep adsr1 adsr2 vp).envx + 8 := by
  have hexp := expDecrease_drop h0 h1
  have hkeep : vp.envx ≤ vp.envx ∧ vp.envx ≤ vp.envx + 8 := by omega
  unfold adsrStep
  cases hv : vp.envstate
  · exact absurd hv hst
  · dsimp only
    split <;> split
    · exact hexp
    · exact hexp
    · exact hkeep
    · exact hkeep
  · dsimp only
    split
    · exact hkeep
    · exact hexp
  · exact hkeep

end Call

/-! ## The call an update makes -/

/-- The state with which an update calls `AdvanceEnvelope` for voice `v`, if it
does. -/
def envelopeEntry (host : Nat → Byte) (s : Dsp) (v : Fin 8) : Option VoiceState :=
  let c := (voiceCell v (prelude s)).keyRules (voiceInput host v (prelude s))
  if c.key then some c.vp else none

/-- `AdvanceEnvelope` for voice `v`, with the envelope registers of `s`. -/
def envelopeCall (s : Dsp) (v : Fin 8) (vp : VoiceState) : Option (VoiceState × Byte) :=
  advanceEnvelope (s.dspRegs (16 * v + 5)) (s.dspRegs (16 * v + 6)) (s.dspRegs (16 * v + 7)) vp

/-- Outside `RELEASE` the call takes the step of the selected mode, and stores
the level in ENVX. -/
theorem envelopeCall_mode (s : Dsp) (v : Fin 8) {vp : VoiceState} (hst : vp.envstate ≠ .release) :
    envelopeCall s v vp =
      let w := if bit (s.dspRegs (16 * v + 5)) 7 then
          adsrStep (s.dspRegs (16 * v + 5)) (s.dspRegs (16 * v + 6)) vp
        else gainStep (s.dspRegs (16 * v + 7)) vp
      some (w, BitVec.ofInt 8 (w.envx / 2 ^ 4)) := by
  unfold envelopeCall advanceEnvelope
  rw [if_neg hst]

section Update

variable {host : Nat → Byte} {s : Dsp} {v : Fin 8}

/-- A key-off is logged for a voice that sounds when it is examined. -/
theorem mem_dspLog_keyOff_cell :
    .keyOff v ∈ dspLog host s ↔
      (voiceCell v (prelude s)).keyedOff (voiceInput host v (prelude s)) = true := by
  rw [mem_dspLog_voice rfl]
  unfold cellPass
  rw [VoiceCell.mem_pass_log_key _ _ _ _ (by simp) (by simp), VoiceCell.mem_keyEvents]
  simp

/-- The envelope the key rules leave. -/
theorem VoiceCell.keyRules_envelope (i : VoiceInput) (c : VoiceCell) :
    (c.keyRules i).vp.envx = (if c.starts then 0 else c.vp.envx) ∧
    (c.keyRules i).vp.envcnt = (if c.starts then cntInit else c.vp.envcnt) ∧
    (c.keyRules i).vp.envstate =
      if c.keyedOff i then .release else if c.starts then .attack else c.vp.envstate := by
  have hon : (c.keyOn i).vp.envstate = if c.starts then .attack else c.vp.envstate := by
    unfold keyOn
    split <;> rfl
  have hacc (c : VoiceCell) : (c.accept i).vp.envstate = c.vp.envstate := by
    unfold accept
    split <;> rfl
  have hoff (c : VoiceCell) : (c.keyOff i).vp.envstate =
      if c.key && i.kof then .release else c.vp.envstate := by
    unfold keyOff
    split <;> rfl
  have hstage : (c.keyRules i).vp.envstate =
      if c.keyedOff i then .release else if c.starts then .attack else c.vp.envstate := by
    unfold keyRules keyedOff
    rw [hoff, hacc, accept_key, keyOn_key, hon]
  refine ⟨?_, ?_, hstage⟩
  · rw [keyRules_vp]
    split <;> rfl
  · rw [keyRules_vp]
    split <;> rfl

/-- **The voice at the entry of the call.**  There is no call in an update that
resets; a start has set the envelope up, and a key-off has switched it to
`RELEASE`. -/
theorem envelopeEntry_some {vp : VoiceState} (h : envelopeEntry host s v = some vp) :
    bit (s.dspRegs 0x6C) 7 = false ∧
    (bit s.keys v = true ∨ .keyOn v ∈ dspLog host s) ∧
    vp.envx = (if .keyOn v ∈ dspLog host s then 0 else (s.voiceState v).envx) ∧
    vp.envcnt = (if .keyOn v ∈ dspLog host s then cntInit else (s.voiceState v).envcnt) ∧
    vp.envstate =
      if .keyOff v ∈ dspLog host s then .release
      else if .keyOn v ∈ dspLog host s then .attack else (s.voiceState v).envstate := by
  obtain ⟨hx, hcnt, hst⟩ := (voiceCell v (prelude s)).keyRules_envelope (voiceInput host v (prelude s))
  unfold envelopeEntry at h
  dsimp only at h
  split at h
  · rename_i hkey
    cases h
    rw [VoiceCell.keyRules_key] at hkey
    obtain ⟨n, hvp⟩ := prelude_vp s v
    have hflg : bit (s.dspRegs 0x6C) 7 = false := by
      by_contra hset
      rw [prelude_cell, if_pos (by simpa using hset)] at hkey
      simp [VoiceCell.starts] at hkey
    have hbit := (prelude_quiet host v hflg).2.1
    rw [hvp] at hx hcnt hst
    simp only [← @mem_dspLog_keyOn_starts host, ← mem_dspLog_keyOff_cell] at hx hcnt hst
    refine ⟨hflg, ?_, hx, hcnt, hst⟩
    rw [hbit, Bool.or_eq_true, ← @mem_dspLog_keyOn_starts host] at hkey
    exact hkey
  · cases h

/-- The prelude leaves the envelope registers. -/
theorem envelopeCall_prelude (host : Nat → Byte) (s : Dsp) (v : Fin 8) (vp : VoiceState) :
    advanceEnvelope (voiceInput host v (prelude s)).adsr1 (voiceInput host v (prelude s)).adsr2
      (voiceInput host v (prelude s)).gain vp = envelopeCall s v vp := by
  rw [prelude_input]
  rfl

/-- **What an update makes of an envelope.**  There is no call; the call ends
the voice; the voice is silent at a level below zero; or it plays on with the
envelope the call returned, unless its sample ends. -/
theorem dspNext_envelope (host : Nat → Byte) (s : Dsp) (v : Fin 8) :
    (envelopeEntry host s v = none ∧ bit (dspNext host s).keys v = false ∧
      (dspNext host s).dspRegs (16 * v + 8) = 0 ∧
      ((dspNext host s).voiceState v).envstate = (s.voiceState v).envstate) ∨
    (∃ vp, envelopeEntry host s v = some vp ∧ envelopeCall s v vp = none ∧
      bit (dspNext host s).keys v = false ∧ (dspNext host s).dspRegs (16 * v + 8) = 0 ∧
      ((dspNext host s).voiceState v).envstate = vp.envstate) ∨
    (∃ vp w b, envelopeEntry host s v = some vp ∧ envelopeCall s v vp = some (w, b) ∧
      w.envx < 0 ∧ (dspNext host s).voiceState v = w) ∨
    ∃ vp w b d, envelopeEntry host s v = some vp ∧ envelopeCall s v vp = some (w, b) ∧
      updateDecode host s v = some d ∧ 0 ≤ w.envx ∧ bit (dspNext host s).keys v = !d.ended ∧
      (dspNext host s).dspRegs (16 * v + 8) = (if d.ended then 0 else b) ∧
      ((dspNext host s).voiceState v).envx = (if d.ended then 0 else w.envx) ∧
      ((dspNext host s).voiceState v).envcnt = w.envcnt ∧
      ((dspNext host s).voiceState v).envstate = w.envstate := by
  rw [dspNext_keyBit, dspNext_voiceState, dspNext_envxReg]
  unfold envelopeEntry updateDecode VoiceCell.playing cellPass
  simp only [← envelopeCall_prelude host]
  rcases VoiceCell.pass_cases v (voiceInput host v (prelude s)) (prevOut host s v)
      (voiceCell v (prelude s)) with
    ⟨hsilent, hpass⟩ | ⟨hsound, hcall, hpass⟩ | ⟨w, b, hsound, hcall, hneg, hpass⟩ |
      ⟨w, b, hsound, hcall, hpos, hpass⟩
  · left
    have hrules := hsilent
    rw [VoiceCell.keyRules_key, Bool.or_eq_false_iff] at hrules
    obtain ⟨n, hpre⟩ := prelude_vp s v
    rw [hpass, hsilent]
    refine ⟨rfl, hsilent, rfl, ?_⟩
    have hstage := (VoiceCell.keyRules_envelope (voiceInput host v (prelude s))
      (voiceCell v (prelude s))).2.2
    unfold VoiceCell.keyedOff at hstage
    rw [hrules.1, hrules.2, hpre] at hstage
    exact hstage
  · right; left
    rw [hpass, hsound]
    exact ⟨_, rfl, hcall, rfl, rfl, rfl⟩
  · right; right; left
    rw [hpass, hsound]
    exact ⟨_, w, b, rfl, hcall, hneg, rfl⟩
  · right; right; right
    have hplays : (some w).filter (fun vp => decide (0 ≤ vp.envx)) = some w :=
      if_pos (decide_eq_true hpos)
    rw [hpass, hsound, hcall, if_pos rfl, Option.map_some, hplays]
    refine ⟨_, w, b, _, rfl, hcall, rfl, hpos, ?_⟩
    have hcontrol := brrDecode_control (voiceInput host v (prelude s)).mem
      (voiceInput host v (prelude s)).entry v
      { w with pitch := VoiceCell.effPitch (voiceInput host v (prelude s)) (prevOut host s v) }
    obtain ⟨hfields, hx⟩ := hcontrol
    refine ⟨?_, rfl, hx, ?_, ?_⟩
    · exact (congrArg (fun k => k && _) hsound).trans (Bool.true_and _)
    · exact congrArg (fun r : Int × EnvState × Nat × Int => r.1) hfields
    · exact congrArg (fun r : Int × EnvState × Nat × Int => r.2.1) hfields

/-- A decode loop is entered with what the call returned. -/
theorem updateDecode_some {d : Decode} (hd : updateDecode host s v = some d) :
    ∃ vp w b, envelopeEntry host s v = some vp ∧ envelopeCall s v vp = some (w, b) ∧
      d = VoiceCell.decode v (voiceInput host v (prelude s)) (prevOut host s v) w := by
  unfold updateDecode at hd
  obtain ⟨w, hplaying, rfl⟩ := Option.map_eq_some_iff.mp hd
  obtain ⟨b, hkey, hadv, -⟩ := VoiceCell.playing_eq_some.mp hplaying
  refine ⟨_, w, b, if_pos hkey, ?_, rfl⟩
  rw [← envelopeCall_prelude host]
  exact hadv

/-- A voice that sounds after an update has the envelope its call returned. -/
theorem dspNext_alive (halive : bit (dspNext host s).keys v = true) :
    ∃ vp w b, envelopeEntry host s v = some vp ∧ envelopeCall s v vp = some (w, b) ∧
      ((dspNext host s).voiceState v).envx = w.envx ∧
      ((dspNext host s).voiceState v).envcnt = w.envcnt ∧
      ((dspNext host s).voiceState v).envstate = w.envstate := by
  rcases dspNext_envelope host s v with
    ⟨-, hdead, -⟩ | ⟨vp, -, -, hdead, -⟩ | ⟨vp, w, b, hvp, hcall, -, hw⟩ |
      ⟨vp, w, b, d, hvp, hcall, -, -, hkey, -, hx, hcnt, hst⟩
  · rw [hdead] at halive
    cases halive
  · rw [hdead] at halive
    cases halive
  · rw [hw]
    exact ⟨vp, w, b, hvp, hcall, rfl, rfl, rfl⟩
  · rw [halive] at hkey
    have hended : d.ended = false := by simpa using hkey
    rw [hended, if_neg Bool.false_ne_true] at hx
    exact ⟨vp, w, b, hvp, hcall, hx, hcnt, hst⟩

/-- Without a start, an update moves the stage forward. -/
theorem dspNext_rank (hno : .keyOn v ∉ dspLog host s) :
    ((s.voiceState v).envstate).rank ≤ ((dspNext host s).voiceState v).envstate.rank := by
  have hentry {vp : VoiceState} (h : envelopeEntry host s v = some vp) :
      (s.voiceState v).envstate.rank ≤ vp.envstate.rank := by
    obtain ⟨-, -, -, -, hst⟩ := envelopeEntry_some h
    rw [hst, if_neg hno]
    split
    · exact rank_release _
    · exact le_rfl
  rcases dspNext_envelope host s v with
    ⟨-, -, -, hst⟩ | ⟨vp, hvp, -, -, -, hst⟩ | ⟨vp, w, b, hvp, hcall, -, hw⟩ |
      ⟨vp, w, b, d, hvp, hcall, -, -, -, -, -, -, hst⟩
  · rw [hst]
  · rw [hst]
    exact hentry hvp
  · rw [hw]
    exact le_trans (hentry hvp) (advanceEnvelope_rank hcall)
  · rw [hst]
    exact le_trans (hentry hvp) (advanceEnvelope_rank hcall)

/-- **Where `DECAY` comes from.** -/
theorem dspNext_decay (hbefore : (s.voiceState v).envstate ≠ .decay)
    (hafter : ((dspNext host s).voiceState v).envstate = .decay) :
    ∃ vp w b, envelopeEntry host s v = some vp ∧ envelopeCall s v vp = some (w, b) ∧
      vp.envstate = .attack ∧ w.envstate = .decay ∧ w.envx = 0x7FF := by
  have hentry {vp : VoiceState} (h : envelopeEntry host s v = some vp) :
      vp.envstate ≠ .decay := by
    obtain ⟨-, -, -, -, hst⟩ := envelopeEntry_some h
    rw [hst]
    split
    · decide
    · split
      · decide
      · exact hbefore
  have hcalled {vp w : VoiceState} {b : Byte} (hvp : envelopeEntry host s v = some vp)
      (hcall : envelopeCall s v vp = some (w, b)) (hw : w.envstate = .decay) :
      vp.envstate = .attack ∧ w.envx = 0x7FF := by
    rcases advanceEnvelope_decay hcall hw with hd | hattack
    · exact absurd hd (hentry hvp)
    · rcases advanceEnvelope_attack hcall hattack with h | h
      · rw [h] at hw
        cases hw
      · exact ⟨hattack, h.2⟩
  rcases dspNext_envelope host s v with
    ⟨-, -, -, hst⟩ | ⟨vp, hvp, -, -, -, hst⟩ | ⟨vp, w, b, hvp, hcall, -, hw⟩ |
      ⟨vp, w, b, d, hvp, hcall, -, -, -, -, -, -, hst⟩
  · rw [hst] at hafter
    exact absurd hafter hbefore
  · rw [hst] at hafter
    exact absurd hafter (hentry hvp)
  · rw [hw] at hafter
    obtain ⟨hattack, htop⟩ := hcalled hvp hcall hafter
    exact ⟨vp, w, b, hvp, hcall, hattack, hafter, htop⟩
  · rw [hst] at hafter
    obtain ⟨hattack, htop⟩ := hcalled hvp hcall hafter
    exact ⟨vp, w, b, hvp, hcall, hattack, hafter, htop⟩

end Update

/-! ## Reachable states -/

/-- The counter of voice `v` is in range if the voice sounds. -/
def CounterInv (s : Dsp) (v : Fin 8) : Prop :=
  bit s.keys v = true → CountInv (s.voiceState v).envcnt

section Reached

variable {host : Nat → Byte} {s : Dsp} {v : Fin 8}

/-- The counter at the entry of a call. -/
theorem CounterInv.entry (h : CounterInv s v) {vp : VoiceState}
    (hvp : envelopeEntry host s v = some vp) : CountInv vp.envcnt := by
  obtain ⟨-, hkey, -, hcnt, -⟩ := envelopeEntry_some hvp
  rw [hcnt]
  by_cases hstart : .keyOn v ∈ dspLog host s
  · rw [if_pos hstart]
    exact countInv_init
  · rw [if_neg hstart]
    exact h (hkey.resolve_right hstart)

/-- An update keeps the counter in its range. -/
theorem CounterInv.dspNext (h : CounterInv s v) : CounterInv (dspNext host s) v := by
  intro hkey
  rcases dspNext_envelope host s v with
    ⟨-, hk, -⟩ | ⟨vp, -, -, hk, -⟩ | ⟨vp, w, b, hvp, hcall, -, hw⟩ |
      ⟨vp, w, b, d, hvp, hcall, -, -, -, -, -, hcnt, -⟩
  · rw [hk] at hkey
    cases hkey
  · rw [hk] at hkey
    cases hkey
  · rw [hw]
    exact (h.entry hvp).advanceEnvelope hcall
  · rw [hcnt]
    exact (h.entry hvp).advanceEnvelope hcall

/-- **In every reachable state the counter of a sounding voice is in range.** -/
theorem Reachable.counter (h : Reachable s) (v : Fin 8) : CounterInv s v := by
  induction h with
  | boot => intro hkey; simp [zeroDsp, bit] at hkey
  | reset _ _ => intro hkey; simp [dspReset, bit] at hkey
  | update host _ ih => exact ih.dspNext
  | write _ hw ih =>
      intro hkey
      rw [hw.keys] at hkey
      rw [hw.voiceState]
      exact ih hkey

/-- The level at the entry of a call. -/
theorem DspInv.entry_envx (h : DspInv s) {vp : VoiceState}
    (hvp : envelopeEntry host s v = some vp) : 0 ≤ vp.envx ∧ vp.envx ≤ 0x7FF := by
  obtain ⟨-, -, hx, -, -⟩ := envelopeEntry_some hvp
  rw [hx]
  split
  · decide
  · exact ⟨(h.voice v).envx_nonneg, (h.voice v).envx_le⟩

end Reached

/-! ## The machine -/

/-- The voice after the call entered with `vp`: where the call ends the voice
it stores nothing in it. -/
def envelopeExit (s : Dsp) (v : Fin 8) (vp : VoiceState) : VoiceState :=
  match envelopeCall s v vp with
  | some (w, _) => w
  | none => vp

/-- In ADSR mode and in `RELEASE`, the level rises in `ATTACK` only and falls
by at most 8 elsewhere. -/
theorem envelopeExit_envx {s : Dsp} {v : Fin 8} {vp : VoiceState}
    (hx : 0 ≤ vp.envx ∧ vp.envx ≤ 0x7FF)
    (hmode : bit (s.dspRegs (16 * v + 5)) 7 = true ∨ vp.envstate = .release) :
    if vp.envstate = .attack then vp.envx ≤ (envelopeExit s v vp).envx
    else (envelopeExit s v vp).envx ≤ vp.envx ∧ vp.envx ≤ (envelopeExit s v vp).envx + 8 := by
  unfold envelopeExit envelopeCall
  rcases advanceEnvelope_cases (s.dspRegs (16 * v + 5)) (s.dspRegs (16 * v + 6))
      (s.dspRegs (16 * v + 7)) vp with
    ⟨hrel, -, hcall⟩ | ⟨hrel, -, hcall⟩ | ⟨-, -, hcall⟩ | ⟨hrel, hgain, -⟩
  · rw [hcall, hrel, if_neg (by decide)]
    dsimp only
    omega
  · rw [hcall, hrel, if_neg (by decide)]
    dsimp only
    omega
  · rw [hcall]
    split
    · exact adsrStep_rise ‹_› hx.2
    · exact adsrStep_drop ‹_› hx.1 hx.2
  · rcases hmode with h | h
    · rw [hgain] at h
      cases h
    · exact absurd h hrel

/-- The envelope of voice `v` along a run: its ranges, the order of its stages
between two starts, the one way from `ATTACK` to `DECAY`, and the direction of
every call in ADSR mode and in `RELEASE`. -/
structure EnvelopeMachine (host : Nat → Byte) (s : Nat → Dsp) (v : Fin 8) : Prop where
  ranges : ∀ t, bit (s t).keys v = true →
    (0 ≤ ((s t).voiceState v).envx ∧ ((s t).voiceState v).envx ≤ 0x7FF) ∧
    (1 ≤ ((s t).voiceState v).envcnt ∧ ((s t).voiceState v).envcnt ≤ 0x7800)
  forward : ∀ t d, (∀ u, t ≤ u → u < t + d → .keyOn v ∉ dspLog host (s u)) →
    ((s t).voiceState v).envstate.rank ≤ ((s (t + d)).voiceState v).envstate.rank
  leavesAttack : ∀ t vp w b, envelopeEntry host (s t) v = some vp →
    envelopeCall (s t) v vp = some (w, b) → vp.envstate = .attack →
    w.envstate = .attack ∨ w.envstate = .decay ∧ w.envx = 0x7FF
  entersDecay : ∀ t, ((s t).voiceState v).envstate ≠ .decay →
    ((s (t + 1)).voiceState v).envstate = .decay →
    ∃ vp w b, envelopeEntry host (s t) v = some vp ∧ envelopeCall (s t) v vp = some (w, b) ∧
      vp.envstate = .attack ∧ w.envstate = .decay ∧ w.envx = 0x7FF
  calls : ∀ t vp, envelopeEntry host (s t) v = some vp →
    bit ((s t).dspRegs (16 * v + 5)) 7 = true ∨ vp.envstate = .release →
    if vp.envstate = .attack then vp.envx ≤ (envelopeExit (s t) v vp).envx
    else (envelopeExit (s t) v vp).envx ≤ vp.envx ∧
      vp.envx ≤ (envelopeExit (s t) v vp).envx + 8

/-- **The envelope state machine.** -/
theorem envelope_machine {host : Nat → Byte} {s : Nat → Dsp} (hrun : IsDspRun host s)
    (h0 : Reachable (s 0)) (v : Fin 8) : EnvelopeMachine host s v where
  ranges := by
    intro t hkey
    have hreach := hrun.reachable h0 t
    have hvoice := hreach.inv.voice v
    exact ⟨⟨hvoice.envx_nonneg, hvoice.envx_le⟩, hreach.counter v hkey⟩
  forward := by
    intro t
    refine hrun.ascends (f := fun x => (x.voiceState v).envstate.rank) ?_
      (C := fun u => .keyOn v ∉ dspLog host (s u)) (fun u hno => dspNext_rank hno) t
    intro x y hxy
    rw [hxy.voiceState]
  leavesAttack := fun _ _ _ _ _ hcall => advanceEnvelope_attack hcall
  entersDecay := by
    intro t hbefore hafter
    rw [(hrun t).voiceState] at hafter
    exact dspNext_decay hbefore hafter
  calls := fun t _ hvp => envelopeExit_envx ((hrun.reachable h0 t).inv.entry_envx hvp)

/-- The run of two key pulses on voice 0 is an instance. -/
theorem envelope_machine_keyPulse :
    EnvelopeMachine (fun _ => 0) (keyPulseRun fun _ => 0) 0 :=
  envelope_machine (keyPulseRun_isKeyRun fun _ => 0).run
    (drivenRun_reachable keyPulse_busWrite 0) 0

end OpenSpc
