import OpenSpc.KeyedOff
import OpenSpc.ReloadCounter

/-!
# The timing of the envelope ramps

The attack of ADSR mode and the linear increase of GAIN mode both count
`envcnt` down from `CNT_INIT` by a table entry and add 1/64 whenever it is used
up.  Every entry divides `CNT_INIT`, so no part of a period is lost at a reload
and both ramps are the closed form `ramp`; an attack of rate `t` is the increase
of rate `2 * t + 1` until it reaches the top.
-/

namespace OpenSpc

open ByteMask (bit)
open ReloadCounter (fired left)

/-- No rate loses part of a period at a reload. -/
theorem envCnt_dvd {i : Nat} (h : i < 32) : envCnt i = 0 ∨ envCnt i ∣ cntInit := by
  have hall : ∀ j : Fin 32, envCnt j = 0 ∨ envCnt j ∣ cntInit := by decide
  exact hall ⟨i, h⟩

/-- Every rate but 0 counts. -/
theorem envCnt_pos {i : Nat} (h0 : 0 < i) (h : i < 32) : 0 < envCnt i := by
  have hall : ∀ j : Fin 32, 0 < (j : Nat) → 0 < envCnt j := by decide
  exact hall ⟨i, h⟩ h0

/-- The counter starts above zero. -/
theorem cntInit_pos : 0 < cntInit := by decide

/-- The level of a ramp of rate `i` after `n` updates. -/
def ramp (i n : Nat) : Int := min 0x7FF (0x20 * (n * envCnt i / 0x7800))

/-- The updates an attack of rate `t` takes to enter `DECAY`. -/
def attackLength (t : Nat) : Int := 64 * 0x7800 / envCnt (2 * t + 1)

/-- The envelope of a voice. -/
def VoiceState.envelope (vp : VoiceState) : Int × Int × EnvState :=
  (vp.envx, vp.envcnt, vp.envstate)

/-! ## One step of a ramp -/

section Step

variable {vp : VoiceState} {n : Nat}

/-- A step of the attack, before the top. -/
theorem adsrStep_ramp {adsr1 : Byte} (adsr2 : Byte) {t : Nat} (ht : t < 15)
    (hrate : adsr1.toNat % 2 ^ 4 = t)
    (hvp : vp.envelope = (0x20 * fired cntInit (envCnt (2 * t + 1)) n,
      left cntInit (envCnt (2 * t + 1)) n, .attack))
    (hlow : fired cntInit (envCnt (2 * t + 1)) n < 64) :
    (adsrStep adsr1 adsr2 vp).envelope =
      (min 0x7FF (0x20 * fired cntInit (envCnt (2 * t + 1)) (n + 1)),
        left cntInit (envCnt (2 * t + 1)) (n + 1),
        if fired cntInit (envCnt (2 * t + 1)) (n + 1) < 64 then .attack else .decay) := by
  obtain ⟨hx, hcnt, hst⟩ : vp.envx = _ ∧ vp.envcnt = _ ∧ vp.envstate = _ := by
    simpa [VoiceState.envelope] using hvp
  rw [adsrStep_attack hst, hrate, if_neg (by omega), hcnt, hx]
  split
  · rename_i hwait
    obtain ⟨hleft, hfired⟩ := ReloadCounter.wait cntInit_pos (envCnt_bounds _).1 hwait
    rw [hleft, hfired, if_pos hlow]
    simp only [VoiceState.envelope, hst]
    rw [min_eq_right (by omega)]
  · rename_i hfire
    obtain ⟨hleft, hfired⟩ := ReloadCounter.fire cntInit_pos (envCnt_dvd (by omega))
      (not_lt.mp hfire)
    rw [hleft, hfired]
    unfold attackLevel
    split
    · rw [if_neg (by omega), min_eq_left (by omega)]
      rfl
    · rw [if_pos (by omega), min_eq_right (by omega)]
      simp only [VoiceState.envelope, hst]
      rw [mul_add, mul_one]

/-- A step of the linear increase. -/
theorem gainStep_ramp {gain : Byte} {r : Nat} (hr : r < 32) (hgain : gain.toNat = 0xC0 + r)
    (hvp : vp.envelope = (min 0x7FF (0x20 * fired cntInit (envCnt r) n),
      left cntInit (envCnt r) n, .attack)) :
    (gainStep gain vp).envelope =
      (min 0x7FF (0x20 * fired cntInit (envCnt r) (n + 1)),
        left cntInit (envCnt r) (n + 1), .attack) := by
  obtain ⟨hx, hcnt, hst⟩ : vp.envx = _ ∧ vp.envcnt = _ ∧ vp.envstate = _ := by
    simpa [VoiceState.envelope] using hvp
  have hmode : (0xC0 + r) / 2 ^ 5 = 6 := by omega
  have hlow : (0xC0 + r) % 2 ^ 5 = r := by omega
  unfold gainStep
  dsimp only
  rw [hgain, if_neg (by omega), hmode, hlow, hcnt, hx]
  split
  · rename_i hwait
    obtain ⟨hleft, hfired⟩ := ReloadCounter.wait cntInit_pos (envCnt_bounds _).1 hwait
    rw [hleft, hfired]
    simp only [VoiceState.envelope, hst]
  · rename_i hfire
    obtain ⟨hleft, hfired⟩ := ReloadCounter.fire cntInit_pos (envCnt_dvd hr) (not_lt.mp hfire)
    rw [hleft, hfired]
    simp only [VoiceState.envelope, hst, gainLevel]
    refine congrArg (fun x => (x, cntInit, EnvState.attack)) ?_
    split <;> omega

end Step

/-! ## A note that is held -/

/-- Update 0 of the run starts voice `v`, and in the first `n` updates it stays
active and is neither keyed off nor started again. -/
structure HeldNote (host : Nat → Byte) (v : Fin 8) (n : Nat) (s : Nat → Dsp) : Prop where
  run : IsDspRun host s
  start : .keyOn v ∈ dspLog host (s 0)
  once : ∀ t, 0 < t → t < n → .keyOn v ∉ dspLog host (s t)
  held : ∀ t, t < n → .keyOff v ∉ dspLog host (s t)
  active : ∀ t, t < n → bit (dspNext host (s t)).keys v = true

/-- ADSR mode is on for voice `v`, with attack rate `t`. -/
def AttackMode (s : Dsp) (v : Fin 8) (t : Nat) : Prop :=
  bit (s.dspRegs (16 * v + 5)) 7 = true ∧ (s.dspRegs (16 * v + 5)).toNat % 2 ^ 4 = t

/-- ADSR mode is off for voice `v`, and GAIN is a linear increase of rate `r`. -/
def IncreaseMode (s : Dsp) (v : Fin 8) (r : Nat) : Prop :=
  bit (s.dspRegs (16 * v + 5)) 7 = false ∧ (s.dspRegs (16 * v + 7)).toNat = 0xC0 + r

/-- The envelope of a note after `n` updates, its initialisation before. -/
def noteEnvelope (host : Nat → Byte) (s : Nat → Dsp) (v : Fin 8) : Nat → Int × Int × EnvState
  | 0 => (0, cntInit, .attack)
  | n + 1 => ((dspNext host (s n)).voiceState v).envelope

namespace HeldNote

variable {host : Nat → Byte} {v : Fin 8} {n : Nat} {s : Nat → Dsp}

/-- A note that is held up to an update is held up to every earlier one. -/
theorem mono (h : HeldNote host v n s) {m : Nat} (hm : m ≤ n) : HeldNote host v m s where
  run := h.run
  start := h.start
  once := fun t h0 ht => h.once t h0 (by omega)
  held := fun t ht => h.held t (by omega)
  active := fun t ht => h.active t (by omega)

/-- The call of the next update goes from the envelope the last one left. -/
theorem step (h : HeldNote host v (n + 1) s) :
    ∃ vp w b, envelopeCall (s n) v vp = some (w, b) ∧
      vp.envelope = noteEnvelope host s v n ∧ w.envelope = noteEnvelope host s v (n + 1) := by
  obtain ⟨vp, w, b, hvp, hcall, hx, hcnt, hst⟩ := dspNext_alive (h.active n n.lt_succ_self)
  obtain ⟨-, -, hx', hcnt', hst'⟩ := envelopeEntry_some hvp
  rw [if_neg (h.held n n.lt_succ_self)] at hst'
  refine ⟨vp, w, b, hcall, ?_, ?_⟩
  · unfold VoiceState.envelope
    rw [hx', hcnt', hst']
    cases n with
    | zero =>
        rw [if_pos h.start, if_pos h.start, if_pos h.start]
        rfl
    | succ n =>
        have hno := h.once (n + 1) n.succ_pos (by omega)
        rw [if_neg hno, if_neg hno, if_neg hno, (h.run n).voiceState]
        rfl
  · simp only [noteEnvelope, VoiceState.envelope, hx, hcnt, hst]

/-- One update of the attack, the one that reaches the top included. -/
theorem attack_step (h : HeldNote host v (n + 1) s) {t : Nat} (ht : t < 15)
    (hmode : AttackMode (s n) v t)
    (hbefore : noteEnvelope host s v n =
      (0x20 * fired cntInit (envCnt (2 * t + 1)) n, left cntInit (envCnt (2 * t + 1)) n, .attack))
    (hlow : fired cntInit (envCnt (2 * t + 1)) n < 64) :
    noteEnvelope host s v (n + 1) =
      (min 0x7FF (0x20 * fired cntInit (envCnt (2 * t + 1)) (n + 1)),
        left cntInit (envCnt (2 * t + 1)) (n + 1),
        if fired cntInit (envCnt (2 * t + 1)) (n + 1) < 64 then .attack else .decay) := by
  obtain ⟨vp, w, b, hcall, hentry, hexit⟩ := h.step
  obtain ⟨hmode, hrate⟩ := hmode
  rw [hbefore] at hentry
  have hst : vp.envstate = .attack := congrArg (fun e => e.2.2) hentry
  rw [envelopeCall_mode _ _ (by rw [hst]; decide), hmode] at hcall
  cases hcall
  rw [← hexit]
  exact adsrStep_ramp _ ht hrate hentry hlow

/-- **The attack.**  By induction on the updates: until the top is reached the
counter and the level are those of a reload counter. -/
theorem attack (h : HeldNote host v n s) {t : Nat} (ht : t < 15)
    (hmode : ∀ u, u < n → AttackMode (s u) v t)
    (hlow : fired cntInit (envCnt (2 * t + 1)) n < 64) :
    noteEnvelope host s v n =
      (0x20 * fired cntInit (envCnt (2 * t + 1)) n, left cntInit (envCnt (2 * t + 1)) n,
        .attack) := by
  induction n with
  | zero => simp [noteEnvelope]
  | succ n ih =>
      have hle : fired cntInit (envCnt (2 * t + 1)) n < 64 := by
        rw [ReloadCounter.fired_lt_iff cntInit_pos] at hlow ⊢
        have hrate := (envCnt_bounds (2 * t + 1)).1
        push_cast at hlow
        linarith
      have hprev := ih (h.mono n.le_succ) (fun u hu => hmode u (by omega)) hle
      have hnext := h.attack_step ht (hmode n n.lt_succ_self) hprev hle
      rw [hnext, if_pos hlow, min_eq_right (by omega)]

/-- **The linear increase.**  By induction on the updates. -/
theorem increase (h : HeldNote host v n s) {r : Nat} (hr : r < 32)
    (hmode : ∀ u, u < n → IncreaseMode (s u) v r) :
    noteEnvelope host s v n =
      (min 0x7FF (0x20 * fired cntInit (envCnt r) n), left cntInit (envCnt r) n, .attack) := by
  induction n with
  | zero => simp [noteEnvelope]
  | succ n ih =>
      obtain ⟨vp, w, b, hcall, hentry, hexit⟩ := h.step
      obtain ⟨hgain, hrate⟩ := hmode n n.lt_succ_self
      rw [ih (h.mono n.le_succ) fun u hu => hmode u (by omega)] at hentry
      have hst : vp.envstate = .attack := congrArg (fun e => e.2.2) hentry
      rw [envelopeCall_mode _ _ (by rw [hst]; decide), hgain] at hcall
      cases hcall
      rw [← hexit]
      exact gainStep_ramp hr hrate hentry

/-- Once the top is reached, the note does not come back to `ATTACK`. -/
theorem not_attack (h : HeldNote host v (n + 1) s) {m : Nat} (hm : m ≤ n)
    (hst : ((dspNext host (s m)).voiceState v).envstate = .decay) :
    ((dspNext host (s n)).voiceState v).envstate ≠ .attack := by
  have hrank (d : Nat) (hd : m + d ≤ n) :
      1 ≤ ((dspNext host (s (m + d))).voiceState v).envstate.rank := by
    induction d with
    | zero =>
        rw [Nat.add_zero, hst]
        exact le_rfl
    | succ d ih =>
        have hno := h.once (m + d + 1) (by omega) (by omega)
        have hnext := dspNext_rank hno
        rw [(h.run (m + d)).voiceState] at hnext
        rw [← Nat.add_assoc]
        exact le_trans (ih (by omega)) hnext
  have hlast := hrank (n - m) (by omega)
  rw [Nat.add_sub_cancel' hm] at hlast
  intro hattack
  rw [hattack] at hlast
  exact absurd hlast (by decide)

end HeldNote

/-- An attack has reached the top after `attackLength` updates. -/
theorem attack_fired_lt {t : Nat} (ht : t < 15) (n : Nat) :
    fired cntInit (envCnt (2 * t + 1)) n < 64 ↔ n < attackLength t := by
  have hpos := envCnt_pos (i := 2 * t + 1) (by omega) (by omega)
  have hdvd : envCnt (2 * t + 1) ∣ 64 * cntInit :=
    Dvd.dvd.mul_left ((envCnt_dvd (by omega)).resolve_left hpos.ne') 64
  rw [ReloadCounter.fired_lt_iff cntInit_pos]
  exact (Int.lt_ediv_iff_mul_lt hpos hdvd).symm

/-- The attack up to the update that enters `DECAY`. -/
theorem HeldNote.attack_ramp {host : Nat → Byte} {v : Fin 8} {n : Nat} {s : Nat → Dsp}
    (h : HeldNote host v (n + 1) s) {t : Nat} (ht : t < 15)
    (hmode : ∀ u, u ≤ n → AttackMode (s u) v t) (hn : n + 1 ≤ attackLength t) :
    ((dspNext host (s n)).voiceState v).envx = ramp (2 * t + 1) (n + 1) ∧
      ((dspNext host (s n)).voiceState v).envstate =
        if n + 1 < attackLength t then .attack else .decay := by
  have hlow := (attack_fired_lt ht n).mpr (by omega)
  have hbefore := (h.mono n.le_succ).attack ht (fun u hu => hmode u (by omega)) hlow
  have hnext := h.attack_step ht (hmode n le_rfl) hbefore hlow
  simp only [attack_fired_lt ht (n + 1), Nat.cast_succ] at hnext
  exact ⟨congrArg (fun e => e.1) hnext, congrArg (fun e => e.2.2) hnext⟩

/-- The stage tells whether the attack is over: the update in which its length is
reached enters `DECAY`, and the note does not come back. -/
theorem HeldNote.attack_iff {host : Nat → Byte} {v : Fin 8} {n : Nat} {s : Nat → Dsp}
    (h : HeldNote host v (n + 1) s) {t : Nat} (ht : t < 15)
    (hmode : ∀ u, u ≤ n → AttackMode (s u) v t) :
    ((dspNext host (s n)).voiceState v).envstate = .attack ↔ n + 1 < attackLength t := by
  have hpos : 0 < attackLength t := by
    have hzero := (attack_fired_lt ht 0).mp (by simp)
    simpa using hzero
  constructor
  · intro hattack
    by_contra hlate
    obtain ⟨m, hm⟩ : ∃ m : Nat, m + 1 = attackLength t :=
      ⟨(attackLength t - 1).toNat, by omega⟩
    have hmn : m ≤ n := by omega
    have hdecay := ((h.mono (by omega : m + 1 ≤ n + 1)).attack_ramp ht
      (fun u hu => hmode u (by omega)) hm.le).2
    rw [if_neg (by omega)] at hdecay
    exact h.not_attack hmn hdecay hattack
  · intro hn
    rw [(h.attack_ramp ht hmode hn.le).2, if_pos hn]

/-- **The timing of the ramps.**  For a note that is held up to its update
number `n + 1`: at attack rate `t` it follows `ramp` up to and including update
`attackLength t`, which is where it enters `DECAY`; at the linear increase of
rate `r` it follows `ramp` all along; and so the two agree at the rates `t` and
`2 * t + 1`, until saturation. -/
theorem envelope_ramps {host : Nat → Byte} {v : Fin 8} {n : Nat} {s : Nat → Dsp}
    (h : HeldNote host v (n + 1) s) :
    (∀ t, t < 15 → (∀ u, u ≤ n → AttackMode (s u) v t) →
      (n + 1 ≤ attackLength t →
        ((dspNext host (s n)).voiceState v).envx = ramp (2 * t + 1) (n + 1)) ∧
      (((dspNext host (s n)).voiceState v).envstate = .attack ↔ n + 1 < attackLength t) ∧
      (n + 1 = attackLength t → ((dspNext host (s n)).voiceState v).envstate = .decay)) ∧
    (∀ r, r < 32 → (∀ u, u ≤ n → IncreaseMode (s u) v r) →
      ((dspNext host (s n)).voiceState v).envx = ramp r (n + 1)) ∧
    (∀ t, t < 15 → (∀ u, u ≤ n → AttackMode (s u) v t) → n + 1 ≤ attackLength t →
      ∀ host' v' s', HeldNote host' v' (n + 1) s' →
        (∀ u, u ≤ n → IncreaseMode (s' u) v' (2 * t + 1)) →
        ((dspNext host (s n)).voiceState v).envx = ((dspNext host' (s' n)).voiceState v').envx) := by
  refine ⟨fun t ht hmode => ⟨fun hn => (h.attack_ramp ht hmode hn).1, h.attack_iff ht hmode, ?_⟩,
    ?_, ?_⟩
  · intro hn
    rw [(h.attack_ramp ht hmode hn.le).2, if_neg (by omega)]
  · intro r hr hmode
    have hnext := h.increase hr fun u hu => hmode u (by omega)
    exact congrArg (fun e => e.1) hnext
  · intro t ht hmode hn host' v' s' h' hmode'
    have hnext := h'.increase (by omega) fun u hu => hmode' u (by omega)
    rw [(h.attack_ramp ht hmode hn).1]
    exact (congrArg (fun e => e.1) hnext).symm

/-! ## A note on silence -/

/-- In zeroed RAM no header ends a sample. -/
theorem brrDecode_silence (m : Mem) (hram : ∀ a, m.ram a = 0) (entry : Nat) (v : Fin 8)
    {vp : VoiceState} (hend : vp.endBits.testBit 0 = false) :
    (brrDecode m entry v vp).ended = false ∧
      (brrDecode m entry v vp).vp.endBits.testBit 0 = false := by
  refine decodeLoop_keeps m entry v
    (P := fun d => d.ended = false ∧ d.vp.endBits.testBit 0 = false) ?_ ?_ _ _ rfl ⟨rfl, hend⟩
  · rintro d hd - ⟨-, hbit⟩
    by_cases hcnt : d.vp.headerCnt = 0
    · rw [enterBlock_header m entry v hcnt hbit]
      refine ⟨hd, ?_⟩
      simp [readHeader, hram]
    · rw [enterBlock_keep m entry v hcnt]
      exact ⟨hd, hbit⟩
  · rintro d hd - ⟨-, hbit⟩
    refine ⟨hd, ?_⟩
    unfold decodePass decodeSample skipNybble
    dsimp only
    split <;> exact hbit

/-- No call enters `RELEASE`. -/
theorem advanceEnvelope_not_release {adsr1 adsr2 gain : Byte} {vp w : VoiceState} {b : Byte}
    (h : advanceEnvelope adsr1 adsr2 gain vp = some (w, b)) (hst : vp.envstate ≠ .release) :
    w.envstate ≠ .release := by
  rcases advanceEnvelope_cases adsr1 adsr2 gain vp with
    ⟨hrel, -, -⟩ | ⟨hrel, -, -⟩ | ⟨-, -, hcall⟩ | ⟨-, -, hcall⟩
  · exact absurd hrel hst
  · exact absurd hrel hst
  · rw [hcall] at h
    cases h
    cases hv : vp.envstate
    · rcases @adsrStep_attack_stage adsr1 adsr2 vp hv with he | ⟨he, -⟩
      · rw [he]; decide
      · rw [he]; decide
    · rcases @adsrStep_decay_stage adsr1 adsr2 vp hv with he | he
      · rw [he]; decide
      · rw [he]; decide
    · rw [adsrStep_sustain_stage hv]
      decide
    · exact absurd hv hst
  · rw [hcall] at h
    cases h
    rw [gainStep_stage]
    exact hst

/-- The decode loop of a note on silence. -/
theorem updateDecode_silence {host : Nat → Byte} {s : Dsp} {v : Fin 8}
    (hram : ∀ a, s.spcRam a = 0) {vp : VoiceState} (hvp : envelopeEntry host s v = some vp)
    (hend : vp.endBits.testBit 0 = false) {d : Decode} (hd : updateDecode host s v = some d) :
    d.ended = false ∧ d.vp.endBits.testBit 0 = false := by
  obtain ⟨vp', w, b, hvp', hcall, rfl⟩ := updateDecode_some hd
  rw [hvp] at hvp'
  cases hvp'
  have hmem (a : BitVec 16) : (voiceInput host v (prelude s)).mem.ram a = 0 := by
    rw [prelude_input]
    exact hram a
  have hflags : w.endBits.testBit 0 = false := by
    unfold envelopeCall at hcall
    rw [advanceEnvelope_frame hcall]
    exact hend
  exact brrDecode_silence (voiceInput host v (prelude s)).mem hmem _ v hflags

/-- **A note on silence goes on.** -/
theorem silence_step {host : Nat → Byte} {s : Dsp} {v : Fin 8} (hreach : Reachable s)
    (hram : ∀ a, s.spcRam a = 0) {vp : VoiceState} (hvp : envelopeEntry host s v = some vp)
    (hend : vp.endBits.testBit 0 = false) (hst : vp.envstate ≠ .release) :
    bit (dspNext host s).keys v = true ∧
      ((dspNext host s).voiceState v).endBits.testBit 0 = false ∧
      ((dspNext host s).voiceState v).envstate ≠ .release := by
  rcases dspNext_envelope host s v with
    ⟨hnone, -⟩ | ⟨vp', hvp', hcall, -⟩ | ⟨vp', w, b, hvp', hcall, hneg, -⟩ |
      ⟨vp', w, b, d, hvp', hcall, hd, -, hkey, -, -, -, hstage⟩
  · rw [hvp] at hnone
    cases hnone
  · rw [hvp] at hvp'
    cases hvp'
    rw [envelopeCall_mode _ _ hst] at hcall
    cases hcall
  · obtain ⟨h0, h1⟩ := hreach.inv.entry_envx hvp'
    exact absurd hneg (advanceEnvelope_bounds hcall h0 h1).1.not_gt
  · rw [hvp] at hvp'
    cases hvp'
    obtain ⟨hended, hflags⟩ := updateDecode_silence hram hvp hend hd
    have halive : bit (dspNext host s).keys v = true := by rw [hkey, hended]; rfl
    refine ⟨halive, ?_, ?_⟩
    · have hlevel := ((hreach.update host).inv.voice v).envx_nonneg
      obtain ⟨d', hd', hvoice⟩ := dspNext_keyed halive hlevel
      rw [hd] at hd'
      cases hd'
      rw [hvoice]
      exact hflags
    · rw [hstage]
      unfold envelopeCall at hcall
      exact advanceEnvelope_not_release hcall hst

/-- A start is followed by a call. -/
theorem envelopeEntry_of_start {host : Nat → Byte} {s : Dsp} {v : Fin 8}
    (hstart : .keyOn v ∈ dspLog host s) : ∃ vp, envelopeEntry host s v = some vp := by
  unfold envelopeEntry
  dsimp only
  rw [VoiceCell.keyRules_key, mem_dspLog_keyOn_starts.mp hstart, Bool.or_true, if_pos rfl]
  exact ⟨_, rfl⟩

/-- The block flags at the entry of a call: a start clears them. -/
theorem envelopeEntry_endBits {host : Nat → Byte} {s : Dsp} {v : Fin 8} {vp : VoiceState}
    (hvp : envelopeEntry host s v = some vp) :
    vp.endBits = if .keyOn v ∈ dspLog host s then 0 else (s.voiceState v).endBits := by
  unfold envelopeEntry at hvp
  dsimp only at hvp
  split at hvp
  · cases hvp
    obtain ⟨n, hpre⟩ := prelude_vp s v
    rw [VoiceCell.keyRules_vp, hpre]
    simp only [mem_dspLog_keyOn_starts]
    split <;> rfl
  · cases hvp

/-- Voice 0 is keyed on before update 0 and plays zeroed RAM with the given
ADSR1 and GAIN. -/
def rampWrite (adsr1 gain : Byte) (t : Nat) (s : Dsp) : Dsp :=
  { s with
    spcRam := fun _ => 0
    dspRegs := fun i =>
      if i = 0x6C then 0x20
      else if i = 0x4C then if t = 0 then 1 else 0
      else if i = 5 then adsr1
      else if i = 7 then gain
      else 0 }

/-- The run with this traffic. -/
def rampRun (host : Nat → Byte) (adsr1 gain : Byte) : Nat → Dsp :=
  drivenRun host (rampWrite adsr1 gain)

section Ramp

variable (host : Nat → Byte) (adsr1 gain : Byte)

/-- The run begins after a reset, and FLG never asks for another. -/
theorem rampRun_isKeyRun : IsKeyRun host (rampRun host adsr1 gain) :=
  drivenRun_isKeyRun (fun _ _ => rfl) 0x20 (by decide) fun _ _ => rfl

/-- The traffic touches only the registers and RAM. -/
theorem rampWrite_busWrite (t : Nat) (s : Dsp) : BusWrite s (rampWrite adsr1 gain t s) := rfl

/-- The states of this run can be reached. -/
theorem rampRun_reachable (t : Nat) : Reachable (rampRun host adsr1 gain t) :=
  drivenRun_reachable (rampWrite_busWrite adsr1 gain) t

/-- What the traffic of this run sets, whatever happened before. -/
theorem rampRun_sets (t : Nat) :
    (rampRun host adsr1 gain t).spcRam = (fun _ => 0) ∧
      (rampRun host adsr1 gain t).dspRegs 0x4C = (if t = 0 then 1 else 0) ∧
      (rampRun host adsr1 gain t).dspRegs 0x5C = 0 ∧
      (rampRun host adsr1 gain t).dspRegs (16 * (0 : Fin 8) + 5) = adsr1 ∧
      (rampRun host adsr1 gain t).dspRegs (16 * (0 : Fin 8) + 7) = gain := by
  cases t <;> exact ⟨rfl, rfl, rfl, rfl, rfl⟩

/-- The key-on is accepted in update 0. -/
theorem rampRun_accept (t : Nat) :
    .accept 0 ∈ dspLog host (rampRun host adsr1 gain t) ↔ t = 0 := by
  obtain ⟨-, hkon, hkof, -⟩ := rampRun_sets host adsr1 gain t
  rw [mem_dspLog_accept ((rampRun_isKeyRun host adsr1 gain).noReset t)]
  unfold keyOnRequested
  rw [hkon, hkof]
  by_cases ht : t = 0
  · simp [ht, bit]
  · simp [ht, bit]

/-- There is no key-off. -/
theorem rampRun_keyOff (t : Nat) : .keyOff 0 ∉ dspLog host (rampRun host adsr1 gain t) := by
  obtain ⟨-, -, hkof, -⟩ := rampRun_sets host adsr1 gain t
  rw [mem_dspLog_keyOff ((rampRun_isKeyRun host adsr1 gain).noReset t), hkof]
  simp [bit]

/-- The start comes in update 8. -/
theorem rampRun_keyOn (t : Nat) : .keyOn 0 ∈ dspLog host (rampRun host adsr1 gain t) ↔ t = 8 := by
  rw [(rampRun_isKeyRun host adsr1 gain).keyOn_iff, rampRun_accept]
  constructor
  · rintro ⟨h8, h0, -⟩
    omega
  · rintro rfl
    refine ⟨le_rfl, rfl, fun u h1 h2 => ⟨?_, rampRun_keyOff host adsr1 gain u⟩⟩
    rw [rampRun_accept]
    omega

/-- By induction on the updates: from its start on the note stays on. -/
theorem rampRun_plays (t : Nat) :
    bit (dspNext host (rampRun host adsr1 gain (8 + t))).keys (0 : Fin 8) = true ∧
      ((dspNext host (rampRun host adsr1 gain (8 + t))).voiceState 0).endBits.testBit 0 = false ∧
      ((dspNext host (rampRun host adsr1 gain (8 + t))).voiceState 0).envstate ≠ .release := by
  have hrun := rampRun_isKeyRun host adsr1 gain
  have hram (u : Nat) (a : BitVec 16) : (rampRun host adsr1 gain u).spcRam a = 0 :=
    congrFun (rampRun_sets host adsr1 gain u).1 a
  have hreach := rampRun_reachable host adsr1 gain
  induction t with
  | zero =>
      have hstart := (rampRun_keyOn host adsr1 gain 8).mpr rfl
      obtain ⟨vp, hvp⟩ := envelopeEntry_of_start hstart
      obtain ⟨-, -, -, -, hst⟩ := envelopeEntry_some hvp
      have hend := envelopeEntry_endBits hvp
      rw [if_pos hstart] at hend
      rw [if_neg (rampRun_keyOff host adsr1 gain 8), if_pos hstart] at hst
      exact silence_step (hreach 8) (hram 8) hvp (by rw [hend]; rfl) (by rw [hst]; decide)
  | succ t ih =>
      obtain ⟨hkey, hend, hst⟩ := ih
      rw [← (hrun.run (8 + t)).keys] at hkey
      rw [← (hrun.run (8 + t)).voiceState] at hend hst
      have hno : .keyOn 0 ∉ dspLog host (rampRun host adsr1 gain (8 + t + 1)) := by
        rw [rampRun_keyOn]
        omega
      obtain ⟨vp, hvp⟩ := envelopeEntry_of_key host hkey (hrun.noReset (8 + t + 1))
      obtain ⟨-, -, -, -, hst'⟩ := envelopeEntry_some hvp
      have hend' := envelopeEntry_endBits hvp
      rw [if_neg hno] at hend'
      rw [if_neg (rampRun_keyOff host adsr1 gain _), if_neg hno] at hst'
      exact silence_step (hreach _) (hram _) hvp (by rw [hend']; exact hend) (by rw [hst']; exact hst)

/-- The note is held for ever. -/
theorem rampRun_heldNote (n : Nat) :
    HeldNote host 0 n fun t => rampRun host adsr1 gain (8 + t) where
  run := fun t => (rampRun_isKeyRun host adsr1 gain).run (8 + t)
  start := (rampRun_keyOn host adsr1 gain 8).mpr rfl
  once := by
    intro t h0 _
    rw [rampRun_keyOn]
    omega
  held := fun t _ => rampRun_keyOff host adsr1 gain (8 + t)
  active := fun t _ => (rampRun_plays host adsr1 gain t).1

end Ramp

/-- **The slowest attack** enters `DECAY` in its 131072nd update, and the
linear increase of rate 1 is then at the same level. -/
theorem rampRun_slowest :
    ∃ n, n + 1 = 131072 ∧
      let x := (dspNext (fun _ => 0) (rampRun (fun _ => 0) 0x80 0 (8 + n))).voiceState 0
      let y := (dspNext (fun _ => 0) (rampRun (fun _ => 0) 0 0xC1 (8 + n))).voiceState 0
      x.envx = 0x7FF ∧ x.envstate = .decay ∧ x.envx = y.envx := by
  obtain ⟨n, hn⟩ : ∃ n, n + 1 = 131072 := ⟨131071, rfl⟩
  have hlength : (n : Int) + 1 = attackLength 0 := by
    have hvalue : attackLength 0 = 131072 := by decide
    omega
  have hattack (u : Nat) (_ : u ≤ n) :
      AttackMode (rampRun (fun _ => 0) 0x80 0 (8 + u)) 0 0 := by
    unfold AttackMode
    rw [(rampRun_sets (fun _ => 0) 0x80 0 (8 + u)).2.2.2.1]
    decide
  have hincrease (u : Nat) (_ : u ≤ n) :
      IncreaseMode (rampRun (fun _ => 0) 0 0xC1 (8 + u)) 0 (2 * 0 + 1) := by
    unfold IncreaseMode
    rw [(rampRun_sets (fun _ => 0) 0 0xC1 (8 + u)).2.2.2.1,
      (rampRun_sets (fun _ => 0) 0 0xC1 (8 + u)).2.2.2.2]
    decide
  have hramps := envelope_ramps (rampRun_heldNote (fun _ => 0) 0x80 0 (n + 1))
  obtain ⟨hlevel, -, hdecay⟩ := hramps.1 0 (by decide) hattack
  have hagree := hramps.2.2 0 (by decide) hattack hlength.le _ 0 _
    (rampRun_heldNote (fun _ => 0) 0 0xC1 (n + 1)) hincrease
  refine ⟨n, hn, ?_, hdecay hlength, hagree⟩
  have htop : ramp (2 * 0 + 1) (n + 1) = 0x7FF := by
    rw [hn]
    decide
  exact (hlevel hlength.le).trans htop

end OpenSpc
