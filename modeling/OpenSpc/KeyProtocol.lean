import OpenSpc.Countdown
import OpenSpc.DspRun

/-!
# The key-on protocol

A key-on that is accepted sets the voice's `on_cnt` to 8; the countdown is a
`Countdown.IsCountdown` in the sense of the library, cancelled by the key-off
rule.  That rule only applies to a voice whose bit in `keys` is set, so a
key-off that arrives while the voice is silent does not cancel a pending
start.  `keyOnProtocol_iff` says that this is the only way the protocol fails.
-/

namespace OpenSpc

open ByteMask (bit)

section OneUpdate

variable {host : Nat → Byte} {s : Dsp} {v : Fin 8}

variable (host v) in
/-- Without a reset, the prelude leaves the countdown, the key bits and KOF. -/
theorem prelude_quiet (hflg : bit (s.dspRegs 0x6C) 7 = false) :
    (voiceCell v (prelude s)).vp = s.voiceState v ∧
    (voiceCell v (prelude s)).key = bit s.keys v ∧
    (voiceCell v (prelude s)).kon = bit (s.dspRegs 0x4C) v ∧
    (voiceInput host v (prelude s)).kof = bit (s.dspRegs 0x5C) v := by
  have hkof : (voiceInput host v (prelude s)).kof = bit ((prelude s).dspRegs 0x5C) v := rfl
  rw [prelude_cell, hkof, prelude_kof, hflg]
  exact ⟨rfl, rfl, rfl, rfl⟩

/-- A key-on for voice `v` stands in the registers and no key-off forbids it. -/
def keyOnRequested (s : Dsp) (v : Fin 8) : Bool :=
  bit (s.dspRegs 0x4C) v && !bit (s.dspRegs 0x5C) v

variable (host v) in

/-- A voice is started in the update that counts down to zero. -/
theorem mem_dspLog_keyOn (hflg : bit (s.dspRegs 0x6C) 7 = false) :
    .keyOn v ∈ dspLog host s ↔ (s.voiceState v).onCnt = 1 := by
  obtain ⟨hvp, -⟩ := prelude_quiet host v hflg
  rw [mem_dspLog_voice rfl]
  unfold cellPass
  rw [VoiceCell.mem_pass_log_key _ _ _ _ (by simp) (by simp), VoiceCell.mem_keyEvents]
  simp [VoiceCell.starts, hvp]

/-- A key-on is accepted if it is asked for. -/
theorem mem_dspLog_accept (hflg : bit (s.dspRegs 0x6C) 7 = false) :
    .accept v ∈ dspLog host s ↔ keyOnRequested s v = true := by
  obtain ⟨-, -, hkon, hkof⟩ := prelude_quiet host v hflg
  rw [mem_dspLog_voice rfl]
  unfold cellPass
  rw [VoiceCell.mem_pass_log_key _ _ _ _ (by simp) (by simp), VoiceCell.mem_keyEvents]
  simp [VoiceCell.accepts, hkon, hkof, keyOnRequested]

/-- A key-off is observed by a voice that sounds or is started. -/
theorem mem_dspLog_keyOff (hflg : bit (s.dspRegs 0x6C) 7 = false) :
    .keyOff v ∈ dspLog host s ↔
      (bit s.keys v = true ∨ (s.voiceState v).onCnt = 1) ∧ bit (s.dspRegs 0x5C) v = true := by
  obtain ⟨hvp, hkey, -, hkof⟩ := prelude_quiet host v hflg
  rw [mem_dspLog_voice rfl]
  unfold cellPass
  rw [VoiceCell.mem_pass_log_key _ _ _ _ (by simp) (by simp), VoiceCell.mem_keyEvents]
  simp [VoiceCell.keyedOff, VoiceCell.starts, hvp, hkey, hkof]

variable (host v) in
/-- One update of the countdown. -/
theorem dspNext_onCnt (hflg : bit (s.dspRegs 0x6C) 7 = false) :
    ((dspNext host s).voiceState v).onCnt =
      if .keyOff v ∈ dspLog host s then 0
      else if .accept v ∈ dspLog host s then 8
      else (s.voiceState v).onCnt - 1 := by
  obtain ⟨hvp, hkey, hkon, hkof⟩ := prelude_quiet host v hflg
  have hoff : VoiceCell.keyedOff (voiceInput host v (prelude s)) (voiceCell v (prelude s)) = true ↔
      .keyOff v ∈ dspLog host s := by
    rw [mem_dspLog_keyOff hflg]
    simp [VoiceCell.keyedOff, VoiceCell.starts, hvp, hkey, hkof]
  have hacc : VoiceCell.accepts (voiceInput host v (prelude s)) (voiceCell v (prelude s)) = true ↔
      .accept v ∈ dspLog host s := by
    rw [mem_dspLog_accept hflg]
    simp [VoiceCell.accepts, hkon, hkof, keyOnRequested]
  rw [dspNext_voiceState]
  unfold cellPass
  rw [VoiceCell.pass_onCnt, VoiceCell.keyRules_onCnt, hvp]
  simp only [hoff, hacc]

/-- A silent voice is silent after an update that does not start it. -/
theorem dspNext_key (hflg : bit (s.dspRegs 0x6C) 7 = false)
    (h : bit (dspNext host s).keys v = true) :
    bit s.keys v = true ∨ (s.voiceState v).onCnt = 1 := by
  obtain ⟨hvp, hkey, -, -⟩ := prelude_quiet host v hflg
  rw [dspNext_keyBit] at h
  have hor := VoiceCell.pass_key _ _ _ _ h
  rw [hkey] at hor
  simpa [VoiceCell.starts, hvp] using hor

end OneUpdate

/-! ## Runs -/

/-- A run that begins right after a `DSP_Reset` and sees no further reset. -/
structure IsKeyRun (host : Nat → Byte) (s : Nat → Dsp) : Prop where
  run : IsDspRun host s
  start : ∃ s₀, BusWrite (dspReset s₀) (s 0)
  noReset : ∀ t, bit ((s t).dspRegs 0x6C) 7 = false

/-- A driven run whose FLG is constant and asks for no reset. -/
theorem drivenRun_isKeyRun {host : Nat → Byte} {write : Nat → Dsp → Dsp}
    (hw : ∀ t s, BusWrite s (write t s)) (flg : Byte) (hbit : bit flg 7 = false)
    (hflg : ∀ t s, (write t s).dspRegs 0x6C = flg) :
    IsKeyRun host (drivenRun host write) where
  run := drivenRun_isRun hw
  start := ⟨zeroDsp, hw 0 _⟩
  noReset := by
    intro t
    rw [drivenRun_reg (f := fun _ => flg) hflg]
    exact hbit

/-- The run begins after a reset, and FLG never asks for another. -/
theorem echoNoteRun_isKeyRun (host : Nat → Byte) : IsKeyRun host (echoNoteRun host) :=
  drivenRun_isKeyRun echoNote_busWrite 0 (by decide) fun _ _ => rfl

section Runs

variable {host : Nat → Byte} {s : Nat → Dsp}

/-- The countdown of a voice is one of eight updates. -/
theorem IsKeyRun.countdown (h : IsKeyRun host s) (v : Fin 8) :
    Countdown.IsCountdown 8 (fun t => .accept v ∈ dspLog host (s t))
      (fun t => .keyOff v ∈ dspLog host (s t)) (fun t => ((s t).voiceState v).onCnt) := by
  intro t
  have hnext : ((s (t + 1)).voiceState v).onCnt = ((dspNext host (s t)).voiceState v).onCnt := by
    rw [(h.run t).voiceState]
  have hstep := dspNext_onCnt host v (h.noReset t)
  beta_reduce
  rw [hnext, hstep]
  refine ⟨fun hc => if_pos hc, fun hc ha => ?_, fun hc ha => ?_⟩
  · rw [if_neg hc, if_pos ha]
  · rw [if_neg hc, if_neg ha]

/-- At the start of the run no voice is counted down. -/
theorem IsKeyRun.rest (h : IsKeyRun host s) (v : Fin 8) : ((s 0).voiceState v).onCnt = 0 := by
  obtain ⟨s₀, hw⟩ := h.start
  rw [hw.voiceState]
  rfl

/-- **When a voice starts.**  Exactly eight updates after the last accepted
key-on, provided the key-off rule did not apply in between. -/
theorem IsKeyRun.keyOn_iff (h : IsKeyRun host s) (v : Fin 8) (t : Nat) :
    .keyOn v ∈ dspLog host (s t) ↔
      8 ≤ t ∧ .accept v ∈ dspLog host (s (t - 8)) ∧
        ∀ u, t - 8 < u → u < t →
          .accept v ∉ dspLog host (s u) ∧ .keyOff v ∉ dspLog host (s u) := by
  have hfires := (h.countdown v).fires_iff (h.rest v) (by decide) t
  rw [mem_dspLog_keyOn host v (h.noReset t), hfires]
  constructor
  · rintro ⟨h8, ha, -, hfree⟩
    exact ⟨h8, ha, hfree⟩
  · rintro ⟨h8, ha, hfree⟩
    refine ⟨h8, ha, ?_, hfree⟩
    rw [mem_dspLog_accept (h.noReset _)] at ha
    rw [mem_dspLog_keyOff (h.noReset _)]
    unfold keyOnRequested at ha
    simp only [Bool.and_eq_true, Bool.not_eq_true'] at ha
    simp [ha.2]

/-- While a start is pending, the key-off rule applies to a sounding voice
only. -/
theorem IsKeyRun.keyOff_pending (h : IsKeyRun host s) (v : Fin 8) {t u : Nat} (h8 : 8 ≤ t)
    (ha : .accept v ∈ dspLog host (s (t - 8))) (hlo : t - 8 < u) (hhi : u < t) :
    .keyOff v ∈ dspLog host (s u) ↔
      bit (s u).keys v = true ∧ bit ((s u).dspRegs 0x5C) v = true := by
  have hno : ((s u).voiceState v).onCnt ≠ 1 := by
    intro hone
    rw [← mem_dspLog_keyOn host v (h.noReset u), h.keyOn_iff] at hone
    obtain ⟨h8u, -, hfree⟩ := hone
    exact (hfree (t - 8) (by omega) hlo).1 ha
  rw [mem_dspLog_keyOff (h.noReset u)]
  simp [hno]

/-- The protocol for voice `v` at update `t`: it starts there exactly if
update `t - 8` accepted a key-on, and since then no other key-on was accepted
and KOF was clear. -/
def KeyOnProtocol (host : Nat → Byte) (s : Nat → Dsp) (v : Fin 8) (t : Nat) : Prop :=
  .keyOn v ∈ dspLog host (s t) ↔
    8 ≤ t ∧ .accept v ∈ dspLog host (s (t - 8)) ∧
      ∀ u, t - 8 < u → u < t →
        .accept v ∉ dspLog host (s u) ∧ bit ((s u).dspRegs 0x5C) v = false

/-- A key-off for voice `v` fell into the eight updates before `t` in which a
start was pending, and only into updates that found the voice silent. -/
def SilentKeyOff (s : Nat → Dsp) (v : Fin 8) (t : Nat) : Prop :=
  8 ≤ t ∧ keyOnRequested (s (t - 8)) v = true ∧
    (∀ u, t - 8 < u → u < t → keyOnRequested (s u) v = false) ∧
    (∃ u, t - 8 < u ∧ u < t ∧ bit ((s u).dspRegs 0x5C) v = true) ∧
    ∀ u, t - 8 < u → u < t → bit ((s u).dspRegs 0x5C) v = true → bit (s u).keys v = false

/-- **The protocol and its one exception.** -/
theorem keyOnProtocol_iff (h : IsKeyRun host s) (v : Fin 8) (t : Nat) :
    KeyOnProtocol host s v t ↔ ¬ SilentKeyOff s v t := by
  have haccept (u : Nat) : .accept v ∈ dspLog host (s u) ↔ keyOnRequested (s u) v = true :=
    mem_dspLog_accept (h.noReset u)
  unfold KeyOnProtocol
  rw [h.keyOn_iff]
  constructor
  · rintro hiff ⟨h8, hreq, hnone, ⟨u, hlo, hhi, hkof⟩, hsilent⟩
    have hacc := (haccept (t - 8)).mpr hreq
    have hstart := hiff.mp ⟨h8, hacc, fun w h1 h2 => ⟨?_, ?_⟩⟩
    · have hclear := (hstart.2.2 u hlo hhi).2
      rw [hkof] at hclear
      exact absurd hclear (by decide)
    · rw [haccept, hnone w h1 h2]
      decide
    · rw [h.keyOff_pending v h8 hacc h1 h2]
      rintro ⟨hk, hoff⟩
      rw [hsilent w h1 h2 hoff] at hk
      exact absurd hk (by decide)
  · intro hcond
    constructor
    · rintro ⟨h8, hacc, hfree⟩
      refine ⟨h8, hacc, fun u h1 h2 => ⟨(hfree u h1 h2).1, ?_⟩⟩
      by_contra hkof
      refine hcond ⟨h8, (haccept _).mp hacc, fun w h3 h4 => ?_, ⟨u, h1, h2, by simpa using hkof⟩,
        fun w h3 h4 hw => ?_⟩
      · have := (hfree w h3 h4).1
        rw [haccept] at this
        simpa using this
      · have := (hfree w h3 h4).2
        rw [h.keyOff_pending v h8 hacc h3 h4] at this
        by_contra hk
        exact this ⟨by simpa using hk, hw⟩
    · rintro ⟨h8, hacc, hfree⟩
      refine ⟨h8, hacc, fun u h1 h2 => ⟨(hfree u h1 h2).1, ?_⟩⟩
      rw [h.keyOff_pending v h8 hacc h1 h2, (hfree u h1 h2).2]
      simp

end Runs

/-- The note of this run is keyed on in update 0, and starts in update 8. -/
theorem echoNoteRun_keyOn : .keyOn 0 ∈ dspLog (fun _ => 0) (echoNoteRun (fun _ => 0) 8) := by
  rw [mem_dspLog_keyOn _ _ ((echoNoteRun_isKeyRun _).noReset 8)]
  decide +kernel

/-- Its KOF is clear, so that the protocol holds of this start. -/
theorem echoNoteRun_protocol :
    .keyOn 0 ∈ dspLog (fun _ => 0) (echoNoteRun (fun _ => 0) 8) ∧
      KeyOnProtocol (fun _ => 0) (echoNoteRun fun _ => 0) 0 8 := by
  refine ⟨echoNoteRun_keyOn, (keyOnProtocol_iff (echoNoteRun_isKeyRun _) 0 8).mpr ?_⟩
  rintro ⟨-, -, -, ⟨u, -, -, hkof⟩, -⟩
  have hclear : (echoNoteRun (fun _ => 0) u).dspRegs 0x5C = 0 :=
    drivenRun_reg (f := fun _ => 0) (fun _ _ => rfl) u
  rw [hclear] at hkof
  exact absurd hkof (by decide)

/-! ## A key-off that is lost -/

/-- Key voice 0 on before update 0 and off before update 1. -/
def keyPulse (t : Nat) (s : Dsp) : Dsp :=
  { s with dspRegs := fun i =>
      if i = 0x6C then 0x20
      else if i = 0x4C then if t = 0 then 1 else 0
      else if i = 0x5C then if t = 1 then 1 else 0
      else s.dspRegs i }

/-- The traffic touches nothing but the registers. -/
theorem keyPulse_busWrite (t : Nat) (s : Dsp) : BusWrite s (keyPulse t s) := rfl

/-- The run with these two pulses. -/
def keyPulseRun (host : Nat → Byte) : Nat → Dsp := drivenRun host keyPulse

/-- KON is set before update 0. -/
theorem keyPulseRun_kon (host : Nat → Byte) (t : Nat) :
    (keyPulseRun host t).dspRegs 0x4C = if t = 0 then 1 else 0 :=
  drivenRun_reg (f := fun t => if t = 0 then 1 else 0) (fun _ _ => rfl) t

/-- KOF is set before update 1. -/
theorem keyPulseRun_kof (host : Nat → Byte) (t : Nat) :
    (keyPulseRun host t).dspRegs 0x5C = if t = 1 then 1 else 0 :=
  drivenRun_reg (f := fun t => if t = 1 then 1 else 0) (fun _ _ => rfl) t

/-- The run begins after a reset, and FLG never asks for another. -/
theorem keyPulseRun_isKeyRun (host : Nat → Byte) : IsKeyRun host (keyPulseRun host) :=
  drivenRun_isKeyRun keyPulse_busWrite 0x20 (by decide) fun _ _ => rfl

/-- The voice is silent when the key-off arrives. -/
theorem keyPulseRun_silent (host : Nat → Byte) :
    bit (keyPulseRun host 1).keys (0 : Fin 8) = false := by
  have hflg := (keyPulseRun_isKeyRun host).noReset 0
  by_contra hkey
  have hnext : bit (dspNext host (keyPulseRun host 0)).keys (0 : Fin 8) = true := by
    simpa [keyPulseRun, drivenRun, keyPulse] using hkey
  rcases dspNext_key hflg hnext with h | h
  · simp [keyPulseRun, drivenRun, keyPulse, dspReset, bit] at h
  · simp [keyPulseRun, drivenRun, keyPulse, dspReset] at h

/-- **A lost key-off.**  KOF is set one update after the key-on was accepted,
and the voice starts all the same. -/
theorem keyPulseRun_not_protocol :
    IsKeyRun (fun _ => 0) (keyPulseRun fun _ => 0) ∧
      ¬ KeyOnProtocol (fun _ => 0) (keyPulseRun fun _ => 0) 0 8 := by
  have hrun := keyPulseRun_isKeyRun fun _ => 0
  refine ⟨hrun, fun hprotocol => ?_⟩
  have hreq (u : Nat) : keyOnRequested (keyPulseRun (fun _ => 0) u) 0 = decide (u = 0) := by
    unfold keyOnRequested
    rw [keyPulseRun_kon, keyPulseRun_kof]
    by_cases h0 : u = 0
    · subst u
      decide
    · simp [h0, bit]
  have hacc : .accept 0 ∈ dspLog (fun _ => 0) (keyPulseRun (fun _ => 0) 0) := by
    rw [mem_dspLog_accept (hrun.noReset 0), hreq]
    decide
  have hstart : .keyOn 0 ∈ dspLog (fun _ => 0) (keyPulseRun (fun _ => 0) 8) := by
    rw [hrun.keyOn_iff]
    refine ⟨le_rfl, hacc, fun u h1 h2 => ⟨?_, ?_⟩⟩
    · rw [mem_dspLog_accept (hrun.noReset u), hreq]
      simp
      omega
    · rw [hrun.keyOff_pending 0 le_rfl hacc h1 h2]
      rintro ⟨hkey, hkof⟩
      rw [keyPulseRun_kof] at hkof
      by_cases hu : u = 1
      · rw [hu, keyPulseRun_silent] at hkey
        exact absurd hkey (by decide)
      · rw [if_neg hu] at hkof
        exact absurd hkof (by decide)
  have hclear := (hprotocol.mp hstart).2.2 1 (by decide) (by decide)
  rw [keyPulseRun_kof] at hclear
  exact absurd hclear.2 (by decide)

end OpenSpc
