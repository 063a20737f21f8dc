import OpenSpc.DspState

/-!
# The envelope step

`AdvanceEnvelope` for one voice, as a function of the voice state and of the
three envelope registers of the voice.  On every path of the source the local
`envx` and the stored `voice_state[ v ].envx` agree at the end, so the field of
the result stands for both.
-/

namespace OpenSpc

open ByteMask (bit)

/-- `SL( v )`, the sustain level of an ADSR2 value. -/
def sustainLevel (adsr2 : Byte) : Int := adsr2.toNat / 2 ^ 5

/-- `SR( v )`, the sustain rate of an ADSR2 value. -/
def sustainRate (adsr2 : Byte) : Nat := adsr2.toNat % 2 ^ 5

/-- Multiplication of the envelope by `1 - 1/256`. -/
def expDecrease (envx : Int) : Int := envx - ((envx - 1) / 2 ^ 8 + 1)

/-- End of the `ATTACK` case: saturate and enter `DECAY` at the top. -/
def attackLevel (vp : VoiceState) (envx cnt : Int) : VoiceState :=
  if envx > 0x7FF then
    { vp with envx := 0x7FF, envstate := .decay, envcnt := cnt }
  else
    { vp with envx := envx, envcnt := cnt }

/-- The ADSR half of `AdvanceEnvelope`. -/
def adsrStep (adsr1 adsr2 : Byte) (vp : VoiceState) : VoiceState :=
  match vp.envstate with
  | .attack =>
      let t := adsr1.toNat % 2 ^ 4
      if t = 0xF then attackLevel vp (vp.envx + 0x400) vp.envcnt
      else
        let cnt := vp.envcnt - envCnt (2 * t + 1)
        if cnt > 0 then { vp with envcnt := cnt }
        else attackLevel vp (vp.envx + 0x20) cntInit
  | .decay =>
      let cnt := vp.envcnt - envCnt (2 * (adsr1.toNat / 2 ^ 4 % 2 ^ 3) + 0x10)
      let vp := if cnt ≤ 0 then
          { vp with envcnt := cntInit, envx := expDecrease vp.envx }
        else { vp with envcnt := cnt }
      if vp.envx ≤ 0x100 * (sustainLevel adsr2 + 1) then
        { vp with envstate := .sustain }
      else vp
  | .sustain =>
      let cnt := vp.envcnt - envCnt (sustainRate adsr2)
      if cnt > 0 then { vp with envcnt := cnt }
      else { vp with envcnt := cntInit, envx := expDecrease vp.envx }
  | .release => vp

/-- The level one counted step of a GAIN ramp leads to (`t >> 5` is the mode):
linear decrease, exponential decrease, linear increase, bent line. -/
def gainLevel (mode : Nat) (envx : Int) : Int :=
  match mode with
  | 4 => if envx - 0x20 < 0 then 0 else envx - 0x20
  | 5 => expDecrease envx
  | 6 => if envx + 0x20 > 0x7FF then 0x7FF else envx + 0x20
  | _ =>
      let envx := if envx < 0x600 then envx + 0x20 else envx + 0x08
      if envx > 0x7FF then 0x7FF else envx

/-- The GAIN half of `AdvanceEnvelope`. -/
def gainStep (gain : Byte) (vp : VoiceState) : VoiceState :=
  let t := gain.toNat
  if t < 0x80 then { vp with envx := t * 2 ^ 4 }
  else
    let cnt := vp.envcnt - envCnt (t % 2 ^ 5)
    if cnt > 0 then { vp with envcnt := cnt }
    else { vp with envcnt := cntInit, envx := gainLevel (t / 2 ^ 5) vp.envx }

/-- `AdvanceEnvelope`: the new voice state and the value stored in ENVX, or
`none` where the source clears the voice's bit of `keys` and returns -1. -/
def advanceEnvelope (adsr1 adsr2 gain : Byte) (vp : VoiceState) :
    Option (VoiceState × Byte) :=
  if vp.envstate = .release then
    let envx := vp.envx - 0x8
    if envx ≤ 0 then none
    else some ({ vp with envx := envx }, BitVec.ofInt 8 (envx / 2 ^ 8))
  else
    let vp := if bit adsr1 7 then adsrStep adsr1 adsr2 vp
      else gainStep gain vp
    some (vp, BitVec.ofInt 8 (vp.envx / 2 ^ 4))

/-! ## The envelope is a state of its own -/

/-- `vp` with the envelope of `w`. -/
def VoiceState.withEnvelope (vp w : VoiceState) : VoiceState :=
  { vp with envcnt := w.envcnt, envstate := w.envstate, envx := w.envx }

/-- An attack reads and writes the envelope only. -/
theorem attackLevel_withEnvelope (vp w : VoiceState) (envx cnt : Int) :
    attackLevel (vp.withEnvelope w) envx cnt = vp.withEnvelope (attackLevel w envx cnt) := by
  unfold attackLevel
  split <;> rfl

/-- ADSR mode reads and writes the envelope only. -/
theorem adsrStep_withEnvelope (adsr1 adsr2 : Byte) (vp w : VoiceState) :
    adsrStep adsr1 adsr2 (vp.withEnvelope w) = vp.withEnvelope (adsrStep adsr1 adsr2 w) := by
  have hstate : (vp.withEnvelope w).envstate = w.envstate := rfl
  have hcnt : (vp.withEnvelope w).envcnt = w.envcnt := rfl
  have hx : (vp.withEnvelope w).envx = w.envx := rfl
  unfold adsrStep
  rw [hstate]
  cases w.envstate
  · simp only [hcnt, hx, attackLevel_withEnvelope]
    split
    · rfl
    · split <;> rfl
  · simp only [hcnt, hx]
    split <;> split <;> simp_all [VoiceState.withEnvelope]
  · simp only [hcnt, hx]
    split <;> rfl
  · rfl

/-- GAIN mode reads and writes the envelope only. -/
theorem gainStep_withEnvelope (gain : Byte) (vp w : VoiceState) :
    gainStep gain (vp.withEnvelope w) = vp.withEnvelope (gainStep gain w) := by
  have hcnt : (vp.withEnvelope w).envcnt = w.envcnt := rfl
  have hx : (vp.withEnvelope w).envx = w.envx := rfl
  unfold gainStep
  simp only [hcnt, hx]
  split
  · rfl
  · split <;> rfl

/-- **The envelope step reads and writes the envelope only.** -/
theorem advanceEnvelope_withEnvelope (adsr1 adsr2 gain : Byte) (vp w : VoiceState) :
    advanceEnvelope adsr1 adsr2 gain (vp.withEnvelope w) =
      (advanceEnvelope adsr1 adsr2 gain w).map fun r => (vp.withEnvelope r.1, r.2) := by
  have hstate : (vp.withEnvelope w).envstate = w.envstate := rfl
  have hx : (vp.withEnvelope w).envx = w.envx := rfl
  unfold advanceEnvelope
  rw [hstate]
  split
  · dsimp only
    rw [hx]
    split <;> rfl
  · rw [adsrStep_withEnvelope, gainStep_withEnvelope]
    split <;> rfl

end OpenSpc
