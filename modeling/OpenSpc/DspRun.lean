import OpenSpc.BrrLoop
import OpenSpc.DspStep
import OpenSpc.InterferedRun

/-!
# Runs of the DSP

Between two calls of `DSP_Update` the emulated program writes DSP registers and
RAM, and the host may change the channel mask; nothing else of the DSP's state
is in reach.  A run is a sequence of updates under that interference.  This
file also reads off what a pass does to each component of a cell and which
events it logs, which is all that statements about runs need.
-/

namespace OpenSpc

open ByteMask (bit)

/-- `s'` differs from `s` at most in DSP registers, RAM and channel mask. -/
def BusWrite (s s' : Dsp) : Prop :=
  s' = { s with
    dspRegs := s'.dspRegs
    spcRam := s'.spcRam
    channelMask := s'.channelMask }

/-- The globals after one update. -/
def dspNext (host : Nat → Byte) (s : Dsp) : Dsp := (dspUpdate host true s).dsp

/-- The events of one update. -/
def dspLog (host : Nat → Byte) (s : Dsp) : List Event := (dspUpdate host true s).log

/-- Whether samples are stored has no influence on the globals. -/
theorem dspUpdate_dsp (host : Nat → Byte) (sound : Bool) (s : Dsp) :
    (dspUpdate host sound s).dsp = dspNext host s := rfl

/-! What an update leaves of a voice is what its pass leaves. -/

section Cells

variable (host : Nat → Byte) (s : Dsp) (v : Fin 8)

/-- The cell of a voice after an update. -/
theorem dspNext_cell : voiceCell v (dspNext host s) = (cellPass host s v).cell :=
  dspUpdate_cell host true s v

/-- The state of a voice after an update. -/
theorem dspNext_voiceState : (dspNext host s).voiceState v = (cellPass host s v).cell.vp :=
  congrArg VoiceCell.vp (dspNext_cell host s v)

/-- Its bit of `keys` after an update. -/
theorem dspNext_keyBit : bit (dspNext host s).keys v = (cellPass host s v).cell.key :=
  congrArg VoiceCell.key (dspNext_cell host s v)

/-- Its bit of KON after an update. -/
theorem dspNext_konBit : bit ((dspNext host s).dspRegs 0x4C) v = (cellPass host s v).cell.kon :=
  congrArg VoiceCell.kon (dspNext_cell host s v)

/-- Its bit of ENDX after an update. -/
theorem dspNext_endxBit : bit ((dspNext host s).dspRegs 0x7C) v = (cellPass host s v).cell.endx :=
  congrArg VoiceCell.endx (dspNext_cell host s v)

/-- Its ENVX after an update. -/
theorem dspNext_envxReg :
    (dspNext host s).dspRegs (16 * v + 8) = (cellPass host s v).cell.envxReg :=
  congrArg VoiceCell.envxReg (dspNext_cell host s v)

end Cells

/-- A run of updates with arbitrary register and RAM traffic in between. -/
abbrev IsDspRun (host : Nat → Byte) (s : Nat → Dsp) : Prop :=
  InterferedRun.IsRun (dspNext host) BusWrite s

/-- The states of the DSP in a process: zeroed globals, then any sequence of
resets, updates and bus writes. -/
inductive Reachable : Dsp → Prop where
  | boot : Reachable zeroDsp
  | reset {s : Dsp} : Reachable s → Reachable (dspReset s)
  | update {s : Dsp} (host : Nat → Byte) : Reachable s → Reachable (dspNext host s)
  | write {s s' : Dsp} : Reachable s → BusWrite s s' → Reachable s'

/-- Every state of a run that starts in a reachable state is reachable. -/
theorem IsDspRun.reachable {host : Nat → Byte} {s : Nat → Dsp} (hrun : IsDspRun host s)
    (h0 : Reachable (s 0)) (t : Nat) : Reachable (s t) :=
  hrun.invariant (fun _ h => h.update host) (fun _ _ hw h => h.write hw) h0 t

namespace BusWrite

variable {s s' : Dsp}

/-- The bus does not reach the voices. -/
theorem voiceState (h : BusWrite s s') : s'.voiceState = s.voiceState := by rw [h]

/-- The bus does not reach `keys`. -/
theorem keys (h : BusWrite s s') : s'.keys = s.keys := by rw [h]

/-- The bus does not reach the echo pointer. -/
theorem echoPtr (h : BusWrite s s') : s'.echoPtr = s.echoPtr := by rw [h]

/-- The bus does not reach the FIR buffers. -/
theorem fir (h : BusWrite s s') :
    s'.firLbuf = s.firLbuf ∧ s'.firRbuf = s.firRbuf ∧ s'.firPtr = s.firPtr := by
  rw [h]
  exact ⟨rfl, rfl, rfl⟩

/-- The bus does not reach the noise. -/
theorem noise (h : BusWrite s s') : s'.noiseCnt = s.noiseCnt ∧ s'.noiseLev = s.noiseLev := by
  rw [h]
  exact ⟨rfl, rfl⟩

end BusWrite

/-- The run from a reset of the zeroed DSP in which `write t` is the bus
traffic before update `t`. -/
def drivenRun (host : Nat → Byte) (write : Nat → Dsp → Dsp) : Nat → Dsp
  | 0 => write 0 (dspReset zeroDsp)
  | t + 1 => write (t + 1) (dspNext host (drivenRun host write t))

section Driven

variable {host : Nat → Byte} {write : Nat → Dsp → Dsp}

/-- A driven run is a run. -/
theorem drivenRun_isRun {env : Dsp → Dsp → Prop} (hw : ∀ t s, env s (write t s)) :
    InterferedRun.IsRun (dspNext host) env (drivenRun host write) :=
  fun _ => hw _ _

/-- The states of a driven run can be reached. -/
theorem drivenRun_reachable (hw : ∀ t s, BusWrite s (write t s)) (t : Nat) :
    Reachable (drivenRun host write t) :=
  IsDspRun.reachable (drivenRun_isRun hw) (.write (.reset .boot) (hw 0 _)) t

/-- A register the traffic always sets is as it was set. -/
theorem drivenRun_reg {i : Nat} {f : Nat → Byte} (h : ∀ t s, (write t s).dspRegs i = f t)
    (t : Nat) : (drivenRun host write t).dspRegs i = f t := by
  cases t with
  | zero => exact h 0 _
  | succ t => exact h (t + 1) _

end Driven

/-- Voice 0 is keyed on before update 0, in a RAM of ones with the directory on
page 3, and the echo unit feeds what it reads back into a ring that begins on
the last page and wraps. -/
def echoNote (t : Nat) (s : Dsp) : Dsp :=
  { s with
    spcRam := if t = 0 then fun _ => 1 else s.spcRam
    dspRegs := fun i =>
      if i = 0x4C then if t = 0 then 1 else 0
      else if i = 0x5D then 3
      else if i = 0x6D then 0xFF
      else if i = 0x7D then 1
      else if i = 0x0D then 0x7F
      else if i = 0x7F then 0x7F
      else if i = 7 then 0x7F
      else 0 }

/-- The traffic touches only the registers and RAM. -/
theorem echoNote_busWrite (t : Nat) (s : Dsp) : BusWrite s (echoNote t s) := rfl

/-- The run with this traffic. -/
def echoNoteRun (host : Nat → Byte) : Nat → Dsp := drivenRun host echoNote

/-- The states of this run can be reached. -/
theorem echoNoteRun_reachable (host : Nat → Byte) (t : Nat) : Reachable (echoNoteRun host t) :=
  drivenRun_reachable echoNote_busWrite t

/-- No reset, and echo writes enabled. -/
theorem echoNoteRun_flg (host : Nat → Byte) (t : Nat) : (echoNoteRun host t).dspRegs 0x6C = 0 :=
  drivenRun_reg (f := fun _ => 0) (fun _ _ => rfl) t

/-- Update `r` is the first after a reset, and no update from there to `t` makes
another one. -/
structure SinceReset (s : Nat → Dsp) (r t : Nat) : Prop where
  le : r ≤ t
  reset : bit ((s r).dspRegs 0x6C) 7 = true ∨ r = 0 ∧ ∃ s₀, BusWrite (dspReset s₀) (s 0)
  quiet : ∀ u, r < u → u ≤ t → bit ((s u).dspRegs 0x6C) 7 = false

/-- In a run that starts with a reset, every update has a last reset before it. -/
theorem SinceReset.exists_start {s : Nat → Dsp} (h0 : ∃ s₀, BusWrite (dspReset s₀) (s 0)) (t : Nat) :
    ∃ r, SinceReset s r t := by
  induction t with
  | zero => exact ⟨0, le_rfl, Or.inr ⟨rfl, h0⟩, fun u h1 h2 => absurd h2 (by omega)⟩
  | succ t ih =>
      obtain ⟨r, hr⟩ := ih
      by_cases hset : bit ((s (t + 1)).dspRegs 0x6C) 7 = true
      · exact ⟨t + 1, le_rfl, Or.inl hset, fun u h1 h2 => absurd h2 (by omega)⟩
      · refine ⟨r, hr.le.trans (Nat.le_succ t), hr.reset, fun u h1 h2 => ?_⟩
        rcases Nat.lt_or_ge t u with hlast | hbefore
        · obtain rfl : u = t + 1 := by omega
          simpa using hset
        · exact hr.quiet u h1 hbefore

/-- What the first update after a reset establishes, and every further one
keeps. -/
theorem SinceReset.induction {s : Nat → Dsp} {r t : Nat} (h : SinceReset s r t)
    {P : Nat → Prop} (hstart : P r)
    (hstep : ∀ u, r ≤ u → bit ((s (u + 1)).dspRegs 0x6C) 7 = false → P u → P (u + 1)) : P t := by
  obtain ⟨hle, -, hquiet⟩ := h
  induction t, hle using Nat.le_induction with
  | base => exact hstart
  | succ t hle ih =>
      exact hstep t hle (hquiet (t + 1) (by omega) le_rfl)
        (ih fun u h1 h2 => hquiet u h1 (by omega))

/-! ## Components of a cell after a pass -/

/-- The envelope step touches the envelope fields only. -/
theorem advanceEnvelope_frame {adsr1 adsr2 gain : Byte} {vp vp' : VoiceState} {b : Byte}
    (h : advanceEnvelope adsr1 adsr2 gain vp = some (vp', b)) :
    vp' = { vp with envcnt := vp'.envcnt, envx := vp'.envx, envstate := vp'.envstate } := by
  have hself := advanceEnvelope_withEnvelope adsr1 adsr2 gain vp vp
  have hvp : vp.withEnvelope vp = vp := rfl
  rw [hvp, h] at hself
  simp only [Option.map_some, Option.some.injEq, Prod.mk.injEq, and_true] at hself
  exact hself

namespace VoiceCell

variable (v : Fin 8) (i : VoiceInput) (outx : Int) (c : VoiceCell)

/-- The key rules never touch ENDX. -/
theorem keyRules_endx : (c.keyRules i).endx = c.endx := by
  unfold keyRules keyOn accept keyOff accepts
  dsimp only
  split <;> split <;> split <;> rfl

/-- A start turns the voice on. -/
theorem keyOn_key : (c.keyOn i).key = (c.key || c.starts) := by
  unfold keyOn
  cases c.starts <;> simp

/-- An acceptance does not turn the voice on. -/
theorem accept_key : (c.accept i).key = c.key := by
  unfold accept
  split <;> rfl

/-- A key-off does not turn the voice off. -/
theorem keyOff_key : (c.keyOff i).key = c.key := by
  unfold keyOff
  split <;> rfl

/-- A voice sounds behind the key rules if it did before or is started. -/
theorem keyRules_key : (c.keyRules i).key = (c.key || c.starts) := by
  unfold keyRules
  rw [keyOff_key, accept_key, keyOn_key]

/-- The voice is examined for a key-off after a start of the same update. -/
def keyedOff : Bool := (c.key || c.starts) && i.kof

/-- **The three key rules on the countdown.** -/
theorem keyRules_onCnt :
    (c.keyRules i).vp.onCnt =
      if c.keyedOff i then 0 else if c.accepts i then 8 else c.vp.onCnt - 1 := by
  have hon : (c.keyOn i).vp.onCnt = c.vp.onCnt - 1 ∧ (c.keyOn i).kon = c.kon := by
    unfold keyOn starts
    by_cases h : c.vp.onCnt = 1
    · simp [h, VoiceState.start]
    · simp [h]
  have hacc (c : VoiceCell) : (c.accept i).vp.onCnt =
      if c.accepts i then 8 else c.vp.onCnt := by
    unfold accept
    split <;> rfl
  have hoff (c : VoiceCell) : (c.keyOff i).vp.onCnt =
      if c.key && i.kof then 0 else c.vp.onCnt := by
    unfold keyOff
    split <;> rfl
  have haccepts : (c.keyOn i).accepts i = c.accepts i := by
    unfold accepts
    rw [hon.2]
  unfold keyRules keyedOff
  rw [hoff, hacc, accept_key, keyOn_key, haccepts, hon.1]

/-- Playing leaves the countdown. -/
theorem play_onCnt (envx : Int) : (play v i outx envx c).cell.vp.onCnt = c.vp.onCnt := by
  have h := (brrDecode_control i.mem i.entry v { c.vp with pitch := effPitch i outx }).1
  exact congrArg (fun r : Int × EnvState × Nat × Int => r.2.2.1) h

/-- **What a pass can do.**  The voice is silent, it dies in the envelope step,
it has a level below zero, or it plays. -/
theorem pass_cases :
    ((c.keyRules i).key = false ∧
      pass v i outx c = { cell := (c.keyRules i).silence, outx := 0, log := c.keyEvents v i }) ∨
    ((c.keyRules i).key = true ∧
      advanceEnvelope i.adsr1 i.adsr2 i.gain (c.keyRules i).vp = none ∧
      pass v i outx c =
        { cell := { c.keyRules i with key := false }.silence, outx := 0, log := c.keyEvents v i }) ∨
    (∃ vp b, (c.keyRules i).key = true ∧
      advanceEnvelope i.adsr1 i.adsr2 i.gain (c.keyRules i).vp = some (vp, b) ∧ vp.envx < 0 ∧
      pass v i outx c =
        { cell := { c.keyRules i with vp := vp }.silence, outx := 0, log := c.keyEvents v i }) ∨
    ∃ vp b, (c.keyRules i).key = true ∧
      advanceEnvelope i.adsr1 i.adsr2 i.gain (c.keyRules i).vp = some (vp, b) ∧ 0 ≤ vp.envx ∧
      pass v i outx c =
        let p := play v i outx vp.envx { c.keyRules i with vp := vp, envxReg := b }
        { p with log := c.keyEvents v i ++ p.log } := by
  unfold pass
  dsimp only
  cases hk : (c.keyRules i).key
  · exact Or.inl ⟨rfl, rfl⟩
  · cases hadv : advanceEnvelope i.adsr1 i.adsr2 i.gain (c.keyRules i).vp with
    | none => exact Or.inr (Or.inl ⟨rfl, rfl, rfl⟩)
    | some r =>
        refine Or.inr (Or.inr ?_)
        rcases lt_or_ge r.1.envx 0 with hneg | hpos
        · exact Or.inl ⟨r.1, r.2, rfl, rfl, hneg, if_pos hneg⟩
        · exact Or.inr ⟨r.1, r.2, rfl, rfl, hpos, if_neg hpos.not_gt⟩

/-- Only the key rules touch the countdown. -/
theorem pass_onCnt : (pass v i outx c).cell.vp.onCnt = (c.keyRules i).vp.onCnt := by
  rcases pass_cases v i outx c with
    ⟨-, hpass⟩ | ⟨-, -, hpass⟩ | ⟨vp, b, -, hadv, -, hpass⟩ | ⟨vp, b, -, hadv, -, hpass⟩
  · rw [hpass]
    rfl
  · rw [hpass]
    rfl
  · rw [hpass]
    change vp.onCnt = _
    rw [advanceEnvelope_frame hadv]
  · rw [hpass]
    dsimp only
    rw [play_onCnt, advanceEnvelope_frame hadv]

/-- What the key rules leave of the voice state: a start re-initialises it, the
rest touches the countdown and the envelope stage. -/
theorem keyRules_vp :
    (c.keyRules i).vp =
      { (if c.starts then c.vp.start (i.mem.vptr i.entry) else c.vp) with
        onCnt := (c.keyRules i).vp.onCnt
        envstate := (c.keyRules i).vp.envstate } := by
  unfold keyRules keyOn accept keyOff accepts
  dsimp only
  split <;> split <;> split <;> rfl

/-- A voice sounds after a pass only if it sounded before or is started. -/
theorem pass_key (h : (pass v i outx c).cell.key = true) : c.key = true ∨ c.starts = true := by
  have hrules : (c.keyRules i).key = true := by
    rcases pass_cases v i outx c with ⟨hk, hpass⟩ | ⟨hk, -⟩ | ⟨_, _, hk, -⟩ | ⟨_, _, hk, -⟩
    · rw [hpass] at h
      exact absurd (h.symm.trans hk) (by decide)
    · exact hk
    · exact hk
    · exact hk
  rw [keyRules_key] at hrules
  simpa using hrules

/-- The state with which a voice enters the decode loop of a pass, if it gets
that far. -/
def playing : Option VoiceState :=
  if (c.keyRules i).key then
    ((advanceEnvelope i.adsr1 i.adsr2 i.gain (c.keyRules i).vp).map Prod.fst).filter
      fun vp => 0 ≤ vp.envx
  else none

/-- A voice gets to its decode loop if it sounds and survives its envelope step,
at a level from zero on. -/
theorem playing_eq_some {i : VoiceInput} {c : VoiceCell} {vp : VoiceState} :
    c.playing i = some vp ↔ ∃ b, (c.keyRules i).key = true ∧
      advanceEnvelope i.adsr1 i.adsr2 i.gain (c.keyRules i).vp = some (vp, b) ∧
      0 ≤ vp.envx := by
  unfold playing
  split
  · rename_i hk
    simp [hk, Option.filter_eq_some_iff, exists_and_right]
  · rename_i hk
    simp [hk]

/-! ## Events of a pass -/

/-- The decode loop logs end-of-block events of its own voice, and reads; it
sets ENDX exactly when it logs the former. -/
theorem brrDecode_log (vp : VoiceState) :
    (∀ e ∈ (brrDecode i.mem i.entry v vp).log, e = .endBlock v ∨ ∃ k, e = .read k) ∧
    (Event.endBlock v ∈ (brrDecode i.mem i.entry v vp).log ↔
      (brrDecode i.mem i.entry v vp).endx = true) := by
  refine decodeLoop_keeps i.mem i.entry v
    (P := fun d => (∀ e ∈ d.log, e = .endBlock v ∨ ∃ k, e = .read k) ∧
      (Event.endBlock v ∈ d.log ↔ d.endx = true)) ?_ ?_ _ _ rfl (by simp)
  · intro d _ _ hP
    obtain ⟨hlog, hendx⟩ := hP
    rcases enterBlock_cases i.mem i.entry v d with ⟨-, hd⟩ | ⟨-, hd⟩ | ⟨-, hd⟩ | ⟨-, hd⟩
    · rw [hd]
      exact ⟨hlog, hendx⟩
    · rw [hd]
      refine ⟨fun e he => ?_, by simpa using hendx⟩
      simp only [List.mem_append, List.mem_cons, List.not_mem_nil, or_false] at he
      rcases he with he | rfl
      · exact hlog e he
      · exact Or.inr ⟨_, rfl⟩
    · rw [hd]
      refine ⟨fun e he => ?_, by simp⟩
      simp only [List.mem_append, List.mem_cons, List.not_mem_nil, or_false] at he
      rcases he with he | rfl | rfl | rfl | rfl
      · exact hlog e he
      · exact Or.inl rfl
      · exact Or.inr ⟨_, rfl⟩
      · exact Or.inr ⟨_, rfl⟩
      · exact Or.inr ⟨_, rfl⟩
    · rw [hd]
      refine ⟨fun e he => ?_, by simp⟩
      simp only [List.mem_append, List.mem_cons, List.not_mem_nil, or_false] at he
      rcases he with he | rfl
      · exact hlog e he
      · exact Or.inl rfl
  · intro d _ _ hP
    obtain ⟨hlog, hendx⟩ := hP
    unfold decodePass
    refine ⟨fun e he => ?_, by simpa using hendx⟩
    simp only [List.mem_append, List.mem_cons, List.not_mem_nil, or_false] at he
    rcases he with he | rfl
    · exact hlog e he
    · exact Or.inr ⟨_, rfl⟩

/-- The log of a pass: the key events, then those of the decode loop. -/
theorem mem_pass_log (e : Event) :
    e ∈ (pass v i outx c).log ↔ e ∈ c.keyEvents v i ∨
      ∃ vp, c.playing i = some vp ∧ e ∈ (decode v i outx vp).log := by
  unfold playing
  rcases pass_cases v i outx c with
    ⟨hk, hpass⟩ | ⟨hk, hadv, hpass⟩ | ⟨vp, b, hk, hadv, hx, hpass⟩ | ⟨vp, b, hk, hadv, hx, hpass⟩
  · simp [hpass, hk]
  · simp [hpass, hadv]
  · simp [hpass, hk, hadv, hx.not_ge]
  · simp [hpass, hk, hadv, hx, play]

/-- An event that is neither an end of block nor a read is a key event. -/
theorem mem_pass_log_key {e : Event} (hend : ∀ w, e ≠ .endBlock w) (hread : ∀ k, e ≠ .read k) :
    e ∈ (pass v i outx c).log ↔ e ∈ c.keyEvents v i := by
  rw [mem_pass_log]
  constructor
  · rintro (h | ⟨vp, -, h⟩)
    · exact h
    · rcases (brrDecode_log v i _).1 e h with rfl | ⟨k, rfl⟩
      · exact absurd rfl (hend v)
      · exact absurd rfl (hread k)
  · exact Or.inl

/-- The key events are those of the rules that apply. -/
theorem mem_keyEvents (e : Event) :
    e ∈ c.keyEvents v i ↔
      (c.starts = true ∧ (e = .keyOn v ∨ e = .read i.entry ∨ e = .read (i.entry + 1))) ∨
      (c.accepts i = true ∧ e = .accept v) ∨ (c.keyedOff i = true ∧ e = .keyOff v) := by
  have hite (b : Bool) (l : List Event) :
      e ∈ (if b then l else []) ↔ b = true ∧ e ∈ l := by
    cases b <;> simp
  unfold keyEvents keyedOff
  rw [accept_key, keyOn_key, List.mem_append, List.mem_append, hite, hite, hite, or_assoc]
  simp only [List.mem_cons, List.not_mem_nil, or_false]

/-- ENDX is set by exactly the passes that log an end of block. -/
theorem pass_endx :
    (pass v i outx c).cell.endx = true ↔
      c.endx = true ∨ Event.endBlock v ∈ (pass v i outx c).log := by
  have hkey : Event.endBlock v ∉ c.keyEvents v i := by
    rw [mem_keyEvents]
    simp
  rw [← keyRules_endx i c]
  rcases pass_cases v i outx c with
    ⟨-, hpass⟩ | ⟨-, -, hpass⟩ | ⟨vp, b, -, -, -, hpass⟩ | ⟨vp, b, -, -, -, hpass⟩
  · simp [hpass, silence, hkey]
  · simp [hpass, silence, hkey]
  · simp [hpass, silence, hkey]
  · have hlog := (brrDecode_log v i { vp with pitch := effPitch i outx }).2
    rw [hpass]
    simp only [play, decode, Bool.or_eq_true, ← hlog, List.mem_append, hkey, false_or]

/-- The pass that starts a voice decodes four samples of its first block and
meets no end. -/
theorem pass_starts_log (h : c.starts = true) : Event.endBlock v ∉ (pass v i outx c).log := by
  rw [mem_pass_log, mem_keyEvents]
  rintro (hkey | ⟨vp, hplaying, he⟩)
  · simp at hkey
  · obtain ⟨b, -, hadv, -⟩ := playing_eq_some.mp hplaying
    have hvp := advanceEnvelope_frame hadv
    rw [keyRules_vp, h, if_pos rfl] at hvp
    have hmix : vp.mixfrac = 3 * 4096 := by rw [hvp]; rfl
    have hcnt : vp.headerCnt = 0 := by rw [hvp]; rfl
    have hend : vp.endBits = 0 := by rw [hvp]; rfl
    have hhalf : vp.half = 0 := by rw [hvp]; rfl
    have hplain : (decode v i outx vp).endx = false ∧ (decode v i outx vp).ended = false :=
      brrDecode_start i.mem i.entry v hcnt hend hhalf hmix
    unfold decode at hplain
    have hendx := (brrDecode_log v i { vp with pitch := effPitch i outx }).2.mp he
    rw [hplain.1] at hendx
    exact absurd hendx Bool.false_ne_true

end VoiceCell

/-! ## Events of an update -/

/-- The voice an event is about. -/
def Event.voice : Event → Option (Fin 8)
  | .keyOn v => some v
  | .accept v => some v
  | .keyOff v => some v
  | .endBlock v => some v
  | .read _ => none
  | .write _ => none

/-- A pass logs events about its own voice only. -/
theorem VoiceCell.pass_log_voice {v w : Fin 8} {i : VoiceInput} {outx : Int} {c : VoiceCell}
    {e : Event} (he : e ∈ (pass v i outx c).log) (hw : e.voice = some w) : v = w := by
  rw [mem_pass_log, mem_keyEvents] at he
  rcases he with ((⟨-, rfl | rfl | rfl⟩ | ⟨-, rfl⟩ | ⟨-, rfl⟩) | ⟨vp, -, he⟩)
  · exact Option.some.inj hw
  · cases hw
  · cases hw
  · exact Option.some.inj hw
  · exact Option.some.inj hw
  · rcases (brrDecode_log v i _).1 e he with rfl | ⟨k, rfl⟩
    · exact Option.some.inj hw
    · cases hw

/-- An event about voice `v` is logged by the pass of voice `v`. -/
theorem mem_dspLog_voice {host : Nat → Byte} {s : Dsp} {v : Fin 8} {e : Event}
    (hv : e.voice = some v) : e ∈ dspLog host s ↔ e ∈ (cellPass host s v).log := by
  have hslot (f : Nat → Event) (hf : ∀ k, (f k).voice = none) (l : List Nat) : e ∉ l.map f := by
    intro h
    obtain ⟨k, -, rfl⟩ := List.mem_map.mp h
    rw [hf] at hv
    cases hv
  unfold dspLog
  rw [mem_dspUpdate_log]
  constructor
  · rintro (⟨w, h⟩ | h | ⟨-, h⟩)
    · have hwv : w = v := VoiceCell.pass_log_voice h hv
      rwa [hwv] at h
    · exact absurd h (hslot _ (fun _ => rfl) _)
    · exact absurd h (hslot _ (fun _ => rfl) _)
  · intro h
    exact Or.inl ⟨v, h⟩

end OpenSpc
