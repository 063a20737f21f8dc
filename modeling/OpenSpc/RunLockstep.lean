import OpenSpc.PeriodicTicks
import OpenSpc.SpcContext

/-!
# DSP and CPU in lockstep

The calls `Run` makes, flattened into updates and single CPU cycles, always
continue a `PeriodicTicks` schedule of period 32 from `mix_left_`
(`runPlan_ticks`).  What `Run` leaves in `mix_left_` is the right remainder in
all cases but one: a cycle limit that uses up an old remainder and then a whole
number of sample periods keeps the old remainder (`Stale`).
-/

namespace OpenSpc

open Narrow (narrow)
open PeriodicTicks (Tick schedule resume remaining remainingAfter steps events)

/-! ## Calls as ticks -/

/-- A call as a list of updates and cycles. -/
def Call.ticks : Call → List Tick
  | .dspUpdate _ => [.event]
  | .spcRun n => List.replicate n .step

/-- The updates and cycles of a list of calls. -/
def ticks (l : List Call) : List Tick := l.flatMap Call.ticks

/-- Calls of `DSP_Update` in a list of calls. -/
def updates (l : List Call) : Nat := events (ticks l)

/-- CPU cycles of a list of calls. -/
def cycles (l : List Call) : Nat := steps (ticks l)

/-- The stereo pair a call writes. -/
def Call.pair : Call → Option Nat
  | .dspUpdate buf => buf
  | .spcRun _ => none

/-- The stereo pairs written by a list of calls, in order. -/
def pairs (l : List Call) : List Nat := l.filterMap Call.pair

theorem ticks_append (l l' : List Call) : ticks (l ++ l') = ticks l ++ ticks l' :=
  List.flatMap_append

theorem pairs_append (l l' : List Call) : pairs (l ++ l') = pairs l ++ pairs l' :=
  List.filterMap_append

/-! ## The loops of `Run` -/

/-- Each round of the buffer loop updates the DSP and then runs `TS_CYC` cycles.
-/
theorem bufferLoop_ticks (n : Nat) : ∀ buf, ticks (bufferLoop n buf) = resume tsCyc 0 (tsCyc * n) := by
  induction n with
  | zero => intro buf; rfl
  | succ n ih =>
      intro buf
      have hshift : tsCyc * (n + 1) = tsCyc + tsCyc * n := by rw [Nat.mul_succ, Nat.add_comm]
      rw [hshift, PeriodicTicks.resume_period (by decide), ← ih (nextPair buf)]
      rfl

/-- The rounds of the buffer loop fill one pair after the other. -/
theorem bufferLoop_pairs (n : Nat) : ∀ i, pairs (bufferLoop n (some i)) = List.range' i n := by
  induction n with
  | zero => intro i; rfl
  | succ n ih =>
      intro i
      rw [List.range'_succ, ← ih (i + 1)]
      rfl

/-- Every round is given a buffer if the first is. -/
theorem bufferLoop_sound (n : Nat) : ∀ buf buf', .dspUpdate buf' ∈ bufferLoop n buf →
    buf'.isSome = buf.isSome := by
  induction n with
  | zero => intro buf buf' h; exact absurd h List.not_mem_nil
  | succ n ih =>
      intro buf buf' h
      simp only [bufferLoop, List.mem_cons, Call.dspUpdate.injEq, reduceCtorEq, false_or] at h
      rcases h with rfl | h
      · rfl
      · have := ih _ _ h
        rw [this]
        cases buf <;> rfl

/-- While the limit allows it, the loop of the cycle-limited path makes the
same calls as the other one. -/
theorem cycleLoop_eq (n : Nat) : ∀ x : CycleLoop, (tsCyc * n : Nat) ≤ x.cycleLimit →
    cycleLoop n x =
      { calls := x.calls ++ bufferLoop n x.buf
        cycleLimit := x.cycleLimit - (tsCyc * n : Nat)
        samplesWritten := x.samplesWritten + n
        buf := x.buf.map (· + n) } := by
  induction n with
  | zero =>
      intro x _
      cases x
      simp [cycleLoop, bufferLoop]
  | succ n ih =>
      intro x hx
      have hgo : x.cycleLimit ≥ tsCyc := by
        unfold tsCyc at hx ⊢
        omega
      rw [cycleLoop, if_pos hgo, ih _ (by unfold tsCyc at hx ⊢; simp only; omega)]
      have hpair : (nextPair x.buf).map (· + n) = x.buf.map (· + (n + 1)) := by
        cases x.buf with
        | none => rfl
        | some i => simp [nextPair]; omega
      simp only [hpair, bufferLoop, List.append_assoc, List.cons_append, List.nil_append,
        CycleLoop.mk.injEq, true_and, and_true]
      constructor
      · unfold tsCyc
        push_cast
        omega
      · push_cast
        omega

/-! ## The cases of `Run` -/

/-- The size of the buffer is taken as the limit. -/
def BufferLimited (mixLeft cycleLimit : Int) (buf : Bool) (bufSize : Nat) : Prop :=
  cycleLimit < 0 ∨ (buf ∧ cycleLimit ≥ bufCycles mixLeft bufSize)

instance (mixLeft cycleLimit : Int) (buf : Bool) (bufSize : Nat) :
    Decidable (BufferLimited mixLeft cycleLimit buf bufSize) :=
  inferInstanceAs (Decidable (_ ∨ _))

/-- CPU cycles an execution of `Run` takes. -/
def runCycles (mixLeft : Nat) (cycleLimit : Int) (buf : Bool) (bufSize : Nat) : Nat :=
  if BufferLimited mixLeft cycleLimit buf bufSize then mixLeft + tsCyc * (bufSize / 4)
  else cycleLimit.toNat

/-- A cycle limit that uses up the remainder `mixLeft` and then a whole number
of sample periods: `mix_left_` is not brought up to date. -/
def Stale (mixLeft cycleLimit : Int) (buf : Bool) (bufSize : Nat) : Prop :=
  ¬ BufferLimited mixLeft cycleLimit buf bufSize ∧ mixLeft ≠ 0 ∧ mixLeft ≤ cycleLimit ∧
    (tsCyc : Int) ∣ cycleLimit - mixLeft

instance (mixLeft cycleLimit : Int) (buf : Bool) (bufSize : Nat) :
    Decidable (Stale mixLeft cycleLimit buf bufSize) :=
  inferInstanceAs (Decidable (_ ∧ _))

/-- Draining the remainder. -/
def drainCalls (mixLeft : Nat) : List Call := if mixLeft ≠ 0 then [.spcRun mixLeft] else []

theorem drainCalls_ticks (m : Nat) : ticks (drainCalls m) = List.replicate m .step := by
  unfold drainCalls
  split
  · simp [ticks, Call.ticks]
  · rename_i h
    have hz : m = 0 := by omega
    rw [hz]
    rfl

theorem drainCalls_pairs (m : Nat) : pairs (drainCalls m) = [] := by
  unfold drainCalls
  split <;> rfl

section Cases

variable (m : Nat) (cyc : Int) (buf : Bool) (size : Nat)

/-- The pointer at which the output starts. -/
def firstPair (buf : Bool) : Option Nat := if buf then some 0 else none

/-- The calls of a run that the buffer limits. -/
theorem runPlan_buffer (h : BufferLimited m cyc buf size) :
    runPlan m cyc buf size =
      { calls := drainCalls m ++ bufferLoop (size / 4) (firstPair buf)
        mixLeft := 0
        ret := narrow 31 ↑(size / 4 * 4) } := by
  unfold BufferLimited at h
  unfold runPlan drainCalls firstPair
  dsimp only
  rw [if_pos h]
  simp

/-- The calls of a run that ends before the next sample is due. -/
theorem runPlan_short (h : ¬ BufferLimited m cyc buf size) (hlt : cyc < m) :
    runPlan m cyc buf size =
      { calls := [.spcRun cyc.toNat], mixLeft := m - cyc, ret := 0 } := by
  unfold BufferLimited at h
  unfold runPlan
  dsimp only
  rw [if_neg h, if_pos hlt]

/-- The cycle-limited path when the limit reaches past the remainder: `n` whole
sample periods, and `r` cycles of another one. -/
theorem runPlan_limit (h : ¬ BufferLimited m cyc buf size) {n r : Nat} (hr : r < tsCyc)
    (hcyc : cyc = m + (tsCyc * n + r : Nat)) :
    runPlan m cyc buf size =
      if r = 0 then
        { calls := drainCalls m ++ bufferLoop n (firstPair buf), mixLeft := m, ret := 4 * n }
      else
        { calls := drainCalls m ++ bufferLoop n (firstPair buf)
            ++ [.dspUpdate ((firstPair buf).map (· + n)), .spcRun r]
          mixLeft := tsCyc - r
          ret := 4 * (n + 1) } := by
  unfold tsCyc at *
  have hlimit : (if (m : Int) ≠ 0 then cyc - m else cyc) = (32 * n + r : Nat) := by
    split <;> omega
  have hpasses : (32 * n + r) / 32 = n := by omega
  have hdrain : (if (m : Int) ≠ 0 then [Call.spcRun (m : Int).toNat] else []) = drainCalls m := by
    unfold drainCalls
    simp
  unfold BufferLimited at h
  unfold runPlan firstPair
  dsimp only
  rw [if_neg h, if_neg (by omega), hlimit, hdrain, Int.toNat_natCast]
  unfold tsCyc
  rw [hpasses, cycleLoop_eq n _ (by unfold tsCyc; simp only; omega)]
  unfold tsCyc
  dsimp only
  have hrest : ((32 * n + r : Nat) : Int) - ((32 * n : Nat) : Int) = r := by omega
  rw [hrest]
  by_cases h0 : r = 0
  · simp [h0]
  · simp [h0]

/-- **The four exits of `Run`**: the buffer is filled, the remainder is not
used up, or the cycle limit ends between two sample periods or inside one. -/
theorem runPlan_cases :
    (BufferLimited m cyc buf size ∧ runPlan m cyc buf size =
      { calls := drainCalls m ++ bufferLoop (size / 4) (firstPair buf)
        mixLeft := 0
        ret := narrow 31 ↑(size / 4 * 4) }) ∨
    (¬ BufferLimited m cyc buf size ∧ (0 ≤ cyc ∧ cyc < m) ∧ runPlan m cyc buf size =
      { calls := [.spcRun cyc.toNat], mixLeft := m - cyc, ret := 0 }) ∨
    (¬ BufferLimited m cyc buf size ∧ ∃ n, cyc = m + (tsCyc * n : Nat) ∧ runPlan m cyc buf size =
      { calls := drainCalls m ++ bufferLoop n (firstPair buf), mixLeft := m, ret := 4 * n }) ∨
    (¬ BufferLimited m cyc buf size ∧ ∃ n r, (0 < r ∧ r < tsCyc) ∧
      cyc = m + (tsCyc * n + r : Nat) ∧ runPlan m cyc buf size =
        { calls := drainCalls m ++ bufferLoop n (firstPair buf)
            ++ [.dspUpdate ((firstPair buf).map (· + n)), .spcRun r]
          mixLeft := tsCyc - r
          ret := 4 * (n + 1) }) := by
  by_cases h : BufferLimited m cyc buf size
  · exact Or.inl ⟨h, runPlan_buffer m cyc buf size h⟩
  · have h0 : 0 ≤ cyc := by
      by_contra hneg
      exact h (Or.inl (by omega))
    by_cases hlt : cyc < m
    · exact Or.inr (Or.inl ⟨h, ⟨h0, hlt⟩, runPlan_short m cyc buf size h hlt⟩)
    · obtain ⟨n, r, hr, hcyc⟩ : ∃ n r, r < tsCyc ∧ cyc = m + (tsCyc * n + r : Nat) := by
        refine ⟨(cyc - m).toNat / tsCyc, (cyc - m).toNat % tsCyc, Nat.mod_lt _ (by decide), ?_⟩
        rw [Nat.div_add_mod]
        omega
      have hplan := runPlan_limit m cyc buf size h hr hcyc
      by_cases hr0 : r = 0
      · rw [if_pos hr0] at hplan
        rw [hr0] at hcyc
        exact Or.inr (Or.inr (Or.inl ⟨h, n, hcyc, hplan⟩))
      · rw [if_neg hr0] at hplan
        exact Or.inr (Or.inr (Or.inr ⟨h, n, r, ⟨by omega, hr⟩, hcyc, hplan⟩))

/-- **The calls of `Run` continue the schedule** from the remainder, for as
many cycles as it takes. -/
theorem runPlan_ticks :
    ticks (runPlan m cyc buf size).calls = resume tsCyc m (runCycles m cyc buf size) := by
  have hzero (n : Nat) : remainingAfter tsCyc 0 (tsCyc * n) = 0 := by
    unfold remainingAfter
    rw [if_neg (Nat.not_lt_zero _)]
    exact (PeriodicTicks.remaining_eq_zero (by decide)).mpr (dvd_mul_right _ _)
  unfold runCycles
  rcases runPlan_cases m cyc buf size with
    ⟨h, hplan⟩ | ⟨h, hlt, hplan⟩ | ⟨h, n, hcyc, hplan⟩ | ⟨h, n, r, hr, hcyc, hplan⟩
  · rw [if_pos h, hplan, ticks_append, drainCalls_ticks, bufferLoop_ticks, PeriodicTicks.resume_add]
  · rw [if_neg h, hplan, PeriodicTicks.resume_of_le (by omega)]
    simp [ticks, Call.ticks]
  · have hnat : cyc.toNat = m + tsCyc * n := by omega
    rw [if_neg h, hplan, hnat, ticks_append, drainCalls_ticks, bufferLoop_ticks,
      PeriodicTicks.resume_add]
  · have hnat : cyc.toNat = m + (tsCyc * n + r) := by omega
    rw [if_neg h, hplan, hnat, PeriodicTicks.resume_add, PeriodicTicks.resume_append (by decide),
      hzero, ticks_append, ticks_append, drainCalls_ticks, bufferLoop_ticks,
      PeriodicTicks.resume_event (by omega) hr.2.le, List.append_assoc]
    simp [ticks, Call.ticks]

/-- The remainder after whole sample periods and a rest. -/
theorem remainingAfter_periods (n r : Nat) (hr : r < tsCyc) :
    remainingAfter tsCyc m (m + (tsCyc * n + r)) = if r = 0 then 0 else tsCyc - r := by
  unfold remainingAfter
  rw [if_neg (by omega), Nat.add_sub_cancel_left]
  unfold remaining
  rw [Nat.mul_add_mod, Nat.mod_eq_of_lt hr]
  unfold tsCyc at *
  split <;> omega

/-- **What `Run` leaves in `mix_left_`.** -/
theorem runPlan_mixLeft :
    (runPlan m cyc buf size).mixLeft =
      if Stale m cyc buf size then (m : Int)
      else remainingAfter tsCyc m (runCycles m cyc buf size) := by
  unfold runCycles
  rcases runPlan_cases m cyc buf size with
    ⟨h, hplan⟩ | ⟨h, hlt, hplan⟩ | ⟨h, n, hcyc, hplan⟩ | ⟨h, n, r, hr, hcyc, hplan⟩
  · have hfresh : ¬ Stale m cyc buf size := fun hs => hs.1 h
    have hdone := remainingAfter_periods m (size / 4) 0 (by decide)
    rw [Nat.add_zero, if_pos rfl] at hdone
    rw [if_neg hfresh, if_pos h, hplan, hdone]
    rfl
  · have hfresh : ¬ Stale m cyc buf size := fun hs => by
      have := hs.2.2.1
      omega
    rw [if_neg hfresh, if_neg h, hplan]
    unfold remainingAfter
    rw [if_pos (by omega)]
    simp only
    omega
  · have hnat : cyc.toNat = m + (tsCyc * n + 0) := by omega
    rw [if_neg h, hplan, hnat, remainingAfter_periods m n 0 (by decide), if_pos rfl]
    by_cases hm0 : m = 0
    · rw [hm0]
      split <;> rfl
    · have hstale : Stale m cyc buf size := by
        refine ⟨h, by omega, by omega, n, ?_⟩
        rw [hcyc]
        push_cast
        ring
      rw [if_pos hstale]
  · have hnat : cyc.toNat = m + (tsCyc * n + r) := by omega
    have hfresh : ¬ Stale m cyc buf size := by
      rintro ⟨-, -, -, hdvd⟩
      unfold tsCyc at *
      omega
    rw [if_neg hfresh, if_neg h, hplan, hnat, remainingAfter_periods m n r hr.2, if_neg (by omega)]
    simp only
    omega

end Cases

/-! ## Sequences of calls -/

/-- The arguments of a call of `OSPC_Run`. -/
structure RunCall where
  cyc : Int
  buf : Bool
  size : Nat

/-- What a sequence of calls of `OSPC_Run` did so far. -/
structure RunTrace where
  calls : List Call
  mixLeft : Int

/-- One more call of `OSPC_Run`. -/
def RunTrace.run (x : RunTrace) (c : RunCall) : RunTrace :=
  let p := runPlan x.mixLeft c.cyc c.buf c.size
  { calls := x.calls ++ p.calls, mixLeft := p.mixLeft }

/-- The trace of a sequence of calls that follows `OSPC_Init`. -/
def runSeq (cs : List RunCall) : RunTrace := cs.foldl RunTrace.run { calls := [], mixLeft := 0 }

/-- The trace so far is the schedule of its cycles, and `mix_left_` is the
number of cycles until the next update is due. -/
structure Lockstep (x : RunTrace) : Prop where
  mixLeft_bounds : 0 ≤ x.mixLeft ∧ x.mixLeft < tsCyc
  count : (tsCyc : Int) * updates x.calls = cycles x.calls + x.mixLeft
  ticks_eq : ticks x.calls = schedule tsCyc (cycles x.calls)

/-- Lockstep says what the calls are and what remains after them. -/
theorem lockstep_iff (x : RunTrace) :
    Lockstep x ↔ ticks x.calls = schedule tsCyc (cycles x.calls) ∧
      x.mixLeft = remaining tsCyc (cycles x.calls) := by
  have hcount (h : ticks x.calls = schedule tsCyc (cycles x.calls)) :
      tsCyc * updates x.calls = cycles x.calls + remaining tsCyc (cycles x.calls) := by
    unfold updates
    rw [h]
    exact PeriodicTicks.events_schedule (by decide) _
  constructor
  · intro hx
    have hc := hcount hx.ticks_eq
    have hcx := hx.count
    exact ⟨hx.ticks_eq, by omega⟩
  · rintro ⟨hs, hm⟩
    have hc := hcount hs
    have hlt := PeriodicTicks.remaining_lt (p := tsCyc) (by decide) (cycles x.calls)
    exact ⟨by omega, by omega, hs⟩

/-- **One more call.**  It keeps the lockstep exactly if it does not leave a
stale remainder, which is positive where none remains. -/
theorem Lockstep.run_iff {x : RunTrace} (h : Lockstep x) (c : RunCall) :
    Lockstep (x.run c) ↔ ¬ Stale x.mixLeft c.cyc c.buf c.size := by
  obtain ⟨hs, hm⟩ := (lockstep_iff x).mp h
  have hlt := PeriodicTicks.remaining_lt (p := tsCyc) (by decide) (cycles x.calls)
  generalize hrem : remaining tsCyc (cycles x.calls) = m at hm hlt
  have hticks := runPlan_ticks m c.cyc c.buf c.size
  have hleft := runPlan_mixLeft m c.cyc c.buf c.size
  rw [← hm] at hticks hleft
  generalize hn : runCycles m c.cyc c.buf c.size = n at hticks hleft
  have hcycles : cycles (x.run c).calls = cycles x.calls + n := by
    unfold cycles RunTrace.run
    dsimp only
    rw [ticks_append, PeriodicTicks.steps_append, hticks, PeriodicTicks.steps_resume]
  have htrace : ticks (x.run c).calls = schedule tsCyc (cycles (x.run c).calls) := by
    rw [hcycles, PeriodicTicks.schedule_add (by decide), hrem, ← hs, ← hticks]
    exact ticks_append _ _
  have hnext : remaining tsCyc (cycles (x.run c).calls) = remainingAfter tsCyc m n := by
    rw [hcycles, PeriodicTicks.remaining_add (by decide), hrem]
  have hmix : (x.run c).mixLeft =
      if Stale x.mixLeft c.cyc c.buf c.size then x.mixLeft else remainingAfter tsCyc m n := hleft
  rw [lockstep_iff, hnext, hmix]
  constructor
  · rintro ⟨-, heq⟩ hstale
    rw [if_pos hstale] at heq
    obtain ⟨hlimit, hm0, hle, hdvd⟩ := hstale
    have hcyc : n = c.cyc.toNat := by
      rw [← hn]
      unfold runCycles
      rw [if_neg (by rwa [← hm])]
    have hzero : remainingAfter tsCyc m n = 0 := by
      unfold remainingAfter
      rw [if_neg (by omega), PeriodicTicks.remaining_eq_zero (by decide)]
      unfold tsCyc at *
      omega
    omega
  · intro hfresh
    rw [if_neg hfresh]
    exact ⟨htrace, rfl⟩

theorem runSeq_append (p : List RunCall) (c : RunCall) : runSeq (p ++ [c]) = (runSeq p).run c := by
  unfold runSeq
  rw [List.foldl_append]
  rfl

theorem lockstep_nil : Lockstep (runSeq []) where
  mixLeft_bounds := by decide
  count := by decide
  ticks_eq := rfl

/-! ## From calls to states -/

section States

variable (host : Nat → Byte) (core : Bus → Bus)

/-- One update or one CPU cycle. -/
def Machine.tick (sound : Bool) (s : Machine) : Tick → Machine × List (Int × Int)
  | .event => s.call host core (.dspUpdate (firstPair sound))
  | .step => (s.cycle core, [])

/-- A list of updates and CPU cycles. -/
def Machine.play (sound : Bool) (s : Machine) : List Tick → Machine × List (Int × Int)
  | [] => (s, [])
  | t :: ts =>
      let (s, out) := s.tick host core sound t
      let (s, outs) := s.play sound ts
      (s, out ++ outs)

/-- A list of ticks is played in two parts, one after the other. -/
theorem Machine.play_append (sound : Bool) (l l' : List Tick) : ∀ s : Machine,
    s.play host core sound (l ++ l') =
      (((s.play host core sound l).1.play host core sound l').1,
        (s.play host core sound l).2 ++ ((s.play host core sound l).1.play host core sound l').2) := by
  induction l with
  | nil => intro s; rfl
  | cons t l ih =>
      intro s
      simp only [List.cons_append, Machine.play, ih, List.append_assoc]

theorem Machine.play_steps (sound : Bool) (n : Nat) : ∀ s : Machine,
    s.play host core sound (List.replicate n .step) = (s.spcRun core n, []) := by
  induction n with
  | zero => intro s; rfl
  | succ n ih =>
      intro s
      simp only [List.replicate_succ, Machine.play, Machine.tick, ih]
      rfl

/-- **Calls act as their ticks**, whichever pair of the buffer they write. -/
theorem Machine.exec_eq_play (sound : Bool) (l : List Call)
    (h : ∀ buf, .dspUpdate buf ∈ l → buf.isSome = sound) : ∀ s : Machine,
    s.exec host core l = s.play host core sound (ticks l) := by
  induction l with
  | nil => intro s; rfl
  | cons c l ih =>
      intro s
      have hrest := ih fun buf hb => h buf (List.mem_cons_of_mem _ hb)
      have hcall : s.call host core c = s.play host core sound c.ticks := by
        cases c with
        | dspUpdate buf =>
            have hsound : (firstPair sound).isSome = buf.isSome := by
              rw [h buf List.mem_cons_self]
              cases sound <;> rfl
            simp only [Call.ticks, Machine.play, Machine.tick, Machine.call, hsound,
              List.append_nil]
        | spcRun n =>
            rw [Call.ticks, Machine.play_steps]
            rfl
      have hticks : ticks (c :: l) = c.ticks ++ ticks l := rfl
      simp only [hticks, Machine.play_append, Machine.exec, hcall, hrest]

/-- Every update of an execution of `Run` stores samples, or none does. -/
theorem runPlan_sound (m : Nat) (cyc : Int) (buf : Bool) (size : Nat) (b : Option Nat)
    (hb : .dspUpdate b ∈ (runPlan m cyc buf size).calls) : b.isSome = buf := by
  have hfirst : (firstPair buf).isSome = buf := by cases buf <;> rfl
  have hdrain : .dspUpdate b ∉ drainCalls m := by
    unfold drainCalls
    split <;> simp
  have hloop (n : Nat) (h : .dspUpdate b ∈ drainCalls m ++ bufferLoop n (firstPair buf)) :
      b.isSome = buf := by
    rcases List.mem_append.mp h with h | h
    · exact absurd h hdrain
    · rw [bufferLoop_sound _ _ _ h, hfirst]
  rcases runPlan_cases m cyc buf size with
    ⟨-, hplan⟩ | ⟨-, -, hplan⟩ | ⟨-, n, -, hplan⟩ | ⟨-, n, r, -, -, hplan⟩
  · rw [hplan] at hb
    exact hloop _ hb
  · rw [hplan] at hb
    simp at hb
  · rw [hplan] at hb
    exact hloop _ hb
  · rw [hplan] at hb
    rcases List.mem_append.mp hb with hb | hb
    · exact hloop _ hb
    · simp only [List.mem_cons, Call.dspUpdate.injEq, reduceCtorEq, List.not_mem_nil,
        or_false] at hb
      rw [hb, Option.isSome_map, hfirst]

/-- **`OSPC_Run` as a piece of the schedule.** -/
theorem Library.run_eq (s : Library) {m : Nat} (hm : s.mixLeft = m) (cyc : Int) (buf : Bool)
    {size : Nat} (hsize : size < 2 ^ 64) :
    let r := s.run host core cyc buf size
    let n := runCycles m cyc buf size
    r.1.machine = (s.machine.play host core buf (resume tsCyc m n)).1 ∧
      r.1.mixLeft = (if Stale m cyc buf size then (m : Int) else remainingAfter tsCyc m n) ∧
      r.2.pairs = (s.machine.play host core buf (resume tsCyc m n)).2 := by
  have hnat : ((size : Int) % 2 ^ 64).toNat = size := by omega
  have hexec := Machine.exec_eq_play host core buf (runPlan m cyc buf size).calls
    (runPlan_sound m cyc buf size) s.machine
  unfold Library.run
  dsimp only
  rw [hm, hnat, hexec, runPlan_ticks, runPlan_mixLeft]
  exact ⟨rfl, rfl, rfl⟩

/-- The call of the interface a `RunCall` stands for. -/
def RunCall.api (c : RunCall) : ApiCall := .run c.cyc c.buf c.size

/-- A list of calls is executed in two parts, one after the other. -/
theorem Machine.exec_append (l l' : List Call) : ∀ s : Machine,
    (s.exec host core (l ++ l')).1 = ((s.exec host core l).1.exec host core l').1 := by
  induction l with
  | nil => intro s; rfl
  | cons c l ih =>
      intro s
      simp only [List.cons_append, Machine.exec, ih]

/-- The state after a sequence of calls of `OSPC_Run` is what their trace
makes of the state before. -/
theorem Library.apis_runs (cs : List RunCall) (hsize : ∀ c ∈ cs, c.size < 2 ^ 64) :
    ∀ s : Library, ∀ l : List Call, ∀ s₀ : Machine, s.machine = (s₀.exec host core l).1 →
      let x := cs.foldl RunTrace.run { calls := l, mixLeft := s.mixLeft }
      (s.apis host core (cs.map RunCall.api)).1 =
        { machine := (s₀.exec host core x.calls).1, mixLeft := x.mixLeft } := by
  induction cs with
  | nil =>
      intro s l s₀ hs
      cases s
      simp only at hs
      subst hs
      rfl
  | cons c cs ih =>
      intro s l s₀ hs
      have hnat : ((c.size : Int) % 2 ^ 64).toNat = c.size := by
        have := hsize c List.mem_cons_self
        omega
      have hstep : (s.run host core c.cyc c.buf c.size).1 =
          { machine := (s₀.exec host core
              (l ++ (runPlan s.mixLeft c.cyc c.buf c.size).calls)).1
            mixLeft := (runPlan s.mixLeft c.cyc c.buf c.size).mixLeft } := by
        unfold Library.run
        dsimp only
        rw [hnat, Machine.exec_append, hs]
      have hrest := ih (fun c' hc' => hsize c' (List.mem_cons_of_mem _ hc'))
        (s.run host core c.cyc c.buf c.size).1
        (l ++ (runPlan s.mixLeft c.cyc c.buf c.size).calls) s₀ (by rw [hstep])
      rw [hstep] at hrest
      rw [← hstep] at hrest
      simp only [List.map_cons, Library.apis, RunCall.api, Library.api]
      rw [hrest, hstep]
      rfl

end States

/-! ## Lockstep and chunks -/

/-- The buffer is null, or holds all samples of `cyc` cycles. -/
def EnoughRoom (mixLeft cyc : Int) (buf : Bool) (size : Nat) : Prop :=
  size < 2 ^ 28 ∧ (buf = true → cyc ≤ mixLeft + (tsCyc * (size / 4) : Nat))

/-- Below 2^28 bytes the product does not wrap. -/
theorem bufCycles_of_small {m size : Nat} (hm : m < tsCyc) (h : size < 2 ^ 28) :
    bufCycles m size = (m + tsCyc * (size / 4) : Nat) := by
  unfold bufCycles narrow tsCyc at *
  omega

/-- With enough room a call takes exactly the cycles it asks for. -/
theorem runCycles_of_room {m : Nat} {cyc : Int} {buf : Bool} {size : Nat} (hm : m < tsCyc)
    (h0 : 0 ≤ cyc) (h : EnoughRoom m cyc buf size) : runCycles m cyc buf size = cyc.toNat := by
  obtain ⟨hsize, hroom⟩ := h
  have hcycles := bufCycles_of_small hm hsize
  unfold runCycles
  by_cases hlim : BufferLimited m cyc buf size
  · rw [if_pos hlim]
    rcases hlim with hlt | ⟨hbuf, hge⟩
    · omega
    · have hle := hroom hbuf
      omega
  · rw [if_neg hlim]

/-- A remainder that is stale in the end was stale in one of two chunks, if
neither chunk filled its buffer. -/
theorem Stale.of_chunks {m : Nat} {a b : Int} {buf : Bool} {n₁ n₂ n : Nat} (ha : 0 ≤ a)
    (hb : 0 ≤ b) (h₁ : ¬ BufferLimited m a buf n₁)
    (h₂ : ¬ BufferLimited (remainingAfter tsCyc m a.toNat) b buf n₂)
    (h : Stale m (a + b) buf n) :
    Stale m a buf n₁ ∨ Stale (remainingAfter tsCyc m a.toNat) b buf n₂ := by
  obtain ⟨-, hm0, hle, hdvd⟩ := h
  by_cases hshort : a < m
  · have hleft : remainingAfter tsCyc m a.toNat = m - a.toNat := by
      unfold remainingAfter
      rw [if_pos (by omega)]
    rw [hleft] at h₂ ⊢
    exact Or.inr ⟨h₂, by omega, by omega, by unfold tsCyc at *; omega⟩
  · by_cases hwhole : (tsCyc : Int) ∣ a - m
    · exact Or.inl ⟨h₁, hm0, by omega, hwhole⟩
    · have hleft : remainingAfter tsCyc m a.toNat = tsCyc - (a.toNat - m) % tsCyc := by
        unfold remainingAfter remaining tsCyc at *
        rw [if_neg (by omega)]
        omega
      rw [hleft] at h₂ ⊢
      unfold tsCyc at *
      exact Or.inr ⟨h₂, by omega, by omega, by unfold tsCyc; omega⟩

/-- **Two calls make one.**  Running for `a` and then for `b` cycles leaves
the state, the remainder and the samples of running for `a + b` cycles. -/
theorem run_chunks (host : Nat → Byte) (core : Bus → Bus) (s : Library) {a b : Int} {buf : Bool}
    {n₁ n₂ n : Nat} (hs : 0 ≤ s.mixLeft ∧ s.mixLeft < tsCyc) (ha : 0 ≤ a) (hb : 0 ≤ b) :
    let r₁ := s.run host core a buf n₁
    let r₂ := r₁.1.run host core b buf n₂
    let r := s.run host core (a + b) buf n
    EnoughRoom s.mixLeft a buf n₁ → ¬ Stale s.mixLeft a buf n₁ →
    EnoughRoom r₁.1.mixLeft b buf n₂ → ¬ Stale r₁.1.mixLeft b buf n₂ →
    EnoughRoom s.mixLeft (a + b) buf n →
    (BufferLimited s.mixLeft a buf n₁ ∨ BufferLimited r₁.1.mixLeft b buf n₂ →
      ¬ Stale s.mixLeft (a + b) buf n) →
    r₂.1 = r.1 ∧ r₁.2.pairs ++ r₂.2.pairs = r.2.pairs := by
  intro r₁ r₂ r hroom₁ hfresh₁ hroom₂ hfresh₂ hroom hfilled
  obtain ⟨m, hm⟩ : ∃ m : Nat, s.mixLeft = m := ⟨s.mixLeft.toNat, by omega⟩
  have hlt : m < tsCyc := by omega
  rw [hm] at hroom₁ hfresh₁ hroom hfilled
  obtain ⟨hmach₁, hleft₁, hpairs₁⟩ := s.run_eq host core hm a buf
    (lt_trans hroom₁.1 (by decide) : n₁ < 2 ^ 64)
  rw [runCycles_of_room hlt ha hroom₁] at hmach₁ hleft₁ hpairs₁
  rw [if_neg hfresh₁] at hleft₁
  have hlt₁ := PeriodicTicks.remainingAfter_lt hlt a.toNat
  change r₁.1.mixLeft = _ at hleft₁
  rw [hleft₁] at hroom₂ hfresh₂ hfilled
  have hfresh : ¬ Stale m (a + b) buf n := by
    intro hstale
    by_cases h₁ : BufferLimited m a buf n₁
    · exact hfilled (Or.inl h₁) hstale
    · by_cases h₂ : BufferLimited (remainingAfter tsCyc m a.toNat) b buf n₂
      · exact hfilled (Or.inr h₂) hstale
      · exact (hstale.of_chunks ha hb h₁ h₂).elim hfresh₁ hfresh₂
  obtain ⟨hmach₂, hleft₂, hpairs₂⟩ := r₁.1.run_eq host core hleft₁ b buf
    (lt_trans hroom₂.1 (by decide) : n₂ < 2 ^ 64)
  rw [runCycles_of_room hlt₁ hb hroom₂] at hmach₂ hleft₂ hpairs₂
  rw [if_neg hfresh₂, ← PeriodicTicks.remainingAfter_add hlt] at hleft₂
  obtain ⟨hmach, hleft, hpairs⟩ := s.run_eq host core hm (a + b) buf
    (lt_trans hroom.1 (by decide) : n < 2 ^ 64)
  have hsum : (a + b).toNat = a.toNat + b.toNat := by omega
  rw [runCycles_of_room hlt (by omega) hroom, hsum] at hmach hleft hpairs
  rw [if_neg hfresh] at hleft
  rw [PeriodicTicks.resume_append hlt, Machine.play_append] at hmach hpairs
  rw [hmach₁] at hmach₂ hpairs₂
  have hlib {x y : Library} (h1 : x.machine = y.machine) (h2 : x.mixLeft = y.mixLeft) : x = y := by
    cases x
    cases y
    simp_all
  refine ⟨hlib (hmach₂.trans hmach.symm) (hleft₂.trans hleft.symm), ?_⟩
  exact (congrArg₂ (· ++ ·) hpairs₁ hpairs₂).trans hpairs.symm

/-- **Lockstep, whatever the chunks.**  In a sequence of calls of `OSPC_Run`
every prefix keeps the schedule and the remainder exactly if no call leaves a
stale remainder; the calls of such a sequence are what the library makes of its
state; and calls without a stale remainder can be merged without a trace.  Of
the merged call this has to be asked only where one of the two has filled its
buffer, and so brought `mix_left_` up to date. -/
theorem run_lockstep_iff (cs : List RunCall) :
    ((∀ p, p <+: cs → Lockstep (runSeq p)) ↔
      ∀ p c, p ++ [c] <+: cs → ¬ Stale (runSeq p).mixLeft c.cyc c.buf c.size) ∧
    (∀ (host : Nat → Byte) (core : Bus → Bus) (s : Library), s.mixLeft = 0 →
      (∀ c ∈ cs, c.size < 2 ^ 64) →
      (s.apis host core (cs.map RunCall.api)).1 =
        { machine := (s.machine.exec host core (runSeq cs).calls).1
          mixLeft := (runSeq cs).mixLeft }) ∧
    ∀ (host : Nat → Byte) (core : Bus → Bus) (s : Library) (a b : Int) (buf : Bool)
      (n₁ n₂ n : Nat), 0 ≤ s.mixLeft ∧ s.mixLeft < tsCyc → 0 ≤ a → 0 ≤ b →
      let r₁ := s.run host core a buf n₁
      let r₂ := r₁.1.run host core b buf n₂
      let r := s.run host core (a + b) buf n
      EnoughRoom s.mixLeft a buf n₁ → ¬ Stale s.mixLeft a buf n₁ →
      EnoughRoom r₁.1.mixLeft b buf n₂ → ¬ Stale r₁.1.mixLeft b buf n₂ →
      EnoughRoom s.mixLeft (a + b) buf n →
      (BufferLimited s.mixLeft a buf n₁ ∨ BufferLimited r₁.1.mixLeft b buf n₂ →
        ¬ Stale s.mixLeft (a + b) buf n) →
      r₂.1 = r.1 ∧ r₁.2.pairs ++ r₂.2.pairs = r.2.pairs := by
  refine ⟨⟨fun h p c hpc => ?_, fun h p hp => ?_⟩, fun host core s hs hsize => ?_,
    fun host core s a b buf n₁ n₂ n hs ha hb => run_chunks host core s hs ha hb⟩
  · have hp : p <+: cs := (List.prefix_append p [c]).trans hpc
    rw [← (h p hp).run_iff c, ← runSeq_append]
    exact h _ hpc
  · induction p using List.reverseRecOn with
    | nil => exact lockstep_nil
    | append_singleton p c ih =>
        have hprefix : p <+: cs := (List.prefix_append p [c]).trans hp
        rw [runSeq_append]
        exact ((ih hprefix).run_iff c).mpr (h p c hp)
  · have hruns := Library.apis_runs host core cs hsize s [] s.machine rfl
    rw [hs] at hruns
    exact hruns

/-- **A stale remainder.**  Two calls for 16 cycles each make one update and 32
cycles, after which the next update is due at once; `mix_left_` says 16. -/
theorem run_sixteen_twice :
    let cs : List RunCall := [⟨16, false, 0⟩, ⟨16, false, 0⟩]
    ¬ Lockstep (runSeq cs) ∧ (runSeq cs).mixLeft = 16 ∧
      (runSeq [⟨32, false, 0⟩]).mixLeft = 0 := by
  refine ⟨fun h => ?_, by decide, by decide⟩
  have hcount := h.count
  exact absurd hcount (by decide)

/-- A freshly created context. -/
def freshLibrary : Library := { machine := newContext zeroDsp, mixLeft := 0 }

/-- Calls for 16 and for 20 cycles keep the lockstep, and make one call for 36
cycles. -/
theorem run_sixteen_twenty :
    (∀ p, p <+: ([⟨16, false, 0⟩, ⟨20, false, 0⟩] : List RunCall) → Lockstep (runSeq p)) ∧
      ((freshLibrary.run (fun _ => 0) id 16 false 0).1.run (fun _ => 0) id 20 false 0).1 =
        (freshLibrary.run (fun _ => 0) id (16 + 20) false 0).1 := by
  refine ⟨(run_lockstep_iff _).1.mpr ?_, ?_⟩
  · intro p c hpc
    rcases p with _ | ⟨x, _ | ⟨y, p⟩⟩
    · obtain ⟨rfl, -⟩ := List.cons_prefix_cons.mp hpc
      decide
    · obtain ⟨rfl, hrest⟩ := List.cons_prefix_cons.mp hpc
      obtain ⟨rfl, -⟩ := List.cons_prefix_cons.mp hrest
      decide
    · have hlen := hpc.length_le
      simp at hlen
  · exact ((run_lockstep_iff []).2.2 (fun _ => 0) id freshLibrary 16 20 false 0 0 0
      (by decide) (by decide) (by decide) ⟨by decide, by simp⟩ (by decide) ⟨by decide, by simp⟩
      (by decide) ⟨by decide, by simp⟩ fun _ => by decide).1

end OpenSpc
