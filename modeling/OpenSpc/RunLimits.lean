import OpenSpc.RunLockstep

/-!
# Where `Run` stops

`Run` compares the cycle limit with the cycles the buffer is good for, a
product narrowed to `int`.  As long as the product fits, the smaller limit
wins; when it wraps to a value at or below the cycle limit, the buffer is
filled although the cycle limit comes first (`run_stops_iff`).
-/

namespace OpenSpc

open Narrow (narrow)
open PeriodicTicks (events)

/-- CPU cycles for which the buffer is good, as an exact number. -/
def bufferLimit (mixLeft size : Nat) : Nat := mixLeft + tsCyc * (size / 4)

/-- For sizes that an `int` holds only the narrowing of the product is left. -/
theorem bufCycles_eq {m size : Nat} (hm : m < tsCyc) (hsize : size < 2 ^ 31) :
    bufCycles m size = narrow 31 (bufferLimit m size) := by
  unfold bufCycles bufferLimit tsCyc at *
  congr 1
  omega

/-- Narrowing never makes a limit larger. -/
theorem narrow_limit_le (n : Nat) : narrow 31 n ≤ n := by
  unfold narrow
  omega

theorem updates_append (l l' : List Call) : updates (l ++ l') = updates l + updates l' := by
  unfold updates
  rw [ticks_append, PeriodicTicks.events_append]

/-- Each round of the buffer loop updates the DSP once. -/
theorem bufferLoop_updates (n : Nat) : ∀ buf, updates (bufferLoop n buf) = n := by
  induction n with
  | zero => intro buf; rfl
  | succ n ih =>
      intro buf
      have hsplit : bufferLoop (n + 1) buf =
          [.dspUpdate buf, .spcRun tsCyc] ++ bufferLoop n (nextPair buf) := rfl
      have hone : updates [Call.dspUpdate buf, .spcRun tsCyc] = 1 := by rfl
      rw [hsplit, updates_append, ih, hone, Nat.add_comm]

theorem drainCalls_updates (m : Nat) : updates (drainCalls m) = 0 := by
  unfold updates
  rw [drainCalls_ticks]
  unfold events
  rw [List.count_replicate]
  rfl

/-- The calls of a run take the cycles that its limit gives. -/
theorem cycles_runPlan (m : Nat) (cyc : Int) (buf : Bool) (size : Nat) :
    cycles (runPlan m cyc buf size).calls = runCycles m cyc buf size := by
  unfold cycles
  rw [runPlan_ticks, PeriodicTicks.steps_resume]

/-- `Run` stops at whichever limit comes first, returns four bytes for each
update, and fills the buffer pair by pair without running past its end. -/
structure StopsAtFirstLimit (m : Nat) (cyc : Int) (buf : Bool) (size : Nat) : Prop where
  cycles : cycles (runPlan m cyc buf size).calls =
    if cyc < 0 ∨ (buf = true ∧ (bufferLimit m size : Int) ≤ cyc) then bufferLimit m size
    else cyc.toNat
  ret : (runPlan m cyc buf size).ret = 4 * updates (runPlan m cyc buf size).calls
  pairs : buf = true → pairs (runPlan m cyc buf size).calls =
    List.range (updates (runPlan m cyc buf size).calls)
  fits : buf = true → (runPlan m cyc buf size).ret ≤ size

/-- The cycle limit comes first, but the narrowed product is not above it. -/
def WrappedLimit (m : Nat) (cyc : Int) (buf : Bool) (size : Nat) : Prop :=
  buf = true ∧ 0 ≤ cyc ∧ narrow 31 (bufferLimit m size) ≤ cyc ∧ cyc < bufferLimit m size

/-- The first two loops of `Run`: the remainder, then `n` updates. -/
theorem drainLoop_updates (m n : Nat) (buf : Bool) :
    updates (drainCalls m ++ bufferLoop n (firstPair buf)) = n := by
  rw [updates_append, drainCalls_updates, bufferLoop_updates, Nat.zero_add]

theorem drainLoop_pairs (m n : Nat) :
    pairs (drainCalls m ++ bufferLoop n (firstPair true)) = List.range n := by
  rw [pairs_append, drainCalls_pairs, List.nil_append, List.range_eq_range']
  exact bufferLoop_pairs n 0

/-- What every execution of `Run` returns and writes. -/
theorem runPlan_output {m : Nat} (cyc : Int) (buf : Bool) {size : Nat} (hm : m < tsCyc)
    (hsize : size < 2 ^ 31) :
    (runPlan m cyc buf size).ret = 4 * updates (runPlan m cyc buf size).calls ∧
      (buf = true → pairs (runPlan m cyc buf size).calls =
        List.range (updates (runPlan m cyc buf size).calls)) ∧
      (buf = true → (runPlan m cyc buf size).ret ≤ size) := by
  have hpairs (n : Nat) (hb : buf = true) :
      pairs (drainCalls m ++ bufferLoop n (firstPair buf)) = List.range n := by
    rw [hb]
    exact drainLoop_pairs m n
  have hroom (h : ¬ BufferLimited m cyc buf size) (hb : buf = true) :
      cyc < m + (tsCyc * (size / 4) : Nat) := by
    have hle := narrow_limit_le (bufferLimit m size)
    rw [← bufCycles_eq hm hsize] at hle
    unfold bufferLimit at hle
    by_contra hge
    exact h (Or.inr ⟨hb, by omega⟩)
  rcases runPlan_cases m cyc buf size with
    ⟨-, hplan⟩ | ⟨h, hlt, hplan⟩ | ⟨h, n, hcyc, hplan⟩ | ⟨h, n, r, hr, hcyc, hplan⟩
  · have hret : narrow 31 ↑(size / 4 * 4) = ((size / 4 * 4 : Nat) : Int) := by
      apply Narrow.narrow_of_fits
      unfold Narrow.Fits
      omega
    rw [hplan]
    dsimp only
    rw [drainLoop_updates, hret]
    exact ⟨by omega, hpairs _, fun _ => by omega⟩
  · have hnone : updates [Call.spcRun cyc.toNat] = 0 := by
      unfold updates ticks Call.ticks events
      simp [List.count_replicate]
    rw [hplan]
    dsimp only
    rw [hnone]
    exact ⟨rfl, fun _ => rfl, fun _ => by omega⟩
  · rw [hplan]
    dsimp only
    rw [drainLoop_updates]
    refine ⟨rfl, hpairs n, fun hb => ?_⟩
    have := hroom h hb
    unfold tsCyc at *
    omega
  · have hone (b : Option Nat) : updates [Call.dspUpdate b, .spcRun r] = 1 := by
      unfold updates ticks Call.ticks events
      simp [List.count_replicate]
    rw [hplan]
    dsimp only
    rw [updates_append, drainLoop_updates, hone, pairs_append]
    refine ⟨by push_cast; rfl, fun hb => ?_, fun hb => ?_⟩
    · rw [hpairs n hb, List.range_succ, hb]
      simp [firstPair, pairs, Call.pair]
    · have := hroom h hb
      unfold tsCyc at *
      omega

/-- **`Run` and its limits.** -/
theorem run_stops_iff (m : Nat) (cyc : Int) (buf : Bool) (size : Nat) (hm : m < tsCyc)
    (hsize : size < 2 ^ 31) :
    StopsAtFirstLimit m cyc buf size ↔ ¬ WrappedLimit m cyc buf size := by
  obtain ⟨hret, hpairs, hfits⟩ := runPlan_output cyc buf hm hsize
  have hle := narrow_limit_le (bufferLimit m size)
  have hlimited : BufferLimited m cyc buf size ↔
      cyc < 0 ∨ (buf = true ∧ narrow 31 (bufferLimit m size) ≤ cyc) := by
    unfold BufferLimited
    rw [bufCycles_eq hm hsize]
  constructor
  · rintro hstops ⟨hb, h0, hnarrow, hlt⟩
    have hcycles := hstops.cycles
    rw [cycles_runPlan] at hcycles
    unfold runCycles at hcycles
    rw [if_pos (hlimited.mpr (Or.inr ⟨hb, hnarrow⟩)), if_neg (by omega)] at hcycles
    change bufferLimit m size = cyc.toNat at hcycles
    omega
  · intro hok
    refine ⟨?_, hret, hpairs, hfits⟩
    rw [cycles_runPlan]
    unfold runCycles
    by_cases hfirst : cyc < 0 ∨ (buf = true ∧ (bufferLimit m size : Int) ≤ cyc)
    · rw [if_pos hfirst, if_pos]
      · rfl
      · rw [hlimited]
        rcases hfirst with hneg | ⟨hb, hge⟩
        · exact Or.inl hneg
        · exact Or.inr ⟨hb, by omega⟩
    · rw [if_neg hfirst, if_neg]
      rw [hlimited]
      rintro (hneg | ⟨hb, hnarrow⟩)
      · exact hfirst (Or.inl hneg)
      · have hlt : cyc < bufferLimit m size := by
          by_contra hge
          exact hfirst (Or.inr ⟨hb, by omega⟩)
        have h0 : 0 ≤ cyc := by
          by_contra hneg
          exact hfirst (Or.inl (by omega))
        exact hok ⟨hb, h0, hnarrow, hlt⟩

/-- **A wrapped limit.**  A call for no cycles at all, with a buffer of 2^28
bytes, runs for 2^31 cycles: the narrowed product is negative. -/
theorem run_zero_cycles_huge_buffer :
    ¬ StopsAtFirstLimit 0 0 true (2 ^ 28) ∧
      cycles (runPlan 0 0 true (2 ^ 28)).calls = 2 ^ 31 := by
  have hcycles : cycles (runPlan 0 0 true (2 ^ 28)).calls = 2 ^ 31 := by
    have h := cycles_runPlan 0 0 true (2 ^ 28)
    rw [show ((0 : Nat) : Int) = 0 from rfl] at h
    rw [h]
    decide
  refine ⟨fun hstops => ?_, hcycles⟩
  have hlimit := hstops.cycles
  rw [show ((0 : Nat) : Int) = 0 from rfl, hcycles] at hlimit
  exact absurd hlimit (by decide)

/-- A remainder of 5 cycles and a buffer for one pair. -/
theorem run_stops_small :
    StopsAtFirstLimit 5 40 true 4 ↔ ¬ WrappedLimit 5 40 true 4 :=
  run_stops_iff 5 40 true 4 (by decide) (by decide)

end OpenSpc
