import Mathlib.Tactic

/-!
# Two runs on the same inputs

A machine reads a list of inputs and gives an output for each.  Two runs of it
start in different states and read the same list.  If a relation between the
states is kept by every step whose start meets a side condition, and makes the
outputs of the step equal, then the runs give the same outputs as long as the
side condition holds along them.
-/

namespace TwoRuns

variable {σ ι ο : Type*} (step : σ → ι → σ × ο)

/-- The last state and all outputs. -/
def run (s : σ) : List ι → σ × List ο
  | [] => (s, [])
  | i :: is =>
      let (s, o) := step s i
      let (s, os) := run s is
      (s, o :: os)

/-- The side condition holds at every step of the two runs. -/
def Along (C : σ → σ → ι → Prop) : σ → σ → List ι → Prop
  | _, _, [] => True
  | s, s', i :: is => C s s' i ∧ Along C (step s i).1 (step s' i).1 is

instance decidableAlong (C : σ → σ → ι → Prop) [∀ s s' i, Decidable (C s s' i)] :
    ∀ s s' l, Decidable (Along step C s s' l)
  | _, _, [] => .isTrue trivial
  | s, s', i :: is =>
      @instDecidableAnd _ _ (inferInstanceAs (Decidable (C s s' i)))
        (decidableAlong C (step s i).1 (step s' i).1 is)

variable {step} {R : σ → σ → Prop} {C : σ → σ → ι → Prop}

/-- **Steps that agree make runs that agree.** -/
theorem agree
    (hstep : ∀ s s' i, R s s' → C s s' i →
      R (step s i).1 (step s' i).1 ∧ (step s i).2 = (step s' i).2) :
    ∀ l s s', R s s' → Along step C s s' l →
      R (run step s l).1 (run step s' l).1 ∧ (run step s l).2 = (run step s' l).2 := by
  intro l
  induction l with
  | nil => intro s s' hR _; exact ⟨hR, rfl⟩
  | cons i is ih =>
      intro s s' hR hC
      obtain ⟨hnext, hout⟩ := hstep s s' i hR hC.1
      obtain ⟨hlast, houts⟩ := ih _ _ hnext hC.2
      refine ⟨hlast, ?_⟩
      simp only [run, hout, houts]

/-- Runs one behind the other. -/
theorem run_append (l l' : List ι) :
    ∀ s, (run step s (l ++ l')).1 = (run step (run step s l).1 l').1 := by
  induction l with
  | nil => intro s; rfl
  | cons i is ih => intro s; exact ih _

/-- A state property every step keeps holds after a run. -/
theorem invariant {I : σ → Prop} (hstep : ∀ s i, I s → I (step s i).1) :
    ∀ l s, I s → I (run step s l).1 := by
  intro l
  induction l with
  | nil => intro s h; exact h
  | cons i is ih => intro s h; exact ih _ (hstep s i h)

end TwoRuns
