import Mathlib.Tactic

/-!
# Runs of a step function under interference

A system takes one deterministic step at a time; between two steps an
environment may change its state within a relation.  A run is the sequence of
states in which the steps are taken.
-/

namespace InterferedRun

variable {σ : Type*} (step : σ → σ) (env : σ → σ → Prop)

/-- `s t` is the state in which step `t` is taken. -/
def IsRun (s : Nat → σ) : Prop := ∀ t, env (step (s t)) (s (t + 1))

variable {step env} {s : Nat → σ}

/-- A property that steps and interference keep holds throughout. -/
theorem IsRun.invariant (hrun : IsRun step env s) {I : σ → Prop}
    (hstep : ∀ x, I x → I (step x)) (henv : ∀ x y, env x y → I x → I y)
    (h0 : I (s 0)) : ∀ t, I (s t) := by
  intro t
  induction t with
  | zero => exact h0
  | succ t ih => exact henv _ _ (hrun t) (hstep _ ih)

/-- A property of the state after a step that interference keeps, and that
steps keep as long as a condition holds, lasts as long as that condition. -/
theorem IsRun.lasts (hrun : IsRun step env s) {P : σ → Prop} {t₀ : Nat}
    (h0 : P (step (s t₀))) (henv : ∀ x y, env x y → P x → P y)
    {C : Nat → Prop} (hstep : ∀ t, C t → P (s t) → P (step (s t))) :
    ∀ d, (∀ t, t₀ < t → t ≤ t₀ + d → C t) → P (step (s (t₀ + d))) := by
  intro d
  induction d with
  | zero => intro _; exact h0
  | succ d ih =>
      intro hC
      have hprev := ih (fun t h1 h2 => hC t h1 (by omega))
      exact hstep _ (hC _ (by omega) (by omega)) (henv _ _ (hrun (t₀ + d)) hprev)

/-- A measure that interference leaves alone, and that steps do not lower as
long as a condition holds, does not fall as long as that condition lasts. -/
theorem IsRun.ascends (hrun : IsRun step env s) {α : Type*} [Preorder α] {f : σ → α}
    (henv : ∀ x y, env x y → f y = f x) {C : Nat → Prop}
    (hstep : ∀ t, C t → f (s t) ≤ f (step (s t))) (t : Nat) :
    ∀ d, (∀ u, t ≤ u → u < t + d → C u) → f (s t) ≤ f (s (t + d)) := by
  intro d
  induction d with
  | zero => intro _; exact le_rfl
  | succ d ih =>
      intro hC
      have hprev := ih (fun u h1 h2 => hC u h1 (by omega))
      have hlast := hstep (t + d) (hC _ (by omega) (by omega))
      rw [← henv _ _ (hrun (t + d))] at hlast
      exact le_trans hprev hlast

end InterferedRun
