import OpenSpc.Outcomes

/-!
# Steps on a budget

A machine takes steps that cost a unit or more, and is given a budget unit by
unit.  A unit pays for what earlier steps have overdrawn, and otherwise buys a
step, which may overdraw the account by what it costs beyond that unit.  How a
budget is cut into pieces makes no difference, and the debt never exceeds what
one step can cost beyond its unit.
-/

namespace Budget

universe u v

variable {ε : Type u} {σ : Type v} (step : σ → Except ε (σ × Nat))

/-- One unit, for a state and a debt. -/
def unit : σ × Nat → Except ε (σ × Nat)
  | (s, 0) => step s
  | (s, debt + 1) => .ok (s, debt)

/-- A budget of `n` units. -/
def spend : Nat → σ × Nat → Except ε (σ × Nat)
  | 0, x => .ok x
  | n + 1, x => unit step x >>= spend n

/-- One step, and what it costs before the next one. -/
theorem spend_succ (n : Nat) (s : σ) : spend step (n + 1) (s, 0) = step s >>= spend step n := rfl

/-- **Budgets add up.** -/
theorem spend_add (a b : Nat) (x : σ × Nat) :
    spend step (a + b) x = spend step a x >>= spend step b := by
  induction a generalizing x with
  | zero => rw [Nat.zero_add]; rfl
  | succ a ih =>
      rw [Nat.succ_add]
      change (unit step x >>= spend step (a + b)) = (unit step x >>= spend step a) >>= spend step b
      rw [bind_assoc]
      congr 1
      funext y
      exact ih y

/-- Debt is paid off first. -/
theorem spend_debt (n debt : Nat) (s : σ) : spend step n (s, n + debt) = .ok (s, debt) := by
  induction n with
  | zero => rw [Nat.zero_add]; rfl
  | succ n ih =>
      rw [Nat.succ_add]
      exact ih

/-- A budget that does not cover the debt buys nothing. -/
theorem spend_of_le {n debt : Nat} (h : n ≤ debt) (s : σ) :
    spend step n (s, debt) = .ok (s, debt - n) := by
  obtain ⟨rest, rfl⟩ := Nat.exists_eq_add_of_le h
  rw [spend_debt, Nat.add_sub_cancel_left]

/-- What is left of a budget after the debt is spent without debt. -/
theorem spend_of_ge {n debt : Nat} (h : debt ≤ n) (s : σ) :
    spend step n (s, debt) = spend step (n - debt) (s, 0) := by
  obtain ⟨rest, rfl⟩ := Nat.exists_eq_add_of_le h
  rw [spend_add, Nat.add_sub_cancel_left]
  change spend step debt (s, debt + 0) >>= spend step rest = _
  rw [spend_debt]
  rfl

/-- **Budgets in a row** are spent like their sum. -/
theorem spend_sum (budgets : List Nat) (x : σ × Nat) :
    budgets.foldlM (fun x n => spend step n x) x = spend step budgets.sum x := by
  induction budgets generalizing x with
  | nil => rfl
  | cons n budgets ih =>
      rw [List.sum_cons, spend_add, List.foldlM_cons]
      congr 1
      funext y
      exact ih y

variable {step}

/-- **What every step keeps, every budget keeps**, together with a bound on the
debt. -/
theorem spend_ends {I : σ → Prop} {E : ε → Prop} {d : Nat}
    (hstep : ∀ s, I s → Ends (step s) (fun x => I x.1 ∧ x.2 ≤ d) E) :
    ∀ n x, I x.1 → x.2 ≤ d → Ends (spend step n x) (fun x => I x.1 ∧ x.2 ≤ d) E := by
  intro n
  induction n with
  | zero => intro x h hdebt; exact Ends.ok ⟨h, hdebt⟩
  | succ n ih =>
      intro x h hdebt
      obtain ⟨s, debt⟩ := x
      have hunit : Ends (unit step (s, debt)) (fun x => I x.1 ∧ x.2 ≤ d) E := by
        cases debt with
        | zero => exact hstep s h
        | succ debt => exact Ends.ok ⟨h, Nat.le_of_succ_le hdebt⟩
      exact hunit.bind fun y hy => ih y hy.1 hy.2

/-- **Steps that are alike make budgets that are alike.** -/
theorem spend_alike {τ : Type v} {step' : τ → Except ε (τ × Nat)} {R : σ → τ → Prop}
    (hstep : ∀ s t, R s t → Alike (fun x y => R x.1 y.1 ∧ x.2 = y.2) (step s) (step' t)) :
    ∀ n s t debt, R s t →
      Alike (fun x y => R x.1 y.1 ∧ x.2 = y.2) (spend step n (s, debt)) (spend step' n (t, debt)) := by
  intro n
  induction n with
  | zero => intro s t debt h; exact Alike.ok ⟨h, rfl⟩
  | succ n ih =>
      intro s t debt h
      have hunit : Alike (fun x y => R x.1 y.1 ∧ x.2 = y.2) (unit step (s, debt))
          (unit step' (t, debt)) := by
        cases debt with
        | zero => exact hstep s t h
        | succ debt => exact Alike.ok ⟨h, rfl⟩
      refine hunit.bind fun x y hxy => ?_
      obtain ⟨s', debt'⟩ := x
      obtain ⟨t', debt''⟩ := y
      obtain ⟨hR, rfl⟩ := hxy
      exact ih s' t' debt' hR

end Budget
