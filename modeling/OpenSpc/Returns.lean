import Mathlib.Tactic

/-!
# Computations that may trap

`none` is a trap: what the modelled language leaves undefined.  `Returns x Q`
says that `x` does not trap and that its result satisfies `Q`; there is one rule
for each way of putting computations together, and one for a loop that works
through a list under an invariant.
-/

/-- The computation does not trap, and its result satisfies `Q`. -/
def Returns {α : Type*} (x : Option α) (Q : α → Prop) : Prop := ∃ a, x = some a ∧ Q a

namespace Returns

variable {α β σ : Type*} {x : Option α} {Q Q' : α → Prop} {R : β → Prop}

theorem ret {a : α} (h : Q a) : Returns (some a) Q := ⟨a, rfl, h⟩

theorem mono (h : Returns x Q) (hQ : ∀ a, Q a → Q' a) : Returns x Q' := by
  obtain ⟨a, hx, ha⟩ := h
  exact ⟨a, hx, hQ a ha⟩

theorem bind {f : α → Option β} (h : Returns x Q) (hf : ∀ a, Q a → Returns (f a) R) :
    Returns (x.bind f) R := by
  obtain ⟨a, rfl, ha⟩ := h
  exact hf a ha

theorem map {f : α → β} (h : Returns x fun a => R (f a)) : Returns (x.map f) R := by
  obtain ⟨a, rfl, ha⟩ := h
  exact ⟨f a, rfl, ha⟩

/-- **The rule for loops**, by induction on the list. -/
theorem foldlM {step : σ → α → Option σ} {I : σ → Prop}
    (hstep : ∀ s a, I s → Returns (step s a) I) :
    ∀ (l : List α) (s : σ), I s → Returns (l.foldlM step s) I := by
  intro l
  induction l with
  | nil => intro s h; exact ret h
  | cons a l ih => intro s h; exact (hstep s a h).bind ih

end Returns
