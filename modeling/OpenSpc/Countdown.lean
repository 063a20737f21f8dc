import Mathlib.Tactic

/-!
# A countdown that can be set and cancelled

A counter goes down by one in each step; in the same step it may be set to `k`
or cancelled (cancelling wins).  The counter fires in the step that finds it
at 1.  It fires exactly `k` steps after it was last set, provided nothing
cancelled it in between.
-/

namespace Countdown

/-- `c` is a countdown from `k`, driven by the steps that set it and the steps
that cancel it. -/
def IsCountdown (k : Nat) (set cancel : Nat → Prop) (c : Nat → Nat) : Prop :=
  ∀ t, (cancel t → c (t + 1) = 0) ∧
    (¬ cancel t → set t → c (t + 1) = k) ∧
    (¬ cancel t → ¬ set t → c (t + 1) = c t - 1)

variable {k : Nat} {set cancel : Nat → Prop} {c : Nat → Nat}

/-- Undisturbed, the counter goes down by one in each step. -/
theorem IsCountdown.down (h : IsCountdown k set cancel c) {u : Nat} :
    ∀ d, (∀ t, u ≤ t → t < u + d → ¬ set t ∧ ¬ cancel t) → c (u + d) = c u - d := by
  intro d
  induction d with
  | zero => intro _; rfl
  | succ d ih =>
      intro hfree
      obtain ⟨hset, hcancel⟩ := hfree (u + d) (by omega) (by omega)
      have hstep := (h (u + d)).2.2 hcancel hset
      rw [ih (fun t h1 h2 => hfree t h1 (by omega))] at hstep
      rw [← Nat.add_assoc, hstep]
      omega

/-- A positive counter comes from the step that last set it, and its value is
what is left of `k`. -/
theorem IsCountdown.last_set (h : IsCountdown k set cancel c) (h0 : c 0 = 0) :
    ∀ t, 0 < c t → ∃ u, u < t ∧ set u ∧ ¬ cancel u ∧ c t + (t - (u + 1)) = k ∧
      ∀ w, u < w → w < t → ¬ set w ∧ ¬ cancel w := by
  intro t
  induction t with
  | zero => intro hpos; omega
  | succ t ih =>
      intro hpos
      obtain ⟨hc, hs, hn⟩ := h t
      by_cases hcancel : cancel t
      · rw [hc hcancel] at hpos
        omega
      · by_cases hset : set t
        · refine ⟨t, by omega, hset, hcancel, ?_, fun w h1 h2 => by omega⟩
          rw [hs hcancel hset]
          omega
        · have hdown := hn hcancel hset
          obtain ⟨u, hut, hsetu, hcancelu, hsum, hfree⟩ := ih (by omega)
          refine ⟨u, by omega, hsetu, hcancelu, by omega, ?_⟩
          intro w h1 h2
          by_cases hw : w = t
          · subst w
            exact ⟨hset, hcancel⟩
          · exact hfree w h1 (by omega)

/-- **When a countdown fires.**  Started at rest, it fires in step `t` exactly
if step `t - k` set it and no later step set or cancelled it. -/
theorem IsCountdown.fires_iff (h : IsCountdown k set cancel c) (h0 : c 0 = 0) (hk : 0 < k)
    (t : Nat) :
    c t = 1 ↔ k ≤ t ∧ set (t - k) ∧ ¬ cancel (t - k) ∧
      ∀ u, t - k < u → u < t → ¬ set u ∧ ¬ cancel u := by
  constructor
  · intro hfire
    obtain ⟨u, hut, hset, hcancel, hsum, hfree⟩ := h.last_set h0 t (by omega)
    have hu : t - k = u := by omega
    rw [hu]
    exact ⟨by omega, hset, hcancel, hfree⟩
  · rintro ⟨hkt, hset, hcancel, hfree⟩
    have hload := (h (t - k)).2.1 hcancel hset
    have hdown := h.down (u := t - k + 1) (k - 1)
      (fun w h1 h2 => hfree w (by omega) (by omega))
    have hsum : t - k + 1 + (k - 1) = t := by omega
    rw [hsum, hload] at hdown
    omega

end Countdown
