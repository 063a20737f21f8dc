import OpenSpc.TwoRuns

/-!
# Computations that may stop

A computation in `Except` gives a result or stops with an error.  `Ends x Q E`
bounds both: the result satisfies `Q`, or the error satisfies `E`.  `Alike R x y`
compares two computations: either both give results, related by `R`, or both
stop with the same error.  There is one rule for each way of putting
computations together.
-/

universe u v

variable {ε : Type u} {α β γ δ : Type v}

/-- The result satisfies `Q`, or the error satisfies `E`. -/
def Ends (x : Except ε α) (Q : α → Prop) (E : ε → Prop) : Prop :=
  match x with
  | .ok a => Q a
  | .error e => E e

namespace Ends

variable {x : Except ε α} {Q Q' : α → Prop} {E E' : ε → Prop} {R : β → Prop}

/-- A result that is allowed. -/
theorem ok {a : α} (h : Q a) : Ends (.ok a) Q E := h

/-- An error that is allowed. -/
theorem error {e : ε} (h : E e) : Ends (.error e) Q E := h

/-- What is allowed can be widened. -/
theorem mono (h : Ends x Q E) (hQ : ∀ a, Q a → Q' a) (hE : ∀ e, E e → E' e) : Ends x Q' E' := by
  cases x with
  | ok a => exact hQ a h
  | error e => exact hE e h

/-- One computation behind another. -/
theorem bind {f : α → Except ε β} (h : Ends x Q E) (hf : ∀ a, Q a → Ends (f a) R E) :
    Ends (x >>= f) R E := by
  cases x with
  | ok a => exact hf a h
  | error e => exact h

/-- The result is what the computation gives. -/
theorem self (h : Ends x Q E) : Ends x (fun a => x = .ok a ∧ Q a) E := by
  cases x with
  | ok a => exact ⟨rfl, h⟩
  | error e => exact h

/-- What holds by two arguments holds together. -/
theorem and (h : Ends x Q E) (h' : Ends x Q' E') :
    Ends x (fun a => Q a ∧ Q' a) fun e => E e ∧ E' e := by
  cases x <;> exact ⟨h, h'⟩

end Ends

/-- Both results are related by `R`, or both errors are the same. -/
def Alike (R : α → β → Prop) (x : Except ε α) (y : Except ε β) : Prop :=
  match x, y with
  | .ok a, .ok b => R a b
  | .error e, .error e' => e = e'
  | _, _ => False

namespace Alike

variable {R R' : α → β → Prop} {S : γ → δ → Prop} {x : Except ε α} {y : Except ε β}

/-- Results that are related. -/
theorem ok {a : α} {b : β} (h : R a b) : Alike R (.ok a : Except ε α) (.ok b) := h

/-- The same error. -/
theorem error (e : ε) : Alike R (.error e) (.error e) := rfl

/-- The relation can be widened. -/
theorem mono (h : Alike R x y) (hR : ∀ a b, R a b → R' a b) : Alike R' x y := by
  cases x <;> cases y <;> first | exact h | exact hR _ _ h

/-- Two computations behind two others. -/
theorem bind {f : α → Except ε γ} {g : β → Except ε δ} (h : Alike R x y)
    (hf : ∀ a b, R a b → Alike S (f a) (g b)) : Alike S (x >>= f) (y >>= g) := by
  cases x with
  | ok a =>
      cases y with
      | ok b => exact hf a b h
      | error e => exact h.elim
  | error e =>
      cases y with
      | ok b => exact h.elim
      | error e' =>
          cases h
          exact error e

/-- What one of them does in the end, and the other does not. -/
theorem bind_right {g : β → Except ε δ} {S : α → δ → Prop} (h : Alike R x y)
    (hg : ∀ a b, R a b → Alike S (.ok a) (g b)) : Alike S x (y >>= g) := by
  cases x with
  | ok a =>
      cases y with
      | ok b => exact hg a b h
      | error e => exact h.elim
  | error e =>
      cases y with
      | ok b => exact h.elim
      | error e' => exact h

/-- The relation can be turned round. -/
theorem symm (h : Alike R x y) : Alike (fun b a => R a b) y x := by
  cases x <;> cases y <;> first | exact h | exact Eq.symm h

/-- The relation can be composed. -/
theorem trans {T : β → γ → Prop} {z : Except ε γ} (h : Alike R x y) (h' : Alike T y z) :
    Alike (fun a c => ∃ b, R a b ∧ T b c) x z := by
  cases y with
  | ok b =>
      cases x with
      | error e => exact h.elim
      | ok a =>
          cases z with
          | ok c => exact ⟨b, h, h'⟩
          | error e => exact h'.elim
  | error e =>
      cases x with
      | ok a => exact h.elim
      | error e' =>
          cases z with
          | ok c => exact h'.elim
          | error e'' => exact Eq.trans h h'

/-- **The rule for loops** over one list, by induction on it. -/
theorem foldlM {ι : Type*} {σ τ : Type v} {f : σ → ι → Except ε σ} {g : τ → ι → Except ε τ}
    {R : σ → τ → Prop} (l : List ι)
    (hstep : ∀ i ∈ l, ∀ s t, R s t → Alike R (f s i) (g t i)) :
    ∀ s t, R s t → Alike R (l.foldlM f s) (l.foldlM g t) := by
  induction l with
  | nil => intro s t h; exact ok h
  | cons i l ih =>
      intro s t h
      rw [List.foldlM_cons, List.foldlM_cons]
      exact (hstep i List.mem_cons_self s t h).bind
        (ih fun j hj => hstep j (List.mem_cons_of_mem i hj))

/-- What is known of one of them is known of the pair. -/
theorem and_left {Q : α → Prop} {E : ε → Prop} (h : Alike R x y) (hx : Ends x Q E) :
    Alike (fun a b => R a b ∧ Q a) x y := by
  cases x <;> cases y <;> first | exact h | exact ⟨h, hx⟩

/-- What is known of one side can be added. -/
theorem and_right {Q : β → Prop} {E : ε → Prop} (h : Alike R x y) (hy : Ends y Q E) :
    Alike (fun a b => R a b ∧ Q b) x y := by
  cases x <;> cases y <;> first | exact h | exact ⟨h, hy⟩

/-- What is known of one of them is known of the other. -/
theorem ends {Q : α → Prop} {E : ε → Prop} (h : Alike R x y) (hx : Ends x Q E) :
    Ends y (fun b => ∃ a, R a b ∧ Q a) E := by
  cases x with
  | ok a =>
      cases y with
      | ok b => exact ⟨a, h, hx⟩
      | error e => exact h.elim
  | error e =>
      cases y with
      | ok b => exact h.elim
      | error e' =>
          cases h
          exact hx

/-- What one computation gives, the other gives up to `R`. -/
theorem of_ok {a : α} (h : Alike R x y) (hx : x = .ok a) : ∃ b, y = .ok b ∧ R a b := by
  subst hx
  cases y with
  | ok b => exact ⟨b, rfl, h⟩
  | error e => exact h.elim

end Alike

/-! ## Runs -/

namespace TwoRuns

variable {σ τ ι ο : Type v} {step : σ → ι → σ × ο} (tryStep : τ → ι → Except ε (τ × ο))

/-- The last state and all outputs of a machine that may stop. -/
def tryRun (t : τ) : List ι → Except ε (τ × List ο)
  | [] => .ok (t, [])
  | i :: is => do
      let (t, o) ← tryStep t i
      let (t, os) ← tryRun t is
      .ok (t, o :: os)

/-- A run makes its first step and then the others. -/
theorem tryRun_cons (t : τ) (i : ι) (l : List ι) :
    tryRun tryStep t (i :: l) =
      tryStep t i >>= fun p => tryRun tryStep p.1 l >>= fun q => .ok (q.1, p.2 :: q.2) := rfl

section Follow

variable {tryStep} {R : σ → τ → Prop} {E : ε → σ → Prop}

/-- **A machine that may stop follows one that does not**, if every step does,
by induction on the inputs.  When it stops, after the steps `done`, `E` says
where the other machine is behind the next one. -/
theorem follow (l : List ι)
    (hstep : ∀ i ∈ l, ∀ s t, R s t →
      Ends (tryStep t i) (fun p => R (step s i).1 p.1 ∧ p.2 = (step s i).2)
        fun e => E e (step s i).1) :
    ∀ s t, R s t →
      Ends (tryRun tryStep t l) (fun p => R (run step s l).1 p.1 ∧ p.2 = (run step s l).2)
        fun e => ∃ done i, done ++ [i] <+: l ∧ (∃ p, tryRun tryStep t done = .ok p) ∧
          E e (run step s (done ++ [i])).1 := by
  induction l with
  | nil => intro s t h; exact Ends.ok ⟨h, rfl⟩
  | cons i l ih =>
      intro s t h
      have hlater := ih fun j hj => hstep j (List.mem_cons_of_mem i hj)
      have hfirst := (hstep i List.mem_cons_self s t h).self.mono (fun _ hp => hp) fun e he =>
        (⟨[], i, List.prefix_append [i] l, ⟨(t, []), rfl⟩, he⟩ :
          ∃ done j, done ++ [j] <+: i :: l ∧ (∃ p, tryRun tryStep t done = .ok p) ∧
            E e (run step s (done ++ [j])).1)
      rw [tryRun_cons]
      refine hfirst.bind ?_
      rintro ⟨t₁, o⟩ ⟨hok, h₁, ho⟩
      refine ((hlater _ t₁ h₁).mono (fun _ hp => hp) ?_).bind ?_
      · rintro e ⟨done, j, hprefix, ⟨p, hdone⟩, he⟩
        refine ⟨i :: done, j, List.cons_prefix_cons.mpr ⟨rfl, hprefix⟩, ⟨(p.1, o :: p.2), ?_⟩, he⟩
        rw [tryRun_cons, hok]
        change (tryRun tryStep t₁ done >>= _) = _
        rw [hdone]
        rfl
      · rintro ⟨t₂, os⟩ ⟨h₂, hos⟩
        dsimp only at ho hos
        refine Ends.ok ⟨h₂, ?_⟩
        rw [ho, hos]
        rfl

/-- If every step keeps `E`, it holds behind all of them. -/
theorem follow_kept (l : List ι)
    (hstep : ∀ i ∈ l, ∀ s t, R s t →
      Ends (tryStep t i) (fun p => R (step s i).1 p.1 ∧ p.2 = (step s i).2)
        fun e => E e (step s i).1)
    (hkeep : ∀ e s i, E e s → E e (step s i).1) (s : σ) (t : τ) (h : R s t) :
    Ends (tryRun tryStep t l) (fun p => R (run step s l).1 p.1 ∧ p.2 = (run step s l).2)
      fun e => E e (run step s l).1 := by
  refine (follow l hstep s t h).mono (fun _ hp => hp) ?_
  rintro e ⟨done, i, ⟨rest, rfl⟩, -, he⟩
  rw [run_append]
  exact invariant (hkeep e) rest _ he

end Follow

variable {tryStep}

/-- **Two runs of a machine that may stop are alike**, if their steps are, by
induction on the inputs. -/
theorem tryRun_alike {R : τ → τ → Prop} (l : List ι)
    (hstep : ∀ i ∈ l, ∀ s t, R s t →
      Alike (fun p q => R p.1 q.1 ∧ p.2 = q.2) (tryStep s i) (tryStep t i)) :
    ∀ s t, R s t →
      Alike (fun p q => R p.1 q.1 ∧ p.2 = q.2) (tryRun tryStep s l) (tryRun tryStep t l) := by
  induction l with
  | nil => intro s t h; exact Alike.ok ⟨h, rfl⟩
  | cons i l ih =>
      intro s t h
      unfold tryRun
      refine (hstep i List.mem_cons_self s t h).bind ?_
      rintro ⟨s₁, o⟩ ⟨t₁, o'⟩ ⟨h₁, rfl⟩
      refine (ih (fun j hj => hstep j (List.mem_cons_of_mem i hj)) s₁ t₁ h₁).bind ?_
      rintro ⟨s₂, os⟩ ⟨t₂, os'⟩ ⟨h₂, rfl⟩
      exact Alike.ok ⟨h₂, rfl⟩

end TwoRuns
