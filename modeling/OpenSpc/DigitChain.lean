import OpenSpc.TwoRuns

/-!
# Numbers digit by digit

A machine works through the digits of a number and hands a carry from each to
the next.  If a digit it gives and the carry it leaves are worth what the digit
it was given and the carry it found are worth, the same holds of the numbers:
upwards from the least digit, and downwards from the greatest.
-/

namespace DigitChain

open TwoRuns (run)

variable {R : Type*} [CommRing R] (B : R)

/-- What digits are worth in base `B`, from the least on. -/
def worth : List R → R
  | [] => 0
  | d :: ds => d + B * worth ds

/-- The worth of digits behind others. -/
theorem worth_append (ds es : List R) :
    worth B (ds ++ es) = worth B ds + B ^ ds.length * worth B es := by
  induction ds with
  | nil => simp [worth]
  | cons d ds ih =>
      rw [List.cons_append, List.length_cons, worth, worth, ih]
      ring

variable {ι : Type*}

/-- Sums of digits are worth the sum. -/
theorem worth_map_add (f g : ι → R) (l : List ι) :
    worth B (l.map fun i => f i + g i) = worth B (l.map f) + worth B (l.map g) := by
  induction l with
  | nil => simp [worth]
  | cons i l ih =>
      rw [List.map_cons, List.map_cons, List.map_cons, worth, worth, worth, ih]
      ring

/-- Multiples of digits are worth the multiple. -/
theorem worth_map_mul (m : R) (f : ι → R) (l : List ι) :
    worth B (l.map fun i => m * f i) = m * worth B (l.map f) := by
  induction l with
  | nil => simp [worth]
  | cons i l ih =>
      rw [List.map_cons, List.map_cons, worth, worth, ih]
      ring

section Run

variable {σ ο : Type*} {step : σ → ι → σ × ο} {c : σ → R} {d : ο → R} {w : ι → R}

/-- Every digit gives one digit. -/
theorem length_run (l : List ι) : ∀ s, (run step s l).2.length = l.length := by
  induction l with
  | nil => intro s; rfl
  | cons i l ih => intro s; exact congrArg (· + 1) (ih _)

/-- What every step gives, a run gives throughout. -/
theorem run_forall {P : ο → Prop} (l : List ι) (hstep : ∀ i ∈ l, ∀ s, P (step s i).2) :
    ∀ s, ∀ o ∈ (run step s l).2, P o := by
  induction l with
  | nil => intro s o ho; cases ho
  | cons i l ih =>
      intro s o ho
      obtain ho | ho := List.mem_cons.mp ho
      · rw [ho]
        exact hstep i List.mem_cons_self s
      · exact ih (fun j hj => hstep j (List.mem_cons_of_mem i hj)) _ o ho

/-- **Upwards**: the carry a step leaves counts one digit higher. -/
theorem run_up (l : List ι)
    (hstep : ∀ i ∈ l, ∀ s, d (step s i).2 + B * c (step s i).1 = w i + c s) :
    ∀ s, worth B ((run step s l).2.map d) + B ^ l.length * c (run step s l).1 =
      worth B (l.map w) + c s := by
  induction l with
  | nil => intro s; simp [run, worth]
  | cons i l ih =>
      intro s
      have hone := hstep i List.mem_cons_self s
      have hrest := ih (fun j hj => hstep j (List.mem_cons_of_mem i hj)) (step s i).1
      simp only [run, List.map_cons, worth, List.length_cons, pow_succ]
      linear_combination hone + B * hrest

/-- **Downwards**: the carry a step finds counts one digit higher.  The digits
given are worth an `m`-th part. -/
theorem run_down (m : R) (l : List ι)
    (hstep : ∀ i ∈ l, ∀ s, m * d (step s i).2 + c (step s i).1 = w i + B * c s) :
    ∀ s, m * worth B ((run step s l).2.map d).reverse + c (run step s l).1 =
      worth B (l.map w).reverse + B ^ l.length * c s := by
  induction l with
  | nil => intro s; simp [run, worth]
  | cons i l ih =>
      intro s
      have hone := hstep i List.mem_cons_self s
      have hrest := ih (fun j hj => hstep j (List.mem_cons_of_mem i hj)) (step s i).1
      simp only [run, List.map_cons, List.reverse_cons, worth_append, List.length_reverse,
        List.length_map, length_run, worth, List.length_cons, pow_succ]
      linear_combination B ^ l.length * hone + hrest

end Run

end DigitChain
