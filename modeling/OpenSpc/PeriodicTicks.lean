import Mathlib.Tactic

/-!
# Events at every `p`-th step

A schedule places one event before each step whose index, counted from zero,
is a multiple of the period.  Such a schedule can be cut anywhere and resumed,
given how many steps remain until the next event.
-/

namespace PeriodicTicks

/-- One entry of a schedule. -/
inductive Tick where
  | event
  | step
  deriving DecidableEq, Repr

/-- The schedule of the first `n` steps. -/
def schedule (p : Nat) : Nat → List Tick
  | 0 => []
  | n + 1 => schedule p n ++ if p ∣ n then [.event, .step] else [.step]

/-- The next `n` steps when `r` steps remain until an event. -/
def resume (p : Nat) : Nat → Nat → List Tick
  | _, 0 => []
  | 0, n + 1 => .event :: .step :: resume p (p - 1) n
  | r + 1, n + 1 => .step :: resume p r n

/-- Steps that remain until the next event, after `n` steps. -/
def remaining (p n : Nat) : Nat := (p - n % p) % p

/-- Steps that remain when `r` remained before `n` more steps. -/
def remainingAfter (p r n : Nat) : Nat := if n < r then r - n else remaining p (n - r)

/-- Steps of a list of ticks. -/
def steps (l : List Tick) : Nat := l.count .step

/-- Events of a list of ticks. -/
def events (l : List Tick) : Nat := l.count .event

/-- The steps of two lists. -/
theorem steps_append (l l' : List Tick) : steps (l ++ l') = steps l + steps l' :=
  List.count_append

/-- The events of two lists. -/
theorem events_append (l l' : List Tick) : events (l ++ l') = events l + events l' :=
  List.count_append

section Period

variable {p : Nat}

/-- Less than a period remains. -/
theorem remaining_lt (hp : 0 < p) (n : Nat) : remaining p n < p := Nat.mod_lt _ hp

/-- Nothing remains after whole periods. -/
theorem remaining_eq_zero (hp : 0 < p) {n : Nat} : remaining p n = 0 ↔ p ∣ n := by
  have hlt := Nat.mod_lt n hp
  unfold remaining
  rw [Nat.dvd_iff_mod_eq_zero]
  by_cases h0 : n % p = 0
  · simp [h0]
  · rw [Nat.mod_eq_of_lt (by omega)]
    omega

/-- A step onto an event starts a new period. -/
theorem remaining_succ_of_dvd {n : Nat} (h : p ∣ n) : remaining p (n + 1) = p - 1 := by
  obtain ⟨k, rfl⟩ := h
  unfold remaining
  rw [Nat.mul_add_mod]
  by_cases h1 : p = 1
  · simp [h1]
  · by_cases h0 : p = 0
    · simp [h0]
    · rw [Nat.mod_eq_of_lt (by omega : 1 < p), Nat.mod_eq_of_lt (by omega)]

/-- Any other step comes one closer. -/
theorem remaining_succ_of_not_dvd (hp : 0 < p) {n : Nat} (h : ¬ p ∣ n) :
    remaining p n = remaining p (n + 1) + 1 := by
  rw [Nat.dvd_iff_mod_eq_zero] at h
  have hlt := Nat.mod_lt n hp
  have hp1 : 1 < p := by omega
  have hsucc : (n + 1) % p = if n % p + 1 = p then 0 else n % p + 1 := by
    rw [Nat.add_mod, Nat.mod_eq_of_lt hp1]
    split
    · rename_i heq
      rw [heq, Nat.mod_self]
    · exact Nat.mod_eq_of_lt (by omega)
  unfold remaining
  rw [hsucc, Nat.mod_eq_of_lt (by omega : p - n % p < p)]
  split
  · rw [Nat.sub_zero, Nat.mod_self]
    omega
  · rw [Nat.mod_eq_of_lt (by omega : p - (n % p + 1) < p)]
    omega

/-- **A schedule can be cut and resumed.** -/
theorem schedule_add (hp : 0 < p) (a b : Nat) :
    schedule p (a + b) = schedule p a ++ resume p (remaining p a) b := by
  induction b generalizing a with
  | zero => simp [resume]
  | succ b ih =>
      have hshift : a + (b + 1) = a + 1 + b := by omega
      rw [hshift, ih (a + 1), schedule, List.append_assoc]
      congr 1
      by_cases h : p ∣ a
      · rw [if_pos h, (remaining_eq_zero hp).mpr h, remaining_succ_of_dvd h]
        rfl
      · rw [if_neg h, remaining_succ_of_not_dvd hp h]
        rfl

/-- What remains can be counted on from. -/
theorem remaining_add (hp : 0 < p) (a b : Nat) :
    remaining p (a + b) = remainingAfter p (remaining p a) b := by
  induction b generalizing a with
  | zero =>
      unfold remainingAfter
      split
      · rfl
      · rename_i h
        rw [Nat.add_zero]
        have hz : remaining p a = 0 := by omega
        rw [hz]
        simp [remaining]
  | succ b ih =>
      have hshift : a + (b + 1) = a + 1 + b := by omega
      rw [hshift, ih (a + 1)]
      unfold remainingAfter
      by_cases h : p ∣ a
      · rw [(remaining_eq_zero hp).mpr h, remaining_succ_of_dvd h, if_neg (Nat.not_lt_zero _)]
        split
        · rename_i hlt
          unfold remaining
          rw [Nat.sub_zero, Nat.mod_eq_of_lt (by omega : b + 1 < p), Nat.mod_eq_of_lt (by omega)]
          omega
        · have hsub : b + 1 - 0 = b - (p - 1) + p := by omega
          rw [hsub]
          unfold remaining
          rw [Nat.add_mod_right]
      · rw [remaining_succ_of_not_dvd hp h]
        by_cases hb : b < remaining p (a + 1)
        · rw [if_pos hb, if_pos (by omega)]
          omega
        · rw [if_neg hb, if_neg (by omega)]
          congr 1
          omega

/-- Every remainder below the period occurs. -/
theorem exists_remaining {r : Nat} (hr : r < p) : ∃ n, remaining p n = r := by
  refine ⟨p - r, ?_⟩
  unfold remaining
  by_cases h0 : r = 0
  · simp [h0]
  · rw [Nat.mod_eq_of_lt (by omega : p - r < p), Nat.mod_eq_of_lt (by omega)]
    omega

/-- A resumed schedule can be cut and resumed. -/
theorem resume_append {r : Nat} (hr : r < p) (a b : Nat) :
    resume p r (a + b) = resume p r a ++ resume p (remainingAfter p r a) b := by
  obtain ⟨n, rfl⟩ := exists_remaining hr
  have hp : 0 < p := by omega
  have h := schedule_add hp (n + a) b
  rw [schedule_add hp n a, Nat.add_assoc, schedule_add hp n (a + b), remaining_add hp n a,
    List.append_assoc] at h
  exact List.append_cancel_left h

/-- Less than a period remains after any number of steps. -/
theorem remainingAfter_lt {r : Nat} (hr : r < p) (n : Nat) : remainingAfter p r n < p := by
  unfold remainingAfter
  split
  · omega
  · exact remaining_lt (by omega) _

/-- Steps can be counted in two parts. -/
theorem remainingAfter_add {r : Nat} (hr : r < p) (a b : Nat) :
    remainingAfter p r (a + b) = remainingAfter p (remainingAfter p r a) b := by
  obtain ⟨n, rfl⟩ := exists_remaining hr
  have hp : 0 < p := by omega
  rw [← remaining_add hp n (a + b), ← remaining_add hp n a, ← remaining_add hp (n + a) b,
    Nat.add_assoc]

/-- All steps are made. -/
theorem steps_resume (r n : Nat) : steps (resume p r n) = n := by
  induction n generalizing r with
  | zero => simp [resume, steps]
  | succ n ih =>
      cases r with
      | zero =>
          have h := ih (p - 1)
          unfold steps at h ⊢
          rw [resume, List.count_cons_of_ne (by decide), List.count_cons_self, h]
      | succ r =>
          have h := ih r
          unfold steps at h ⊢
          rw [resume, List.count_cons_self, h]

/-- **Events keep up with the steps.** -/
theorem events_schedule (hp : 0 < p) (n : Nat) :
    p * events (schedule p n) = n + remaining p n := by
  induction n with
  | zero => simp [schedule, events, remaining]
  | succ n ih =>
      rw [schedule, events_append, Nat.mul_add, ih]
      by_cases h : p ∣ n
      · have hone : events [Tick.event, Tick.step] = 1 := rfl
        rw [if_pos h, hone, (remaining_eq_zero hp).mpr h, remaining_succ_of_dvd h]
        omega
      · have hnone : events [Tick.step] = 0 := rfl
        rw [if_neg h, hnone, remaining_succ_of_not_dvd hp h]
        omega

/-! ## Pieces of a resumed schedule -/

/-- No event comes before what remained is used up. -/
theorem resume_of_le {r n : Nat} (h : n ≤ r) : resume p r n = List.replicate n .step := by
  induction n generalizing r with
  | zero => simp [resume]
  | succ n ih =>
      obtain ⟨r, rfl⟩ : ∃ k, r = k + 1 := ⟨r - 1, by omega⟩
      rw [resume, ih (by omega), List.replicate_succ]

/-- What remained is used up first. -/
theorem resume_add (r n : Nat) :
    resume p r (r + n) = List.replicate r .step ++ resume p 0 n := by
  induction r with
  | zero => simp
  | succ r ih =>
      have hshift : r + 1 + n = r + n + 1 := by omega
      rw [hshift, resume, ih, List.replicate_succ, List.cons_append]

/-- The part of a period that follows its event. -/
theorem resume_event {n : Nat} (h0 : 0 < n) (hn : n ≤ p) :
    resume p 0 n = .event :: List.replicate n .step := by
  obtain ⟨n, rfl⟩ : ∃ k, n = k + 1 := ⟨n - 1, by omega⟩
  rw [resume, resume_of_le (by omega), List.replicate_succ]

/-- A whole period, and what follows it. -/
theorem resume_period (hp : 0 < p) (n : Nat) :
    resume p 0 (p + n) = .event :: List.replicate p .step ++ resume p 0 n := by
  obtain ⟨q, rfl⟩ : ∃ q, p = q + 1 := ⟨p - 1, by omega⟩
  have hshift : q + 1 + n = q + n + 1 := by omega
  rw [hshift, resume, Nat.add_sub_cancel, resume_add, List.replicate_succ]
  rfl

end Period

end PeriodicTicks
