import Mathlib.Tactic

/-!
# A pointer that runs round a ring

A byte offset is advanced by `step` and returns to zero as soon as it reaches
`size`.  When `size` is a multiple of `step` the offset visits the slots
`0, step, 2 * step, …` in order, each once in a round; a ring of size zero still
has one slot.  The second half places such a ring at a base address in a memory
of `m` bytes, where it may wrap.
-/

namespace RingPointer

/-- Advance an offset by one slot. -/
def next (step size p : Nat) : Nat := if p + step ≥ size then 0 else p + step

/-- Slots of the ring. -/
def slots (step size : Nat) : Nat := max 1 (size / step)

/-- Bytes of the ring. -/
def length (step size : Nat) : Nat := max step size

section Rounds

variable {step size : Nat}

theorem slots_pos : 0 < slots step size := by
  unfold slots
  omega

theorem step_mul_slots (hstep : 0 < step) (hdvd : step ∣ size) :
    step * slots step size = length step size := by
  obtain ⟨n, rfl⟩ := hdvd
  unfold slots length
  rw [Nat.mul_div_cancel_left n hstep]
  by_cases hn : n = 0
  · simp [hn]
  · have hle : step ≤ step * n := Nat.le_mul_of_pos_right step (by omega)
    rw [max_eq_right (by omega), max_eq_right hle]

/-- A valid offset is that of a slot. -/
theorem exists_slot (hstep : 0 < step) {p : Nat} (hp : step ∣ p) (hlt : p < length step size)
    (hdvd : step ∣ size) : ∃ j, j < slots step size ∧ p = step * j := by
  obtain ⟨j, rfl⟩ := hp
  rw [← step_mul_slots hstep hdvd] at hlt
  exact ⟨j, Nat.lt_of_mul_lt_mul_left hlt, rfl⟩

/-- Advancing moves to the next slot, cyclically. -/
theorem next_slot (hstep : 0 < step) (hdvd : step ∣ size) {j : Nat} (hj : j < slots step size) :
    next step size (step * j) = step * ((j + 1) % slots step size) := by
  have hlen := step_mul_slots hstep hdvd
  have hsucc : step * j + step = step * (j + 1) := rfl
  unfold next
  rw [hsucc]
  by_cases hlast : j + 1 = slots step size
  · have hge : length step size ≥ size := le_max_right step size
    rw [hlast, Nat.mod_self, hlen, if_pos hge, Nat.mul_zero]
  · have hlt : j + 1 < slots step size := by omega
    have hinside : step * (j + 1) < size := by
      have hless : step * (j + 1) < length step size := by
        rw [← hlen]
        exact Nat.mul_lt_mul_of_pos_left hlt hstep
      have hge : step ≤ step * (j + 1) := Nat.le_mul_of_pos_right step (by omega)
      unfold length at hless
      omega
    rw [if_neg (by omega), Nat.mod_eq_of_lt hlt]

/-- The slot a sequence of advances is in after `t` steps. -/
theorem slot_at (hstep : 0 < step) (hdvd : step ∣ size) {p : Nat → Nat}
    (hp : ∀ t, p (t + 1) = next step size (p t)) {j : Nat} (hj : j < slots step size)
    (h0 : p 0 = step * j) (t : Nat) : p t = step * ((j + t) % slots step size) := by
  induction t with
  | zero => rw [h0, Nat.add_zero, Nat.mod_eq_of_lt hj]
  | succ t ih =>
      rw [hp t, ih, next_slot hstep hdvd (Nat.mod_lt _ slots_pos), Nat.mod_add_mod,
        Nat.add_assoc]

/-- **One round.**  After as many steps as there are slots the offset is back,
and not before. -/
theorem round (hstep : 0 < step) (hdvd : step ∣ size) {p : Nat → Nat}
    (hp : ∀ t, p (t + 1) = next step size (p t)) (h0 : step ∣ p 0)
    (hlt : p 0 < length step size) (t : Nat) :
    p (t + slots step size) = p t ∧
      ∀ k, 0 < k → k < slots step size → p (t + k) ≠ p t := by
  obtain ⟨j, hj, hpj⟩ := exists_slot hstep h0 hlt hdvd
  have hslot := slot_at hstep hdvd hp hj hpj
  refine ⟨?_, fun k hk hkn heq => ?_⟩
  · rw [hslot, hslot, ← Nat.add_assoc, Nat.add_mod_right]
  · rw [hslot, hslot, ← Nat.add_assoc] at heq
    have hmod : (j + t + k) % slots step size = (j + t) % slots step size :=
      Nat.eq_of_mul_eq_mul_left hstep heq
    have hdvd' : slots step size ∣ j + t + k - (j + t) :=
      (Nat.modEq_iff_dvd' (Nat.le_add_right _ _)).mp hmod.symm
    rw [Nat.add_sub_cancel_left] at hdvd'
    exact absurd (Nat.le_of_dvd hk hdvd') (by omega)

/-- The offset never leaves the slots of the ring. -/
theorem stays (hstep : 0 < step) (hdvd : step ∣ size) {p : Nat → Nat}
    (hp : ∀ t, p (t + 1) = next step size (p t)) (h0 : step ∣ p 0)
    (hlt : p 0 < length step size) (t : Nat) : step ∣ p t ∧ p t < length step size := by
  obtain ⟨j, hj, hpj⟩ := exists_slot hstep h0 hlt hdvd
  rw [slot_at hstep hdvd hp hj hpj t, ← step_mul_slots hstep hdvd]
  exact ⟨dvd_mul_right _ _, Nat.mul_lt_mul_of_pos_left (Nat.mod_lt _ slots_pos) hstep⟩

/-- Starting at zero, every slot is visited. -/
theorem visits (hstep : 0 < step) (hdvd : step ∣ size) {p : Nat → Nat}
    (hp : ∀ t, p (t + 1) = next step size (p t)) (h0 : p 0 = 0) {j : Nat}
    (hj : j < slots step size) : p j = step * j := by
  rw [slot_at hstep hdvd hp slots_pos h0, Nat.zero_add, Nat.mod_eq_of_lt hj]

end Rounds

/-! ## A ring in memory -/

section Memory

variable {step size m : Nat}

/-- Two bytes of a ring that fits the memory have the same address only if
they are the same byte. -/
theorem address_inj {base a b : Nat} (ha : a < m) (hb : b < m)
    (h : (base + a) % m = (base + b) % m) : a = b := by
  have hmod : a % m = b % m := Nat.ModEq.add_left_cancel' base h
  rwa [Nat.mod_eq_of_lt ha, Nat.mod_eq_of_lt hb] at hmod

/-- Bytes of different slots have different addresses. -/
theorem slots_disjoint (hdvd : step ∣ size) (hstep : 0 < step) (hfit : length step size ≤ m)
    {base p q a b : Nat} (hp : step ∣ p) (hq : step ∣ q) (hpl : p < length step size)
    (hql : q < length step size) (ha : a < step) (hb : b < step) (hne : p ≠ q) :
    (base + (p + a)) % m ≠ (base + (q + b)) % m := by
  obtain ⟨j, hj, rfl⟩ := exists_slot hstep hp hpl hdvd
  obtain ⟨k, hk, rfl⟩ := exists_slot hstep hq hql hdvd
  have hlen := step_mul_slots hstep hdvd
  have hend {l c : Nat} (hl : l < slots step size) (hc : c < step) : step * l + c < m := by
    have hle : step * (l + 1) ≤ step * slots step size := Nat.mul_le_mul_left step hl
    have hsucc : step * (l + 1) = step * l + step := rfl
    omega
  intro heq
  have hsame := address_inj (hend hj ha) (hend hk hb) heq
  apply hne
  have hdiv : (step * j + a) / step = (step * k + b) / step := by rw [hsame]
  rw [Nat.mul_add_div hstep, Nat.mul_add_div hstep, Nat.div_eq_of_lt ha, Nat.div_eq_of_lt hb,
    Nat.add_zero, Nat.add_zero] at hdiv
  rw [hdiv]

end Memory

end RingPointer
