import Mathlib.Tactic

/-!
# A ring that keeps the latest values of a stream

A buffer of `n` slots and a pointer to the oldest one.  Each new value replaces
the oldest; read cyclically from the pointer the buffer then holds the last `n`
values of the stream, oldest first.  A pointer that runs downwards gives them
newest first: such a ring is a shift register.
-/

namespace RecentRing

variable {α : Type*} {n : Nat} [NeZero n]

/-- After the first `k` values of `f`, the pointer is at slot `k` and each of
the last `n` values is in its slot. -/
structure Holds (f : Nat → α) (k : Nat) (buf : Fin n → α) (p : Fin n) : Prop where
  ptr : p = Fin.ofNat n k
  value : ∀ i, i < k → k ≤ i + n → buf (Fin.ofNat n i) = f i

variable {f : Nat → α} {k : Nat} {buf : Fin n → α} {p : Fin n}

/-- Before the first value, whatever the buffer holds. -/
theorem Holds.start (f : Nat → α) (buf : Fin n → α) : Holds f 0 buf 0 where
  ptr := rfl
  value := fun _ h => absurd h (Nat.not_lt_zero _)

/-- Values less than a round apart have slots of their own. -/
theorem slot_ne {i : Nat} (hlt : i < k) (hle : k < i + n) :
    (Fin.ofNat n i) ≠ Fin.ofNat n k := by
  intro h
  have hmod : i % n = k % n := congrArg Fin.val h
  have hdvd : n ∣ k - i := (Nat.modEq_iff_dvd' hlt.le).mp hmod
  have := Nat.le_of_dvd (by omega) hdvd
  omega

/-- Storing the next value at the pointer. -/
theorem Holds.push (h : Holds f k buf p) :
    Holds f (k + 1) (Function.update buf p (f k)) (p + 1) where
  ptr := by
    rw [h.ptr]
    exact Fin.ext (by simp [Fin.val_add])
  value := by
    intro i hi hle
    rw [h.ptr]
    by_cases hik : i = k
    · rw [hik, Function.update_self]
    · rw [Function.update_of_ne (slot_ne (by omega) (by omega))]
      exact h.value i (by omega) (by omega)

/-- **Reading round.**  Once filled, the buffer shows the last `n` values in
order from the pointer on. -/
theorem Holds.read (h : Holds f k buf p) (hfull : n ≤ k) (j : Fin n) :
    buf (p + j) = f (k - n + j) := by
  have hj := j.isLt
  have hslot : p + j = Fin.ofNat n (k - n + j) := by
    rw [h.ptr]
    apply Fin.ext
    have hk : k + j = k - n + j + n := by omega
    simp only [Fin.val_add, Fin.val_ofNat, Nat.mod_add_mod]
    rw [hk, Nat.add_mod_right]
  rw [hslot]
  exact h.value _ (by omega) (by omega)

/-! ## Newest first -/

/-- A shift register that takes in `x`. -/
def shiftIn (x : α) (h : Nat → α) : Nat → α
  | 0 => x
  | k + 1 => h k

/-- Read from `p` on, the buffer shows the `n` newest entries of the history
`h`, newest first. -/
def Recalls (h : Nat → α) (buf : Fin n → α) (p : Fin n) : Prop := ∀ k : Fin n, buf (p + k) = h k

omit [NeZero n] in
/-- A buffer of equal values recalls them from any slot. -/
theorem Recalls.start (x : α) (p : Fin n) : Recalls (fun _ => x) (fun _ => x) p := fun _ => rfl

/-- **A ring that runs downwards is a shift register.** -/
theorem Recalls.push {h : Nat → α} (H : Recalls h buf p) (x : α) :
    Recalls (shiftIn x h) (Function.update buf (p - 1) x) (p - 1) := by
  intro k
  by_cases hk : k = 0
  · subst k
    rw [add_zero, Function.update_self]
    rfl
  · have hval : (k : Nat) = ((k - 1 : Fin n) : Nat) + 1 := by
      have hpos : (k : Nat) ≠ 0 := fun hz => hk (Fin.ext hz)
      rw [Fin.val_sub_one_of_ne_zero hk]
      omega
    have hslot : p - 1 + k = p + (k - 1) := by abel
    have hne : p + (k - 1) ≠ p - 1 := by
      intro heq
      apply hk
      rw [← hslot] at heq
      simpa using heq
    rw [hslot, Function.update_of_ne hne, H, hval]
    rfl

end RecentRing
