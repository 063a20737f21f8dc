import Mathlib.Algebra.BigOperators.Group.Finset.Basic
import Mathlib.Algebra.Order.BigOperators.Group.Finset
import Mathlib.Logic.Function.Iterate

/-!
# Messages under a mark

A sender shares some registers with a receiver and writes one of them at a time.
A message is some writes and then a mark in a register of its own, the flag; the
sender goes on to the next one when the mark is echoed.  A receiver that looks
at the flag sees the mark before or this one, and with this one all of the
message, however the moves of the sender are spread over time.
-/

namespace Handshake

variable {ι β : Type} {flag : ι}

/-- What is written to the other registers, and the mark. -/
structure Message (flag : ι) (β : Type) where
  data : List ({ i : ι // i ≠ flag } × β)
  mark : β

/-- What the sender has in mind: the echo it waits for, the writes of the
message under way, and the messages after it. -/
structure Sender (flag : ι) (β : Type) where
  awaited : β
  todo : List (ι × β)
  messages : List (Message flag β)

/-- Writes with the mark behind them. -/
def marked (flag : ι) (ws : List ({ i : ι // i ≠ flag } × β)) (mark : β) : List (ι × β) :=
  ws.map (fun w => (w.1.1, w.2)) ++ [(flag, mark)]

/-- The moves to the end of a message. -/
def Sender.left (x : Sender flag β) : Nat :=
  match x.todo, x.messages with
  | [], [] => 0
  | [], m :: _ => m.data.length + 2
  | ws, _ => ws.length

/-- A message takes a move for each port, and one for its mark. -/
theorem left_marked (y mark : β) (ws : List ({ i : ι // i ≠ flag } × β))
    (ms : List (Message flag β)) : Sender.left ⟨y, marked flag ws mark, ms⟩ = ws.length + 1 := by
  have hlength : (marked flag ws mark).length = ws.length + 1 := by
    unfold marked
    rw [List.length_append, List.length_map]
    rfl
  rw [← hlength]
  cases ws <;> rfl

/-! ## The registers -/

section

variable [DecidableEq ι]

/-- A write. -/
def put (p : ι → β) (w : ι × β) : ι → β := Function.update p w.1 w.2

/-- The registers after a message. -/
def Message.after (m : Message flag β) (p : ι → β) : ι → β :=
  (marked flag m.data m.mark).foldl put p

/-- The mark comes last. -/
theorem Message.after_flag (m : Message flag β) (p : ι → β) : m.after p flag = m.mark := by
  unfold after marked
  rw [List.foldl_append]
  exact Function.update_self _ _ _

/-- The flag is still what it was in `p`; `m` is next to be sent, or being
written over `p`, and `ms` come after it. -/
inductive Pending (echo : β) (p : ι → β) (m : Message flag β) (ms : List (Message flag β)) :
    Sender flag β × (ι → β) → Prop
  | late : Pending echo p m ms (⟨echo, [], m :: ms⟩, p)
  | writing {q : ι → β} (ws : List ({ i : ι // i ≠ flag } × β)) (hflag : q flag = p flag)
      (hafter : (marked flag ws m.mark).foldl put q = m.after p) :
      Pending echo p m ms (⟨m.mark, marked flag ws m.mark, ms⟩, q)

/-- `m` is sent. -/
def sent (p : ι → β) (m : Message flag β) (ms : List (Message flag β)) :
    Sender flag β × (ι → β) := (⟨m.mark, [], ms⟩, m.after p)

/-- Where the sender can be while nothing but `ms` is unacknowledged. -/
def Serving (echo : β) (p : ι → β) :
    List (Message flag β) → Sender flag β × (ι → β) → Prop
  | [], x => x = (⟨echo, [], []⟩, p)
  | m :: ms, x => Pending echo p m ms x ∨ x = sent p m ms

variable {echo : β} {p : ι → β} {m : Message flag β} {ms : List (Message flag β)}
  {x : Sender flag β × (ι → β)}

/-- Before the mark the flag stays. -/
theorem Pending.keeps_flag (h : Pending echo p m ms x) : x.2 flag = p flag := by
  cases h with
  | late => rfl
  | writing ws hflag _ => exact hflag

/-- Before the mark there are moves to be made. -/
theorem Pending.left_pos (h : Pending echo p m ms x) : 0 < x.1.left := by
  cases h with
  | late => exact Nat.succ_pos _
  | writing ws _ _ =>
      dsimp only
      rw [left_marked]
      exact Nat.succ_pos _

/-- Before the first message. -/
theorem Serving.start (echo : β) (p : ι → β) (ms : List (Message flag β)) :
    Serving echo p ms (⟨echo, [], ms⟩, p) := by
  cases ms with
  | nil => exact rfl
  | cons m ms => exact Or.inl .late

/-- An acknowledgement. -/
theorem Serving.of_sent (p : ι → β) (m : Message flag β) (ms : List (Message flag β)) :
    Serving m.mark (m.after p) ms (sent p m ms) := Serving.start _ _ _

end

/-! ## Moves -/

section

variable [DecidableEq β]

/-- A move of the sender, and what it writes. -/
def Sender.move (echo : β) (x : Sender flag β) : Sender flag β × Option (ι × β) :=
  match x.todo with
  | w :: ws => ({ x with todo := ws }, some w)
  | [] =>
      if echo = x.awaited then
        match x.messages with
        | [] => (x, none)
        | m :: ms => (⟨m.mark, marked flag m.data m.mark, ms⟩, none)
      else (x, none)

/-- A move with nothing to write. -/
theorem move_of_ne {echo : β} {x : Sender flag β} (htodo : x.todo = []) (hne : echo ≠ x.awaited) :
    x.move echo = (x, none) := by
  unfold Sender.move
  rw [htodo]
  exact if_neg hne

/-- A move to the next message. -/
theorem move_late (echo : β) (m : Message flag β) (ms : List (Message flag β)) :
    Sender.move echo ⟨echo, [], m :: ms⟩ = (⟨m.mark, marked flag m.data m.mark, ms⟩, none) :=
  if_pos rfl

/-- A move after the last message. -/
theorem move_done (echo : β) :
    Sender.move echo (⟨echo, [], []⟩ : Sender flag β) = (⟨echo, [], []⟩, none) := if_pos rfl

variable [DecidableEq ι]

/-- A move of the sender on the registers. -/
def act (echo : β) (x : Sender flag β × (ι → β)) : Sender flag β × (ι → β) :=
  ((x.1.move echo).1, (x.1.move echo).2.elim x.2 (put x.2))

/-- A move that writes nothing changes the sender only. -/
theorem act_of_move {echo : β} {x y : Sender flag β} (h : x.move echo = (y, none)) (p : ι → β) :
    act echo (x, p) = (y, p) := by
  unfold act
  rw [h]
  rfl

variable {echo : β} {p : ι → β} {m : Message flag β} {ms : List (Message flag β)}
  {x : Sender flag β × (ι → β)}

/-- **A move** brings a message nearer to its end, or ends it. -/
theorem Pending.act (h : Pending echo p m ms x) :
    (Pending echo p m ms (act echo x) ∧ (Handshake.act echo x).1.left + 1 = x.1.left) ∨
      Handshake.act echo x = sent p m ms := by
  cases h with
  | late =>
      left
      rw [act_of_move (move_late echo m ms)]
      refine ⟨.writing m.data rfl rfl, ?_⟩
      rw [left_marked]
      rfl
  | writing ws hflag hafter =>
      cases ws with
      | nil => exact Or.inr (congrArg (Prod.mk _) hafter)
      | cons w ws =>
          left
          refine ⟨.writing ws ?_ hafter, ?_⟩
          · rw [← hflag]
            exact Function.update_of_ne w.1.2.symm _ _
          · dsimp only
            rw [left_marked]
            exact congrArg (· + 1) (left_marked m.mark m.mark ws ms)

/-- A message that is sent stays as it is until it is echoed. -/
theorem iterate_sent (hne : echo ≠ m.mark) (n : Nat) : (act echo)^[n] (sent p m ms) = sent p m ms :=
  Function.iterate_fixed (act_of_move (move_of_ne rfl hne) _) n

/-- **Any number of moves**, by induction on them. -/
theorem Pending.iterate (hne : echo ≠ m.mark) (n : Nat) :
    ∀ {x : Sender flag β × (ι → β)}, Pending echo p m ms x →
      (Pending echo p m ms ((Handshake.act echo)^[n] x) ∧
          ((Handshake.act echo)^[n] x).1.left + n = x.1.left) ∨
        (Handshake.act echo)^[n] x = sent p m ms := by
  induction n with
  | zero => exact fun h => Or.inl ⟨h, rfl⟩
  | succ n ih =>
      intro x h
      rw [Function.iterate_succ_apply]
      obtain ⟨h', hleft⟩ | hsent := h.act
      · obtain ⟨hrest, hleft'⟩ | hrest := ih h'
        · left
          exact ⟨hrest, by omega⟩
        · exact Or.inr hrest
      · right
        rw [hsent]
        exact iterate_sent hne n

/-- **The sender serves on** while the next mark is not echoed. -/
theorem Serving.iterate (h : Serving echo p ms x) (hne : ∀ m ∈ ms.head?, echo ≠ m.mark) (n : Nat) :
    Serving echo p ms ((act echo)^[n] x) := by
  cases ms with
  | nil =>
      rw [show x = _ from h]
      exact Function.iterate_fixed (act_of_move (move_done echo) p) n
  | cons m ms =>
      have hne := hne m rfl
      obtain hpending | hsent := h
      · exact (hpending.iterate hne n).imp And.left id
      · right
        rw [hsent]
        exact iterate_sent hne n

end

/-! ## Moves in time -/

/-- The moves that are made before time `t`. -/
def movesBefore (schedule : Nat → Nat) (t : Nat) : Nat := ∑ i ∈ Finset.range t, schedule i

/-- The sender is never left out for good. -/
def Fair (schedule : Nat → Nat) : Prop := ∀ t, ∃ u, t ≤ u ∧ 0 < schedule u

/-- The moves of one step more. -/
theorem movesBefore_succ (schedule : Nat → Nat) (t : Nat) :
    movesBefore schedule (t + 1) = movesBefore schedule t + schedule t := Finset.sum_range_succ _ _

/-- The moves never get fewer. -/
theorem movesBefore_mono (schedule : Nat → Nat) : Monotone (movesBefore schedule) := by
  apply monotone_nat_of_le_succ
  intro t
  rw [movesBefore_succ]
  exact Nat.le_add_right _ _

/-- Under a fair schedule any number of moves is made in time. -/
theorem Fair.reaches {schedule : Nat → Nat} (h : Fair schedule) (t n : Nat) :
    ∃ u, movesBefore schedule t + n ≤ movesBefore schedule u := by
  induction n with
  | zero => exact ⟨t, le_rfl⟩
  | succ n ih =>
      obtain ⟨u, hu⟩ := ih
      obtain ⟨v, huv, hv⟩ := h u
      have hmono := movesBefore_mono schedule huv
      refine ⟨v + 1, ?_⟩
      rw [movesBefore_succ]
      omega

section

variable [DecidableEq β] [DecidableEq ι]

/-- The sender at time `u`, when it was `x` at time `t` and saw the same echo
all along. -/
def during (schedule : Nat → Nat) (echo : β) (t : Nat) (x : Sender flag β × (ι → β)) (u : Nat) :
    Sender flag β × (ι → β) :=
  (act echo)^[movesBefore schedule u - movesBefore schedule t] x

variable {schedule : Nat → Nat} {echo : β}

/-- Nothing has happened at the start. -/
theorem during_self (t : Nat) (x : Sender flag β × (ι → β)) :
    during schedule echo t x t = x := by
  unfold during
  rw [Nat.sub_self]
  rfl

/-- Stretches of time can be put together. -/
theorem during_trans {t u v : Nat} (htu : t ≤ u) (huv : u ≤ v) (x : Sender flag β × (ι → β)) :
    during schedule echo t x v = during schedule echo u (during schedule echo t x u) v := by
  have hmono := movesBefore_mono schedule htu
  have hmono' := movesBefore_mono schedule huv
  unfold during
  rw [← Function.iterate_add_apply]
  congr 2
  omega

/-- The last step is the last one made. -/
theorem during_succ {t u : Nat} (h : t ≤ u) (x : Sender flag β × (ι → β)) :
    during schedule echo t x (u + 1) = (act echo)^[schedule u] (during schedule echo t x u) := by
  rw [during_trans h (Nat.le_succ u)]
  unfold during
  rw [movesBefore_succ, Nat.add_sub_cancel_left]

end

end Handshake
