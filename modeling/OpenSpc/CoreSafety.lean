import OpenSpc.SpcStart
import OpenSpc.TimerSafety

/-!
# The core does not get lost

Whatever program is in memory, the core stops for one reason only, an opcode it
takes for invalid: SLEEP or STOP.  It divides by no zero, leaves no case of its
switch through the end, and uses up the cycles it is given.
-/

namespace OpenSpc

open Budget (spend spend_ends)

/-- The core has come to SLEEP or STOP. -/
def SleepOrStop (e : Halt) : Prop :=
  ∃ opcode : Byte, (opcode = 0xEF ∨ opcode = 0xFF) ∧
    ∃ mapAddress, e = .exit (opcode.setWidth 32) mapAddress

/-- They are the only opcodes the switch has no case for. -/
theorem switchSpc_eq_none (opcode : Byte) :
    switchSpc opcode = none ↔ opcode = 0xEF ∨ opcode = 0xFF := by
  have htable : ∀ n : Fin 256,
      (switchSpc (BitVec.ofFin n)).isNone = decide (n.val = 0xEF ∨ n.val = 0xFF) := by
    decide +kernel
  have hn := htable opcode.toFin
  rw [← Option.isNone_iff_eq_none, ← BitVec.toNat_inj, ← BitVec.toNat_inj]
  change (switchSpc opcode).isNone = _ at hn
  rw [hn, decide_eq_true_iff]
  rfl

/-- The core stands at an opcode that it has fetched and has no case for, and
that `e` names. -/
structure StandsAt (e : Halt) (b : Bus) : Prop where
  fetched : ¬ b.cpu.cycle.toNat ≤ 0
  opcode : b.cpu.opcode = 0xEF ∨ b.cpu.opcode = 0xFF
  error : e = .exit (b.cpu.opcode.setWidth 32) ((b.cpu.pc - 1).setWidth 32)

/-- Such an error is one of the two. -/
theorem StandsAt.sleepOrStop {e : Halt} {b : Bus} (h : StandsAt e b) : SleepOrStop e :=
  ⟨b.cpu.opcode, h.opcode, _, h.error⟩

/-- What the core relies on: timers in shape, and a cycle to go on with. -/
structure CoreInv (b : Bus) : Prop where
  timers : TimersInv b
  cycle : ∀ ys, switchSpc b.cpu.opcode = some ys → b.cpu.cycle.toNat ≤ ys.length

/-- An access that returns does not stop the core. -/
theorem ends_orTrap {α : Type} {x : Option α} {Q : α → Prop} {E : Halt → Prop}
    (h : Returns x Q) : Ends (orTrap x) Q E := by
  obtain ⟨a, rfl, ha⟩ := h
  exact Ends.ok ha

namespace CoreInv

variable {b : Bus}

/-- **The statements of a cycle**, by induction on the list. -/
theorem execBody (body : List Stmt) :
    ∀ {b : Bus}, TimersInv b →
      Ends (Bus.execBody body b) (fun p => TimersInv p.2) fun _ => False := by
  induction body with
  | nil => intro b h; exact Ends.ok h
  | cons s body ih =>
      intro b h
      cases s with
      | getByte address assign =>
          unfold Bus.execBody
          exact (ends_orTrap (h.getByteSpc _)).bind fun p hp => ih (b := p.2.mapRegs _) hp
      | setByte address data =>
          unfold Bus.execBody
          exact (ends_orTrap (h.setByteSpc _ _)).bind fun b₁ hb => ih hb
      | assign f => exact ih (b := b.mapRegs f) h
      | exitIf test =>
          unfold Bus.execBody
          split
          · exact Ends.ok h
          · exact ih h

/-- A fetch does not fail. -/
theorem fetch (h : TimersInv b) : Ends b.fetch TimersInv fun _ => False := by
  unfold Bus.fetch
  exact (ends_orTrap (h.getByteSpc _)).bind fun p hp => Ends.ok hp

/-- **A step.** -/
theorem stepCycle (h : CoreInv b) :
    Ends b.stepCycle (fun x => CoreInv x.1 ∧ x.2 ≤ 10) fun e => StandsAt e b := by
  have hlost : ∀ e : Halt, False ∧ True → StandsAt e b := fun e he => he.1.elim
  suffices hinv : Ends b.stepCycle (fun x => CoreInv x.1) fun e => StandsAt e b from
    (hinv.and b.stepCycle_cost).mono (fun x hx => hx) fun e he => he.1
  unfold Bus.stepCycle
  split
  · refine ((fetch h.timers).mono (fun _ hb => hb) fun e he => he.elim).bind fun b₁ htimers => ?_
    refine Ends.ok ⟨htimers, ?_⟩
    intro ys hys
    rw [Bus.toNat_setCycle _ (by decide)]
    exact (switchSpc_short hys).1.1
  · rename_i hcycle
    split
    · rename_i ys hys
      have hlen := h.cycle ys hys
      have hsome : b.cpu.cycle.toNat - 1 < ys.length := by omega
      unfold Bus.stepAt
      rw [List.getElem?_eq_getElem hsome]
      generalize ys[b.cpu.cycle.toNat - 1] = y
      refine (((execBody y.body h.timers).and (CycleFrame.execBody y.body b)).mono
        (fun _ hp => hp) hlost).bind ?_
      rintro ⟨exited, b₁⟩ ⟨htimers, hframe⟩
      have hop : switchSpc b₁.cpu.opcode = some ys := by rw [hframe.opcode, hys]
      have hnext {c : Nat} (n : Nat) (hc : c ≤ ys.length) :
          CoreInv ((b₁.work n).setCycle c) := by
        refine ⟨htimers, ?_⟩
        intro zs hzs
        change switchSpc b₁.cpu.opcode = some zs at hzs
        rw [hop, Option.some_inj] at hzs
        have hshort := (switchSpc_short hys).1.2
        rw [Bus.toNat_setCycle _ (by omega), ← hzs]
        exact hc
      cases exited with
      | true => exact Ends.ok (hnext 1 (Nat.zero_le _))
      | false =>
          refine Ends.ok (hnext y.work ?_)
          split
          · exact Nat.zero_le _
          · omega
    · rename_i hnone
      exact Ends.error ⟨hcycle, (switchSpc_eq_none _).mp hnone, rfl⟩

/-- The clock is not part of it. -/
theorem of_rested {p : Bus × Nat} (h : CoreInv p.1) (hrest : Rested p b) : CoreInv b := by
  obtain ⟨k, -, habreast⟩ := hrest.abreast
  refine ⟨?_, ?_⟩
  · intro timer
    have hshift : b.cpu.timers timer = (p.1.cpu.timers timer).shift k := habreast.same.timers timer
    have ht := h.timers timer
    rw [hshift]
    exact ⟨ht.target_pos, ht.target_le, ht.counter_le, ht.position_gt, ht.position_lt⟩
  · intro ys hys
    have hop : b.cpu.opcode = p.1.cpu.opcode := habreast.same.opcode
    have hcycle : b.cpu.cycle = p.1.cpu.cycle := habreast.cycle
    rw [hcycle]
    exact h.cycle ys (by rw [← hop, hys])

end CoreInv

/-- What has become of a core that was given `n` cycles: it has taken the steps
they pay for, one unit of time or more each, and the last of them has run past
the end by no more than ten cycles.  The counter has moved by `n`, but for the
times it was wound back by 0xF0000000. -/
structure RunsFor (n : Nat) (b b' : Bus) : Prop where
  steps : ∃ q, spend Bus.stepCycle n (b.loadCycles, b.ahead) = .ok q ∧ Rested q b'
  ahead : b'.ahead ≤ 10
  clock : b'.cpu.cycles.toNat ≡ b.cpu.cycles.toNat + n [MOD 2 ^ 28]

/-- **Calls of `SPC_START`**, however many: the core uses up what it is given
and at most ten cycles more, and its invariant holds again, unless it comes to
SLEEP or STOP. -/
theorem spcStarts_safe {b : Bus} (h : CoreInv b) (hahead : b.ahead ≤ 10) {ns : List Nat}
    (hns : ∀ n ∈ ns, n < 2 ^ 31) :
    Ends (b.spcStarts ns) (fun b' => CoreInv b' ∧ RunsFor ns.sum b b') SleepOrStop := by
  have hload : CoreInv b.loadCycles := ⟨h.timers, h.cycle⟩
  have hstep (s : Bus) (hs : CoreInv s) :
      Ends s.stepCycle (fun x => CoreInv x.1 ∧ x.2 ≤ 10) SleepOrStop :=
    hs.stepCycle.mono (fun _ hx => hx) fun _ he => he.sleepOrStop
  have hsteps := spend_ends (d := 10) hstep ns.sum (b.loadCycles, b.ahead) hload hahead
  have hcalls := ((Rested.refl b).spcStarts hns hahead).ends hsteps.self
  refine (hcalls.and (Bus.spcStarts_cycles ns b)).mono ?_ fun _ he => he.1
  rintro b' ⟨⟨q, ⟨hrest, hq⟩, hspend, hinv, -⟩, hclock⟩
  exact ⟨hinv.of_rested hrest, ⟨q, hspend, hrest⟩, hrest.ahead.trans_le hq, hclock⟩

/-! ## The end of a core -/

/-- **A cycle that stops the core** finds it where it stops. -/
theorem CoreInv.spcStart_stands {b : Bus} (h : CoreInv b) (hahead : b.ahead ≤ 10) :
    Ends (b.spcStart 1) (fun _ => True) fun e => StandsAt e b := by
  have hload : CoreInv b.loadCycles := ⟨h.timers, h.cycle⟩
  have hspend : Ends (spend Bus.stepCycle 1 (b.loadCycles, b.ahead)) (fun _ => True)
      fun e => StandsAt e b.loadCycles := by
    cases b.ahead with
    | zero => exact hload.stepCycle.bind fun _ _ => Ends.ok trivial
    | succ n => exact Ends.ok trivial
  have hcall : Alike Rested (spend Bus.stepCycle 1 (b.loadCycles, b.ahead)) (b.spcStart 1) :=
    (Rested.refl b).spcStart hahead (by decide)
  exact (hcall.ends hspend).mono (fun _ _ => trivial) fun e he => ⟨he.fetched, he.opcode, he.error⟩

namespace StandsAt

variable {e : Halt} {b : Bus}

/-- A pass of the loop fails there. -/
theorem pass (h : StandsAt e b) : b.pass = .error e := by
  unfold Bus.pass Bus.switch
  rw [if_neg h.fetched, (switchSpc_eq_none _).mpr h.opcode, h.error]
  rfl

/-- The loop has nothing to do or stops at once. -/
theorem executeLoop (h : StandsAt e b) (n : Nat) :
    Ends (b.executeLoop n) (StandsAt e) fun _ => True := by
  cases n with
  | zero => exact Ends.ok h
  | succ n =>
      unfold Bus.executeLoop
      split
      · exact Ends.ok h
      · rw [h.pass]
        exact Ends.error trivial

/-- A call of `Execute_SPC` does not get past it. -/
theorem executeSpc (h : StandsAt e b) : Ends b.executeSpc (StandsAt e) fun _ => True := by
  have hload : StandsAt e b.loadCycles := ⟨h.fetched, h.opcode, h.error⟩
  unfold Bus.executeSpc
  exact (hload.executeLoop _).bind fun b₁ h₁ => Ends.ok ⟨h₁.fetched, h₁.opcode, h₁.error⟩

/-- **Once it stands there it stands there for good.** -/
theorem spcStart (h : StandsAt e b) (cycles : BitVec 32) :
    Ends (b.spcStart cycles) (StandsAt e) fun _ => True := by
  have hcharge : StandsAt e { b with cpu := { b.cpu with cycles := b.cpu.cycles + cycles } } :=
    ⟨h.fetched, h.opcode, h.error⟩
  unfold Bus.spcStart
  dsimp only
  split
  · split
    · exact Ends.ok hcharge
    · split
      · exact Ends.ok hcharge
      · exact executeSpc ⟨h.fetched, h.opcode, h.error⟩
  · exact hcharge.executeSpc

end StandsAt

end OpenSpc
