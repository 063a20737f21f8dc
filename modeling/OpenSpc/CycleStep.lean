import OpenSpc.Budget
import OpenSpc.ClockShift

/-!
# Cycle by cycle

The loop of `Execute_SPC` runs through the cycles of an opcode and keeps
`_cycle` as it found it.  Here the core takes one step for each cycle of the
script and keeps the number of the cycle up to date.  Both come to the same
wherever the clock stops them.
-/

namespace OpenSpc

/-! ## What the scripts have in common -/

/-- A script of the switch is an entry of the table. -/
theorem switchSpc_mem {opcode : Byte} {ys : List Cycle} (h : switchSpc opcode = some ys) :
    ∃ row ∈ switchTable opcode, some ys ∈ row := by
  unfold switchSpc at h
  have hcol : opcode.toNat % 32 < (switchTable opcode).length := Nat.mod_lt _ (by decide)
  rw [List.getD_eq_getElem _ _ hcol] at h
  refine ⟨_, List.getElem_mem hcol, ?_⟩
  generalize (switchTable opcode)[opcode.toNat % 32] = row at h ⊢
  by_cases hrow : opcode.toNat / 32 < row.length
  · rw [List.getD_eq_getElem _ _ hrow] at h
    rw [← h]
    exact List.getElem_mem hrow
  · rw [List.getD_eq_default _ _ (not_lt.mp hrow)] at h
    cases h

/-- A script of one to seven cycles, none of which counts more than eleven. -/
def shortScript (ys : List Cycle) : Bool :=
  (1 ≤ ys.length ∧ ys.length ≤ 7) && ys.all fun y => y.work ≤ 11

/-- **The scripts are short.**  The longest step is that of DIV. -/
theorem switchSpc_short {opcode : Byte} {ys : List Cycle} (h : switchSpc opcode = some ys) :
    (1 ≤ ys.length ∧ ys.length ≤ 7) ∧ ∀ y ∈ ys, y.work ≤ 11 := by
  have htable : ((switchTable opcode).all fun row => row.all fun c => c.all shortScript) = true :=
    rfl
  obtain ⟨row, hrow, hys⟩ := switchSpc_mem h
  rw [List.all_eq_true] at htable
  have hc := List.all_eq_true.mp (htable row hrow) _ hys
  rw [Option.all_some, shortScript, Bool.and_eq_true, decide_eq_true_iff, List.all_eq_true] at hc
  exact ⟨hc.1, fun y hy => of_decide_eq_true (hc.2 y hy)⟩

/-! ## What a cycle keeps -/

/-- What only the loop writes is as it was. -/
structure CycleFrame (b b' : Bus) : Prop where
  cycles : b'.cpu.cycles = b.cpu.cycles
  workCycles : b'.cpu.workCycles = b.cpu.workCycles
  cycle : b'.cpu.cycle = b.cpu.cycle
  opcode : b'.cpu.opcode = b.cpu.opcode

namespace CycleFrame

variable {b b' b'' : Bus}

/-- Nothing done keeps everything. -/
theorem refl (b : Bus) : CycleFrame b b := ⟨rfl, rfl, rfl, rfl⟩

/-- One change after another. -/
theorem trans (h : CycleFrame b b') (h' : CycleFrame b' b'') : CycleFrame b b'' :=
  ⟨h'.cycles.trans h.cycles, h'.workCycles.trans h.workCycles, h'.cycle.trans h.cycle,
    h'.opcode.trans h.opcode⟩

/-- A frame holds of what an access leaves, if it gives anything. -/
theorem getByteSpc (b : Bus) (address : BitVec 16) :
    Ends (orTrap (b.getByteSpc address)) (fun p => CycleFrame b p.2) fun _ => True := by
  have hmap : ∀ f ∈ Bus.readFuncMap,
      Ends (orTrap (f address b.saveCycles)) (fun p => CycleFrame b p.2) fun _ => True := by
    have hkept (data : Byte) :
        Ends (orTrap (some (data, b.saveCycles))) (fun p => CycleFrame b p.2) fun _ => True :=
      Ends.ok ⟨rfl, rfl, rfl, rfl⟩
    have hcounter : Ends (orTrap (b.saveCycles.spcReadCounter address))
        (fun p => CycleFrame b p.2) fun _ => True := by
      unfold Bus.spcReadCounter
      dsimp only
      cases (b.saveCycles.cpu.timers _).readCounter _ _ _ with
      | none => exact Ends.error trivial
      | some p => exact Ends.ok ⟨rfl, rfl, rfl, rfl⟩
    unfold Bus.readFuncMap
    simp only [List.forall_mem_cons]
    exact ⟨hkept _, hkept _, hkept _, hkept _, hkept _, hkept _, hkept _, hkept _, hkept _, hkept _,
      hkept _, hkept _, hkept _, hcounter, hcounter, hcounter,
      fun _ hf => absurd hf List.not_mem_nil⟩
  unfold Bus.getByteSpc
  split
  · split
    · split <;> exact Ends.ok (refl b)
    · exact Ends.ok (refl b)
  · split
    · exact Ends.ok (refl b)
    · rename_i hlow hhigh
      have hlt : address.toNat - 0xF0 < Bus.readFuncMap.length := by
        change _ < 16
        omega
      have hmem := List.getElem_mem hlt
      rw [List.getD_eq_getElem _ _ hlt]
      generalize Bus.readFuncMap[address.toNat - 0xF0] = f at hmem ⊢
      exact hmap f hmem

/-- A write keeps the counters of the loop. -/
theorem setByteSpc (b : Bus) (address : BitVec 16) (data : Byte) :
    Ends (orTrap (b.setByteSpc address data)) (CycleFrame b) fun _ => True := by
  have hmap : ∀ f ∈ Bus.writeFuncMap,
      Ends (orTrap (f address data b.saveCycles)) (CycleFrame b) fun _ => True := by
    have htimer : Ends (orTrap (b.saveCycles.spcWriteTimer address data)) (CycleFrame b)
        fun _ => True := by
      unfold Bus.spcWriteTimer
      dsimp only
      cases (b.saveCycles.cpu.timers _).writeTarget _ _ _ data with
      | none => exact Ends.error trivial
      | some t => exact Ends.ok ⟨rfl, rfl, rfl, rfl⟩
    have hctrl : Ends (orTrap (b.saveCycles.spcWriteCtrl address data)) (CycleFrame b)
        fun _ => True := by
      have hstart (timer : Fin 3) (on : Bool) {b' : Bus} (h : CycleFrame b b') :
          CycleFrame b (if on then b'.spcStartTimer timer else b') := by
        split
        · exact h.trans ⟨rfl, rfl, rfl, rfl⟩
        · exact h
      have hports : CycleFrame b { b.saveCycles with cpu := { b.saveCycles.cpu with
          ffc0Address := if ByteMask.bit data 7 then .rom else .ram
          portR := fun i =>
            if ByteMask.bit data 4 ∧ i.val < 2 then 0
            else if ByteMask.bit data 5 ∧ 2 ≤ i.val then 0 else b.saveCycles.cpu.portR i } } :=
        ⟨rfl, rfl, rfl, rfl⟩
      exact Ends.ok ((hstart 2 _ (hstart 1 _ (hstart 0 _ hports))).trans ⟨rfl, rfl, rfl, rfl⟩)
    have hinvalid : Ends (orTrap (Bus.spcWriteInvalid address data b.saveCycles)) (CycleFrame b)
        fun _ => True := Ends.ok ⟨rfl, rfl, rfl, rfl⟩
    have hram : Ends (orTrap (Bus.spcWriteRam address data b.saveCycles)) (CycleFrame b)
        fun _ => True := Ends.ok ⟨rfl, rfl, rfl, rfl⟩
    have hdsp : Ends (orTrap (Bus.spcWriteDspData address data b.saveCycles)) (CycleFrame b)
        fun _ => True := Ends.ok ⟨rfl, rfl, rfl, rfl⟩
    have hport : Ends (orTrap (Bus.spcWritePortW address data b.saveCycles)) (CycleFrame b)
        fun _ => True := Ends.ok ⟨rfl, rfl, rfl, rfl⟩
    unfold Bus.writeFuncMap
    simp only [List.forall_mem_cons]
    exact ⟨hinvalid, hctrl, hram, hdsp, hport, hport, hport, hport, hram, hram, htimer, htimer,
      htimer, hram, hram, hram, fun _ hf => absurd hf List.not_mem_nil⟩
  unfold Bus.setByteSpc
  dsimp only
  split
  · exact Ends.ok ⟨rfl, rfl, rfl, rfl⟩
  · rename_i hhardware
    have hlt : address.toNat - 0xF0 < Bus.writeFuncMap.length := by
      change _ < 16
      omega
    have hmem := List.getElem_mem hlt
    rw [List.getD_eq_getElem _ _ hlt]
    generalize Bus.writeFuncMap[address.toNat - 0xF0] = f at hmem ⊢
    exact hmap f hmem

/-- **The statements of a cycle**, by induction on the list. -/
theorem execBody (body : List Stmt) :
    ∀ b : Bus, Ends (Bus.execBody body b) (fun p => CycleFrame b p.2) fun _ => True := by
  induction body with
  | nil => intro b; exact Ends.ok (refl b)
  | cons s body ih =>
      intro b
      have hrest {b' : Bus} (h : CycleFrame b b') :
          Ends (Bus.execBody body b') (fun p => CycleFrame b p.2) fun _ => True :=
        (ih b').mono (fun _ hp => h.trans hp) fun _ _ => trivial
      cases s with
      | getByte address assign =>
          unfold Bus.execBody
          refine (getByteSpc b _).bind ?_
          rintro ⟨v, b₁⟩ h
          exact hrest (h.trans ⟨rfl, rfl, rfl, rfl⟩)
      | setByte address data =>
          unfold Bus.execBody
          exact (setByteSpc b _ _).bind fun b₁ h => hrest h
      | assign f => exact hrest ⟨rfl, rfl, rfl, rfl⟩
      | exitIf test =>
          unfold Bus.execBody
          split
          · exact Ends.ok (refl b)
          · exact ih b

end CycleFrame

/-- The fetch changes the opcode and counts a cycle. -/
theorem Bus.fetch_frame (b : Bus) :
    Ends b.fetch
      (fun b' => b'.cpu.cycle = b.cpu.cycle ∧ b'.cpu.workCycles = b.cpu.workCycles + 1) fun _ =>
        True := by
  unfold Bus.fetch
  refine (CycleFrame.getByteSpc b _).bind ?_
  rintro ⟨v, b₁⟩ h
  refine Ends.ok ⟨h.cycle, ?_⟩
  change b₁.cpu.workCycles + 1 = _
  rw [h.workCycles]

/-! ## Steps -/

namespace Bus

/-- The cycle of a script that comes after number `c`, and what it costs beyond
a unit. -/
def stepAt (ys : List Cycle) (c : Nat) (b : Bus) : Except Halt (Bus × Nat) :=
  match ys[c - 1]? with
  | none => .error .fallsThrough
  | some y => do
      let (exited, b) ← execBody y.body b
      if exited then .ok ((b.work 1).setCycle 0, 0)
      else .ok ((b.work y.work).setCycle (if c = ys.length then 0 else c + 1), y.work - 1)

/-- One cycle of the core. -/
def stepCycle (b : Bus) : Except Halt (Bus × Nat) :=
  if b.cpu.cycle.toNat ≤ 0 then do
    let b ← b.fetch
    .ok (b.setCycle 1, 0)
  else
    match switchSpc b.cpu.opcode with
    | some ys => stepAt ys b.cpu.cycle.toNat b
    | none => b.invalidSpcOpcode

/-- The cycle is stored in a byte. -/
theorem toNat_setCycle (b : Bus) {c : Nat} (hc : c < 256) : (b.setCycle c).cpu.cycle.toNat = c := by
  change (BitVec.ofNat 8 c).toNat = c
  rw [BitVec.toNat_ofNat]
  exact Nat.mod_eq_of_lt hc

/-- The budget is used up when the work is not negative. -/
theorem isDue_iff (b : Bus) : b.isDue = true ↔ 0 ≤ b.cpu.workCycles.toInt := by
  unfold isDue
  rw [BitVec.msb_eq_toInt]
  simp

/-- Counting cycles does not overflow. -/
theorem toInt_work {b : Bus} {n : Nat} {x : Int} (h : b.cpu.workCycles.toInt = x) (hn : n ≤ 11)
    (hx : x < 2 ^ 30) : (b.work n).cpu.workCycles.toInt = x + n := by
  have hlow := BitVec.le_toInt b.cpu.workCycles
  change (b.cpu.workCycles + BitVec.ofNat 32 n).toInt = x + n
  have hsmall : (BitVec.ofNat 32 n).toInt = n := by
    rw [BitVec.toInt_ofNat']
    apply Int.bmod_eq_of_le <;> omega
  rw [BitVec.toInt_add, hsmall, h]
  rw [h] at hlow
  apply Int.bmod_eq_of_le <;> omega

end Bus

/-! ## The loop -/

open Budget (spend spend_succ spend_of_le spend_of_ge)

/-- The loop has stopped where the steps have, and has run over by their debt. -/
structure Stopped (p : Bus × Nat) (b : Bus) : Prop where
  same : Retimed 0 p.1 b
  cycle : b.cpu.cycle = p.1.cpu.cycle
  debt : b.cpu.workCycles.toInt = p.2

namespace Bus

/-- With its budget used up the loop does nothing. -/
theorem executeLoop_of_due {b : Bus} (h : b.isDue = true) (f : Nat) : b.executeLoop f = .ok b := by
  cases f with
  | zero => rfl
  | succ f =>
      unfold executeLoop
      rw [if_pos h]

/-- A cycle that is done is passed over. -/
theorem runCycles_done {b : Bus} {c : Nat} (h : ¬ b.cpu.cycle.toNat ≤ c - 1) (y : Cycle)
    (ys : List Cycle) : runCycles (y :: ys) c b = runCycles ys (c + 1) b := by
  rw [runCycles, if_neg h]

/-- A cycle that is not is run. -/
theorem runCycles_next {b : Bus} {c : Nat} (h : b.cpu.cycle.toNat ≤ c - 1) (y : Cycle)
    (ys : List Cycle) :
    runCycles (y :: ys) c b = execBody y.body b >>= fun p =>
      if p.1 then .ok ((p.2.work 1).setCycle 0)
      else
        match ys with
        | [] => .ok ((p.2.work y.work).setCycle 0)
        | _ :: _ =>
            if (p.2.work y.work).isDue then .ok ((p.2.work y.work).setCycle c)
            else runCycles ys (c + 1) (p.2.work y.work) := if_pos h

/-- Cycles that are done are passed over. -/
theorem runCycles_skip (cs : List Cycle) (b : Bus) :
    ∀ j, j + 1 ≤ b.cpu.cycle.toNat → runCycles cs 2 b = runCycles (cs.drop j) (j + 2) b := by
  intro j
  induction j with
  | zero => intro _; rfl
  | succ j ih =>
      intro hj
      rw [ih (by omega)]
      cases hdrop : cs.drop j with
      | nil =>
          rw [← List.drop_drop, hdrop]
          rfl
      | cons y ys =>
          rw [← List.drop_drop, hdrop, runCycles_done (by omega)]
          rfl

/-! ### What the loop keeps -/

/-- What the fetch, the statements and the counters keep. -/
structure Kept (I : Bus → Prop) : Prop where
  fetch : ∀ b, I b → Ends b.fetch I fun _ => True
  body : ∀ body b, I b → Ends (execBody body b) (fun p => I p.2) fun _ => True
  work : ∀ b n, I b → I (b.work n)
  setCycle : ∀ b c, I b → I (b.setCycle c)

namespace Kept

variable {I : Bus → Prop}

/-- The cycles of an opcode, by induction on them. -/
theorem runCycles (h : Kept I) (ys : List Cycle) :
    ∀ (c : Nat) (b : Bus), I b → Ends (Bus.runCycles ys c b) I fun _ => True := by
  induction ys with
  | nil => intro c b hb; exact Ends.error trivial
  | cons y ys ih =>
      intro c b hb
      by_cases hc : b.cpu.cycle.toNat ≤ c - 1
      · rw [runCycles_next hc]
        refine (h.body y.body b hb).bind ?_
        rintro ⟨exited, b₁⟩ hb₁
        cases exited with
        | true => exact Ends.ok (h.setCycle _ 0 (h.work b₁ 1 hb₁))
        | false =>
            have hwork : I (b₁.work y.work) := h.work b₁ y.work hb₁
            cases ys with
            | nil => exact Ends.ok (h.setCycle _ 0 hwork)
            | cons z zs =>
                change Ends (if (b₁.work y.work).isDue then .ok ((b₁.work y.work).setCycle c)
                  else Bus.runCycles (z :: zs) (c + 1) (b₁.work y.work)) _ _
                split
                · exact Ends.ok (h.setCycle _ c hwork)
                · exact ih (c + 1) _ hwork
      · rw [runCycles_done hc]
        exact ih (c + 1) b hb

/-- The switch keeps what the loop keeps. -/
theorem switch (h : Kept I) (b : Bus) (hb : I b) : Ends b.switch I fun _ => True := by
  unfold Bus.switch
  split
  · exact h.runCycles _ 2 b hb
  · exact Ends.error trivial

/-- A pass of the loop keeps it. -/
theorem pass (h : Kept I) (b : Bus) (hb : I b) : Ends b.pass I fun _ => True := by
  unfold Bus.pass
  split
  · refine (h.fetch b hb).bind fun b₁ hb₁ => ?_
    split
    · exact Ends.ok (h.setCycle b₁ 1 hb₁)
    · exact h.switch b₁ hb₁
  · exact h.switch b hb

/-- **What the loop keeps**, by induction on the number of its passes. -/
theorem executeLoop (h : Kept I) (n : Nat) :
    ∀ b, I b → Ends (b.executeLoop n) I fun _ => True := by
  induction n with
  | zero => intro b hb; exact Ends.ok hb
  | succ n ih =>
      intro b hb
      unfold Bus.executeLoop
      split
      · exact Ends.ok hb
      · exact (h.pass b hb).bind ih

/-- The loop counts its cycles elsewhere. -/
theorem cycles (cycles : BitVec 32) : Kept fun b => b.cpu.cycles = cycles where
  fetch := by
    intro b hb
    unfold Bus.fetch
    refine (CycleFrame.getByteSpc b _).bind ?_
    rintro ⟨v, b₁⟩ h
    exact Ends.ok (h.cycles.trans hb)
  body := by
    intro body b hb
    exact (CycleFrame.execBody body b).mono (fun p h => h.cycles.trans hb) fun _ _ => trivial
  work := fun _ _ hb => hb
  setCycle := fun _ _ hb => hb

end Kept

section Loop

variable {n f : Nat}

/-- What is known of the loop for budgets up to `n`. -/
def LoopAlike (n f : Nat) : Prop :=
  ∀ n' ≤ n, ∀ b m : Bus, n' ≤ f → Retimed 0 m b → b.cpu.cycle = m.cpu.cycle →
    b.cpu.workCycles.toInt = -n' → Alike Stopped (spend stepCycle n' (m, 0)) (b.executeLoop f)

/-- A step that has been paid for, and the loop behind it. -/
theorem LoopAlike.after (ih : LoopAlike n f) {n' w : Nat} (hn : n' ≤ n) (hf : n' ≤ f) (hw : 0 < w)
    {m b : Bus} (hsame : Retimed 0 m b) (hcycle : b.cpu.cycle = m.cpu.cycle)
    (hwork : b.cpu.workCycles.toInt = -(n' + 1 : Nat) + w) :
    Alike Stopped (spend stepCycle n' (m, w - 1)) (b.executeLoop f) := by
  by_cases hpaid : w - 1 ≤ n'
  · rw [spend_of_ge stepCycle hpaid]
    exact ih _ (by omega) b m (by omega) hsame hcycle (by rw [hwork]; omega)
  · have hdue : b.isDue = true := (isDue_iff b).mpr (by rw [hwork]; omega)
    rw [spend_of_le stepCycle (by omega), executeLoop_of_due hdue]
    exact Alike.ok ⟨hsame, hcycle, by rw [hwork]; simp only; omega⟩

/-- **The cycles of an opcode**, from the next one on, by induction on them.  An
opcode that is left costs one cycle; otherwise this cycle is its last, and the
next opcode may follow, or the clock stops the opcode behind this cycle, or the
next cycle follows. -/
theorem runCycles_alike (ih : LoopAlike n f) {cs : List Cycle} (hlen : cs.length ≤ 7)
    (hshort : ∀ y ∈ cs, y.work ≤ 11) (ys : List Cycle) :
    ∀ (i n' : Nat) (b m : Bus), ys = cs.drop i → switchSpc m.cpu.opcode = some cs → n' ≤ n →
      n' ≤ f → b.cpu.cycle.toNat ≤ i + 1 → m.cpu.cycle.toNat = i + 1 → Retimed 0 m b →
      b.cpu.workCycles.toInt = -(n' + 1 : Nat) →
      Alike Stopped (spend stepCycle (n' + 1) (m, 0)) (runCycles ys (i + 2) b >>= executeLoop f) := by
  induction ys with
  | nil =>
      intro i n' b m hys hop hn hf hb hm hsame hwork
      have hnone : cs[i]? = none := List.getElem?_eq_none (List.drop_eq_nil_iff.mp hys.symm)
      have hstep : stepCycle m = .error .fallsThrough := by
        unfold stepCycle stepAt
        rw [if_neg (by omega), hop]
        dsimp only
        rw [hm, Nat.add_sub_cancel, hnone]
      rw [spend_succ, hstep]
      exact Alike.error _
  | cons y ys ihys =>
      intro i n' b m hys hop hn hf hb hm hsame hwork
      have hsome : cs[i]? = some y := by
        rw [← List.head?_drop, ← hys]
        rfl
      have hi : i < cs.length := (List.getElem?_eq_some_iff.mp hsome).1
      have hmem : y ∈ cs := List.mem_of_getElem? hsome
      have hrest : ys = cs.drop (i + 1) := by
        rw [← List.drop_drop, ← hys]
        rfl
      have hstep : stepCycle m = stepAt cs (i + 1) m := by
        unfold stepCycle
        rw [if_neg (by omega), hop, hm]
      rw [spend_succ, hstep, runCycles_next (by omega)]
      unfold stepAt
      rw [Nat.add_sub_cancel, hsome]
      dsimp only
      rw [bind_assoc, bind_assoc]
      have hbody := ((hsame.execBody (by decide) y.body).and_left (CycleFrame.execBody y.body m)).and_right
        (CycleFrame.execBody y.body b)
      refine hbody.bind ?_
      rintro ⟨exited, m₁⟩ ⟨exited', b₁⟩ ⟨⟨⟨hexit, hsame₁⟩, hframe⟩, hframe'⟩
      cases hexit
      have hwork₁ : b₁.cpu.workCycles.toInt = -(n' + 1 : Nat) := by rw [hframe'.workCycles, hwork]
      cases exited with
      | true =>
          have hone := toInt_work (n := 1) hwork₁ (by decide) (by omega)
          exact ih.after (w := 1) hn hf (by decide)
            (((hsame₁.work 1).setCycle_left 0).setCycle_right 0) rfl hone
      | false =>
          have hcount := toInt_work hwork₁ (hshort y hmem) (by omega)
          have hpos := y.work_pos
          cases ys with
          | nil =>
              have hlast : i + 1 = cs.length := by
                have := List.drop_eq_nil_iff.mp hrest.symm
                omega
              change Alike Stopped (spend stepCycle n'
                ((m₁.work y.work).setCycle (if i + 1 = cs.length then 0 else i + 2), y.work - 1)) _
              rw [if_pos hlast]
              exact ih.after hn hf hpos (((hsame₁.work y.work).setCycle_left 0).setCycle_right 0) rfl
                hcount
          | cons z zs =>
              have hmore : i + 1 < cs.length := by
                by_contra hge
                rw [List.drop_eq_nil_of_le (not_lt.mp hge)] at hrest
                cases hrest
              have hne : ¬ i + 1 = cs.length := by omega
              change Alike Stopped (spend stepCycle n'
                ((m₁.work y.work).setCycle (if i + 1 = cs.length then 0 else i + 2), y.work - 1))
                ((if (b₁.work y.work).isDue then .ok ((b₁.work y.work).setCycle (i + 2))
                  else runCycles (z :: zs) (i + 3) (b₁.work y.work)) >>= executeLoop f)
              rw [if_neg hne]
              by_cases hdue : (b₁.work y.work).isDue = true
              · have hstop : ((b₁.work y.work).setCycle (i + 2)).isDue = true := hdue
                have hzero := (isDue_iff _).mp hdue
                have hend := ih.after hn hf hpos
                  (((hsame₁.work y.work).setCycle_left (i + 2)).setCycle_right (i + 2)) rfl hcount
                rw [executeLoop_of_due hstop] at hend
                rw [if_pos hdue]
                change Alike Stopped _ (executeLoop f ((b₁.work y.work).setCycle (i + 2)))
                rw [executeLoop_of_due hstop]
                exact hend
              · have hneg : ¬ 0 ≤ (b₁.work y.work).cpu.workCycles.toInt :=
                  fun h => hdue ((isDue_iff _).mpr h)
                have hsplit : n' - (y.work - 1) = n' - y.work + 1 := by omega
                rw [if_neg hdue, spend_of_ge stepCycle (by omega), hsplit]
                refine ihys (i + 1) (n' - y.work) (b₁.work y.work)
                  ((m₁.work y.work).setCycle (i + 2)) hrest ?_ (by omega) (by omega) ?_
                  (toNat_setCycle _ (by omega)) ((hsame₁.work y.work).setCycle_left (i + 2)) ?_
                · exact (congrArg switchSpc hframe.opcode).trans hop
                · change b₁.cpu.cycle.toNat ≤ _
                  rw [hframe'.cycle]
                  omega
                · rw [hcount]
                  omega

end Loop

/-- **The loop takes the steps its budget pays for**, by induction on the
budget.  It begins with a fetch and what that leads to, or in an opcode in
progress. -/
theorem executeLoop_alike :
    ∀ (n f : Nat) (b m : Bus), n ≤ f → Retimed 0 m b → b.cpu.cycle = m.cpu.cycle →
      b.cpu.workCycles.toInt = -n → Alike Stopped (spend stepCycle n (m, 0)) (b.executeLoop f) := by
  intro n
  induction n using Nat.strong_induction_on with
  | _ n ih =>
      intro f b m hf hsame hcycle hwork
      cases n with
      | zero =>
          have hdue : b.isDue = true := (isDue_iff b).mpr (by rw [hwork]; rfl)
          rw [executeLoop_of_due hdue]
          exact Alike.ok ⟨hsame, hcycle, hwork⟩
      | succ n =>
          obtain ⟨f, rfl⟩ : ∃ f', f = f' + 1 := ⟨f - 1, by omega⟩
          have hdue : ¬ b.isDue = true := by
            rw [isDue_iff, hwork]
            omega
          have hloop : LoopAlike n f := fun n' hn b m hf => ih n' (by omega) f b m hf
          have hop : b.cpu.opcode = m.cpu.opcode := hsame.opcode
          have hpc : b.cpu.pc = m.cpu.pc := congrArg CpuRegs.pc hsame.cpuRegs
          unfold executeLoop pass
          rw [if_neg hdue, hcycle]
          by_cases hfetch : m.cpu.cycle.toNat ≤ 0
          · have hstep : stepCycle m = m.fetch >>= fun m => .ok (m.setCycle 1, 0) := by
              unfold stepCycle
              rw [if_pos hfetch]
            rw [spend_succ, hstep, if_pos hfetch, bind_assoc, bind_assoc]
            refine (hsame.fetch.and_right b.fetch_frame).bind ?_
            rintro m₁ b₁ ⟨hsame₁, hcycle₁, hwork₁⟩
            have hcount : b₁.cpu.workCycles.toInt = -n := by
              rw [hwork₁]
              have hone := toInt_work (n := 1) hwork (by decide) (by omega)
              exact hone.trans (by omega)
            have hop₁ : b₁.cpu.opcode = m₁.cpu.opcode := hsame₁.opcode
            have hpc₁ : b₁.cpu.pc = m₁.cpu.pc := congrArg CpuRegs.pc hsame₁.cpuRegs
            change Alike Stopped (spend stepCycle n (m₁.setCycle 1, 0)) _
            cases n with
            | zero =>
                have hdue₁ : b₁.isDue = true := (isDue_iff b₁).mpr (by rw [hcount]; rfl)
                have hdue₂ : (b₁.setCycle 1).isDue = true := hdue₁
                rw [if_pos hdue₁]
                change Alike Stopped _ (executeLoop f (b₁.setCycle 1))
                rw [executeLoop_of_due hdue₂]
                exact Alike.ok ⟨(hsame₁.setCycle_left 1).setCycle_right 1, rfl, hcount⟩
            | succ n =>
                have hdue₁ : ¬ b₁.isDue = true := by
                  rw [isDue_iff, hcount]
                  omega
                rw [if_neg hdue₁]
                unfold switch
                rw [hop₁]
                cases hcs : switchSpc m₁.cpu.opcode with
                | none =>
                    have hinvalid : stepCycle (m₁.setCycle 1) = (m₁.setCycle 1).invalidSpcOpcode := by
                      unfold stepCycle
                      rw [if_neg (by rw [toNat_setCycle _ (by decide)]; decide)]
                      change (match switchSpc m₁.cpu.opcode with
                        | some ys => _
                        | none => _) = _
                      rw [hcs]
                    rw [spend_succ, hinvalid]
                    unfold invalidSpcOpcode
                    rw [hop₁, hpc₁]
                    exact Alike.error _
                | some cs =>
                    obtain ⟨⟨-, hlen⟩, hshort⟩ := switchSpc_short hcs
                    have hzero : b₁.cpu.cycle.toNat ≤ 0 + 1 := by
                      rw [hcycle₁, hcycle]
                      omega
                    exact runCycles_alike hloop hlen hshort cs 0 n b₁ (m₁.setCycle 1) rfl hcs
                      (by omega) (by omega) hzero (toNat_setCycle _ (by decide))
                      (hsame₁.setCycle_left 1) hcount
          · rw [if_neg hfetch]
            unfold switch
            rw [hop]
            cases hcs : switchSpc m.cpu.opcode with
            | none =>
                have hinvalid : stepCycle m = m.invalidSpcOpcode := by
                  unfold stepCycle
                  rw [if_neg hfetch, hcs]
                rw [spend_succ, hinvalid]
                unfold invalidSpcOpcode
                rw [hop, hpc]
                exact Alike.error _
            | some cs =>
                obtain ⟨⟨-, hlen⟩, hshort⟩ := switchSpc_short hcs
                have hc : m.cpu.cycle.toNat - 1 + 1 = m.cpu.cycle.toNat := by omega
                dsimp only
                rw [runCycles_skip cs b (m.cpu.cycle.toNat - 1) (by rw [hcycle]; omega)]
                exact runCycles_alike hloop hlen hshort _ _ n b m rfl hcs (by omega) (by omega)
                  (by rw [hcycle]; omega) (by omega) hsame hwork

end Bus

end OpenSpc
