import OpenSpc.CycleStep
import OpenSpc.WrittenFirst

/-!
# Two cores that go on in the same way

Two cores differ in temporaries that the opcode in progress has not written, and
in how they store flags.  The bus does not show such a difference, and no cycle
makes more of it; at the end of an opcode all temporaries may differ.
-/

namespace OpenSpc

open CpuRegs (Temp Same)

/-! ## The bus -/

namespace Bus

/-- The registers replaced. -/
def withRegs (r : CpuRegs) (b : Bus) : Bus := { b with cpu := b.cpu.withRegs r }

variable (r : CpuRegs)

/-- A read of the bus does not look at the registers of the core. -/
theorem getByteSpc_withRegs (address : BitVec 16) (b : Bus) :
    (b.withRegs r).getByteSpc address =
      (b.getByteSpc address).map fun p => (p.1, p.2.withRegs r) := by
  have hmap : ∀ f ∈ readFuncMap, ∀ b : Bus,
      f address (b.withRegs r) = (f address b).map fun p => (p.1, p.2.withRegs r) := by
    have hcounter (b : Bus) : (b.withRegs r).spcReadCounter address =
        (b.spcReadCounter address).map fun p => (p.1, p.2.withRegs r) := by
      unfold spcReadCounter
      rw [Option.map_map]
      rfl
    unfold readFuncMap
    simp only [List.forall_mem_cons, hcounter, implies_true, true_and]
    exact ⟨fun _ => rfl, fun _ => rfl, fun _ => rfl, fun _ => rfl, fun _ => rfl, fun _ => rfl,
      fun _ => rfl, fun _ => rfl, fun _ => rfl, fun _ => rfl, fun _ => rfl, fun _ => rfl,
      fun _ => rfl, fun _ hf => absurd hf List.not_mem_nil⟩
  unfold getByteSpc
  split
  · split
    · have hffc0 : (b.withRegs r).cpu.ffc0Address = b.cpu.ffc0Address := rfl
      rw [hffc0]
      generalize spcRomCode = code
      split <;> rfl
    · rfl
  · split
    · rfl
    · rename_i hlow hhigh
      have hlt : address.toNat - 0xF0 < readFuncMap.length := by
        change _ < 16
        omega
      have hmem := List.getElem_mem hlt
      rw [List.getD_eq_getElem _ _ hlt]
      exact hmap _ hmem b.saveCycles

/-- A write does not see the other registers, not even where it switches a timer
on and starts it. -/
theorem setByteSpc_withRegs (address : BitVec 16) (data : Byte) (b : Bus) :
    (b.withRegs r).setByteSpc address data = (b.setByteSpc address data).map (withRegs r) := by
  have hmap : ∀ f ∈ writeFuncMap, ∀ b : Bus,
      f address data (b.withRegs r) = (f address data b).map (withRegs r) := by
    have htimer (b : Bus) : (b.withRegs r).spcWriteTimer address data =
        (b.spcWriteTimer address data).map (withRegs r) := by
      unfold spcWriteTimer
      rw [Option.map_map]
      rfl
    have hctrl (b : Bus) : (b.withRegs r).spcWriteCtrl address data =
        (b.spcWriteCtrl address data).map (withRegs r) := by
      let go : Fin 3 → Bus → Bus := fun timer b =>
        if !ByteMask.bit (b.ram address) timer && ByteMask.bit data timer then
          b.spcStartTimer timer
        else b
      have hgo (timer : Fin 3) (b : Bus) : go timer (b.withRegs r) = (go timer b).withRegs r := by
        change (if !ByteMask.bit (b.ram address) timer && ByteMask.bit data timer then
          (b.withRegs r).spcStartTimer timer else b.withRegs r) = withRegs r (go timer b)
        dsimp only [go]
        split <;> rfl
      let ports : Bus := { b with cpu := { b.cpu with
        ffc0Address := if ByteMask.bit data 7 then .rom else .ram
        portR := fun i =>
          if ByteMask.bit data 4 ∧ i.val < 2 then 0
          else if ByteMask.bit data 5 ∧ 2 ≤ i.val then 0 else b.cpu.portR i } }
      have hall :
          go 2 (go 1 (go 0 (ports.withRegs r))) = (go 2 (go 1 (go 0 ports))).withRegs r := by
        rw [hgo, hgo, hgo]
      exact congrArg (fun b : Bus => some { b with ram := Function.update b.ram 0xF1 data }) hall
    unfold writeFuncMap
    simp only [List.forall_mem_cons, htimer, hctrl, implies_true, true_and]
    exact ⟨fun _ => rfl, fun _ => rfl, fun _ => rfl, fun _ => rfl, fun _ => rfl, fun _ => rfl,
      fun _ => rfl, fun _ => rfl, fun _ => rfl, fun _ => rfl, fun _ => rfl, fun _ => rfl,
      fun _ hf => absurd hf List.not_mem_nil⟩
  unfold setByteSpc
  dsimp only
  split
  · rfl
  · rename_i hhardware
    have hlt : address.toNat - 0xF0 < writeFuncMap.length := by
      change _ < 16
      omega
    have hmem := List.getElem_mem hlt
    rw [List.getD_eq_getElem _ _ hlt]
    exact hmap _ hmem b.saveCycles

variable {r}

/-- An access leaves the registers as they are. -/
theorem getByteSpc_cpuRegs {address : BitVec 16} {b : Bus} {p : Byte × Bus}
    (h : b.getByteSpc address = some p) : p.2.cpuRegs = b.cpuRegs := by
  have hself := getByteSpc_withRegs b.cpuRegs address b
  change b.getByteSpc address = _ at hself
  rw [h, Option.map_some, Option.some_inj] at hself
  exact congrArg (fun p : Byte × Bus => p.2.cpuRegs) hself

/-- A write on the bus leaves the registers of the core alone. -/
theorem setByteSpc_cpuRegs {address : BitVec 16} {data : Byte} {b b' : Bus}
    (h : b.setByteSpc address data = some b') : b'.cpuRegs = b.cpuRegs := by
  have hself := setByteSpc_withRegs b.cpuRegs address data b
  change b.setByteSpc address data = _ at hself
  rw [h, Option.map_some, Option.some_inj] at hself
  have hregs := congrArg cpuRegs hself
  exact hregs

end Bus

/-! ## Two cores in a cycle -/

/-- Two cores that differ in nothing but registers, and in these only as far as
nobody can tell who reads no temporaries but those in `ws`. -/
def TwinIn (ws : List Temp) (b b' : Bus) : Prop := ∃ r, b' = b.withRegs r ∧ Same ws b.cpuRegs r

namespace TwinIn

variable {ws ws' : List Temp} {b b' : Bus}

theorem cpuRegs (h : TwinIn ws b b') : Same ws b.cpuRegs b'.cpuRegs := by
  obtain ⟨r, rfl, hr⟩ := h
  exact hr

theorem forget (h : TwinIn ws b b') : TwinIn [] b b' := by
  obtain ⟨r, hb, hr⟩ := h
  exact ⟨r, hb, hr.forget⟩

theorem mapRegs (h : TwinIn ws b b') {f : CpuRegs → CpuRegs}
    (hf : ∀ r r', Same ws r r' → Same ws' (f r) (f r')) :
    TwinIn ws' (b.mapRegs f) (b'.mapRegs f) := by
  obtain ⟨r, rfl, hr⟩ := h
  exact ⟨f r, rfl, hf _ _ hr⟩

theorem work (h : TwinIn ws b b') (n : Nat) : TwinIn ws (b.work n) (b'.work n) := by
  obtain ⟨r, rfl, hr⟩ := h
  exact ⟨r, rfl, hr⟩

theorem setCycle (h : TwinIn ws b b') (c : Nat) : TwinIn ws (b.setCycle c) (b'.setCycle c) := by
  obtain ⟨r, rfl, hr⟩ := h
  exact ⟨r, rfl, hr⟩

/-- Both twins read the same byte, or both trap. -/
theorem getByteSpc (h : TwinIn ws b b') (address : BitVec 16) :
    Alike (fun x y => x.1 = y.1 ∧ TwinIn ws x.2 y.2) (orTrap (b.getByteSpc address))
      (orTrap (b'.getByteSpc address)) := by
  obtain ⟨r, rfl, hr⟩ := h
  rw [Bus.getByteSpc_withRegs]
  cases hget : b.getByteSpc address with
  | none => exact Alike.error _
  | some p => exact Alike.ok ⟨rfl, r, rfl, by rw [Bus.getByteSpc_cpuRegs hget]; exact hr⟩

/-- Both twins store the same byte, or both trap. -/
theorem setByteSpc (h : TwinIn ws b b') (address : BitVec 16) (data : Byte) :
    Alike (TwinIn ws) (orTrap (b.setByteSpc address data))
      (orTrap (b'.setByteSpc address data)) := by
  obtain ⟨r, rfl, hr⟩ := h
  rw [Bus.setByteSpc_withRegs]
  cases hset : b.setByteSpc address data with
  | none => exact Alike.error _
  | some c => exact Alike.ok ⟨r, rfl, by rw [Bus.setByteSpc_cpuRegs hset]; exact hr⟩

/-- **The statements of a cycle**, by induction on them.  Whoever leaves the
opcode forgets what it has written. -/
theorem execBody {body : List Stmt} (hbody : BodyFlows ws body ws') :
    ∀ {b b' : Bus}, TwinIn ws b b' →
      Alike (fun x y => x.1 = y.1 ∧ TwinIn [] x.2 y.2 ∧ (x.1 = false → TwinIn ws' x.2 y.2))
        (Bus.execBody body b) (Bus.execBody body b') := by
  induction hbody with
  | nil => intro b b' h; exact Alike.ok ⟨rfl, h.forget, fun _ => h⟩
  | @cons ws ws₁ ws₂ s body head _ ih =>
      intro b b' h
      cases s with
      | getByte address value =>
          obtain ⟨haddress, hvalue⟩ := head
          unfold Bus.execBody
          rw [haddress _ _ h.cpuRegs]
          refine (h.getByteSpc _).bind ?_
          rintro ⟨v, b₁⟩ ⟨v', b₁'⟩ ⟨rfl, h₁⟩
          exact ih (h₁.mapRegs (hvalue v))
      | setByte address data =>
          obtain ⟨hread, rfl⟩ := head
          obtain ⟨haddress, hdata⟩ := hread _ _ h.cpuRegs
          unfold Bus.execBody
          rw [haddress, hdata]
          exact (h.setByteSpc _ _).bind fun b₁ b₁' h₁ => ih h₁
      | assign f => exact ih (h.mapRegs head)
      | exitIf test =>
          obtain ⟨htest, rfl⟩ := head
          unfold Bus.execBody
          rw [htest _ _ h.cpuRegs]
          split
          · exact Alike.ok ⟨rfl, h.forget, fun hfalse => by cases hfalse⟩
          · exact ih h

/-- Both twins fetch the same opcode, or both trap. -/
theorem fetch (h : TwinIn ws b b') : Alike (TwinIn ws) b.fetch b'.fetch := by
  unfold Bus.fetch
  rw [show b'.cpu.pc = b.cpu.pc from h.cpuRegs.pc]
  refine (h.getByteSpc _).bind ?_
  rintro ⟨v, b₁⟩ ⟨v', b₁'⟩ ⟨rfl, r, hb, hr⟩
  subst hb
  exact Alike.ok ⟨{ r with pc := r.pc + 1 }, rfl, hr.setPc (congrArg (· + 1) hr.pc)⟩

end TwinIn

/-! ## Two cores between cycles -/

/-- **No opcode reads a temporary that it has not written.** -/
theorem switchSpc_first {opcode : Byte} {ys : List Cycle} (h : switchSpc opcode = some ys) :
    WrittenFirst ys := by
  obtain ⟨row, hrow, hmem⟩ := switchSpc_mem h
  exact switchTable_first opcode row hrow ys hmem

/-- What is left of the opcode in progress. -/
def Bus.rest (b : Bus) : List Cycle :=
  if b.cpu.cycle.toNat = 0 then []
  else ((switchSpc b.cpu.opcode).getD []).drop (b.cpu.cycle.toNat - 1)

/-- Two cores that go on in the same way: they differ at most in temporaries
that the opcode in progress will write before it reads them, and in how flags
are stored. -/
def Twin (b b' : Bus) : Prop := ∃ ws ws', TwinIn ws b b' ∧ Flows ws b.rest ws'

namespace Twin

variable {b b' : Bus}

/-- An opcode that has just been fetched. -/
theorem fetched (h : TwinIn [] b b') (hcycle : b.cpu.cycle.toNat = 1) : Twin b b' := by
  unfold Twin Bus.rest
  rw [hcycle]
  cases hys : switchSpc b.cpu.opcode with
  | none => exact ⟨_, _, h, .nil⟩
  | some ys =>
      obtain ⟨ws, hflows⟩ := switchSpc_first hys
      exact ⟨_, ws, h, hflows⟩

/-- An opcode that is done. -/
theorem done (h : TwinIn [] b b') (hcycle : b.cpu.cycle.toNat = 0) : Twin b b' := by
  unfold Twin Bus.rest
  rw [if_pos hcycle]
  exact ⟨_, _, h, .nil⟩

/-- **A step sees no more than that.**  The cycle after it is the head of what is
left of the opcode. -/
theorem stepCycle (h : Twin b b') :
    Alike (fun x y => Twin x.1 y.1 ∧ x.2 = y.2) b.stepCycle b'.stepCycle := by
  obtain ⟨ws, ws', hin, hflows⟩ := h
  have hsame := hin.cpuRegs
  obtain ⟨hcycle, hop⟩ : b'.cpu.cycle = b.cpu.cycle ∧ b'.cpu.opcode = b.cpu.opcode := by
    obtain ⟨r, rfl, -⟩ := hin
    exact ⟨rfl, rfl⟩
  unfold Bus.stepCycle
  rw [hcycle, hop]
  split
  · refine hin.forget.fetch.bind fun c c' hc => ?_
    exact Alike.ok ⟨fetched (hc.setCycle 1) (Bus.toNat_setCycle c (by decide)), rfl⟩
  · rename_i hpos
    split
    · rename_i ys hys
      unfold Bus.stepAt
      split
      · exact Alike.error _
      · rename_i y hy
        have hshort := (switchSpc_short hys).1
        have hlt : b.cpu.cycle.toNat - 1 < ys.length := (List.getElem?_eq_some_iff.mp hy).1
        have hrest : b.rest = y :: ys.drop b.cpu.cycle.toNat := by
          unfold Bus.rest
          rw [if_neg (by omega), hys, Option.getD_some]
          have hnext : b.cpu.cycle.toNat - 1 + 1 = b.cpu.cycle.toNat := by omega
          rw [List.drop_eq_getElem_cons hlt, hnext, (List.getElem?_eq_some_iff.mp hy).2]
        rw [hrest] at hflows
        cases hflows with
        | @cons _ ws₁ _ _ _ head tail =>
          refine ((hin.execBody head).and_left (CycleFrame.execBody y.body b)).bind ?_
          rintro ⟨exited, c⟩ ⟨exited', c'⟩ ⟨⟨hexit, hforget, hc⟩, hframe⟩
          cases hexit
          cases exited with
          | true =>
              exact Alike.ok ⟨done ((hforget.work 1).setCycle 0)
                (Bus.toNat_setCycle _ (by decide)), rfl⟩
          | false =>
              refine Alike.ok ⟨?_, rfl⟩
              dsimp only
              split
              · exact done ((hforget.work _).setCycle 0) (Bus.toNat_setCycle _ (by decide))
              · rename_i hmore
                refine ⟨ws₁, ws', ((hc rfl).work y.work).setCycle _, ?_⟩
                unfold Bus.rest
                rw [Bus.toNat_setCycle _ (by omega), if_neg (by omega)]
                change Flows _ (((switchSpc c.cpu.opcode).getD []).drop _) _
                rw [hframe.opcode, hys]
                exact tail
    · unfold Bus.invalidSpcOpcode
      rw [hop, show b'.cpu.pc = b.cpu.pc from hsame.pc]
      exact Alike.error _

end Twin

end OpenSpc
