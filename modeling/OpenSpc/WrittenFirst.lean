import OpenSpc.Opcodes
import OpenSpc.SeenOps

/-!
# Written before read

In each of its cycles an opcode reads only temporaries that it has written
before, in the same cycle or an earlier one.  This is followed through the
scripts statement by statement, with the list of what has been written so far.
-/

namespace OpenSpc

open CpuRegs (Reg8 Temp Same Flag)

/-! ## What is written -/

/-- A statement that reads temporaries only among `ws`, and leaves those in
`ws'` written. -/
def Stmt.Flows (ws ws' : List Temp) : Stmt → Prop
  | .getByte address value =>
      (∀ r r', Same ws r r' → address r' = address r) ∧
        ∀ v r r', Same ws r r' → Same ws' (value v r) (value v r')
  | .setByte address data =>
      (∀ r r', Same ws r r' → address r' = address r ∧ data r' = data r) ∧ ws' = ws
  | .assign f => ∀ r r', Same ws r r' → Same ws' (f r) (f r')
  | .exitIf test => (∀ r r', Same ws r r' → test r' = test r) ∧ ws' = ws

/-- The statements of a cycle. -/
inductive BodyFlows : List Temp → List Stmt → List Temp → Prop
  | nil {u : List Temp} : BodyFlows u [] u
  | cons {u v w : List Temp} {s : Stmt} {body : List Stmt} (head : s.Flows u v)
      (tail : BodyFlows v body w) : BodyFlows u (s :: body) w

/-- The cycles of an opcode. -/
inductive Flows : List Temp → List Cycle → List Temp → Prop
  | nil {u : List Temp} : Flows u [] u
  | cons {u v w : List Temp} {y : Cycle} {ys : List Cycle} (head : BodyFlows u y.body v)
      (tail : Flows v ys w) : Flows u (y :: ys) w

namespace BodyFlows

variable {u v w : List Temp}

/-- One list of statements after another. -/
theorem append {body body' : List Stmt} (h : BodyFlows u body v)
    (h' : BodyFlows v body' w) : BodyFlows u (body ++ body') w := by
  induction h with
  | nil => exact h'
  | cons head _ ih => exact .cons head (ih h')

/-- A single statement. -/
theorem one {s : Stmt} (h : s.Flows u v) : BodyFlows u [s] v := .cons h .nil

/-- Two statements. -/
theorem two {s s' : Stmt} (h : s.Flows u v) (h' : s'.Flows v w) :
    BodyFlows u [s, s'] w := .cons h (.one h')

end BodyFlows

namespace Flows

variable {u v w : List Temp}

/-- One list of cycles after another. -/
theorem append {ys zs : List Cycle} (h : Flows u ys v) (h' : Flows v zs w) :
    Flows u (ys ++ zs) w := by
  induction h with
  | nil => exact h'
  | cons head _ ih => exact .cons head (ih h')

/-- The last cycle of an opcode. -/
theorem last {y : Cycle} (h : BodyFlows u y.body v) : Flows u [y] v := .cons h .nil

end Flows

/-! ## Statements -/

namespace Stmt

variable {ws : List Temp}

/-- PC is always seen. -/
theorem incPc_flows : incPc.Flows ws ws := fun _ _ h => h.setPc (by rw [h.pc])

/-- `_address` is written whole by the first byte of an operand. -/
theorem addressLow_flows : addressLow.Flows ws (.address :: ws) :=
  ⟨fun _ _ h => h.pc, fun _ _ _ h => h.setTemp .address rfl⟩

/-- The second byte of an operand is added to `_address`. -/
theorem addressHigh_flows (hw : .address ∈ ws) : addressHigh.Flows ws (.address :: ws) :=
  ⟨fun _ _ h => h.pc, fun _ _ _ h => h.setTemp .address (by rw [h.address hw])⟩

/-- An address in the direct page. -/
theorem addressDp_flows : addressDp.Flows ws (.address :: ws) :=
  ⟨fun _ _ h => h.pc, fun _ _ _ h => h.setTemp .address (by rw [h.directPage])⟩

/-- A second address in the direct page. -/
theorem address2Dp_flows : address2Dp.Flows ws (.address2 :: ws) :=
  ⟨fun _ _ h => h.pc, fun _ _ _ h => h.setTemp .address2 (by rw [h.directPage])⟩

/-- The address in the direct page that a register holds. -/
theorem addressDpReg_flows {reg : Reg8} (hreg : reg.Held ws) :
    (addressDpReg reg).Flows ws (.address :: ws) :=
  fun _ _ h => h.setTemp .address (by rw [h.directPage, h.get hreg])

/-- An index is added to an address in the direct page. -/
theorem addressDpIndexed_flows {index : Reg8} (hindex : index.Held ws) (hw : .address ∈ ws) :
    (addressDpIndexed index).Flows ws (.address :: ws) :=
  fun _ _ h => h.setTemp .address (by rw [h.directPage, h.address hw, h.get hindex])

/-- An index is added to an address. -/
theorem addressIndexed_flows {index : Reg8} (hindex : index.Held ws) (hw : .address ∈ ws) :
    (addressIndexed index).Flows ws (.address :: ws) :=
  fun _ _ h => h.setTemp .address (by rw [h.address hw, h.get hindex])

/-- The top of the stack. -/
theorem addressStack_flows : addressStack.Flows ws (.address :: ws) :=
  fun _ _ h => h.setTemp .address (by rw [h.sp])

/-- SP is always seen. -/
theorem incSp_flows : incSp.Flows ws ws :=
  fun r r' h => h.put .sp (show r'.sp + 1 = r.sp + 1 by rw [h.sp])

/-- SP is always seen, downwards too. -/
theorem decSp_flows : decSp.Flows ws ws :=
  fun r r' h => h.put .sp (show r'.sp - 1 = r.sp - 1 by rw [h.sp])

/-- The low byte of an indirect address. -/
theorem indirectLow_flows (hw : .address2 ∈ ws) : indirectLow.Flows ws (.address :: ws) :=
  ⟨fun _ _ h => h.address2 hw, fun _ _ _ h => h.setTemp .address rfl⟩

/-- The high byte of an indirect address. -/
theorem indirectHigh_flows (hw : .address2 ∈ ws) (hw' : .address ∈ ws) :
    indirectHigh.Flows ws (.address :: ws) := by
  refine ⟨fun _ _ h => ?_, fun _ _ _ h => h.setTemp .address ?_⟩
  · exact congrArg (· + 1) (h.address2 hw)
  · rw [h.address hw']

/-- The byte at `_address`. -/
theorem getData_flows (hw : .address ∈ ws) : getData.Flows ws (.data :: ws) :=
  ⟨fun _ _ h => h.address hw, fun _ _ _ h => h.setTemp .data rfl⟩

/-- The byte at `_address`, thrown away. -/
theorem getDummy_flows (hw : .address ∈ ws) : getDummy.Flows ws ws :=
  ⟨fun _ _ h => h.address hw, fun _ _ _ h => h⟩

/-- A write to `_address`. -/
theorem setData_flows {var : Reg8} (hvar : var.Held ws) (hw : .address ∈ ws) :
    (setData var).Flows ws ws :=
  ⟨fun _ _ h => ⟨h.address hw, h.get hvar⟩, rfl⟩

/-- The distance of a branch. -/
theorem getOffset_flows : getOffset.Flows ws (.offset :: ws) :=
  ⟨fun _ _ h => h.pc, fun _ _ _ h => h.setTemp .offset rfl⟩

/-- An operation on two bytes that can be read. -/
theorem op2_flows {op : Op2} {dest src : Reg8} (hop : op.Sees) (hdest : dest.Held ws)
    (hsrc : src.Held ws) : (op2 op dest src).Flows ws ws :=
  fun _ _ h => hop hdest hsrc h

end Stmt

/-! ## Macros -/

/-- An opcode that reads no temporary it has not written. -/
def WrittenFirst (ys : List Cycle) : Prop := ∃ ws, Flows [] ys ws

/-- The last statements of an opcode that writes to `_address`. -/
def WritesBack (op : List Stmt) (needOldData : Bool) : Prop :=
  ∀ ws : List Temp, .address ∈ ws → (needOldData = true → .data ∈ ws) → BodyFlows ws op ws

section Macros

open Stmt

variable {ws : List Temp}

/-- A register can always be read. -/
theorem held {v : Reg8} (hv : v.Held []) (ws : List Temp) : v.Held ws := by
  cases v with
  | data => exact absurd hv List.not_mem_nil
  | data2 => exact absurd hv List.not_mem_nil
  | _ => trivial

/-- An operand at `_address`. -/
theorem WrittenFirst.read {pre : List Cycle} (hpre : Flows [] pre ws) (hw : .address ∈ ws)
    {op : Op2} (hop : op.Sees) {dest : Reg8} (hdest : dest.Held []) :
    WrittenFirst (pre ++ [cycle [getData, op2 op dest .data]]) := by
  have hget := getData_flows hw
  have hop2 : (op2 op dest .data).Flows (.data :: ws) (.data :: ws) :=
    op2_flows hop (held hdest _) List.mem_cons_self
  exact ⟨_, hpre.append (.last (.two hget hop2))⟩

/-- An operand that is changed. -/
theorem WrittenFirst.rmw {pre : List Cycle} (hpre : Flows [] pre ws) (hw : .address ∈ ws)
    {op : List Stmt} {needOldData : Bool} (hop : WritesBack op needOldData) :
    WrittenFirst (pre ++ [cycle [getOld needOldData], cycle op]) := by
  cases needOldData with
  | true =>
      have hback := hop _ (List.mem_cons_of_mem _ hw) fun _ => List.mem_cons_self
      exact ⟨_, hpre.append (.cons (.one (getData_flows hw)) (.last hback))⟩
  | false =>
      have hback := hop _ hw fun h => absurd h Bool.false_ne_true
      exact ⟨_, hpre.append (.cons (.one (getDummy_flows hw)) (.last hback))⟩

/-- An operation on the old byte, and the write of the new one. -/
theorem writeOp_flows {op : Op1} (hop : op.Sees) : WritesBack (writeOp op) true :=
  fun _ hw hdata => .two (fun _ _ h => hop (hdata rfl) h) (setData_flows (hdata rfl) hw)

/-- The write of a register, for which the old byte is not needed. -/
theorem writeMov_flows {var : Reg8} (hvar : var.Held []) : WritesBack (writeMov var) false :=
  fun ws hw _ => .one (setData_flows (held hvar ws) hw)

/-! ### Addresses -/

/-- The address of dp. -/
theorem dp_flows : Flows [] [cycle [addressDp, incPc]] [.address] :=
  .last (.two addressDp_flows incPc_flows)

/-- The address of abs. -/
theorem abs_flows : Flows [] [cycle [addressLow, incPc], cycle [addressHigh, incPc]]
    [.address, .address] := by
  have hhigh : addressHigh.Flows [.address] [.address, .address] :=
    addressHigh_flows List.mem_cons_self
  exact .cons (.two addressLow_flows incPc_flows) (.last (.two hhigh incPc_flows))

/-- The address of (X). -/
theorem indirect_flows : Flows [] [cycle [addressDpReg .x]] [.address] :=
  .last (.one (addressDpReg_flows trivial))

/-- The address of (dp+X): `_address2` is fetched and indexed, and `_address` is read there. -/
theorem indexedIndirect_flows :
    Flows [] indexedIndirect [.address, .address, .address2, .address2] := by
  refine .cons (v := [.address2]) ?fetch (.cons (v := [.address2, .address2]) ?index
    (.cons (v := [.address, .address2, .address2]) ?low (.last ?high)))
  case fetch =>
    exact .two ⟨fun _ _ h => h.pc, fun _ _ _ h => h.setTemp .address2 rfl⟩ incPc_flows
  case index =>
    refine .one fun r r' h => h.setTemp .address2 ?_
    rw [h.directPage, h.address2 List.mem_cons_self, h.x]
  case low => exact .one (indirectLow_flows (by simp))
  case high => exact .one (indirectHigh_flows (by simp) (by simp))

/-- The address of dp+X and dp+Y. -/
theorem dpIndexed_flows {index : Reg8} (hindex : index.Held []) :
    Flows [] [cycle [addressLow, incPc], cycle [addressDpIndexed index]] [.address, .address] := by
  have hadd : (addressDpIndexed index).Flows [.address] [.address, .address] :=
    addressDpIndexed_flows (held hindex _) List.mem_cons_self
  exact .cons (.two addressLow_flows incPc_flows) (.last (.one hadd))

/-- The address of abs+X and abs+Y. -/
theorem absIndexed_flows {index : Reg8} (hindex : index.Held []) :
    Flows [] [cycle [addressLow, incPc], cycle [addressHigh, incPc], cycle [addressIndexed index]]
      [.address, .address, .address] := by
  have hadd : (addressIndexed index).Flows [.address, .address] [.address, .address, .address] :=
    addressIndexed_flows (held hindex _) List.mem_cons_self
  exact abs_flows.append (.last (.one hadd))

/-- The address of (dp)+Y: `_address2` is fetched, `_address` is read there and indexed. -/
theorem indirectIndexed_flows :
    Flows [] indirectIndexed [.address, .address, .address, .address2] := by
  refine .cons (v := [.address2]) ?fetch (.cons (v := [.address, .address2]) ?low
    (.cons (v := [.address, .address, .address2]) ?high (.last ?index)))
  case fetch => exact .two address2Dp_flows incPc_flows
  case low => exact .one (indirectLow_flows (by simp))
  case high => exact .one (indirectHigh_flows (by simp) (by simp))
  case index => exact .one (addressIndexed_flows trivial (by simp))

/-- The operands of dp(d),dp(s): the source is read once both addresses are known. -/
theorem dpDp_flows : Flows [] dpDp [.data2, .address, .address2] := by
  refine .cons (v := [.address2]) ?source (.cons (v := [.address, .address2]) ?target
    (.last ?read))
  case source => exact .two address2Dp_flows incPc_flows
  case target => exact .two addressDp_flows incPc_flows
  case read =>
    exact .one ⟨fun _ _ h => h.address2 (by simp), fun _ _ _ h => h.setTemp .data2 rfl⟩

/-- The operands of dp,#imm. -/
theorem dpImm_flows : Flows [] dpImm [.address, .data2] := by
  refine .cons (v := [.data2]) ?operand (.last ?target)
  case operand =>
    exact .two ⟨fun _ _ h => h.pc, fun _ _ _ h => h.setTemp .data2 rfl⟩ incPc_flows
  case target => exact .two addressDp_flows incPc_flows

/-- The operands of (X),(Y): the byte at Y is read before `_address` is that of X. -/
theorem indirectIndirect_flows : Flows [] indirectIndirect [.address, .data2, .address] := by
  refine .cons (v := [.address]) ?source (.last ?read)
  case source => exact .one (addressDpReg_flows trivial)
  case read =>
    exact .two (v := [.data2, .address])
      ⟨fun _ _ h => h.address (by simp), fun _ _ _ h => h.setTemp .data2 rfl⟩
      (addressDpReg_flows trivial)

/-! ### Opcodes -/

variable {op : Op2} {dest index : Reg8}

/-- Reading from dp. -/
theorem opReadDp_first (hop : op.Sees) (hdest : dest.Held []) : WrittenFirst (opReadDp op dest) :=
  .read dp_flows (by simp) hop hdest

/-- Reading from abs. -/
theorem opReadAbs_first (hop : op.Sees) (hdest : dest.Held []) : WrittenFirst (opReadAbs op dest) :=
  .read abs_flows (by simp) hop hdest

/-- Reading from (X). -/
theorem opReadIndirect_first (hop : op.Sees) : WrittenFirst (opReadIndirect op) :=
  .read indirect_flows (by simp) hop trivial

/-- Reading from (dp+X). -/
theorem opReadIndexedIndirect_first (hop : op.Sees) (hdest : dest.Held []) :
    WrittenFirst (opReadIndexedIndirect op dest) := .read indexedIndirect_flows (by simp) hop hdest

/-- Reading the operand itself, all in one cycle. -/
theorem opReadImm_first (hop : op.Sees) (hdest : dest.Held []) :
    WrittenFirst (opReadImm op dest) := by
  have hop2 : (op2 op dest .data).Flows [.data] [.data] :=
    op2_flows hop (held hdest _) List.mem_cons_self
  refine ⟨[.data], .last (.cons (v := [.data]) ?_ (.two incPc_flows hop2))⟩
  exact ⟨fun _ _ h => h.pc, fun _ _ _ h => h.setTemp .data rfl⟩

/-- Reading from dp+X and dp+Y. -/
theorem opReadDpRegIndexed_first (hop : op.Sees) (hdest : dest.Held []) (hindex : index.Held []) :
    WrittenFirst (opReadDpRegIndexed op dest index) :=
  .read (dpIndexed_flows hindex) (by simp) hop hdest

/-- Reading from abs+X and abs+Y. -/
theorem opReadAbsRegIndexed_first (hop : op.Sees) (hdest : dest.Held []) (hindex : index.Held []) :
    WrittenFirst (opReadAbsRegIndexed op dest index) :=
  .read (absIndexed_flows hindex) (by simp) hop hdest

/-- Reading from (dp)+Y. -/
theorem opReadIndirectIndexed_first (hop : op.Sees) (hdest : dest.Held []) :
    WrittenFirst (opReadIndirectIndexed op dest) := .read indirectIndexed_flows (by simp) hop hdest

section

variable {body : List Stmt} {old : Bool}

/-- Changing dp. -/
theorem opRmwDp_first (hop : WritesBack body old) : WrittenFirst (opRmwDp body old) :=
  .rmw dp_flows (by simp) hop

/-- Changing abs. -/
theorem opRmwAbs_first (hop : WritesBack body old) : WrittenFirst (opRmwAbs body old) :=
  .rmw abs_flows (by simp) hop

/-- Changing (X). -/
theorem opRmwIndirect_first (hop : WritesBack body old) : WrittenFirst (opRmwIndirect body old) :=
  .rmw indirect_flows (by simp) hop

/-- Changing (dp+X). -/
theorem opRmwIndexedIndirect_first (hop : WritesBack body old) :
    WrittenFirst (opRmwIndexedIndirect body old) := .rmw indexedIndirect_flows (by simp) hop

/-- Changing dp+X and dp+Y. -/
theorem opRmwDpRegIndexed_first (hop : WritesBack body old) (hindex : index.Held []) :
    WrittenFirst (opRmwDpRegIndexed body old index) := .rmw (dpIndexed_flows hindex) (by simp) hop

/-- Changing abs+X and abs+Y. -/
theorem opRmwAbsRegIndexed_first (hop : WritesBack body old) (hindex : index.Held []) :
    WrittenFirst (opRmwAbsRegIndexed body old index) := .rmw (absIndexed_flows hindex) (by simp) hop

/-- Changing (dp)+Y. -/
theorem opRmwIndirectIndexed_first (hop : WritesBack body old) :
    WrittenFirst (opRmwIndirectIndexed body old) := .rmw indirectIndexed_flows (by simp) hop

end

/-- Both operands in `_data` and `_data2`, and the result in memory. -/
theorem WrittenFirst.rmw2 {pre : List Cycle} (hpre : Flows [] pre ws) (hw : .address ∈ ws)
    (hw' : .data2 ∈ ws) (hop : op.Sees) :
    WrittenFirst (pre ++ [cycle [getData, op2 op .data .data2], cycle [setData .data]]) := by
  have hop2 : (op2 op .data .data2).Flows (.data :: ws) (.data :: ws) :=
    op2_flows hop List.mem_cons_self (List.mem_cons_of_mem _ hw')
  have hset : (setData .data).Flows (.data :: ws) (.data :: ws) :=
    setData_flows List.mem_cons_self (List.mem_cons_of_mem _ hw)
  exact ⟨_, hpre.append (.cons (.two (getData_flows hw) hop2) (.last (.one hset)))⟩

/-- Both operands are compared. -/
theorem WrittenFirst.cmp2 {pre : List Cycle} (hpre : Flows [] pre ws) (hw : .address ∈ ws)
    (hw' : .data2 ∈ ws) :
    WrittenFirst (pre ++ [{ body := [getData, op2 opCmp .data .data2], work := 2 }]) := by
  have hcmp : (op2 opCmp .data .data2).Flows (.data :: ws) (.data :: ws) :=
    op2_flows opCmp_sees List.mem_cons_self (List.mem_cons_of_mem _ hw')
  exact ⟨_, hpre.append (.last (.two (getData_flows hw) hcmp))⟩

/-- Changing dp by dp. -/
theorem opRmwDpDp_first (hop : op.Sees) : WrittenFirst (opRmwDpDp op) :=
  .rmw2 dpDp_flows (by simp) (by simp) hop

/-- CMP dp,dp. -/
theorem opCmpDpDp_first : WrittenFirst opCmpDpDp := .cmp2 dpDp_flows (by simp) (by simp)

/-- Changing dp by an operand. -/
theorem opRmwDpImm_first (hop : op.Sees) : WrittenFirst (opRmwDpImm op) :=
  .rmw2 dpImm_flows (by simp) (by simp) hop

/-- CMP dp,#imm. -/
theorem opCmpDpImm_first : WrittenFirst opCmpDpImm := .cmp2 dpImm_flows (by simp) (by simp)

/-- Changing (X) by (Y). -/
theorem opRmwIndirectIndirect_first (hop : op.Sees) : WrittenFirst (opRmwIndirectIndirect op) :=
  .rmw2 indirectIndirect_flows (by simp) (by simp) hop

/-- CMP (X),(Y). -/
theorem opCmpIndirectIndirect_first : WrittenFirst opCmpIndirectIndirect :=
  .cmp2 indirectIndirect_flows (by simp) (by simp)

/-! ### Branches -/

/-- The cycles of a branch that is taken: the distance is added to PC in
`_address`, and PC is set to it. -/
theorem endBranchOpcode_flows {ws' : List Temp} {body test : List Stmt}
    (h : BodyFlows ws (body ++ test) ws') (hw : .offset ∈ ws') :
    Flows ws (endBranchOpcode body test) (.address :: ws') := by
  refine .cons h (.cons (v := .address :: ws') ?add (.last ?jump))
  case add => exact .one fun _ _ h => h.setTemp .address (by rw [h.pc, h.offset hw])
  case jump => exact .one fun _ _ h => h.setPc (h.address List.mem_cons_self)

/-- A branch, with a test that needs no more than the distance. -/
theorem condRel_first {test : List Stmt} (htest : BodyFlows [.offset] test [.offset]) :
    WrittenFirst (condRel test) := by
  have hfetch : BodyFlows [] [getOffset, incPc] [.offset] := .two getOffset_flows incPc_flows
  exact ⟨_, endBranchOpcode_flows (hfetch.append htest) (by simp)⟩

/-- The test of a flag. -/
theorem exitIfSet_flows (flag : Flag) : BodyFlows ws (exitIfSet flag) ws :=
  .one ⟨fun _ _ h => h.flag flag, rfl⟩

/-- The opposite test. -/
theorem exitIfClear_flows (flag : Flag) : BodyFlows ws (exitIfClear flag) ws :=
  .one ⟨fun _ _ h => congrArg not (h.flag flag), rfl⟩

/-- A branch on a byte of the direct page. -/
theorem condDpRel_first {test : List Stmt} {ws' : List Temp}
    (htest : BodyFlows [.data, .offset, .address] test ws') (hw : .offset ∈ ws') :
    WrittenFirst (condDpRel test) := by
  have haddress : BodyFlows [] [addressDp, incPc] [.address] := .two addressDp_flows incPc_flows
  have hoffset : BodyFlows [.address] [getOffset, incPc] [.offset, .address] :=
    .two getOffset_flows incPc_flows
  have hdata : getData.Flows [.offset, .address] [.data, .offset, .address] :=
    getData_flows (by simp)
  have hbranch : Flows [.data, .offset, .address] (endBranchOpcode [] test) (.address :: ws') :=
    endBranchOpcode_flows htest hw
  exact ⟨_, .cons haddress (.cons hoffset (.cons (.one hdata) hbranch))⟩

/-- BBS. -/
theorem dpRelTestBbs_flows (opcode : Byte) (hw : .data ∈ ws) :
    BodyFlows ws (dpRelTestBbs opcode) ws :=
  .one ⟨fun _ _ h => by simp only [h.data hw], rfl⟩

/-- BBC. -/
theorem dpRelTestBbc_flows (opcode : Byte) (hw : .data ∈ ws) :
    BodyFlows ws (dpRelTestBbc opcode) ws :=
  .one ⟨fun _ _ h => by simp only [h.data hw], rfl⟩

/-- CBNE. -/
theorem testCbne_flows (hw : .data ∈ ws) : BodyFlows ws testCbne ws :=
  .one ⟨fun _ _ h => by simp only [h.data hw, h.a], rfl⟩

/-- DBNZ: the byte is counted down, written back and tested. -/
theorem dpRelTestDbnz_flows (hw : .data ∈ ws) (hw' : .address ∈ ws) :
    BodyFlows ws dpRelTestDbnz (.data :: ws) := by
  have hset : (setData .data).Flows (.data :: ws) (.data :: ws) :=
    setData_flows List.mem_cons_self (List.mem_cons_of_mem _ hw')
  refine .cons (v := .data :: ws) ?count (.two hset ?test)
  case count => exact fun _ _ h => h.setTemp .data (by rw [h.data hw])
  case test => exact ⟨fun _ _ h => by simp only [h.data List.mem_cons_self], rfl⟩

/-- CBNE dp+X,rel. -/
theorem opCbneDpX_first : WrittenFirst opCbneDpX := by
  have haddress : BodyFlows [] [addressLow, incPc] [.address] := .two addressLow_flows incPc_flows
  have hoffset : BodyFlows [.address] [getOffset, incPc] [.offset, .address] :=
    .two getOffset_flows incPc_flows
  have hindex : (addressDpIndexed .x).Flows [.offset, .address] [.address, .offset, .address] :=
    addressDpIndexed_flows trivial (by simp)
  have hdata : getData.Flows [.address, .offset, .address] [.data, .address, .offset, .address] :=
    getData_flows (by simp)
  have hbranch : Flows [.data, .address, .offset, .address] (endBranchOpcode [] testCbne) _ :=
    endBranchOpcode_flows (testCbne_flows (by simp)) (by simp)
  exact ⟨_, .cons haddress (.cons hoffset (.cons (.one hindex) (.cons (.one hdata) hbranch)))⟩

/-- DBNZ Y,rel. -/
theorem opDbnzY_first : WrittenFirst opDbnzY := by
  have hoffset : BodyFlows [] [getOffset, incPc] [.offset] := .two getOffset_flows incPc_flows
  have hcount : (Stmt.assign fun r => { r with y := r.y - 1 }).Flows [.offset] [.offset] :=
    fun r r' h => h.put .y (show r'.y - 1 = r.y - 1 by rw [h.y])
  have htest : (Stmt.exitIf fun r => r.y = 0).Flows [.offset] [.offset] :=
    ⟨fun _ _ h => by simp only [h.y], rfl⟩
  exact ⟨_, .cons hoffset (.cons (.one hcount) (endBranchOpcode_flows (.one htest) (by simp)))⟩

/-! ### Words -/

/-- The low byte of a word. -/
theorem data16Low_flows (hw : .address ∈ ws) : data16Low.Flows ws (.data16 :: ws) :=
  ⟨fun _ _ h => h.address hw, fun _ _ _ h => h.setTemp .data16 rfl⟩

/-- The high byte of a word. -/
theorem data16High_flows (hw : .address ∈ ws) (hw' : .data16 ∈ ws) :
    data16High.Flows ws (.data16 :: ws) := by
  refine ⟨fun _ _ h => ?_, fun _ _ _ h => h.setTemp .data16 ?_⟩
  · exact congrArg (· + 1) (h.address hw)
  · rw [h.data16 hw']

/-- The operand of the opcodes on words. -/
theorem dpWord_flows :
    Flows [] [cycle [addressDp, incPc], cycle [data16Low], cycle [data16High]]
      [.data16, .data16, .address] := by
  have hlow : data16Low.Flows [.address] [.data16, .address] := data16Low_flows (by simp)
  have hhigh : data16High.Flows [.data16, .address] [.data16, .data16, .address] :=
    data16High_flows (by simp) (by simp)
  exact dp_flows.append (.cons (.one hlow) (.last (.one hhigh)))

/-- An operation on `_data16` and what is seen. -/
def SeesWord (f : CpuRegs → CpuRegs) : Prop :=
  ∀ {ws : List Temp} {r r' : CpuRegs}, Same ws r r' → .data16 ∈ ws → Same ws (f r) (f r')

/-- ADDW, SUBW and MOVW YA,dp. -/
theorem opRead16YaDp_first {f : CpuRegs → CpuRegs} (hf : SeesWord f) :
    WrittenFirst (opRead16YaDp f) := by
  have hop : (Stmt.assign f).Flows [.data16, .data16, .address] [.data16, .data16, .address] :=
    fun _ _ h => hf h (by simp)
  exact ⟨_, dpWord_flows.append (.last (.one hop))⟩

/-- INCW and DECW: the result is written from `_data16`, byte by byte. -/
theorem opRmw16Dp_first {f : CpuRegs → CpuRegs} (hf : SeesWord f) :
    WrittenFirst (opRmw16Dp f) := by
  refine ⟨[.data16, .data16, .address], dpWord_flows.append
    (.cons (v := [.data16, .data16, .address]) (.two (v := [.data16, .data16, .address]) ?op ?low)
      (.last (.one ?high)))⟩
  case op => exact fun _ _ h => hf h (by simp)
  case low =>
    refine ⟨fun _ _ h => ⟨h.address (by simp), ?_⟩, rfl⟩
    exact congrArg (BitVec.setWidth 8) (h.data16 (by simp))
  case high =>
    refine ⟨fun _ _ h => ⟨congrArg (· + 1) (h.address (by simp)), ?_⟩, rfl⟩
    exact congrArg (BitVec.extractLsb' 8 8) (h.data16 (by simp))

/-- CMPW YA,dp. -/
theorem opCmpwYaDp_first : WrittenFirst opCmpwYaDp := by
  have hlow : data16Low.Flows [.address] [.data16, .address] := data16Low_flows (by simp)
  have hhigh : data16High.Flows [.data16, .address] [.data16, .data16, .address] :=
    data16High_flows (by simp) (by simp)
  have hcmp : (Stmt.assign opCmpw).Flows [.data16, .data16, .address] [.data16, .data16, .address] :=
    fun _ _ h => opCmpw_sees h (by simp)
  exact ⟨_, dp_flows.append (.cons (.one hlow) (.last (.two hhigh hcmp)))⟩

/-- MOVW dp,YA. -/
theorem opMovwDpYa_first : WrittenFirst opMovwDpYa := by
  have hdummy : getDummy.Flows [.address] [.address] := getDummy_flows (by simp)
  have hlow : (setData .a).Flows [.address] [.address] := setData_flows trivial (by simp)
  have hhigh : (Stmt.setByte (·.address + 1) (·.y)).Flows [.address] [.address] :=
    ⟨fun _ _ h => ⟨congrArg (· + 1) (h.address (by simp)), h.y⟩, rfl⟩
  exact ⟨_, dp_flows.append (.cons (.one hdummy) (.cons (.one hlow) (.last (.one hhigh))))⟩

/-- MOV dp(d),dp(s). -/
theorem opMovDpDp_first : WrittenFirst opMovDpDp := by
  have hset : (setData .data).Flows [.data, .address, .address2] [.data, .address, .address2] :=
    setData_flows (show Temp.data ∈ _ by simp) (by simp)
  refine ⟨_, .cons (v := [.address2]) ?source (.cons (v := [.address, .address2]) ?target
    (.cons (v := [.data, .address, .address2]) ?read (.last (.one hset))))⟩
  case source => exact .two address2Dp_flows incPc_flows
  case target => exact .two addressDp_flows incPc_flows
  case read =>
    exact .one ⟨fun _ _ h => h.address2 (by simp), fun _ _ _ h => h.setTemp .data rfl⟩

/-! ### Single bits of memory -/

/-- `_offset` and `_address` are the two parts of a word that is in `_address`
before. -/
theorem memBit_flows : Flows [] memBit [.address, .offset, .address, .address] := by
  refine .cons (v := [.address]) ?low (.last (.cons (v := [.address, .address]) ?high
    (.two (v := [.address, .offset, .address, .address]) ?parts incPc_flows)))
  case low => exact .two addressLow_flows incPc_flows
  case high => exact addressHigh_flows (by simp)
  case parts =>
    intro r r' h
    have haddress := h.address List.mem_cons_self
    have hoffset := h.setTemp .offset
      (congrArg (fun w : BitVec 16 => (w >>> 13).setWidth 8) haddress)
    exact hoffset.setTemp .address (congrArg (· &&& 0x1FFF) haddress)

/-- The byte is in `_data`. -/
theorem memBitData_flows :
    BodyFlows [.address, .offset, .address, .address] [getData]
      [.data, .address, .offset, .address, .address] := .one (getData_flows (by simp))

/-- Whoever has read `_offset` sees the same bit. -/
theorem offsetBit_eq {r r' : CpuRegs} (h : Same ws r r') (hw : .offset ∈ ws) :
    offsetBit r' = offsetBit r := by
  unfold offsetBit
  rw [h.offset hw]

/-- Whoever has read `_data` as well finds it set or clear alike. -/
theorem memBitSet_eq {r r' : CpuRegs} (h : Same ws r r') (hw : .offset ∈ ws) (hw' : .data ∈ ws) :
    memBitSet r' = memBitSet r := by
  unfold memBitSet
  rw [h.data hw', offsetBit_eq h hw]

/-- OR1. -/
theorem opOr1_first (sense : Bool) : WrittenFirst (opOr1 sense) := by
  refine ⟨[.data, .address, .offset, .address, .address],
    memBit_flows.append (.cons memBitData_flows (.last (.one fun r r' h => ?_)))⟩
  have hbit : memBitSet r' = memBitSet r := memBitSet_eq h (by simp) (by simp)
  exact Same.ite (by rw [hbit]) (h.setFlagSpc .c) h

/-- AND1. -/
theorem opAnd1_first (sense : Bool) : WrittenFirst (opAnd1 sense) := by
  refine ⟨[.data, .address, .offset, .address, .address],
    memBit_flows.append (.last (memBitData_flows.append (.one fun r r' h => ?_)))⟩
  have hbit : memBitSet r' = memBitSet r := memBitSet_eq h (by simp) (by simp)
  exact Same.ite (by rw [hbit]) h (h.clrFlagSpc .c)

/-- EOR1. -/
theorem opEor1_first : WrittenFirst opEor1 := by
  refine ⟨[.data, .address, .offset, .address, .address],
    memBit_flows.append (.cons memBitData_flows (.last (.one fun r r' h => ?_)))⟩
  have hbit : memBitSet r' = memBitSet r := memBitSet_eq h (by simp) (by simp)
  exact Same.ite (by rw [hbit]) h.complementCarrySpc h

/-- MOV1 C,mem.bit. -/
theorem opMov1C_first : WrittenFirst opMov1C := by
  refine ⟨[.data, .address, .offset, .address, .address],
    memBit_flows.append (.last (memBitData_flows.append (.one fun r r' h => ?_)))⟩
  have hbit : offsetBit r' = offsetBit r := offsetBit_eq h (by simp)
  exact h.storeFlagC (by rw [h.data (by simp), hbit])

/-- MOV1 mem.bit,C. -/
theorem opMov1Mem_first : WrittenFirst opMov1Mem := by
  have hwrite : (setData .data).Flows [.data, .data, .address, .offset, .address, .address]
      [.data, .data, .address, .offset, .address, .address] :=
    setData_flows (show Temp.data ∈ _ by simp) (by simp)
  refine ⟨_, memBit_flows.append (.cons memBitData_flows
    (.cons (.one fun r r' h => ?_) (.last (.one hwrite))))⟩
  have hset : r'.data ||| offsetBit r' = r.data ||| offsetBit r := by
    rw [h.data (by simp), offsetBit_eq h (by simp)]
  have hclear : r'.data &&& offsetToNot.getD r'.offset.toNat 0 =
      r.data &&& offsetToNot.getD r.offset.toNat 0 := by
    rw [h.data (by simp), h.offset (by simp)]
  exact Same.ite (by rw [h.flag]) (h.setTemp .data hset) (h.setTemp .data hclear)

/-- NOT1. -/
theorem opNot1_first : WrittenFirst opNot1 := by
  have hwrite : (setData .data).Flows [.data, .data, .address, .offset, .address, .address]
      [.data, .data, .address, .offset, .address, .address] :=
    setData_flows (show Temp.data ∈ _ by simp) (by simp)
  refine ⟨_, memBit_flows.append (.cons memBitData_flows
    (.last (.two (fun r r' h => ?_) hwrite)))⟩
  exact h.setTemp .data (by rw [h.data (by simp), offsetBit_eq h (by simp)])

/-- TSET1 and TCLR1. -/
theorem opTest1_first {write : CpuRegs → Byte}
    (hwrite : ∀ {ws : List Temp} {r r' : CpuRegs}, Same ws r r' → .data ∈ ws → write r' = write r) :
    WrittenFirst (opTest1 write) := by
  have hread : getData.Flows [.address, .address] [.data, .address, .address] :=
    getData_flows (by simp)
  refine ⟨[.data, .data, .address, .address], abs_flows.append (.cons (.one hread)
    (.cons (v := [.data, .address, .address]) ?test (.last ?back)))⟩
  case test => exact .one fun _ _ h => h.storeFlagsNz (by rw [h.data (by simp), h.a])
  case back =>
    exact .two (fun _ _ h => h.setTemp .data (hwrite h (by simp)))
      (setData_flows List.mem_cons_self (by simp))

/-! ### The stack -/

/-- PUSH of a register. -/
theorem opPush_first {src : Reg8} (hsrc : src.Held []) : WrittenFirst (opPush src) := by
  have hwrite : (setData src).Flows [.address] [.address] :=
    setData_flows (held hsrc _) (by simp)
  exact ⟨_, .cons (.one addressStack_flows) (.cons (.one hwrite) (.last (.one decSp_flows)))⟩

/-- POP of a register. -/
theorem opPop_first (dest : Reg8) : WrittenFirst (opPop dest) := by
  refine ⟨[.address], .cons (.one incSp_flows) (.cons (.one addressStack_flows)
    (.last (.one ?_)))⟩
  exact ⟨fun _ _ h => h.address (by simp), fun _ _ _ h => h.put dest rfl⟩

/-- `_PSW` is pushed. -/
theorem storePsw_flows (hw : .address ∈ ws) :
    BodyFlows ws [assign (·.spcSetupFlags), setByte (·.address) (·.psw)] (.psw :: ws) := by
  refine .two (v := .psw :: ws) (fun _ _ h => h.spcSetupFlags) ⟨fun _ _ h => ?_, rfl⟩
  exact ⟨h.address (List.mem_cons_of_mem _ hw), h.psw List.mem_cons_self⟩

/-- PUSH PSW. -/
theorem opPushPsw_first : WrittenFirst opPushPsw := by
  have hpush : BodyFlows [.address] _ [.psw, .address] := storePsw_flows (by simp)
  exact ⟨_, .cons (.one addressStack_flows) (.cons hpush (.last (.one decSp_flows)))⟩

/-- `_PSW` is popped. -/
theorem popPsw_flows (hw : .address ∈ ws) : BodyFlows ws popPsw (.psw :: ws) := by
  refine .two (v := .psw :: ws) ?pop ?restore
  case pop => exact ⟨fun _ _ h => h.address hw, fun _ _ _ h => h.setTemp .psw rfl⟩
  case restore => exact fun _ _ h => h.spcRestoreFlags List.mem_cons_self

/-- POP PSW. -/
theorem opPopPsw_first : WrittenFirst opPopPsw := by
  have hpop : BodyFlows [.address] popPsw [.psw, .address] := popPsw_flows (by simp)
  exact ⟨_, .cons (.one incSp_flows) (.cons (.one addressStack_flows) (.last hpop))⟩

/-- The vector of a call goes to `_address2`. -/
theorem fetchVector_flows (vector : Byte) :
    Flows [] (fetchVector vector) [.address2, .address2, .address] := by
  refine .cons (v := [.address2, .address]) (.two (v := [.address]) ?place ?low)
    (.last (.one ?high))
  case place => exact fun _ _ h => h.setTemp .address rfl
  case low => exact ⟨fun _ _ h => h.address (by simp), fun _ _ _ h => h.setTemp .address2 rfl⟩
  case high =>
    refine ⟨fun _ _ h => ?_, fun _ _ _ h => h.setTemp .address2 ?_⟩
    · exact congrArg (· + 1) (h.address (by simp))
    · rw [h.address2 (by simp)]

/-- The high byte of PC is pushed. -/
theorem pushPch_flows (hw : .address ∈ ws) : BodyFlows ws pushPch (.address :: ws) := by
  refine .cons ⟨fun _ _ h => ?_, rfl⟩ (.two decSp_flows addressStack_flows)
  exact ⟨h.address hw, congrArg (BitVec.extractLsb' 8 8) h.pc⟩

/-- The low byte of PC is pushed. -/
theorem pushPcl_flows (hw : .address ∈ ws) : BodyFlows ws pushPcl (.address :: ws) := by
  refine .cons ⟨fun _ _ h => ?_, rfl⟩ (.two decSp_flows addressStack_flows)
  exact ⟨h.address hw, congrArg (BitVec.setWidth 8) h.pc⟩

/-- A jump to `_address2`. -/
theorem jumpAddress2_flows (hw : .address2 ∈ ws) : jumpAddress2.Flows ws ws :=
  fun _ _ h => h.setPc (h.address2 hw)

/-- The return address is pushed. -/
theorem pushPc_flows :
    Flows ws [cycle [addressStack], cycle pushPch, cycle pushPcl]
      (.address :: .address :: .address :: ws) := by
  have hhigh : BodyFlows (.address :: ws) pushPch (.address :: .address :: ws) :=
    pushPch_flows (by simp)
  have hlow : BodyFlows (.address :: .address :: ws) pushPcl
      (.address :: .address :: .address :: ws) := pushPcl_flows (by simp)
  exact .cons (.one addressStack_flows) (.cons hhigh (.last hlow))

/-- The last two cycles of a call: one passes, and PC is set. -/
theorem callJump_flows (hw : .address2 ∈ ws) :
    Flows ws [cycle [], cycle [jumpAddress2]] ws :=
  .cons .nil (.last (.one (jumpAddress2_flows hw)))

/-- TCALL. -/
theorem opTcall_first (opcode : Byte) : WrittenFirst (opTcall opcode) :=
  ⟨_, (fetchVector_flows _).append (pushPc_flows.append (callJump_flows (by simp)))⟩

/-- BRK: behind PC the flags are pushed, and then set for the call. -/
theorem opBrk_first : WrittenFirst opBrk := by
  have hflags {ws : List Temp} :
      (Stmt.assign fun r => (r.setFlagSpc .b).clrFlagSpc .i).Flows ws ws :=
    fun _ _ h => (h.setFlagSpc .b).clrFlagSpc .i
  have hpush : BodyFlows [.address, .address, .address, .address2, .address2, .address] _
      [.psw, .address, .address, .address, .address2, .address2, .address] :=
    (storePsw_flows (by simp)).append (.one hflags)
  have hjump : jumpAddress2.Flows
      [.psw, .address, .address, .address, .address2, .address2, .address] _ :=
    jumpAddress2_flows (by simp)
  exact ⟨_, (fetchVector_flows 0).append
    (pushPc_flows.append (.cons hpush (.last (.two hjump decSp_flows))))⟩

/-- CALL: the target is fetched before PC is pushed. -/
theorem opCall_first : WrittenFirst opCall := by
  refine ⟨_, .cons (v := [.address2]) ?low (.cons (v := [.address2, .address2]) ?high
    (pushPc_flows.append (callJump_flows (by simp))))⟩
  case low =>
    exact .two ⟨fun _ _ h => h.pc, fun _ _ _ h => h.setTemp .address2 rfl⟩ incPc_flows
  case high =>
    refine .two ⟨fun _ _ h => h.pc, fun _ _ _ h => h.setTemp .address2 ?_⟩ incPc_flows
    rw [h.address2 (by simp)]

/-- PCALL: the low byte of PC is pushed without a look at what comes next. -/
theorem opPcall_first : WrittenFirst opPcall := by
  have hhigh : BodyFlows [.address, .address2] pushPch [.address, .address, .address2] :=
    pushPch_flows (by simp)
  have hjump : jumpAddress2.Flows [.address, .address, .address2] [.address, .address, .address2] :=
    jumpAddress2_flows (by simp)
  refine ⟨_, .cons (v := [.address2]) ?target (.cons (.one addressStack_flows) (.cons hhigh
    (.cons (.one ?low) (.last (.two hjump decSp_flows)))))⟩
  case target =>
    exact .two ⟨fun _ _ h => h.pc, fun _ _ _ h => h.setTemp .address2 rfl⟩ incPc_flows
  case low =>
    refine ⟨fun _ _ h => ⟨h.address (by simp), ?_⟩, rfl⟩
    exact congrArg (BitVec.setWidth 8) h.pc

/-- The low byte of PC is popped into `_address2`. -/
theorem popPcl_flows (hw : .address ∈ ws) :
    BodyFlows ws popPcl (.address :: .address2 :: ws) := by
  refine .cons (v := .address2 :: ws) ?_ (.two incSp_flows addressStack_flows)
  exact ⟨fun _ _ h => h.address hw, fun _ _ _ h => h.setTemp .address2 rfl⟩

/-- The high byte of PC is popped, and joined to the low one. -/
theorem popPch_flows (hw : .address ∈ ws) (hw' : .address2 ∈ ws) : popPch.Flows ws ws :=
  ⟨fun _ _ h => h.address hw, fun _ _ _ h => h.setPc (by rw [h.address2 hw'])⟩

/-- PC is popped, with `_address` at its low byte. -/
theorem popPc_flows (hw : .address ∈ ws) :
    Flows ws [cycle popPcl, cycle [popPch]] (.address :: .address2 :: ws) := by
  have hhigh : popPch.Flows (.address :: .address2 :: ws) (.address :: .address2 :: ws) :=
    popPch_flows (by simp) (by simp)
  exact .cons (popPcl_flows hw) (.last (.one hhigh))

/-- RET. -/
theorem opRet_first : WrittenFirst opRet :=
  ⟨_, .cons (.one incSp_flows) (.cons (.one addressStack_flows) (popPc_flows (by simp)))⟩

/-- RETI: the flags lie before PC. -/
theorem opReti_first : WrittenFirst opReti := by
  have hflags : BodyFlows [.address] (popPsw ++ [incSp, addressStack]) [.address, .psw, .address] :=
    (popPsw_flows (by simp)).append (.two incSp_flows addressStack_flows)
  have hpc : Flows [.address, .psw, .address] [cycle popPcl, cycle [popPch]]
      [.address, .address2, .address, .psw, .address] := popPc_flows (by simp)
  exact ⟨_, .cons (.one incSp_flows) (.cons (.one addressStack_flows) (.cons hflags hpc))⟩

/-! ### Jumps and registers -/

/-- JMP abs: the high byte goes to PC at once. -/
theorem opJmpAbs_first : WrittenFirst opJmpAbs := by
  refine ⟨[.address], .cons (v := [.address]) ?low (.last (.one ?high))⟩
  case low => exact .two addressLow_flows incPc_flows
  case high => exact ⟨fun _ _ h => h.pc, fun _ _ _ h => h.setPc (by rw [h.address (by simp)])⟩

/-- JMP (abs+X): the low byte waits in `_offset` for the high one. -/
theorem opJmpAbsX_first : WrittenFirst opJmpAbsX := by
  have hhigh : addressHigh.Flows [.address] [.address, .address] := addressHigh_flows (by simp)
  have hindex : (addressIndexed .x).Flows [.address, .address] [.address, .address, .address] :=
    addressIndexed_flows trivial (by simp)
  refine ⟨[.offset, .address, .address, .address], .cons (v := [.address]) ?fetch
    (.cons (v := [.address, .address]) (.one hhigh) (.cons (v := [.address, .address, .address])
      (.one hindex) (.cons (v := [.offset, .address, .address, .address]) ?low (.last ?jump))))⟩
  case fetch => exact .two addressLow_flows incPc_flows
  case low => exact .one ⟨fun _ _ h => h.address (by simp), fun _ _ _ h => h.setTemp .offset rfl⟩
  case jump =>
    refine .one ⟨fun _ _ h => ?_, fun _ _ _ h => h.setPc ?_⟩
    · exact congrArg (· + 1) (h.address (by simp))
    · rw [h.offset (by simp)]

/-- An operation on what is seen. -/
theorem opImplied_first {f : CpuRegs → CpuRegs}
    (hf : ∀ r r', Same [] r r' → Same [] (f r) (f r')) : WrittenFirst (opImplied f) :=
  ⟨_, .last (.one hf)⟩

/-- X is always seen. -/
theorem incX_flows : (Stmt.assign fun r => { r with x := r.x + 1 }).Flows ws ws :=
  fun r r' h => h.put .x (show r'.x + 1 = r.x + 1 by rw [h.x])

/-- MOV (X)+,A. -/
theorem opMovXIncA_first : WrittenFirst opMovXIncA := by
  have hwrite : (setData .a).Flows [.address] [.address] := setData_flows trivial (by simp)
  exact ⟨_, indirect_flows.append (.cons (.one hwrite) (.last (.one incX_flows)))⟩

/-- MOV A,(X)+. -/
theorem opMovAXInc_first : WrittenFirst opMovAXInc := by
  have hread : getData.Flows [.address] [.data, .address] := getData_flows (by simp)
  have hmov : (op2 opMovRead .a .data).Flows [.data, .address] [.data, .address] :=
    op2_flows opMovRead_sees trivial (show Temp.data ∈ _ by simp)
  exact ⟨_, indirect_flows.append (.cons (.two hread hmov) (.last (.one incX_flows)))⟩

/-- XCN: the old A waits in `_data` while A is shifted. -/
theorem opXcn_first : WrittenFirst opXcn := by
  have hor : (op2 opOr .a .data).Flows [.data, .data] [.data, .data] :=
    op2_flows opOr_sees trivial (show Temp.data ∈ _ by simp)
  refine ⟨_, .cons (v := [.data]) (.one ?save) (.cons (v := [.data]) (.one ?left)
    (.cons (.one ?right) (.last (.one hor))))⟩
  case save => exact fun _ _ h => h.setTemp .data h.a
  case left => exact fun r r' h => h.put .a (show r'.a <<< 4 = r.a <<< 4 by rw [h.a])
  case right => exact fun _ _ h => h.setTemp .data (by rw [h.data (by simp)])

/-- NOP. -/
theorem opNop_first : WrittenFirst opNop := ⟨_, .last .nil⟩

/-- MUL YA. -/
theorem opMulYa_first : WrittenFirst opMulYa := ⟨_, .last (.one fun _ _ h => opMul_sees h)⟩

/-- DIV YA,X. -/
theorem opDivYaX_first : WrittenFirst opDivYaX := ⟨_, .last (.one fun _ _ h => opDiv_sees h)⟩

/-- DAA. -/
theorem opDaa_first : WrittenFirst opDaa :=
  ⟨_, .cons (.one fun _ _ h => daaLow_sees h) (.last (.one fun _ _ h => daaHigh_sees h (by simp)))⟩

/-- DAS. -/
theorem opDas_first : WrittenFirst opDas :=
  ⟨_, .cons (.one fun _ _ h => dasLow_sees h) (.last (.one fun _ _ h => dasHigh_sees h (by simp)))⟩

/-! ## The switch -/

/-- The opcodes of a row, one by one. -/
theorem forall_some_mem_cons {P : List Cycle → Prop} {c : Option (List Cycle)}
    {row : List (Option (List Cycle))} :
    (∀ ys, some ys ∈ c :: row → P ys) ↔
      (∀ ys, c = some ys → P ys) ∧ ∀ ys, some ys ∈ row → P ys := by
  simp only [List.mem_cons, or_imp, forall_and, eq_comm]

/-- **No opcode in the table reads a temporary that it has not written.**  Every
entry is closed by the lemma on its macro. -/
theorem switchTable_first (opcode : Byte) :
    ∀ row ∈ switchTable opcode, ∀ ys, some ys ∈ row → WrittenFirst ys := by
  have ha : Reg8.Held [] .a := trivial
  have hx : Reg8.Held [] .x := trivial
  have hy : Reg8.Held [] .y := trivial
  have hsp : Reg8.Held [] .sp := trivial
  have hop1 {op : Op1} {var : Reg8} (hop : op.Sees) (hvar : var.Held []) :
      WrittenFirst (opImplied (op var)) := opImplied_first fun _ _ h => hop hvar h
  have hop2 {op : Op2} {dest src : Reg8} (hop : op.Sees) (hdest : dest.Held [])
      (hsrc : src.Held []) : WrittenFirst (opImplied (op dest src)) :=
    opImplied_first fun _ _ h => hop hdest hsrc h
  have hset (f : Flag) : WrittenFirst (opImplied (·.setFlagSpc f)) :=
    opImplied_first fun _ _ h => h.setFlagSpc f
  have hclr (f : Flag) : WrittenFirst (opImplied (·.clrFlagSpc f)) :=
    opImplied_first fun _ _ h => h.clrFlagSpc f
  have hclrv : WrittenFirst (opImplied fun r => (r.clrFlagSpc .h).clrFlagSpc .v) :=
    opImplied_first fun _ _ h => (h.clrFlagSpc .h).clrFlagSpc .v
  have hnotc : WrittenFirst (opImplied (·.complementCarrySpc)) :=
    opImplied_first fun _ _ h => h.complementCarrySpc
  have hbra : WrittenFirst (condRel []) := condRel_first .nil
  have hifSet (f : Flag) : WrittenFirst (condRel (exitIfSet f)) :=
    condRel_first (exitIfSet_flows f)
  have hifClear (f : Flag) : WrittenFirst (condRel (exitIfClear f)) :=
    condRel_first (exitIfClear_flows f)
  have hbbs : WrittenFirst (condDpRel (dpRelTestBbs opcode)) :=
    condDpRel_first (dpRelTestBbs_flows opcode (by simp)) (by simp)
  have hbbc : WrittenFirst (condDpRel (dpRelTestBbc opcode)) :=
    condDpRel_first (dpRelTestBbc_flows opcode (by simp)) (by simp)
  have hcbne : WrittenFirst (condDpRel testCbne) :=
    condDpRel_first (testCbne_flows (by simp)) (by simp)
  have hdbnz : WrittenFirst (condDpRel dpRelTestDbnz) :=
    condDpRel_first (dpRelTestDbnz_flows (by simp) (by simp)) (by simp)
  have htset : WrittenFirst (opTest1 fun r => r.data ||| r.a) :=
    opTest1_first fun h hw => by rw [h.data hw, h.a]
  have htclr : WrittenFirst (opTest1 fun r => r.data &&& ~~~ r.a) :=
    opTest1_first fun h hw => by rw [h.data hw, h.a]
  have hread : SeesWord opAddw ∧ SeesWord opSubw ∧ SeesWord opMovwRead :=
    ⟨opAddw_sees, opSubw_sees, opMovwRead_sees⟩
  have hrmw : SeesWord opDecw ∧ SeesWord opIncw := ⟨opDecw_sees, opIncw_sees⟩
  unfold switchTable
  simp only [List.forall_mem_cons, forall_some_mem_cons, List.replicate, Option.some.injEq,
    forall_eq', List.not_mem_nil, false_imp_iff, implies_true, and_true, reduceCtorEq, ha, hx, hy,
    hsp, hset, hclr, hclrv, hnotc, hbra, hifSet, hifClear, hbbs, hbbc, hcbne, hdbnz, htset, htclr,
    hop1, hop2, opOr_sees, opAnd_sees, opEor_sees, opCmp_sees, opAdc_sees, opSbc_sees,
    opMovReadNoflags_sees, opMovRead_sees, opAsl_sees, opRol_sees, opLsr_sees, opRor_sees,
    opDec_sees, opInc_sees, opSet1_sees, opClr1_sees, writeOp_flows, writeMov_flows,
    opReadDp_first, opReadAbs_first, opReadIndirect_first, opReadIndexedIndirect_first,
    opReadImm_first, opReadDpRegIndexed_first, opReadAbsRegIndexed_first,
    opReadIndirectIndexed_first, opRmwDp_first, opRmwAbs_first, opRmwIndirect_first,
    opRmwIndexedIndirect_first, opRmwDpRegIndexed_first, opRmwAbsRegIndexed_first,
    opRmwIndirectIndexed_first, opRmwDpDp_first, opCmpDpDp_first, opRmwDpImm_first,
    opCmpDpImm_first, opRmwIndirectIndirect_first, opCmpIndirectIndirect_first, opCbneDpX_first,
    opDbnzY_first, opRead16YaDp_first, opRmw16Dp_first, hread, hrmw, opCmpwYaDp_first,
    opMovwDpYa_first, opMovDpDp_first, opOr1_first, opAnd1_first, opEor1_first, opMov1C_first,
    opMov1Mem_first, opNot1_first, opPush_first, opPop_first, opPushPsw_first, opPopPsw_first,
    opTcall_first, opBrk_first, opCall_first, opPcall_first, opRet_first, opReti_first,
    opJmpAbs_first, opJmpAbsX_first, opMovXIncA_first, opMovAXInc_first, opXcn_first, opNop_first,
    opMulYa_first, opDivYaX_first, opDaa_first, opDas_first]

end Macros

end OpenSpc
