import OpenSpc.PlainCore

/-!
# Instructions of programs that keep to memory and the ports

One lemma for each form of an instruction: what it makes of registers, memory
and ports, when it reads, and how long it takes.
-/

namespace OpenSpc

open CpuRegs (Reg8)

namespace Plain

variable {h : HostPorts} {t : Nat} {s : Plain} {d v w : Byte}

/-! ## Reads -/

/-- A byte of the boot ROM. -/
theorem get_rom {ports : Fin 4 → Byte} {address : BitVec 16} (ha : 0xFFC0 ≤ address.toNat)
    (hv : bootRom address = v) : s.get ports address = some v := by
  unfold get
  rw [if_pos ha, hv]

/-- A read of RAM. -/
theorem get_ram {ports : Fin 4 → Byte} {address : BitVec 16} (ha : InRam address) :
    s.get ports address = some (s.ram address) := by
  have hlow : ¬ 0xFFC0 ≤ address.toNat := by
    unfold InRam at ha
    omega
  unfold get
  rw [if_neg hlow, if_pos ha]

/-- A read of a port. -/
theorem get_port {ports : Fin 4 → Byte} {address : BitVec 16} (i : Fin 4)
    (ha : address.toNat = 0xF4 + i.val) : s.get ports address = some (ports i) := by
  have hi := i.isLt
  have hindex : Fin.ofNat 4 address.toNat = i := by
    apply Fin.ext
    rw [Fin.val_ofNat, ha]
    omega
  unfold get
  rw [if_neg (by omega), if_neg (by unfold InRam; omega), if_pos (by unfold IsPort; omega), hindex]

/-- A write to a port. -/
theorem set_port {address : BitVec 16} (i : Fin 4) (ha : address.toNat = 0xF4 + i.val) :
    s.set true address v = some { s with portW := Function.update s.portW i v } := by
  have hi := i.isLt
  have hindex : Fin.ofNat 4 address.toNat = i := by
    apply Fin.ext
    rw [Fin.val_ofNat, ha]
    omega
  unfold set
  rw [if_neg (by unfold InRam; omega), if_pos (by unfold IsPort; omega), if_pos rfl, hindex]

/-- A write to RAM. -/
theorem set_ram {last : Bool} {address : BitVec 16} (ha : InRam address) :
    s.set last address v = some { s with ram := Function.update s.ram address v } := by
  unfold set
  rw [if_pos ha]

/-! ## Cycles -/

/-- A cycle that is followed by another. -/
theorem cycles_next {y z : Cycle} {ys : List Cycle} {s₁ : Plain}
    (hy : body (h t) false y.body s = some (false, s₁)) :
    cycles h t (y :: z :: ys) s = cycles h (t + y.work) (z :: ys) s₁ := by
  change ((body (h t) false y.body s).bind fun p => _) = _
  rw [hy]
  rfl

/-- The last cycle. -/
theorem cycles_last {y : Cycle} {s₁ : Plain}
    (hy : body (h t) (y.work == 1) y.body s = some (false, s₁)) :
    cycles h t [y] s = some (s₁, t + y.work) := by
  change ((body (h t) (y.work == 1) y.body s).bind fun p => _) = _
  rw [hy]
  rfl

/-- A cycle that leaves the opcode. -/
theorem cycles_exit {y : Cycle} {ys : List Cycle} {s₁ : Plain}
    (hy : body (h t) (ys.isEmpty && y.work == 1) y.body s = some (true, s₁)) :
    cycles h t (y :: ys) s = some (s₁, t + 1) := by
  change ((body (h t) (ys.isEmpty && y.work == 1) y.body s).bind fun p => _) = _
  rw [hy]
  rfl

section Body

variable {last : Bool} {ports : Fin 4 → Byte} {rest : List Stmt} {p : Option (Bool × Plain)}

/-- A read among the statements of a cycle. -/
theorem body_get {address : CpuRegs → BitVec 16} {f : Byte → CpuRegs → CpuRegs}
    (hv : s.get ports (address s.regs) = some v)
    (hrest : body ports last rest (s.mapRegs (f v)) = p) :
    body ports last (.getByte address f :: rest) s = p := by
  change (s.get ports (address s.regs)).bind _ = _
  rw [hv]
  exact hrest

/-- A write among the statements of a cycle. -/
theorem body_set {address : CpuRegs → BitVec 16} {data : CpuRegs → Byte} {s₁ : Plain}
    (hs : s.set last (address s.regs) (data s.regs) = some s₁)
    (hrest : body ports last rest s₁ = p) :
    body ports last (.setByte address data :: rest) s = p := by
  change (s.set last (address s.regs) (data s.regs)).bind _ = _
  rw [hs]
  exact hrest

/-- An operation among the statements of a cycle. -/
theorem body_assign {f : CpuRegs → CpuRegs} (hrest : body ports last rest (s.mapRegs f) = p) :
    body ports last (.assign f :: rest) s = p := hrest

/-- A test that leaves the opcode. -/
theorem body_exit {test : CpuRegs → Bool} (htest : test s.regs = true) :
    body ports last (.exitIf test :: rest) s = some (true, s) := if_pos htest

/-- A test that does not leave the opcode. -/
theorem body_stay {test : CpuRegs → Bool} (htest : ¬ test s.regs = true)
    (hrest : body ports last rest s = p) : body ports last (.exitIf test :: rest) s = p :=
  (if_neg htest).trans hrest

end Body

/-! ## Forms -/

/-- An instruction, once its opcode is fetched. -/
theorem instr_of_fetch {opcode : Byte} {ys : List Cycle}
    (hop : s.get (h t) s.regs.pc = some opcode) (hys : switchSpc opcode = some ys) :
    instr h t s = cycles h (t + 1) ys (s.mapRegs fun r => { r with pc := r.pc + 1 }) := by
  unfold instr
  rw [hop, Option.bind_some, hys]
  rfl

/-- An opcode that only computes. -/
theorem cycles_opImplied (f : CpuRegs → CpuRegs) :
    cycles h t (opImplied f) s = some (s.mapRegs f, t + 1) := rfl

/-- An opcode that reads its operand. -/
theorem cycles_opReadImm (op : Op2) (dest : Reg8) (hv : s.get (h t) s.regs.pc = some v) :
    cycles h t (opReadImm op dest) s =
      some (s.mapRegs fun r => op dest .data { r with data := v, pc := r.pc + 1 }, t + 1) :=
  cycles_last (body_get hv rfl)

/-- An opcode that reads the direct page. -/
theorem cycles_opReadDp (op : Op2) (dest : Reg8) (hd : s.get (h t) s.regs.pc = some d)
    (hv : s.get (h (t + 1)) (s.regs.directPage + d.setWidth 16) = some v) :
    cycles h t (opReadDp op dest) s =
      some (s.mapRegs fun r => op dest .data
        { r with address := r.directPage + d.setWidth 16, pc := r.pc + 1, data := v }, t + 2) := by
  refine (cycles_next (body_get hd rfl)).trans ?_
  exact cycles_last (body_get hv rfl)

/-- The address in the direct page that an operand byte names. -/
def dpAddress (d : Byte) (s : Plain) : BitVec 16 := s.regs.directPage + d.setWidth 16

/-- MOV dp,src, to a port. -/
theorem cycles_opMovDp (src : Reg8) (i : Fin 4) (hd : s.get (h t) s.regs.pc = some d)
    (ha : (s.dpAddress d).toNat = 0xF4 + i.val) :
    cycles h t (opRmwDp (Stmt.writeMov src) false) s =
      some ({ s with
        regs := { s.regs with address := s.dpAddress d, pc := s.regs.pc + 1 }
        portW := Function.update s.portW i
          (CpuRegs.get { s.regs with address := s.dpAddress d, pc := s.regs.pc + 1 } src) },
        t + 3) := by
  refine (cycles_next (body_get hd rfl)).trans ?_
  refine (cycles_next (body_get (get_port i ha) rfl)).trans ?_
  exact cycles_last (body_set (set_port i ha) rfl)

/-- INC dp. -/
theorem cycles_opIncDp (hd : s.get (h t) s.regs.pc = some d) (ha : InRam (s.dpAddress d)) :
    cycles h t (opRmwDp (Stmt.writeOp opInc) true) s =
      some ({ s with
        regs := opInc .data { s.regs with
          address := s.dpAddress d, pc := s.regs.pc + 1, data := s.ram (s.dpAddress d) }
        ram := Function.update s.ram (s.dpAddress d) (s.ram (s.dpAddress d) + 1) }, t + 3) := by
  refine (cycles_next (body_get hd rfl)).trans ?_
  refine (cycles_next (body_get (get_ram ha) rfl)).trans ?_
  exact cycles_last (body_assign (body_set (set_ram ha) rfl))

/-- MOV dp,#w, to a port. -/
theorem cycles_opMovDpImm (i : Fin 4) (hw : s.get (h t) s.regs.pc = some w)
    (hd : s.get (h (t + 1)) (s.regs.pc + 1) = some d)
    (ha : (s.dpAddress d).toNat = 0xF4 + i.val) :
    cycles h t (opRmwDpImm opMovReadNoflags) s =
      some ({ s with
        regs := { s.regs with
          data2 := w, address := s.dpAddress d, pc := s.regs.pc + 1 + 1, data := w }
        portW := Function.update s.portW i w }, t + 4) := by
  refine (cycles_next (body_get hw rfl)).trans ?_
  refine (cycles_next (body_get hd rfl)).trans ?_
  refine (cycles_next (body_get (get_port i ha) rfl)).trans ?_
  exact cycles_last (body_set (set_port i ha) rfl)

/-- CMP dp,#w. -/
theorem cycles_opCmpDpImm (hw : s.get (h t) s.regs.pc = some w)
    (hd : s.get (h (t + 1)) (s.regs.pc + 1) = some d)
    (hv : s.get (h (t + 2)) (s.dpAddress d) = some v) :
    cycles h t opCmpDpImm s =
      some (s.mapRegs fun r => opCmp .data .data2
        { r with data2 := w, address := s.dpAddress d, pc := r.pc + 1 + 1, data := v }, t + 4) := by
  refine (cycles_next (body_get hw rfl)).trans ?_
  refine (cycles_next (body_get hd rfl)).trans ?_
  exact cycles_last (body_get hv rfl)

/-- MOV (X),A. -/
theorem cycles_opMovXA (ha : InRam (s.dpAddress s.regs.x)) :
    cycles h t (opRmwIndirect (Stmt.writeMov .a) false) s =
      some ({ s with
        regs := { s.regs with address := s.dpAddress s.regs.x }
        ram := Function.update s.ram (s.dpAddress s.regs.x) s.regs.a }, t + 3) := by
  refine (cycles_next rfl).trans ?_
  refine (cycles_next (body_get (get_ram ha) rfl)).trans ?_
  exact cycles_last (body_set (set_ram ha) rfl)

/-- A word of the direct page. -/
def dpWord (d : Byte) (s : Plain) : BitVec 16 :=
  (s.ram (s.dpAddress d)).setWidth 16 + ((s.ram (s.dpAddress d + 1)).setWidth 16 <<< 8)

/-- MOV [dp]+Y,A. -/
theorem cycles_opMovIndirectYA (hd : s.get (h t) s.regs.pc = some d)
    (hlow : InRam (s.dpAddress d)) (hhigh : InRam (s.dpAddress d + 1))
    (ha : InRam (s.dpWord d + s.regs.y.setWidth 16)) :
    cycles h t (opRmwIndirectIndexed (Stmt.writeMov .a) false) s =
      some ({ s with
        regs := { s.regs with
          address2 := s.dpAddress d, address := s.dpWord d + s.regs.y.setWidth 16
          pc := s.regs.pc + 1 }
        ram := Function.update s.ram (s.dpWord d + s.regs.y.setWidth 16) s.regs.a }, t + 6) := by
  refine (cycles_next (body_get hd rfl)).trans ?_
  refine (cycles_next (body_get (get_ram hlow) rfl)).trans ?_
  refine (cycles_next (body_get (get_ram hhigh) rfl)).trans ?_
  refine (cycles_next rfl).trans ?_
  refine (cycles_next (body_get (get_ram ha) rfl)).trans ?_
  exact cycles_last (body_set (set_ram ha) rfl)

/-- An operation on YA and a word of the direct page. -/
theorem cycles_opRead16YaDp (op : CpuRegs → CpuRegs) (hd : s.get (h t) s.regs.pc = some d)
    (hv : s.get (h (t + 1)) (s.dpAddress d) = some v)
    (hw : s.get (h (t + 2)) (s.dpAddress d + 1) = some w) :
    cycles h t (opRead16YaDp op) s =
      some (s.mapRegs fun r => op
        { r with
          address := s.dpAddress d, pc := r.pc + 1
          data16 := v.setWidth 16 + (w.setWidth 16 <<< 8) }, t + 4) := by
  refine (cycles_next (body_get hd rfl)).trans ?_
  refine (cycles_next (body_get hv rfl)).trans ?_
  refine (cycles_next (body_get hw rfl)).trans ?_
  exact cycles_last rfl

/-- MOVW dp,YA, to RAM. -/
theorem cycles_opMovwDpYa (hd : s.get (h t) s.regs.pc = some d) (hlow : InRam (s.dpAddress d))
    (hhigh : InRam (s.dpAddress d + 1)) :
    cycles h t opMovwDpYa s =
      some ({ s with
        regs := { s.regs with address := s.dpAddress d, pc := s.regs.pc + 1 }
        ram := Function.update (Function.update s.ram (s.dpAddress d) s.regs.a)
          (s.dpAddress d + 1) s.regs.y }, t + 4) := by
  refine (cycles_next (body_get hd rfl)).trans ?_
  refine (cycles_next (body_get (get_ram hlow) rfl)).trans ?_
  refine (cycles_next (body_set (set_ram hlow) rfl)).trans ?_
  exact cycles_last (body_set (set_ram hhigh) rfl)

/-- A branch. -/
theorem cycles_condRel (test : CpuRegs → Bool) (hd : s.get (h t) s.regs.pc = some d) :
    cycles h t (condRel [.exitIf test]) s =
      let r := { s.regs with offset := d, pc := s.regs.pc + 1 }
      let target := r.pc + ((d.setWidth 16 ^^^ 0x80) - 0x80)
      if test r then some ({ s with regs := r }, t + 1)
      else some ({ s with regs := { r with address := target, pc := target } }, t + 3) := by
  dsimp only
  by_cases htest : test { s.regs with offset := d, pc := s.regs.pc + 1 } = true
  · rw [if_pos htest]
    exact cycles_exit (body_get hd (body_assign (body_exit htest)))
  · rw [if_neg htest]
    refine (cycles_next (body_get hd (body_assign (body_stay htest rfl)))).trans ?_
    exact (cycles_next rfl).trans (cycles_last rfl)

/-- BRA. -/
theorem cycles_bra (hd : s.get (h t) s.regs.pc = some d) :
    cycles h t (condRel []) s =
      let r := { s.regs with offset := d, pc := s.regs.pc + 1 }
      let target := r.pc + ((d.setWidth 16 ^^^ 0x80) - 0x80)
      some ({ s with regs := { r with address := target, pc := target } }, t + 3) := by
  refine (cycles_next (body_get hd rfl)).trans ?_
  refine (cycles_next rfl).trans ?_
  exact cycles_last rfl

/-- JMP (abs+X), to an address in RAM. -/
theorem cycles_opJmpAbsX (hv : s.get (h t) s.regs.pc = some v)
    (hw : s.get (h (t + 1)) (s.regs.pc + 1) = some w) {a b : BitVec 16}
    (ha : a = v.setWidth 16 + (w.setWidth 16 <<< 8) + s.regs.x.setWidth 16) (hb : b = a + 1)
    (hlow : InRam a) (hhigh : InRam b) :
    cycles h t opJmpAbsX s =
      some (s.mapRegs fun r =>
        { r with
          address := a, offset := s.ram a
          pc := ((s.ram b).setWidth 16 <<< 8) + (s.ram a).setWidth 16 }, t + 5) := by
  subst ha hb
  refine (cycles_next (body_get hv rfl)).trans ?_
  refine (cycles_next (body_get hw rfl)).trans ?_
  refine (cycles_next rfl).trans ?_
  refine (cycles_next (body_get (get_ram hlow) rfl)).trans ?_
  exact cycles_last (body_get (get_ram hhigh) rfl)

end Plain

end OpenSpc
