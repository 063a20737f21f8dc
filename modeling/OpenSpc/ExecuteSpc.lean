import OpenSpc.Opcodes

/-!
# The loop of the CPU core

`Execute_SPC` runs opcodes until the cycles asked for are used up.  It may stop
between any two cycles of an opcode: `_cycle` then holds the number of the last
one done, and the next call goes on behind it.  `_cycle` is written only where
the loop stops and where an opcode ends.
-/

namespace OpenSpc

/-- What stops the core other than its clock: a division by zero in a timer, a
case of the switch left through its end into the next, or `InvalidSPCOpcode`,
which prints `Map_Byte` and `Map_Address` and exits. -/
inductive Halt where
  | trap
  | fallsThrough
  | exit (mapByte mapAddress : BitVec 32)
  deriving DecidableEq, Repr

/-- An access to the bus as a step of the core. -/
def orTrap {α : Type} : Option α → Except Halt α
  | some x => .ok x
  | none => .error .trap

namespace Bus

def cpuRegs (b : Bus) : CpuRegs := b.cpu.cpuRegs

def mapRegs (f : CpuRegs → CpuRegs) (b : Bus) : Bus :=
  { b with cpu := b.cpu.withRegs (f b.cpu.cpuRegs) }

/-- `_cycle = c`. -/
def setCycle (c : Nat) (b : Bus) : Bus :=
  { b with cpu := { b.cpu with cycle := BitVec.ofNat 8 c } }

/-- `_WorkCycles += n`. -/
def work (n : Nat) (b : Bus) : Bus :=
  { b with cpu := { b.cpu with workCycles := b.cpu.workCycles + BitVec.ofNat 32 n } }

/-- `_WorkCycles >= 0`. -/
def isDue (b : Bus) : Bool := !b.cpu.workCycles.msb

/-- The statements of a cycle, and whether one of them left the opcode. -/
def execBody : List Stmt → Bus → Except Halt (Bool × Bus)
  | [], b => .ok (false, b)
  | .getByte address assign :: body, b => do
      let (v, b) ← orTrap (b.getByteSpc (address b.cpuRegs))
      execBody body (b.mapRegs (assign v))
  | .setByte address data :: body, b => do
      let b ← orTrap (b.setByteSpc (address b.cpuRegs) (data b.cpuRegs))
      execBody body b
  | .assign f :: body, b => execBody body (b.mapRegs f)
  | .exitIf test :: body, b => if test b.cpuRegs then .ok (true, b) else execBody body b

/-- The cycles of an opcode from number `c` on. -/
def runCycles : List Cycle → Nat → Bus → Except Halt Bus
  | [], _, _ => .error .fallsThrough
  | y :: ys, c, b =>
      if b.cpu.cycle.toNat ≤ c - 1 then do
        let (exited, b) ← execBody y.body b
        if exited then .ok ((b.work 1).setCycle 0)
        else
          let b := b.work y.work
          match ys with
          | [] => .ok (b.setCycle 0)
          | _ :: _ => if b.isDue then .ok (b.setCycle c) else runCycles ys (c + 1) b
      else runCycles ys (c + 1) b

/-- The fetch, up to `END_FETCH_CYCLE`. -/
def fetch (b : Bus) : Except Halt Bus := do
  let (v, b) ← orTrap (b.getByteSpc b.cpu.pc)
  .ok ({ b with cpu := { b.cpu with opcode := v, pc := b.cpu.pc + 1 } }.work 1)

/-- `InvalidSPCOpcode`, which does not return. -/
def invalidSpcOpcode {α : Type} (b : Bus) : Except Halt α :=
  .error (.exit (b.cpu.opcode.setWidth 32) ((b.cpu.pc - 1).setWidth 32))

/-- The `switch`. -/
def switch (b : Bus) : Except Halt Bus :=
  match switchSpc b.cpu.opcode with
  | some ys => runCycles ys 2 b
  | none => b.invalidSpcOpcode

/-- One pass of the loop. -/
def pass (b : Bus) : Except Halt Bus :=
  if b.cpu.cycle.toNat ≤ 0 then do
    let b ← b.fetch
    if b.isDue then .ok (b.setCycle 1) else b.switch
  else b.switch

/-- At most `n` passes of the loop. -/
def executeLoop : Nat → Bus → Except Halt Bus
  | 0, b => .ok b
  | n + 1, b => if b.isDue then .ok b else b.pass >>= executeLoop n

/-- `load_cycles_spc`. -/
def loadCycles (b : Bus) : Bus := { b with cpu := b.cpu.loadCycles }

/-- `save_cycles_spc`. -/
def saveCycles (b : Bus) : Bus := { b with cpu := b.cpu.saveCycles }

/-- `Execute_SPC`.  A pass counts at least one cycle, so there are no more
passes than cycles to go. -/
def executeSpc (b : Bus) : Except Halt Bus := do
  let b := b.loadCycles
  let b ← b.executeLoop (-b.cpu.workCycles).toNat
  .ok b.saveCycles

/-- `SPC_START`. -/
def spcStart (cycles : BitVec 32) (b : Bus) : Except Halt Bus :=
  let b := { b with cpu := { b.cpu with cycles := b.cpu.cycles + cycles } }
  if b.cpu.cycles ≤ b.cpu.totalCycles then
    if b.cpu.cycles.msb then .ok b
    else if !b.cpu.totalCycles.msb then .ok b
    else { b with cpu := b.cpu.wrapSpcCyclecounter }.executeSpc
  else b.executeSpc

end Bus

end OpenSpc
