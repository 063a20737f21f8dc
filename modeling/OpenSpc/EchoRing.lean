import OpenSpc.DspInvariant
import OpenSpc.RingPointer

/-!
# The echo buffer

The echo pointer is a `RingPointer` with slots of four bytes in a ring of
`echoSize` bytes; the slot is addressed modulo 64K from page ESA on.  While
ESA and EDL are held, an update stores its saturated echo pair in the slot
from which the same number of updates later the FIR buffers are fed, so the
echo memory is a delay line (`echo_delay_line`).
-/

namespace OpenSpc

open ByteMask (bit)
open Narrow (Fits)

/-! ## Splitting and joining a stereo pair -/

/-- The four bytes of a slot that holds the pair `l`, `r`. -/
def slotByte (l r : Int) : Fin 4 → Byte
  | 0 => (BitVec.ofInt 16 l).setWidth 8
  | 1 => (BitVec.ofInt 16 l >>> 8).setWidth 8
  | 2 => (BitVec.ofInt 16 r).setWidth 8
  | 3 => (BitVec.ofInt 16 r >>> 8).setWidth 8

/-- The two bytes of a word, joined again. -/
theorem word_join (x : BitVec 16) : ((x >>> 8).setWidth 8 ++ x.setWidth 8 : BitVec 16) = x := by
  apply BitVec.eq_of_toNat_eq
  have hlt := x.isLt
  rw [BitVec.toNat_append, BitVec.toNat_setWidth, BitVec.toNat_setWidth, BitVec.toNat_ushiftRight,
    ← Nat.shiftLeft_add_eq_or_of_lt (Nat.mod_lt _ (by decide)), Nat.shiftLeft_eq,
    Nat.shiftRight_eq_div_pow]
  omega

/-- A 16-bit value survives being stored as a word. -/
theorem word_toInt {x : Int} (h : Fits 15 x) : (BitVec.ofInt 16 x).toInt = x := by
  obtain ⟨hlo, hhi⟩ := h
  rw [BitVec.toInt_ofInt]
  exact Int.bmod_eq_of_le (by simpa using hlo) (by norm_num at hhi ⊢; omega)

/-! ## One slot in memory -/

/-- Address of byte `i` of a ring on page `esa`. -/
def ringAddr (esa : Byte) (i : Nat) : BitVec 16 := BitVec.ofNat 16 (esa.toNat * 2 ^ 8 + i)

/-- Bytes of the ring the echo unit uses when EDL is `edl`. -/
def ringBytes (edl : Byte) : Nat := RingPointer.length 4 (edl.toNat % 2 ^ 4 * 2 ^ 11)

/-- The addresses of that ring. -/
def EchoRegion (esa edl : Byte) (a : BitVec 16) : Prop := ∃ i < ringBytes edl, a = ringAddr esa i

/-- No ring has more than 30720 bytes. -/
theorem ringBytes_le (edl : Byte) : ringBytes edl ≤ 30720 := by
  unfold ringBytes RingPointer.length
  omega

/-- A ring has a whole number of slots. -/
theorem echoSize_dvd (edl : Byte) : 4 ∣ edl.toNat % 2 ^ 4 * 2 ^ 11 := by
  omega

section Slot

variable {host : Nat → Byte} {s : Dsp} {l r : Int}

/-- Byte `k` of the current slot: an index inside RAM. -/
theorem slot_index (h : 4 ∣ s.echoPtr) (k : Fin 4) :
    echoBase s + k < 0x10000 ∧
      BitVec.ofNat 16 (echoBase s + k) = ringAddr (s.dspRegs 0x6D) (s.echoPtr + k) := by
  unfold echoBase ringAddr
  constructor
  · omega
  · apply BitVec.eq_of_toNat_eq
    rw [BitVec.toNat_ofNat, BitVec.toNat_ofNat]
    omega

/-- A store inside RAM. -/
theorem ramSet_of_lt {ram : Ram} {i : Nat} {b : Byte} (h : i < 0x10000) :
    ramSet ram i b = Function.update ram (BitVec.ofNat 16 i) b := if_pos h

/-- A slot does not wrap, so its four bytes are stored one behind the other. -/
theorem echoWrite_spcRam (h : 4 ∣ s.echoPtr) :
    (echoWrite s l r).spcRam =
      Function.update (Function.update (Function.update (Function.update s.spcRam
        (BitVec.ofNat 16 (echoBase s)) (slotByte l r 0))
        (BitVec.ofNat 16 (echoBase s + 1)) (slotByte l r 1))
        (BitVec.ofNat 16 (echoBase s + 2)) (slotByte l r 2))
        (BitVec.ofNat 16 (echoBase s + 3)) (slotByte l r 3) := by
  have hlast := (slot_index h 3).1
  change echoBase s + 3 < 0x10000 at hlast
  unfold echoWrite
  dsimp only
  rw [ramSet_of_lt hlast, ramSet_of_lt (by omega), ramSet_of_lt (by omega),
    ramSet_of_lt (by omega)]
  rfl

/-- The slot holds the pair that was written. -/
theorem echoWrite_at (h : 4 ∣ s.echoPtr) (k : Fin 4) :
    (echoWrite s l r).spcRam (ringAddr (s.dspRegs 0x6D) (s.echoPtr + k)) = slotByte l r k := by
  have hlast := (slot_index h 3).1
  change echoBase s + 3 < 0x10000 at hlast
  have hne {i j : Nat} (hi : i < 4) (hj : j < 4) (hij : i ≠ j) :
      BitVec.ofNat 16 (echoBase s + i) ≠ BitVec.ofNat 16 (echoBase s + j) := by
    intro heq
    have hnat := congrArg BitVec.toNat heq
    rw [BitVec.toNat_ofNat, BitVec.toNat_ofNat] at hnat
    omega
  rw [← (slot_index h k).2, echoWrite_spcRam h]
  match k with
  | 0 =>
      rw [Function.update_of_ne (hne (by decide) (by decide) (by decide)),
        Function.update_of_ne (hne (by decide) (by decide) (by decide)),
        Function.update_of_ne (hne (by decide) (by decide) (by decide))]
      exact Function.update_self _ _ _
  | 1 =>
      rw [Function.update_of_ne (hne (by decide) (by decide) (by decide)),
        Function.update_of_ne (hne (by decide) (by decide) (by decide))]
      exact Function.update_self _ _ _
  | 2 =>
      rw [Function.update_of_ne (hne (by decide) (by decide) (by decide))]
      exact Function.update_self _ _ _
  | 3 => exact Function.update_self _ _ _

/-- Nothing outside the slot is written. -/
theorem echoWrite_off (h : 4 ∣ s.echoPtr) {a : BitVec 16}
    (ha : ∀ k : Fin 4, a ≠ ringAddr (s.dspRegs 0x6D) (s.echoPtr + k)) :
    (echoWrite s l r).spcRam a = s.spcRam a := by
  have hne (k : Fin 4) : a ≠ BitVec.ofNat 16 (echoBase s + k) := by
    rw [(slot_index h k).2]
    exact ha k
  have h0 : a ≠ BitVec.ofNat 16 (echoBase s) := hne 0
  have h1 : a ≠ BitVec.ofNat 16 (echoBase s + 1) := hne 1
  have h2 : a ≠ BitVec.ofNat 16 (echoBase s + 2) := hne 2
  have h3 : a ≠ BitVec.ofNat 16 (echoBase s + 3) := hne 3
  rw [echoWrite_spcRam h, Function.update_of_ne h3, Function.update_of_ne h2,
    Function.update_of_ne h1, Function.update_of_ne h0]

/-- Reading a slot that holds a pair of 16-bit values gives them back. -/
theorem slot_read (host : Nat → Byte) (h : 4 ∣ s.echoPtr) (hl : Fits 15 l) (hr : Fits 15 r)
    (hslot : ∀ k : Fin 4, s.spcRam (ringAddr (s.dspRegs 0x6D) (s.echoPtr + k)) = slotByte l r k) :
    (ramWord host s.spcRam (echoBase s)).toInt = l ∧
      (ramWord host s.spcRam (echoBase s + 2)).toInt = r := by
  have hbyte (k : Fin 4) : ramAt host s.spcRam (echoBase s + k) = slotByte l r k := by
    obtain ⟨hlt, haddr⟩ := slot_index h k
    unfold ramAt
    rw [if_pos hlt, haddr, hslot k]
  have hword : ramWord host s.spcRam (echoBase s) = slotByte l r 1 ++ slotByte l r 0 :=
    congrArg₂ (· ++ ·) (hbyte 1) (hbyte 0)
  have hword' : ramWord host s.spcRam (echoBase s + 2) = slotByte l r 3 ++ slotByte l r 2 :=
    congrArg₂ (· ++ ·) (hbyte 3) (hbyte 2)
  rw [hword, hword']
  unfold slotByte
  dsimp only
  rw [word_join, word_join]
  exact ⟨word_toInt hl, word_toInt hr⟩

end Slot

/-! ## The echo unit in an update -/

section Update

variable {host : Nat → Byte} {s : Dsp}

/-- The saturated pair `echol`, `echor` of an update. -/
def echoOut (host : Nat → Byte) (s : Dsp) : Int × Int :=
  let p := voiceLoop host (prelude s, freshLocals) 8
  let t := echoRead host p.1
  (echoFeedback t p.2.echol (firAcc t t.firLbuf 7), echoFeedback t p.2.echor (firAcc t t.firRbuf 7))

/-- The pair an update puts into the FIR buffers. -/
def echoIn (host : Nat → Byte) (s : Dsp) : Int × Int :=
  ((dspNext host s).firLbuf (prelude s).firPtr, (dspNext host s).firRbuf (prelude s).firPtr)

/-- The feedback is saturated. -/
theorem echoFeedback_fits (t : Dsp) (acc fir : Int) : Fits 15 (echoFeedback t acc fir) :=
  Narrow.saturate_fits 15 _

/-- What an update stores is saturated. -/
theorem echoOut_fits : Fits 15 (echoOut host s).1 ∧ Fits 15 (echoOut host s).2 := by
  unfold echoOut
  dsimp only
  exact ⟨echoFeedback_fits _ _ _, echoFeedback_fits _ _ _⟩

/-- The state in which the echo unit reads and writes. -/
theorem echoUnit_entry (host : Nat → Byte) (s : Dsp) :
    let t := (voiceLoop host (prelude s, freshLocals) 8).1
    t.firPtr = (prelude s).firPtr ∧ t.echoPtr = (prelude s).echoPtr ∧ t.spcRam = s.spcRam ∧
      t.dspRegs 0x6D = s.dspRegs 0x6D ∧ t.dspRegs 0x6C = (prelude s).dspRegs 0x6C := by
  have hframe := voiceLoop_frame host (prelude s, freshLocals) 8
  refine ⟨hframe.firPtr, hframe.echoPtr, hframe.spcRam.trans (prelude_spcRam s), ?_, ?_⟩
  · rw [loop_reg host s 0x6D (by decide) (by decide) (by decide),
      prelude_reg s (by decide) (by decide) (by decide) (by decide)]
  · exact loop_reg host s 0x6C (by decide) (by decide) (by decide)

/-- What the FIR buffers are fed. -/
theorem echoIn_eq : echoIn host s =
    ((ramWord host s.spcRam (echoBase (prelude s))).toInt,
      (ramWord host s.spcRam (echoBase (prelude s) + 2)).toInt) := by
  obtain ⟨hptr, -, hram, -, -⟩ := echoUnit_entry host s
  have hbase := loop_echoBase host s
  unfold echoIn dspNext dspUpdate echoUnit
  generalize voiceLoop host (prelude s, freshLocals) 8 = p at *
  dsimp only
  split <;> simp only [echoAdvance, echoWrite, echoRead, hptr, hram, hbase, Function.update_self]

/-- What an update does to RAM. -/
theorem dspNext_spcRam : (dspNext host s).spcRam =
    if bit ((prelude s).dspRegs 0x6C) 5 then s.spcRam
    else (echoWrite (prelude s) (echoOut host s).1 (echoOut host s).2).spcRam := by
  obtain ⟨-, -, hram, -, hflg⟩ := echoUnit_entry host s
  have hbase := loop_echoBase host s
  have hpre := prelude_spcRam s
  unfold echoOut dspNext dspUpdate echoUnit
  generalize voiceLoop host (prelude s, freshLocals) 8 = p at *
  have hflg' : (echoRead host p.1).dspRegs 0x6C = (prelude s).dspRegs 0x6C := hflg
  have hbase' : echoBase { echoRead host p.1 with firPtr := (echoRead host p.1).firPtr + 7 } =
      echoBase (prelude s) := hbase
  dsimp only
  rw [hflg']
  cases bit ((prelude s).dspRegs 0x6C) 5
  · simp only [Bool.not_false, if_true, Bool.false_eq_true, if_false, echoAdvance, echoWrite,
      hpre]
    rw [hbase']
    simp only [echoRead, hram, echoFeedback]
  · simp only [Bool.not_true, Bool.false_eq_true, if_false, if_true, echoAdvance, echoRead, hram]

end Update

/-! ## Runs with a ring of constant size -/

/-- Bus traffic that leaves ESA at `esa` and EDL at `edl`. -/
def RingWrite (esa edl : Byte) (s s' : Dsp) : Prop :=
  BusWrite s s' ∧ s'.dspRegs 0x6D = esa ∧ s'.dspRegs 0x7D = edl

/-- The echo pointer lies in the ring of this EDL. -/
def EchoPtrValid (edl : Byte) (p : Nat) : Prop :=
  p < edl.toNat % 2 ^ 4 * 2 ^ 11 ∨ edl.toNat % 2 ^ 4 * 2 ^ 11 = 0 ∧ p = 0

/-- A run without reset in which ESA and EDL are held, from a position of the
echo pointer that fits them. -/
structure IsRingRun (host : Nat → Byte) (esa edl : Byte) (s : Nat → Dsp) : Prop where
  run : InterferedRun.IsRun (dspNext host) (RingWrite esa edl) s
  start : (s 0).dspRegs 0x6D = esa ∧ (s 0).dspRegs 0x7D = edl
  noReset : ∀ t, bit ((s t).dspRegs 0x6C) 7 = false
  aligned : 4 ∣ (s 0).echoPtr
  valid : EchoPtrValid edl (s 0).echoPtr

/-- Updates from one visit of a slot to the next. -/
def echoDelay (edl : Byte) : Nat := RingPointer.slots 4 (edl.toNat % 2 ^ 4 * 2 ^ 11)

/-- Without a reset the prelude leaves the echo slot and FLG. -/
theorem prelude_echo {s : Dsp} (h : bit (s.dspRegs 0x6C) 7 = false) :
    (prelude s).echoPtr = s.echoPtr ∧ echoBase (prelude s) = echoBase s ∧
      (prelude s).dspRegs 0x6C = s.dspRegs 0x6C := by
  have hptr : (prelude s).echoPtr = s.echoPtr := by
    rw [prelude_echoPtr, h]
    rfl
  refine ⟨hptr, ?_, ?_⟩
  · unfold echoBase
    rw [hptr, prelude_reg s (by decide) (by decide) (by decide) (by decide)]
  · rw [prelude_flg, h]
    rfl

namespace IsRingRun

variable {host : Nat → Byte} {esa edl : Byte} {s : Nat → Dsp}

/-- The registers of the ring stay. -/
theorem regs (h : IsRingRun host esa edl s) (t : Nat) :
    (s t).dspRegs 0x6D = esa ∧ (s t).dspRegs 0x7D = edl := by
  cases t with
  | zero => exact h.start
  | succ t => exact (h.run t).2

/-- **The echo pointer is a ring pointer.** -/
theorem next (h : IsRingRun host esa edl s) (t : Nat) :
    (s (t + 1)).echoPtr = RingPointer.next 4 (edl.toNat % 2 ^ 4 * 2 ^ 11) (s t).echoPtr := by
  rw [(h.run t).1.echoPtr, dspNext_echoPtr, (prelude_echo (h.noReset t)).1]
  unfold echoSize
  rw [(h.regs t).2]
  rfl

/-- The echo pointer starts inside the ring. -/
theorem valid_lt (h : IsRingRun host esa edl s) : (s 0).echoPtr < ringBytes edl := by
  have hvalid := h.valid
  unfold EchoPtrValid at hvalid
  unfold ringBytes RingPointer.length
  omega

/-- The echo pointer stays inside the ring, at a slot. -/
theorem stays (h : IsRingRun host esa edl s) (t : Nat) :
    4 ∣ (s t).echoPtr ∧ (s t).echoPtr < ringBytes edl :=
  RingPointer.stays (p := fun t => (s t).echoPtr) (by decide) (echoSize_dvd edl) h.next h.aligned
    h.valid_lt t

/-- The echo pointer comes round after `echoDelay` updates, and not before. -/
theorem round (h : IsRingRun host esa edl s) (t : Nat) :
    (s (t + echoDelay edl)).echoPtr = (s t).echoPtr ∧
      ∀ k, 0 < k → k < echoDelay edl → (s (t + k)).echoPtr ≠ (s t).echoPtr :=
  RingPointer.round (p := fun t => (s t).echoPtr) (by decide) (echoSize_dvd edl) h.next h.aligned
    h.valid_lt t

/-- Byte `k` of the slot of update `t`. -/
theorem slot (h : IsRingRun host esa edl s) (t : Nat) (k : Fin 4) :
    echoBase (s t) + k = (esa.toNat * 2 ^ 8 + ((s t).echoPtr + k)) % 2 ^ 16 := by
  have haligned := (h.stays t).1
  unfold echoBase
  rw [(h.regs t).1]
  omega

/-- Different positions of the pointer share no byte. -/
theorem slots_disjoint (h : IsRingRun host esa edl s) {t u : Nat}
    (hne : (s t).echoPtr ≠ (s u).echoPtr) (a b : Fin 4) :
    echoBase (s t) + a ≠ echoBase (s u) + b := by
  obtain ⟨ht, htlt⟩ := h.stays t
  obtain ⟨hu, hult⟩ := h.stays u
  rw [h.slot, h.slot]
  exact RingPointer.slots_disjoint (echoSize_dvd edl) (by decide)
    (le_trans (ringBytes_le edl) (by decide)) ht hu htlt hult a.isLt b.isLt hne

/-- The slot of an update lies in the echo region. -/
theorem slot_region (h : IsRingRun host esa edl s) (t : Nat) (k : Fin 4) :
    EchoRegion esa edl (BitVec.ofNat 16 (echoBase (s t) + k)) := by
  obtain ⟨hdvd, hlt⟩ := h.stays t
  have hlen : 4 ∣ ringBytes edl := by
    unfold ringBytes RingPointer.length
    omega
  refine ⟨(s t).echoPtr + k, by omega, ?_⟩
  rw [(slot_index hdvd k).2, (h.regs t).1]

end IsRingRun

/-- The bytes of a slot. -/
theorem mem_slotIndices {i j : Nat} : i ∈ slotIndices j ↔ ∃ k : Fin 4, i = j + k := by
  unfold slotIndices
  simp [Fin.exists_fin_succ]

/-- **The region the echo unit uses.**  Over a run from echo pointer zero, the
slots of all updates together are the ring of `ringBytes` bytes on page ESA. -/
theorem IsRingRun.slots_eq_region {host : Nat → Byte} {esa edl : Byte} {s : Nat → Dsp}
    (h : IsRingRun host esa edl s) (h0 : (s 0).echoPtr = 0) (a : BitVec 16) :
    (∃ t, ∃ i ∈ slotIndices (echoBase (s t)), a = BitVec.ofNat 16 i) ↔ EchoRegion esa edl a := by
  constructor
  · rintro ⟨t, i, hi, rfl⟩
    obtain ⟨k, rfl⟩ := mem_slotIndices.mp hi
    exact h.slot_region t k
  · rintro ⟨i, hi, rfl⟩
    have hlen := RingPointer.step_mul_slots (by decide : 0 < 4) (echoSize_dvd edl)
    have hj : i / 4 < RingPointer.slots 4 (edl.toNat % 2 ^ 4 * 2 ^ 11) := by
      unfold ringBytes at hi
      omega
    have hptr : (s (i / 4)).echoPtr = 4 * (i / 4) :=
      RingPointer.visits (p := fun t => (s t).echoPtr) (by decide) (echoSize_dvd edl) h.next h0 hj
    refine ⟨i / 4, echoBase (s (i / 4)) + i % 4,
      mem_slotIndices.mpr ⟨⟨i % 4, Nat.mod_lt _ (by decide)⟩, rfl⟩, ?_⟩
    have hindex := (slot_index (h.stays (i / 4)).1 ⟨i % 4, Nat.mod_lt _ (by decide)⟩).2
    rw [hindex, (h.regs _).1, hptr]
    change ringAddr esa i = ringAddr esa (4 * (i / 4) + i % 4)
    rw [Nat.div_add_mod]

/-! ## The delay line -/

/-- A run in which, besides, nothing but the echo unit writes the echo region. -/
structure IsEchoRun (host : Nat → Byte) (esa edl : Byte) (s : Nat → Dsp) : Prop where
  run : InterferedRun.IsRun (dspNext host) (RingWrite esa edl) s
  start : (s 0).dspRegs 0x6D = esa ∧ (s 0).dspRegs 0x7D = edl
  noReset : ∀ t, bit ((s t).dspRegs 0x6C) 7 = false
  reachable : Reachable (s 0)
  valid : EchoPtrValid edl (s 0).echoPtr
  quiet : ∀ t a, EchoRegion esa edl a → (s (t + 1)).spcRam a = (dspNext host (s t)).spcRam a

namespace IsEchoRun

variable {host : Nat → Byte} {esa edl : Byte} {s : Nat → Dsp}

/-- A run of the echo is one of the ring. -/
theorem ring (h : IsEchoRun host esa edl s) : IsRingRun host esa edl s where
  run := h.run
  start := h.start
  noReset := h.noReset
  aligned := h.reachable.inv.echoPtr
  valid := h.valid

/-- What update `t` leaves in RAM. -/
theorem ram (h : IsEchoRun host esa edl s) (t : Nat) :
    (dspNext host (s t)).spcRam =
      if bit ((s t).dspRegs 0x6C) 5 then (s t).spcRam
      else (echoWrite (s t) (echoOut host (s t)).1 (echoOut host (s t)).2).spcRam := by
  obtain ⟨-, hbase, hflg⟩ := prelude_echo (h.noReset t)
  rw [dspNext_spcRam, hflg]
  unfold echoWrite
  rw [hbase, prelude_spcRam]

/-- An update at another position leaves a slot alone. -/
theorem ram_off (h : IsEchoRun host esa edl s) {t u : Nat}
    (hne : (s t).echoPtr ≠ (s u).echoPtr) (k : Fin 4) :
    (dspNext host (s t)).spcRam (BitVec.ofNat 16 (echoBase (s u) + k)) =
      (s t).spcRam (BitVec.ofNat 16 (echoBase (s u) + k)) := by
  rw [h.ram]
  split
  · rfl
  · refine echoWrite_off (h.ring.stays t).1 fun j heq => ?_
    rw [← (slot_index (h.ring.stays t).1 j).2] at heq
    have hnat := congrArg BitVec.toNat heq
    have hk := (slot_index (h.ring.stays u).1 k).1
    have hj := (slot_index (h.ring.stays t).1 j).1
    rw [BitVec.toNat_ofNat, BitVec.toNat_ofNat, Nat.mod_eq_of_lt hk, Nat.mod_eq_of_lt hj] at hnat
    exact h.ring.slots_disjoint hne j k hnat.symm

/-- A slot that was written keeps its bytes until the pointer is back. -/
theorem slot_lasts (h : IsEchoRun host esa edl s) {n : Nat}
    (hwrite : bit ((s n).dspRegs 0x6C) 5 = false) :
    ∀ d, d < echoDelay edl → ∀ k : Fin 4,
      (dspNext host (s (n + d))).spcRam (BitVec.ofNat 16 (echoBase (s n) + k)) =
        slotByte (echoOut host (s n)).1 (echoOut host (s n)).2 k := by
  intro d hd
  have hfirst (k : Fin 4) : (dspNext host (s n)).spcRam (BitVec.ofNat 16 (echoBase (s n) + k)) =
      slotByte (echoOut host (s n)).1 (echoOut host (s n)).2 k := by
    have haligned := (h.ring.stays n).1
    rw [h.ram, hwrite, if_neg Bool.false_ne_true, (slot_index haligned k).2]
    exact echoWrite_at haligned k
  induction d with
  | zero =>
      intro k
      rw [Nat.add_zero]
      exact hfirst k
  | succ d ih =>
      intro k
      have hne := (h.ring.round n).2 (d + 1) (by omega) hd
      have hslot := h.ring.slot_region n k
      rw [h.ram_off hne k, ← Nat.add_assoc, h.quiet (n + d) _ hslot]
      exact ih (by omega) k

/-- Between two visits of a slot no update writes it. -/
theorem not_written (h : IsEchoRun host esa edl s) {n m : Nat} (hnm : n < m)
    (hm : m < n + echoDelay edl) {i : Nat} (hi : i ∈ slotIndices (echoBase (s n))) :
    .write i ∉ dspLog host (s m) := by
  intro hlog
  unfold dspLog at hlog
  rw [mem_dspUpdate_log, (prelude_echo (h.noReset m)).2.1] at hlog
  rcases hlog with ⟨v, he⟩ | he | ⟨-, he⟩
  · unfold cellPass at he
    rw [VoiceCell.mem_pass_log_key _ _ _ _ (by simp) (by simp), VoiceCell.mem_keyEvents] at he
    simp at he
  · simp at he
  · obtain ⟨j, hj, heq⟩ := List.mem_map.mp he
    cases heq
    obtain ⟨a, ha⟩ := mem_slotIndices.mp hi
    obtain ⟨b, hb⟩ := mem_slotIndices.mp hj
    have hne := (h.ring.round n).2 (m - n) (by omega) (by omega)
    rw [Nat.add_sub_cancel' hnm.le] at hne
    exact h.ring.slots_disjoint hne b a (hb.symm.trans ha)

end IsEchoRun

/-- **Echo memory is a delay line.**  The pair an update stores is the pair the
FIR buffers are fed one round of the ring later, and no update in between
writes a byte of its slot. -/
theorem echo_delay_line {host : Nat → Byte} {esa edl : Byte} {s : Nat → Dsp}
    (h : IsEchoRun host esa edl s) (n : Nat) (hwrite : bit ((s n).dspRegs 0x6C) 5 = false) :
    echoIn host (s (n + echoDelay edl)) = echoOut host (s n) ∧
      ∀ m, n < m → m < n + echoDelay edl → ∀ i ∈ slotIndices (echoBase (s n)),
        .write i ∉ dspLog host (s m) := by
  refine ⟨?_, fun m h1 h2 i hi => h.not_written h1 h2 hi⟩
  have hpos : 0 < echoDelay edl := RingPointer.slots_pos
  obtain ⟨hptr, -⟩ := h.ring.round n
  obtain ⟨-, hbase, -⟩ := prelude_echo (h.noReset (n + echoDelay edl))
  have hback : echoBase (s (n + echoDelay edl)) = echoBase (s n) := by
    unfold echoBase
    rw [hptr, (h.ring.regs _).1, (h.ring.regs _).1]
  have hslot (k : Fin 4) : (s (n + echoDelay edl)).spcRam
      (ringAddr ((s (n + echoDelay edl)).dspRegs 0x6D) ((s (n + echoDelay edl)).echoPtr + k)) =
        slotByte (echoOut host (s n)).1 (echoOut host (s n)).2 k := by
    have hlast : n + echoDelay edl = n + (echoDelay edl - 1) + 1 := by omega
    have hregion := h.ring.slot_region n k
    rw [← (slot_index (h.ring.stays _).1 k).2, hback, hlast, h.quiet _ _ hregion]
    exact h.slot_lasts hwrite _ (by omega) k
  obtain ⟨hl, hr⟩ := slot_read host (h.ring.stays _).1 echoOut_fits.1 echoOut_fits.2 hslot
  rw [echoIn_eq, hbase, hl, hr]

/-- The traffic of this run leaves the ring alone. -/
theorem echoNote_ringWrite (t : Nat) (s : Dsp) : RingWrite 0xFF 1 s (echoNote t s) :=
  ⟨rfl, rfl, rfl⟩

/-- The traffic of this run leaves RAM alone once it has begun. -/
theorem echoNote_spcRam (t : Nat) (s : Dsp) : (echoNote (t + 1) s).spcRam = s.spcRam := by
  change (if t + 1 = 0 then fun _ => 1 else s.spcRam) = s.spcRam
  rw [if_neg (Nat.succ_ne_zero t)]

/-- Its ring belongs to the echo unit. -/
theorem echoNoteRun_isEchoRun (host : Nat → Byte) : IsEchoRun host 0xFF 1 (echoNoteRun host) where
  run := drivenRun_isRun echoNote_ringWrite
  start := ⟨rfl, rfl⟩
  noReset := by
    intro t
    rw [echoNoteRun_flg]
    decide
  reachable := echoNoteRun_reachable host 0
  valid := by
    have hptr : (echoNoteRun host 0).echoPtr = 0 := rfl
    rw [hptr]
    exact Or.inl (by decide)
  quiet := by
    intro t a _
    change (echoNote (t + 1) (dspNext host (echoNoteRun host t))).spcRam a = _
    rw [echoNote_spcRam]

/-- What update 8 stores is read 512 updates later. -/
theorem echoNoteRun_delay_line :
    echoOut (fun _ => 0) (echoNoteRun (fun _ => 0) 8) = (253, 253) ∧
      echoIn (fun _ => 0) (echoNoteRun (fun _ => 0) (8 + echoDelay 1)) =
        echoOut (fun _ => 0) (echoNoteRun (fun _ => 0) 8) := by
  refine ⟨by decide +kernel, (echo_delay_line (echoNoteRun_isEchoRun _) 8 ?_).1⟩
  rw [echoNoteRun_flg]
  decide

end OpenSpc
