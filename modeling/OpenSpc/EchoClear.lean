import OpenSpc.EchoRing
import OpenSpc.SpcContext

/-!
# Clearing the echo region on load

`Load` clears one block of `EDL * 2048` bytes from page ESA on, cut off at the
end of RAM.  The echo unit uses a ring whose length takes only the low four
bits of EDL, is four bytes at least, and wraps.  `load_clears_ring_iff` says
for which images the difference does not show.
-/

namespace OpenSpc

open ByteMask (bit)

/-- The image is taken as an .spc file. -/
def isSpc (buf : Nat → Byte) (size : Nat) : Bool :=
  !(decide (size < 65920) || !identMatches spcIdent buf)

/-- The RAM contents an accepted image holds. -/
def savedRam (buf : Nat → Byte) (size : Nat) : Ram :=
  imageRam buf (if isSpc buf size then spcRamOffset else zstRamOffset)

/-- The DSP register `i` an accepted image holds. -/
def savedReg (buf : Nat → Byte) (size i : Nat) : Byte :=
  buf ((if isSpc buf size then 65792 else 266623) + i)

/-- The addresses `Load` clears. -/
def ClearedRegion (esa edl : Byte) (a : BitVec 16) : Prop :=
  esa.toNat * 2 ^ 8 ≤ a.toNat ∧
    a.toNat < esa.toNat * 2 ^ 8 + min (edl.toNat * 2 ^ 11) (0x10000 - esa.toNat * 2 ^ 8)

instance (esa edl : Byte) (a : BitVec 16) : Decidable (ClearedRegion esa edl a) :=
  inferInstanceAs (Decidable (_ ∧ _))

/-- What `Load` clears. -/
theorem clearEcho_spcRam (s : Dsp) (a : BitVec 16) :
    s.clearEcho.spcRam a =
      if ClearedRegion (s.dspRegs 0x6D) (s.dspRegs 0x7D) a then 0 else s.spcRam a := by
  have hlen : clearLen s.dspRegs =
      min ((s.dspRegs 0x7D).toNat * 2 ^ 11) (0x10000 - (s.dspRegs 0x6D).toNat * 2 ^ 8) := by
    unfold clearLen clearStart
    dsimp only
    split <;> omega
  unfold Dsp.clearEcho ClearedRegion
  rw [hlen]
  rfl

/-- Both loaders put the saved RAM and the saved registers in place. -/
theorem load_saved {s s' : Machine} {buf : Nat → Byte} {size : Nat}
    (h : s.load buf size true = some s') :
    ∃ t : Machine, t.dsp.spcRam = savedRam buf size ∧
      (∀ i < 128, i ≠ 0x4C → t.dsp.dspRegs i = savedReg buf size i) ∧
      s' = { t with dsp := t.dsp.clearEcho } := by
  have hspc : s.loadSpc buf size =
      if isSpc buf size then some (s.restore
        { pc := imageWord buf 37, a := buf 39, x := buf 40, y := buf 41, psw := buf 42,
          sp := buf 43 } (imageRam buf spcRamOffset) 128 fun i => buf (65792 + i))
      else none := by
    unfold Machine.loadSpc isSpc
    by_cases hsize : size < 65920
    · simp [hsize]
    · cases identMatches spcIdent buf <;> simp [hsize]
  unfold Machine.load at h
  obtain ⟨t, ht, rfl⟩ := Option.map_eq_some_iff.mp h
  refine ⟨t, ?_⟩
  unfold savedRam savedReg
  rw [hspc] at ht
  cases hs : isSpc buf size
  · rw [hs, if_neg Bool.false_ne_true] at ht
    dsimp only at ht
    unfold Machine.loadZst at ht
    by_cases hrej : size < 266879 ∨ (!identMatches zstIdent buf) = true
    · rw [if_pos hrej] at ht
      cases ht
    · rw [if_neg hrej] at ht
      cases ht
      refine ⟨rfl, fun i hi h4 => ?_, rfl⟩
      have h256 : i < 256 := by omega
      simp [Dsp.setReg, Machine.restore, Function.update_of_ne h4, h256]
  · rw [hs, if_pos rfl] at ht
    cases ht
    refine ⟨rfl, fun i hi _ => ?_, rfl⟩
    simp [Machine.restore, hi]

/-- **RAM after a load.** -/
theorem load_spcRam {s s' : Machine} {buf : Nat → Byte} {size : Nat}
    (h : s.load buf size true = some s') :
    s'.dsp.dspRegs 0x6D = savedReg buf size 0x6D ∧ s'.dsp.dspRegs 0x7D = savedReg buf size 0x7D ∧
      ∀ a, s'.dsp.spcRam a =
        if ClearedRegion (savedReg buf size 0x6D) (savedReg buf size 0x7D) a then 0
        else savedRam buf size a := by
  obtain ⟨t, hram, hregs, rfl⟩ := load_saved h
  have hesa := hregs 0x6D (by decide) (by decide)
  have hedl := hregs 0x7D (by decide) (by decide)
  refine ⟨hesa, hedl, fun a => ?_⟩
  rw [clearEcho_spcRam, hesa, hedl, hram]

/-! ## Two regions -/

/-- The ring without the wrap: how an address lies relative to its start. -/
theorem echoRegion_iff {esa edl : Byte} {a : BitVec 16} :
    EchoRegion esa edl a ↔ (a.toNat + 0x10000 - esa.toNat * 2 ^ 8) % 0x10000 < ringBytes edl := by
  have hesa := esa.isLt
  have ha := a.isLt
  have hlen := ringBytes_le edl
  constructor
  · rintro ⟨i, hi, rfl⟩
    unfold ringAddr
    rw [BitVec.toNat_ofNat]
    omega
  · intro hlt
    refine ⟨_, hlt, ?_⟩
    apply BitVec.eq_of_toNat_eq
    unfold ringAddr
    rw [BitVec.toNat_ofNat]
    omega

/-- The two regions are the same exactly if they have the same length: otherwise
the first byte of the ring that is not cleared, or the first one cleared behind
the ring, lies in one of them only. -/
theorem regions_eq_iff (esa edl : Byte) :
    (∀ a, EchoRegion esa edl a ↔ ClearedRegion esa edl a) ↔
      min (edl.toNat * 2 ^ 11) (0x10000 - esa.toNat * 2 ^ 8) = ringBytes edl := by
  have hesa := esa.isLt
  have hlen := ringBytes_le edl
  have hcut := min_le_right (edl.toNat * 2 ^ 11) (0x10000 - esa.toNat * 2 ^ 8)
  simp only [echoRegion_iff]
  unfold ClearedRegion
  generalize min (edl.toNat * 2 ^ 11) (0x10000 - esa.toNat * 2 ^ 8) = n at *
  generalize ringBytes edl = r at *
  have hnat (k : Nat) : (BitVec.ofNat 16 k).toNat = k % 2 ^ 16 := BitVec.toNat_ofNat k 16
  constructor
  · intro hsame
    rcases lt_trichotomy n r with hlt | heq | hgt
    · have h := hsame (BitVec.ofNat 16 (esa.toNat * 2 ^ 8 + n))
      rw [hnat] at h
      omega
    · exact heq
    · have h := hsame (BitVec.ofNat 16 (esa.toNat * 2 ^ 8 + r))
      rw [hnat] at h
      omega
  · intro heq a
    have ha := a.isLt
    omega

/-! ## The echo region after a load -/

/-- RAM is the saved RAM with exactly the echo unit's ring cleared. -/
def RingCleared (buf : Nat → Byte) (size : Nat) (ram : Ram) : Prop :=
  ∀ a, (EchoRegion (savedReg buf size 0x6D) (savedReg buf size 0x7D) a → ram a = 0) ∧
    (¬ EchoRegion (savedReg buf size 0x6D) (savedReg buf size 0x7D) a →
      ram a = savedRam buf size a)

/-- Every byte of the image is zero at the addresses where the cleared block
and the ring differ. -/
def ZeroWhereDifferent (buf : Nat → Byte) (size : Nat) : Prop :=
  ∀ a, (EchoRegion (savedReg buf size 0x6D) (savedReg buf size 0x7D) a ↔
      ClearedRegion (savedReg buf size 0x6D) (savedReg buf size 0x7D) a) ∨
    savedRam buf size a = 0

/-- The ring is clear exactly if nothing is stored where the two regions differ.
-/
theorem ringCleared_iff {s s' : Machine} {buf : Nat → Byte} {size : Nat}
    (h : s.load buf size true = some s') :
    RingCleared buf size s'.dsp.spcRam ↔ ZeroWhereDifferent buf size := by
  obtain ⟨-, -, hram⟩ := load_spcRam h
  refine forall_congr' fun a => ?_
  rw [hram a]
  by_cases hr : EchoRegion (savedReg buf size 0x6D) (savedReg buf size 0x7D) a
  · by_cases hc : ClearedRegion (savedReg buf size 0x6D) (savedReg buf size 0x7D) a <;>
      simp [hr, hc]
  · by_cases hc : ClearedRegion (savedReg buf size 0x6D) (savedReg buf size 0x7D) a
    · simp [hr, hc, eq_comm]
    · simp [hr, hc]

/-- **What a load clears and what the echo unit uses.**  For an accepted image
the ring, and nothing else, is cleared exactly if the image is zero wherever
the cleared block and the ring differ; the ring is what the echo unit reads and
writes in any run from echo pointer zero with the loaded ESA and EDL. -/
theorem load_clears_ring_iff {s s' : Machine} {buf : Nat → Byte} {size : Nat}
    (h : s.load buf size true = some s') :
    (RingCleared buf size s'.dsp.spcRam ↔ ZeroWhereDifferent buf size) ∧
      s'.dsp.dspRegs 0x6D = savedReg buf size 0x6D ∧
      s'.dsp.dspRegs 0x7D = savedReg buf size 0x7D ∧
      ∀ (host : Nat → Byte) (r : Nat → Dsp),
        IsRingRun host (savedReg buf size 0x6D) (savedReg buf size 0x7D) r → (r 0).echoPtr = 0 →
        ∀ a, (∃ t, ∃ i ∈ slotIndices (echoBase (r t)), a = BitVec.ofNat 16 i) ↔
          EchoRegion (savedReg buf size 0x6D) (savedReg buf size 0x7D) a := by
  obtain ⟨hesa, hedl, -⟩ := load_spcRam h
  exact ⟨ringCleared_iff h, hesa, hedl, fun host r hrun h0 a => hrun.slots_eq_region h0 a⟩

/-- An .spc file with ESA and EDL at 1, and every byte of RAM at 1. -/
def fullRingImage (i : Nat) : Byte := if i < 27 then spcIdent.getD i 0 else 1

/-- Its ring, of 2048 bytes, is the block that is cleared. -/
theorem fullRingImage_cleared :
    ∃ s', (newContext zeroDsp).load fullRingImage 65920 true = some s' ∧
      savedRam fullRingImage 65920 0x100 = 1 ∧ s'.dsp.spcRam 0x100 = 0 ∧
      RingCleared fullRingImage 65920 s'.dsp.spcRam := by
  obtain ⟨s', h⟩ : ∃ s', (newContext zeroDsp).load fullRingImage 65920 true = some s' := ⟨_, rfl⟩
  have hspc : isSpc fullRingImage 65920 = true := by decide
  have hesa : savedReg fullRingImage 65920 0x6D = 1 := by
    unfold savedReg
    rw [hspc]
    decide
  have hedl : savedReg fullRingImage 65920 0x7D = 1 := by
    unfold savedReg
    rw [hspc]
    decide
  have hbyte : savedRam fullRingImage 65920 0x100 = 1 := by
    unfold savedRam
    rw [hspc]
    decide
  have hregions := (regions_eq_iff 1 1).mpr (by decide)
  have hcleared : RingCleared fullRingImage 65920 s'.dsp.spcRam := by
    refine (load_clears_ring_iff h).1.mpr fun a => Or.inl ?_
    rw [hesa, hedl]
    exact hregions a
  refine ⟨s', h, hbyte, (hcleared 0x100).1 ?_, hcleared⟩
  rw [hesa, hedl, echoRegion_iff]
  decide

/-- An .spc file with ESA at 1, EDL at 0, and every byte of RAM at 1. -/
def smallRingImage (i : Nat) : Byte :=
  if i < 27 then spcIdent.getD i 0 else if i = 65792 + 0x7D then 0 else 1

/-- The image is accepted. -/
theorem smallRingImage_loads :
    ∃ s', (newContext zeroDsp).load smallRingImage 65920 true = some s' := ⟨_, rfl⟩

/-- **A ring that is not cleared.**  With EDL at 0 nothing is cleared, and the
echo unit uses four bytes. -/
theorem smallRingImage_not_cleared :
    ∃ s', (newContext zeroDsp).load smallRingImage 65920 true = some s' ∧
      ¬ RingCleared smallRingImage 65920 s'.dsp.spcRam := by
  obtain ⟨s', h⟩ := smallRingImage_loads
  refine ⟨s', h, fun hcleared => ?_⟩
  rw [ringCleared_iff h] at hcleared
  have hspc : isSpc smallRingImage 65920 = true := by decide
  have hesa : savedReg smallRingImage 65920 0x6D = 1 := by
    unfold savedReg
    rw [hspc]
    decide
  have hedl : savedReg smallRingImage 65920 0x7D = 0 := by
    unfold savedReg
    rw [hspc]
    decide
  have hbyte := hcleared 256
  rw [hesa, hedl, echoRegion_iff] at hbyte
  rcases hbyte with hiff | hzero
  · have hring : ((256 : BitVec 16).toNat + 0x10000 - (1 : Byte).toNat * 2 ^ 8) % 0x10000 <
        ringBytes 0 := by decide
    exact absurd (hiff.mp hring) (by decide)
  · unfold savedRam at hzero
    rw [hspc] at hzero
    exact absurd hzero (by decide)

end OpenSpc
