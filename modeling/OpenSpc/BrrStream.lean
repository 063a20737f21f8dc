import OpenSpc.DspInvariant
import OpenSpc.RecentRing

/-!
# The sample stream a BRR sample stands for

A sample read block by block, away from the resampler that pulls it: where its
blocks are, what each nybble decodes to, and the sequence of values that makes.
The second half shows that the decode loop, suspended and resumed wherever the
resampler stops it, is always at some position of this stream
(`BrrStream.At.decodeLoop`).
-/

namespace OpenSpc

/-- A sample as a starting voice finds it: memory, the pointers of its
directory entry, and the two values its filters start from. -/
structure BrrStream where
  ram : Ram
  vptr : BitVec 16
  lptr : BitVec 16
  prev1 : Int
  prev2 : Int
  isSample1 : IsSample prev1
  isSample2 : IsSample prev2

namespace BrrStream

/-! ## The reference decoder -/

/-- The header of a block. -/
structure Header where
  range : Nat
  filter : Nat
  loop : Bool
  last : Bool

/-- A header byte taken apart. -/
def header (b : Byte) : Header where
  range := b.toNat / 16
  filter := b.toNat / 4 % 4
  loop := b.toNat / 2 % 2 = 1
  last := b.toNat % 2 = 1

/-- A value of four bits as a signed number. -/
def signed4 (n : Nat) : Int := if n < 8 then n else n - 16

/-- What a nybble contributes: it is scaled by the range of its block, halved;
the ranges above 12 only leave its sign. -/
def delta (range : Nat) (n : Int) : Int :=
  if range ≤ 12 then n * 2 ^ range / 2 else if n < 0 then -2048 else 0

/-- The prediction from the last sample `p` and the one before it `q`. -/
def predict (filter : Nat) (p q : Int) : Int :=
  match filter with
  | 0 => 0
  | 1 => 15 * p / 32
  | 2 => 61 * p / 64 + -15 * q / 32
  | _ => 115 * p / 128 + -13 * q / 32

variable (S : BrrStream)

/-- Nybble `r` of the block at `a`; the high half of a byte comes first. -/
def nybbleAt (a : BitVec 16) (r : Nat) : Int :=
  let b := (S.ram (a + 1 + BitVec.ofNat 16 (r / 2))).toNat
  signed4 (if r % 2 = 0 then b / 16 else b % 16)

/-- The sample that nybble `r` of the block at `a` stands for. -/
def decodeAt (a : BitVec 16) (r : Nat) (p q : Int) : Int :=
  let h := header (S.ram a)
  short (clip (delta h.range (S.nybbleAt a r) + predict h.filter p q) * 2)

/-- The block after the one at `a`: nine bytes on, or at the loop pointer, or
none. -/
def nextBlock (a : BitVec 16) : Option (BitVec 16) :=
  let h := header (S.ram a)
  if !h.last then some (a + 9) else if h.loop then some S.lptr else none

/-- The address of block `q`. -/
def block : Nat → Option (BitVec 16)
  | 0 => some S.vptr
  | q + 1 => (block q).bind S.nextBlock

/-- The last two samples after the first `k`; past its last block the stream
is silent. -/
def history : Nat → Int × Int
  | 0 => (S.prev1, S.prev2)
  | k + 1 =>
      match S.block (k / 16) with
      | some a => (S.decodeAt a (k % 16) (history k).1 (history k).2, (history k).1)
      | none => (0, (history k).1)

/-- Sample `k` of the stream. -/
def sample (k : Nat) : Int := (S.history (k + 1)).1

/-- The nine bytes of each of its blocks. -/
def Uses (x : BitVec 16) : Prop :=
  ∃ q a, S.block q = some a ∧ ∃ i : Fin 9, x = a + BitVec.ofNat 16 i

/-- One nybble of block `q` more. -/
theorem history_succ {q r : Nat} {a : BitVec 16} (hr : r < 16) (hq : S.block q = some a) :
    S.history (16 * q + r + 1) =
      (S.decodeAt a r (S.history (16 * q + r)).1 (S.history (16 * q + r)).2,
        (S.history (16 * q + r)).1) := by
  have hdiv : (16 * q + r) / 16 = q := by omega
  have hmod : (16 * q + r) % 16 = r := by omega
  rw [history, hdiv, hmod, hq]

/-- Whatever it decodes, the filters keep working on even samples. -/
theorem history_isSample (k : Nat) : IsSample (S.history k).1 ∧ IsSample (S.history k).2 := by
  induction k with
  | zero => exact ⟨S.isSample1, S.isSample2⟩
  | succ k ih =>
      rw [history]
      split
      · exact ⟨isSample_double _, ih.1⟩
      · exact ⟨isSample_zero, ih.1⟩

/-! ## One nybble -/

/-- A decoder at a nybble of a block reads that nybble. -/
theorem nybble_eq {ram : Ram} {vp : VoiceState} {a : BitVec 16} {r : Nat}
    (hhalf : vp.half = r % 2) (hptr : vp.memPtr = a + 1 + BitVec.ofNat 16 (r / 2))
    (hram : ram vp.memPtr = S.ram vp.memPtr) : nybble ram vp = S.nybbleAt a r := by
  unfold nybble nybbleAt signed4
  rw [hram, hptr, hhalf]
  generalize S.ram (a + 1 + BitVec.ofNat 16 (r / 2)) = b
  have hb := b.isLt
  dsimp only
  by_cases hr : r % 2 = 0
  · rw [if_pos hr, if_pos hr, BitVec.toInt_eq_toNat_cond]
    split <;> split <;> omega
  · rw [if_neg hr, if_neg hr, BitVec.toInt_eq_toNat_cond, BitVec.toNat_shiftLeft,
      Nat.shiftLeft_eq]
    split <;> split <;> omega

/-- The range of a signed nybble. -/
theorem signed4_bounds {n : Nat} (h : n < 16) : -8 ≤ signed4 n ∧ signed4 n < 8 := by
  unfold signed4
  split <;> omega

/-- The range of the nybbles of a stream. -/
theorem nybbleAt_bounds (a : BitVec 16) (r : Nat) :
    -8 ≤ S.nybbleAt a r ∧ S.nybbleAt a r < 8 := by
  unfold nybbleAt
  dsimp only
  apply signed4_bounds
  split <;> omega

/-- Masking with `~0x7FF` keeps the sign of a nybble and nothing else. -/
theorem shiftNybble_eq {range : Nat} {n : Int} (h : -8 ≤ n ∧ n < 8) :
    shiftNybble range n = delta range n := by
  unfold shiftNybble delta
  split
  · rfl
  · split <;> omega

/-- On even samples the shifts and additions of the source lose nothing. -/
theorem brrFilter_eq {p q : Int} (hp : 2 ∣ p) (hq : 2 ∣ q) (filter : Nat) (x : Int) :
    brrFilter filter p q x = x + predict filter p q := by
  obtain ⟨p, rfl⟩ := hp
  obtain ⟨q, rfl⟩ := hq
  obtain _ | _ | _ | n := filter
  · exact (Int.add_zero x).symm
  · simp only [brrFilter, predict]
    omega
  · have hlast : 2 * p + -(2 * p + 2 * p / 2 ^ 1) / 2 ^ 5 = 61 * (2 * p) / 64 := by omega
    have hprev : -(2 * q / 2 ^ 1) + 2 * q / 2 ^ 5 = -15 * (2 * q) / 32 := by omega
    simp only [brrFilter, predict, ← hlast, ← hprev]
    ring
  · have hlast : 2 * p + -(2 * p + 2 * p * 2 ^ 2 + 2 * p * 2 ^ 3) / 2 ^ 7 =
        115 * (2 * p) / 128 := by omega
    have hprev : -(2 * q / 2 ^ 1) + (2 * q + 2 * q / 2 ^ 1) / 2 ^ 4 = -13 * (2 * q) / 32 := by
      omega
    simp only [brrFilter, predict, ← hlast, ← hprev]
    ring

/-! ## Positions of the stream -/

/-- The decoder is inside block `q`, at `a`, with `r` nybbles of it taken. -/
structure Inside (q : Nat) (a : BitVec 16) (r : Nat) (vp : VoiceState) : Prop where
  block : S.block q = some a
  memPtr : vp.memPtr = a + 1 + BitVec.ofNat 16 (r / 2)
  headerCnt : vp.headerCnt = 8 - r / 2
  half : vp.half = r % 2
  range : vp.range = (header (S.ram a)).range
  filter : vp.filter = (header (S.ram a)).filter
  endBits : vp.endBits = (S.ram a).toNat % 4

/-- The decoder has read no header yet. -/
structure Ahead (vp : VoiceState) : Prop where
  memPtr : vp.memPtr = S.vptr
  headerCnt : vp.headerCnt = 0
  half : vp.half = 0
  endBits : vp.endBits = 0

/-- The decoder has taken exactly the first `k` samples of the stream. -/
structure At (k : Nat) (vp : VoiceState) : Prop where
  history : (vp.smp1, vp.smp2) = S.history k
  ring : RecentRing.Holds S.sample k vp.sampbuf vp.sampptr
  place : k = 0 ∧ S.Ahead vp ∨ ∃ q a r, k = 16 * q + r ∧ 0 < r ∧ r ≤ 16 ∧ S.Inside q a r vp

/-- Memory in which the sample is as the stream has it. -/
structure Backs (m : Mem) (entry : Nat) : Prop where
  ram : ∀ x, S.Uses x → m.ram x = S.ram x
  lptr : m.lptr entry = S.lptr

/-- The decoder is about to take sample `k`, its header read. -/
structure Ready (k : Nat) (vp : VoiceState) : Prop where
  history : (vp.smp1, vp.smp2) = S.history k
  ring : RecentRing.Holds S.sample k vp.sampbuf vp.sampptr
  place : ∃ q a r, k = 16 * q + r ∧ r < 16 ∧ S.Inside q a r vp

variable {S} {m : Mem} {entry : Nat} {v : Fin 8} {k : Nat} {vp : VoiceState} {d : Decode}

/-- RAM holds the bytes of a block of the stream. -/
theorem Backs.byte (h : S.Backs m entry) {q i : Nat} {a : BitVec 16} (hq : S.block q = some a)
    (hi : i < 9) : m.ram (a + BitVec.ofNat 16 i) = S.ram (a + BitVec.ofNat 16 i) :=
  h.ram _ ⟨q, a, hq, ⟨i, hi⟩, rfl⟩

/-- RAM holds the header of a block of the stream. -/
theorem Backs.head (h : S.Backs m entry) {q : Nat} {a : BitVec 16} (hq : S.block q = some a) :
    m.ram a = S.ram a := by
  have hbyte := h.byte hq (by decide : 0 < 9)
  rwa [BitVec.add_zero] at hbyte

/-- Reading the header puts the decoder at the first nybble of its block. -/
theorem Inside.readHeader {q : Nat} {a : BitVec 16} {ram : Ram} (hq : S.block q = some a)
    (hptr : vp.memPtr = a) (hhalf : vp.half = 0) (hram : ram a = S.ram a) :
    S.Inside q a 0 (readHeader ram vp) where
  block := hq
  memPtr := by simp [OpenSpc.readHeader, hptr]
  headerCnt := rfl
  half := hhalf
  range := by simp [OpenSpc.readHeader, header, hptr, hram]
  filter := by simp [OpenSpc.readHeader, header, hptr, hram]
  endBits := by simp [OpenSpc.readHeader, hptr, hram]

/-- The flags of a finished block, as the decoder kept them. -/
theorem Inside.flags {q r : Nat} {a : BitVec 16} (h : S.Inside q a r vp) :
    vp.endBits.testBit 0 = (header (S.ram a)).last ∧
      vp.endBits.testBit 1 = (header (S.ram a)).loop := by
  rw [h.endBits]
  simp only [Nat.testBit_eq_decide_div_mod_eq, header]
  constructor
  · congr 1
    simp only [eq_iff_iff]
    omega
  · congr 1
    simp only [eq_iff_iff]
    omega

/-- **Entering a pass.**  Unless it ends the sample, the guarded part of a pass
leaves the decoder at the nybble of the next sample.  It fetches the first
header of the sample, or a new one where the block is used up, or nothing. -/
theorem At.enterBlock (h : S.At k d.vp) (hb : S.Backs m entry)
    (hend : (enterBlock m entry v d).ended = false) :
    S.Ready k (enterBlock m entry v d).vp := by
  obtain ⟨rfl, hahead⟩ | ⟨q, a, r, rfl, hpos, hle, hin⟩ := h.place
  · have hfirst : S.block 0 = some S.vptr := rfl
    rw [enterBlock_header m entry v hahead.headerCnt (by rw [hahead.endBits]; rfl)]
    exact ⟨h.history, h.ring, 0, S.vptr, 0, rfl, by decide,
      Inside.readHeader hfirst hahead.memPtr hahead.half (hb.head hfirst)⟩
  · obtain hlt | rfl : r < 16 ∨ r = 16 := by omega
    · rw [enterBlock_keep m entry v (by rw [hin.headerCnt]; omega)]
      exact ⟨h.history, h.ring, q, a, r, rfl, hlt, hin⟩
    · have hcnt : d.vp.headerCnt = 0 := hin.headerCnt
      have hhalf : d.vp.half = 0 := hin.half
      obtain ⟨hlast, hloop⟩ := hin.flags
      have hblock : S.block (q + 1) = S.nextBlock a := by
        rw [BrrStream.block, hin.block]
        rfl
      unfold nextBlock at hblock
      dsimp only at hblock
      cases hl : (header (S.ram a)).last
      · rw [hl] at hlast hblock
        rw [enterBlock_header m entry v hcnt hlast]
        have hptr : d.vp.memPtr = a + 9 := by
          rw [hin.memPtr, BitVec.add_assoc]
          rfl
        exact ⟨h.history, h.ring, q + 1, a + 9, 0, by omega, by decide,
          Inside.readHeader hblock hptr hhalf (hb.head hblock)⟩
      · rw [hl] at hlast hblock
        cases ho : (header (S.ram a)).loop
        · rw [ho] at hloop
          rw [enterBlock_end m entry v hcnt hlast hloop] at hend
          cases hend
        · rw [ho] at hloop hblock
          rw [enterBlock_loop m entry v hcnt hlast hloop]
          exact ⟨h.history, h.ring, q + 1, S.lptr, 0, by omega, by decide,
            Inside.readHeader hblock hb.lptr hhalf (hb.head hblock)⟩

/-- Stepping over a nybble inside a block. -/
theorem Inside.skipNybble {q r : Nat} {a : BitVec 16} (h : S.Inside q a r vp) :
    S.Inside q a (r + 1) (skipNybble vp) := by
  have hhalf := h.half
  have hcnt := h.headerCnt
  unfold OpenSpc.skipNybble
  split
  · have hdiv : (r + 1) / 2 = r / 2 := by omega
    refine ⟨h.block, ?_, ?_, ?_, h.range, h.filter, h.endBits⟩
    · rw [hdiv]
      exact h.memPtr
    · rw [hdiv]
      exact hcnt
    · simp only
      omega
  · have hdiv : (r + 1) / 2 = r / 2 + 1 := by omega
    refine ⟨h.block, ?_, ?_, ?_, h.range, h.filter, h.endBits⟩
    · simp only
      rw [hdiv, h.memPtr, BitVec.add_assoc, BitVec.ofNat_add]
      rfl
    · simp only
      omega
    · simp only
      omega

/-- **One pass takes one sample**: the shifts and additions of the code give the
sample of the stream. -/
theorem Ready.decodePass (h : S.Ready k d.vp) (hb : S.Backs m entry) :
    S.At (k + 1) (decodePass m.ram d).vp := by
  obtain ⟨q, a, r, rfl, hlt, hin⟩ := h.place
  have hsmp := h.history
  obtain ⟨heven1, heven2⟩ := S.history_isSample (16 * q + r)
  have hbyte : m.ram d.vp.memPtr = S.ram d.vp.memPtr := by
    have hoff : d.vp.memPtr = a + BitVec.ofNat 16 (1 + r / 2) := by
      rw [hin.memPtr, BitVec.add_assoc, BitVec.ofNat_add]
      rfl
    rw [hoff]
    exact hb.byte hin.block (by omega)
  have hnybble := S.nybble_eq hin.half hin.memPtr hbyte
  rw [← hsmp] at heven1 heven2
  have hnew : short (brrSample m.ram d.vp * 2) =
      S.decodeAt a r (S.history (16 * q + r)).1 (S.history (16 * q + r)).2 := by
    unfold brrSample decodeAt
    rw [← hsmp, hnybble, shiftNybble_eq (S.nybbleAt_bounds a r),
      brrFilter_eq heven1.2 heven2.2, hin.range, hin.filter]
  have hold : short d.vp.smp1 = (S.history (16 * q + r)).1 := by
    rw [← hsmp]
    exact Narrow.narrow_of_fits heven1.1
  have hhist : S.history (16 * q + r + 1) =
      (short (brrSample m.ram d.vp * 2), short d.vp.smp1) := by
    rw [S.history_succ hlt hin.block, hnew, hold]
  refine ⟨hhist.symm, ?_, Or.inr ⟨q, a, r + 1, rfl, Nat.succ_pos r, hlt, ?_⟩⟩
  · have hring := h.ring.push
    have hsample : S.sample (16 * q + r) = short (brrSample m.ram d.vp * 2) := by
      unfold sample
      rw [hhist]
    rwa [hsample] at hring
  · have hskip := hin.skipNybble
    exact ⟨hskip.1, hskip.2, hskip.3, hskip.4, hskip.5, hskip.6, hskip.7⟩

/-- **The loop follows the stream.**  Unless it ends the sample, it takes as
many samples of the stream as are due. -/
theorem At.decodeLoop (hb : S.Backs m entry) : ∀ n d k, S.At k d.vp →
    samplesDue d.vp.mixfrac ≤ n → (decodeLoop m entry v n d).ended = false →
    S.At (k + samplesDue d.vp.mixfrac) (decodeLoop m entry v n d).vp := by
  intro n
  induction n with
  | zero =>
      intro d k h hn _
      have hz : samplesDue d.vp.mixfrac = 0 := by omega
      rw [hz]
      exact h
  | succ n ih =>
      intro d k h hn hend
      unfold OpenSpc.decodeLoop at hend ⊢
      by_cases hmix : d.vp.mixfrac ≥ 0
      · rw [if_pos hmix] at hend ⊢
        dsimp only at hend ⊢
        cases he : (OpenSpc.enterBlock m entry v d).ended
        · rw [if_neg Bool.false_ne_true]
          rw [he, if_neg Bool.false_ne_true] at hend
          have hready := h.enterBlock hb he
          have hpass := decodePass_mixfrac m.ram (OpenSpc.enterBlock m entry v d)
          rw [enterBlock_mixfrac m entry v he] at hpass
          have hdue := samplesDue_succ hmix
          rw [← hpass] at hdue
          have hnext := ih _ _ (hready.decodePass hb) (by omega) hend
          rwa [Nat.add_right_comm, Nat.add_assoc, ← hdue] at hnext
        · rw [he, if_pos rfl] at hend
          cases he.symm.trans hend
      · rw [if_neg hmix, samplesDue_of_neg (by omega)]
        exact h

/-- **The decode loop takes what is due**, if it meets no end. -/
theorem At.brrDecode (h : S.At k vp) (hb : S.Backs m entry)
    (hend : (brrDecode m entry v vp).ended = false) :
    S.At (k + samplesDue vp.mixfrac) (brrDecode m entry v vp).vp :=
  At.decodeLoop hb (samplesDue vp.mixfrac)
    { vp := vp, endx := false, ended := false, log := [] } k h le_rfl hend

end BrrStream

end OpenSpc
