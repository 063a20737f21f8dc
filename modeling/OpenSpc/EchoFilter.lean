import OpenSpc.RecentRing
import OpenSpc.UpdateFrame

/-!
# The echo filter is a convolution

`FIRlbuf` and `FIRrbuf` with `FIRptr` are shift registers: every update puts its
echo sample in front of the seven before it, and the unrolled taps meet them
newest first, from the register at 0x7F down to the one at 0x0F.
-/

namespace OpenSpc

open ByteMask (bit)
open RecentRing (Recalls shiftIn)

section Update

variable {host : Nat → Byte} {s : Dsp}

/-- The echo pair an update reads from RAM. -/
def echoSample (host : Nat → Byte) (s : Dsp) : Int × Int :=
  ((ramWord host s.spcRam (echoBase (prelude s))).toInt,
    (ramWord host s.spcRam (echoBase (prelude s) + 2)).toInt)

/-- The pair `vl`, `vr` the filter of an update gives. -/
def firOut (host : Nat → Byte) (s : Dsp) : Int × Int :=
  let t := echoRead host (voiceLoop host (prelude s, freshLocals) 8).1
  (firAcc t t.firLbuf 7, firAcc t t.firRbuf 7)

/-- The sample an update puts out and the pair it stores in echo memory are
both made with the pair `(vl, vr)`. -/
def UsesFilter (host : Nat → Byte) (s : Dsp) (vl vr : Int) : Prop :=
  let p := voiceLoop host (prelude s, freshLocals) 8
  let t := echoRead host p.1
  (dspUpdate host true s).sample =
      some (if bit (t.dspRegs 0x6C) 6 then (0, 0)
        else (clip (mainOut t p.2.outl vl 0x0C 0x2C), clip (mainOut t p.2.outr vr 0x1C 0x3C))) ∧
    echoOut host s = (echoFeedback t p.2.echol vl, echoFeedback t p.2.echor vr)

/-- Output and feedback both use what the filter gives. -/
theorem firOut_used (host : Nat → Byte) (s : Dsp) :
    UsesFilter host s (firOut host s).1 (firOut host s).2 := by
  unfold UsesFilter dspUpdate echoOut firOut
  generalize voiceLoop host (prelude s, freshLocals) 8 = p
  refine ⟨?_, rfl⟩
  unfold echoUnit
  dsimp only
  cases bit ((echoRead host p.1).dspRegs 0x6C) 5 <;> rfl

/-- The accumulator after tap `n` as a sum. -/
theorem firAcc_eq_sum (s : Dsp) (buf : Fin 8 → Int) (n : Nat) :
    firAcc s buf n = ∑ k ∈ Finset.range (n + 1),
      buf (s.firPtr + Fin.ofNat 8 k) * (s.dspRegs (0x7F - 16 * k)).toInt := by
  induction n with
  | zero => simp [firAcc]
  | succ n ih => rw [Finset.sum_range_succ, ← ih, firAcc]

/-- The two FIR buffers as one ring of pairs. -/
def firBuf (s : Dsp) : Fin 8 → Int × Int := fun i => (s.firLbuf i, s.firRbuf i)

/-- What a reset leaves of the FIR buffers. -/
theorem prelude_fir (s : Dsp) :
    firBuf (prelude s) = (if bit (s.dspRegs 0x6C) 7 then fun _ => (0, 0) else firBuf s) ∧
      (prelude s).firPtr = (if bit (s.dspRegs 0x6C) 7 then 0 else s.firPtr) := by
  unfold firBuf prelude noiseStep dspReset Dsp.setReg
  dsimp only
  split <;> split <;> exact ⟨rfl, rfl⟩

/-- **One update of the FIR buffers.** -/
theorem dspNext_fir (host : Nat → Byte) (s : Dsp) :
    firBuf (dspNext host s) =
        Function.update (firBuf (prelude s)) (prelude s).firPtr (echoSample host s) ∧
      (dspNext host s).firPtr = (prelude s).firPtr + 7 := by
  have hframe := voiceLoop_frame host (prelude s, freshLocals) 8
  have hbase := loop_echoBase host s
  have hram := hframe.spcRam.trans (prelude_spcRam s)
  have hpairs (l r : Fin 8 → Int) (p : Fin 8) (x : Int × Int) :
      (fun i => (Function.update l p x.1 i, Function.update r p x.2 i)) =
        Function.update (fun i => (l i, r i)) p x := by
    funext i
    by_cases hi : i = p
    · subst i
      simp
    · rw [Function.update_of_ne hi, Function.update_of_ne hi, Function.update_of_ne hi]
  unfold firBuf
  rw [← hpairs]
  unfold dspNext dspUpdate echoUnit echoSample
  dsimp only
  split <;> simp only [echoAdvance, echoWrite, echoRead, hframe.firLbuf, hframe.firRbuf,
    hframe.firPtr, hram, hbase, and_self]

/-- The coefficient tap `k` meets: register 0x7F first, then sixteen lower each
time. -/
theorem fir_reg (host : Nat → Byte) (s : Dsp) {k : Nat} (hk : k < 8) :
    (voiceLoop host (prelude s, freshLocals) 8).1.dspRegs (0x7F - 16 * k) =
      s.dspRegs (0x10 * (7 - k) + 0x0F) := by
  have hindex : 0x7F - 16 * k = 0x10 * (7 - k) + 0x0F := by omega
  rw [hindex, loop_reg host s _ (by omega) (by omega) (by omega),
    prelude_reg s (by omega) (by omega) (by omega) (by omega)]

/-- The filter of an update, over the buffers it leaves. -/
theorem firOut_eq_sum (host : Nat → Byte) (s : Dsp) :
    firOut host s =
      (∑ k ∈ Finset.range 8, (firBuf (dspNext host s) ((prelude s).firPtr + Fin.ofNat 8 k)).1
          * (s.dspRegs (0x10 * (7 - k) + 0x0F)).toInt,
        ∑ k ∈ Finset.range 8, (firBuf (dspNext host s) ((prelude s).firPtr + Fin.ofNat 8 k)).2
          * (s.dspRegs (0x10 * (7 - k) + 0x0F)).toInt) := by
  obtain ⟨hbuf, -⟩ := dspNext_fir host s
  have hframe := voiceLoop_frame host (prelude s, freshLocals) 8
  have hbase := loop_echoBase host s
  have hram := hframe.spcRam.trans (prelude_spcRam s)
  have hreg (k : Nat) (hk : k ∈ Finset.range 8) := fir_reg host s (Finset.mem_range.mp hk)
  unfold firOut
  generalize (voiceLoop host (prelude s, freshLocals) 8).1 = p at *
  have hread : firBuf (dspNext host s) = firBuf (echoRead host p) := by
    rw [hbuf]
    funext i
    unfold firBuf echoRead echoSample
    dsimp only
    rw [hframe.firLbuf, hframe.firRbuf, hframe.firPtr, hram, hbase]
    by_cases hi : i = (prelude s).firPtr
    · subst i
      simp
    · rw [Function.update_of_ne hi, Function.update_of_ne hi, Function.update_of_ne hi]
  have hside (buf : Fin 8 → Int) : firAcc (echoRead host p) buf 7 =
      ∑ k ∈ Finset.range 8, buf ((prelude s).firPtr + Fin.ofNat 8 k)
        * (s.dspRegs (0x10 * (7 - k) + 0x0F)).toInt := by
    rw [firAcc_eq_sum]
    refine Finset.sum_congr rfl fun k hk => ?_
    rw [← hreg k hk, ← hframe.firPtr]
    rfl
  dsimp only
  rw [hside, hside, hread]
  rfl

end Update

/-- Advancing the pointer seven times modulo 8 takes it back by one. -/
theorem firPtr_back (p : Fin 8) : p + 7 = p - 1 := by
  revert p
  decide

/-! ## Runs -/

/-- The echo pairs of updates `t`, `t - 1`, … back to update `r`, and silence
before it. -/
def echoHistory (host : Nat → Byte) (s : Nat → Dsp) (r t k : Nat) : Int × Int :=
  if r + k ≤ t then echoSample host (s (t - k)) else (0, 0)

section Runs

variable {host : Nat → Byte} {s : Nat → Dsp} {r t : Nat}

/-- The history of the next update is this one with its sample in front. -/
theorem echoHistory_succ (hrt : r ≤ t) :
    echoHistory host s r (t + 1) = shiftIn (echoSample host (s (t + 1))) (echoHistory host s r t) := by
  funext k
  cases k with
  | zero =>
      unfold echoHistory shiftIn
      rw [if_pos (by omega), Nat.sub_zero]
  | succ k =>
      unfold echoHistory shiftIn
      dsimp only
      rw [Nat.add_sub_add_right]
      split <;> split <;> first | rfl | omega

/-- **The FIR buffers are shift registers.**  By induction on the updates since
the reset: after update `t` the buffers, read from the slot it filled, show the
echo samples of that update and of those before it. -/
theorem fir_recalls (hrun : IsDspRun host s) (h : SinceReset s r t) :
    Recalls (echoHistory host s r t) (firBuf (dspNext host (s t))) (prelude (s t)).firPtr := by
  have hreset := h.reset
  refine h.induction (P := fun t => Recalls (echoHistory host s r t)
    (firBuf (dspNext host (s t))) (prelude (s t)).firPtr) ?_ ?_
  · have hclear : firBuf (prelude (s r)) = fun _ => (0, 0) := by
      rw [(prelude_fir (s r)).1]
      split
      · rfl
      · rename_i hflg
        obtain ⟨hzero, s₀, hw⟩ := hreset.resolve_left hflg
        obtain ⟨hl, hr, -⟩ := hw.fir
        unfold firBuf
        rw [hzero, hl, hr]
        rfl
    have hfirst : echoHistory host s r r = shiftIn (echoSample host (s r)) fun _ => (0, 0) := by
      funext k
      unfold echoHistory shiftIn
      cases k with
      | zero => rw [if_pos (by omega), Nat.sub_zero]
      | succ k => rw [if_neg (by omega)]
    have hpush := (Recalls.start ((0, 0) : Int × Int) ((prelude (s r)).firPtr + 1)).push
      (echoSample host (s r))
    rw [add_sub_cancel_right] at hpush
    rw [(dspNext_fir host (s r)).1, hclear, hfirst]
    exact hpush
  · intro u hru hflg ih
    obtain ⟨hbuf, hptr⟩ := prelude_fir (s (u + 1))
    obtain ⟨hwl, hwr, hwp⟩ := (hrun u).fir
    have hkeep : firBuf (s (u + 1)) = firBuf (dspNext host (s u)) := by
      unfold firBuf
      rw [hwl, hwr]
    rw [hflg, if_neg Bool.false_ne_true] at hbuf hptr
    rw [hwp, (dspNext_fir host (s u)).2, firPtr_back] at hptr
    rw [(dspNext_fir host (s (u + 1))).1, hbuf, hptr, hkeep, echoHistory_succ hru]
    exact ih.push _

/-- What tap `k` meets. -/
theorem fir_slot (hrun : IsDspRun host s) (h : SinceReset s r t) {k : Nat} (hk : k < 8) :
    firBuf (dspNext host (s t)) ((prelude (s t)).firPtr + Fin.ofNat 8 k) =
      echoHistory host s r t k := by
  have hshow := fir_recalls hrun h (Fin.ofNat 8 k)
  rw [Fin.val_ofNat, Nat.mod_eq_of_lt hk] at hshow
  exact hshow

/-- **The echo filter is an eight-tap convolution.**  In update `t`, the first
after a reset being update `r`, the filter gives on each side the sum of the
last eight echo samples, the newest times register 0x7F and the oldest times
register 0x0F; before update `r` the samples are 0.  The output and the feedback
of the update use these two sums. -/
theorem echo_filter (hrun : IsDspRun host s) (h : SinceReset s r t) :
    firOut host (s t) =
      (∑ k ∈ Finset.range 8, (if r + k ≤ t then (echoSample host (s (t - k))).1 else 0)
          * ((s t).dspRegs (0x10 * (7 - k) + 0x0F)).toInt,
        ∑ k ∈ Finset.range 8, (if r + k ≤ t then (echoSample host (s (t - k))).2 else 0)
          * ((s t).dspRegs (0x10 * (7 - k) + 0x0F)).toInt) ∧
      UsesFilter host (s t) (firOut host (s t)).1 (firOut host (s t)).2 := by
  refine ⟨?_, firOut_used host (s t)⟩
  rw [firOut_eq_sum]
  refine congrArg₂ Prod.mk (Finset.sum_congr rfl fun k hk => ?_)
    (Finset.sum_congr rfl fun k hk => ?_)
  · rw [fir_slot hrun h (Finset.mem_range.mp hk)]
    unfold echoHistory
    split <;> rfl
  · rw [fir_slot hrun h (Finset.mem_range.mp hk)]
    unfold echoHistory
    split <;> rfl

end Runs

/-! ## The loudest echo -/

/-- All RAM words are -32768, all filter coefficients and echo volumes -128, and
echo writes are forbidden. -/
def loudWrite (_ : Nat) (s : Dsp) : Dsp :=
  { s with
    spcRam := fun a => if a.toNat % 2 = 0 then 0 else 0x80
    dspRegs := fun i => if i = 0x6C then 0x20 else 0x80 }

/-- The run with this traffic. -/
def loudRun (host : Nat → Byte) : Nat → Dsp := drivenRun host loudWrite

/-- The traffic touches only the registers and RAM. -/
theorem loudWrite_busWrite (t : Nat) (s : Dsp) : BusWrite s (loudWrite t s) := rfl

section Loud

variable (host : Nat → Byte) (t : Nat)

/-- The states follow one another as in a run of the DSP. -/
theorem loudRun_isRun : IsDspRun host (loudRun host) := drivenRun_isRun loudWrite_busWrite

/-- The states of this run can be reached. -/
theorem loudRun_reachable : Reachable (loudRun host t) := drivenRun_reachable loudWrite_busWrite t

/-- What the traffic of this run sets, whatever happened before. -/
theorem loudRun_sets :
    (loudRun host t).spcRam = (fun a => if a.toNat % 2 = 0 then 0 else 0x80) ∧
      (loudRun host t).dspRegs = fun i => if i = 0x6C then 0x20 else 0x80 := by
  cases t <;> exact ⟨rfl, rfl⟩

/-- No update of this run resets. -/
theorem loudRun_sinceReset : SinceReset (loudRun host) 0 t where
  le := Nat.zero_le t
  reset := Or.inr ⟨rfl, zeroDsp, rfl⟩
  quiet := by
    intro u _ _
    rw [(loudRun_sets host u).2]
    decide

/-- Every echo sample is the lowest there is. -/
theorem loudRun_sample : echoSample host (loudRun host t) = (-32768, -32768) := by
  have haligned := (loudRun_reachable host t).inv.prelude_aligned
  have hlast := (slot_index haligned 3).1
  change echoBase (prelude (loudRun host t)) + 3 < 0x10000 at hlast
  have hdvd : 4 ∣ echoBase (prelude (loudRun host t)) := by
    unfold echoBase
    omega
  have hword (i : Nat) (hi : i + 1 < 0x10000) (heven : i % 2 = 0) :
      ramWord host (loudRun host t).spcRam i = 0x8000 := by
    unfold ramWord ramAt
    rw [if_pos hi, if_pos (by omega), (loudRun_sets host t).1]
    dsimp only
    rw [BitVec.toNat_ofNat, BitVec.toNat_ofNat, if_neg (by omega), if_pos (by omega)]
    decide
  unfold echoSample
  rw [hword _ (by omega) (by omega), hword _ (by omega) (by omega)]
  decide

end Loud

/-- From its eighth update on, the filter is at its highest. -/
theorem loudRun_filter : firOut (fun _ => 0) (loudRun (fun _ => 0) 7) = (33554432, 33554432) := by
  rw [(echo_filter (loudRun_isRun _) (loudRun_sinceReset _ 7)).1]
  simp only [loudRun_sample, (loudRun_sets (fun _ => 0) 7).2]
  decide

end OpenSpc
