import OpenSpc.BrrDecode

/-!
# Facts about the decode loop

The loop spends exactly the samples that are due, whichever way it ends, so it
always leaves `mixfrac` in the half-open interval from -4096 to 0
(`brrDecode_mixfrac`).  It keeps every field that does not belong to the
decoder, and away from a block boundary it ends nothing (`decodeLoop_plain`).
-/

namespace OpenSpc

/-! ## Samples due -/

/-- Nothing is due below zero. -/
theorem samplesDue_of_neg {x : Int} (h : x < 0) : samplesDue x = 0 := by
  unfold samplesDue
  omega

/-- One sample is due for each 4096. -/
theorem samplesDue_succ {x : Int} (h : 0 ≤ x) : samplesDue x = samplesDue (x - 4096) + 1 := by
  unfold samplesDue
  omega

/-- What is left once all due samples are spent. -/
theorem samplesDue_rest {x : Int} (h : -4096 ≤ x) :
    -4096 ≤ x - 4096 * samplesDue x ∧ x - 4096 * samplesDue x < 0 := by
  unfold samplesDue
  omega

/-! ## Running the loop to its end -/

/-- Draining takes all that is due. -/
theorem drain_mixfrac (n : Nat) : ∀ vp : VoiceState, samplesDue vp.mixfrac ≤ n →
    (drain n vp).mixfrac = vp.mixfrac - 4096 * samplesDue vp.mixfrac := by
  induction n with
  | zero =>
      intro vp hn
      have hz : samplesDue vp.mixfrac = 0 := by omega
      rw [hz]
      simp [drain]
  | succ n ih =>
      intro vp hn
      unfold drain
      by_cases h : vp.mixfrac ≥ 0
      · have hsucc := samplesDue_succ h
        rw [if_pos h, ih _ (by simp only; omega), hsucc]
        push_cast
        ring
      · rw [if_neg h, samplesDue_of_neg (by omega)]
        simp

section Loop

variable (m : Mem) (entry : Nat) (v : Fin 8)

/-! ### The four ways to enter a pass -/

/-- Inside a block nothing is fetched. -/
theorem enterBlock_keep {d : Decode} (hcnt : d.vp.headerCnt ≠ 0) :
    enterBlock m entry v d = d := by
  unfold enterBlock
  rw [if_neg hcnt]

/-- A block that is not the last one is followed by the next. -/
theorem enterBlock_header {d : Decode} (hcnt : d.vp.headerCnt = 0)
    (hend : d.vp.endBits.testBit 0 = false) :
    enterBlock m entry v d = { d with
      vp := readHeader m.ram d.vp
      log := d.log ++ [.read d.vp.memPtr.toNat] } := by
  unfold enterBlock
  rw [if_pos hcnt, hend, if_neg Bool.false_ne_true]

/-- A last block that loops is followed by the one at the loop pointer. -/
theorem enterBlock_loop {d : Decode} (hcnt : d.vp.headerCnt = 0)
    (hend : d.vp.endBits.testBit 0 = true) (hloop : d.vp.endBits.testBit 1 = true) :
    enterBlock m entry v d =
      { vp := readHeader m.ram { d.vp with memPtr := m.lptr entry }
        endx := true
        ended := d.ended
        log := d.log ++ [.endBlock v, .read (entry + 2), .read (entry + 3),
          .read (m.lptr entry).toNat] } := by
  unfold enterBlock
  rw [if_pos hcnt, if_pos hend, if_pos hloop]

/-- A last block that does not loop ends the sample. -/
theorem enterBlock_end {d : Decode} (hcnt : d.vp.headerCnt = 0)
    (hend : d.vp.endBits.testBit 0 = true) (hloop : d.vp.endBits.testBit 1 = false) :
    enterBlock m entry v d =
      { vp := drain (samplesDue d.vp.mixfrac) { d.vp with envx := 0 }
        endx := true
        ended := true
        log := d.log ++ [.endBlock v] } := by
  unfold enterBlock
  rw [if_pos hcnt, if_pos hend, hloop, if_neg Bool.false_ne_true]

/-- **What entering a pass can do.** -/
theorem enterBlock_cases (d : Decode) :
    (d.vp.headerCnt ≠ 0 ∧ enterBlock m entry v d = d) ∨
    (d.vp.headerCnt = 0 ∧ enterBlock m entry v d = { d with
      vp := readHeader m.ram d.vp
      log := d.log ++ [.read d.vp.memPtr.toNat] }) ∨
    (d.vp.headerCnt = 0 ∧ enterBlock m entry v d =
      { vp := readHeader m.ram { d.vp with memPtr := m.lptr entry }
        endx := true
        ended := d.ended
        log := d.log ++ [.endBlock v, .read (entry + 2), .read (entry + 3),
          .read (m.lptr entry).toNat] }) ∨
    (d.vp.headerCnt = 0 ∧ enterBlock m entry v d =
      { vp := drain (samplesDue d.vp.mixfrac) { d.vp with envx := 0 }
        endx := true
        ended := true
        log := d.log ++ [.endBlock v] }) := by
  by_cases hcnt : d.vp.headerCnt = 0
  · cases hend : d.vp.endBits.testBit 0
    · exact Or.inr (Or.inl ⟨hcnt, enterBlock_header m entry v hcnt hend⟩)
    · cases hloop : d.vp.endBits.testBit 1
      · exact Or.inr (Or.inr (Or.inr ⟨hcnt, enterBlock_end m entry v hcnt hend hloop⟩))
      · exact Or.inr (Or.inr (Or.inl ⟨hcnt, enterBlock_loop m entry v hcnt hend hloop⟩))
  · exact Or.inl ⟨hcnt, enterBlock_keep m entry v hcnt⟩

/-- One pass that does not end the sample keeps `mixfrac` and spends 4096. -/
theorem enterBlock_mixfrac {d : Decode} (h : (enterBlock m entry v d).ended = false) :
    (enterBlock m entry v d).vp.mixfrac = d.vp.mixfrac := by
  rcases enterBlock_cases m entry v d with ⟨-, he⟩ | ⟨-, he⟩ | ⟨-, he⟩ | ⟨-, he⟩
  · rw [he]
  · rw [he]; rfl
  · rw [he]; rfl
  · rw [he] at h
    cases h

/-- Decoding a sample does not move the position. -/
theorem decodeSample_mixfrac (ram : Ram) (vp : VoiceState) :
    (decodeSample ram vp).mixfrac = vp.mixfrac := by
  unfold decodeSample skipNybble
  dsimp only
  split <;> rfl

/-- A pass moves the position by one sample. -/
theorem decodePass_mixfrac (ram : Ram) (d : Decode) :
    (decodePass ram d).vp.mixfrac = d.vp.mixfrac - 4096 := by
  unfold decodePass
  dsimp only
  rw [decodeSample_mixfrac]

/-- When a block entry ends the sample, the inner loop spends what is due. -/
theorem enterBlock_ended_mixfrac {d : Decode} (h : (enterBlock m entry v d).ended = true)
    (hd : d.ended = false) :
    (enterBlock m entry v d).vp.mixfrac = d.vp.mixfrac - 4096 * samplesDue d.vp.mixfrac := by
  rcases enterBlock_cases m entry v d with ⟨-, he⟩ | ⟨-, he⟩ | ⟨-, he⟩ | ⟨-, he⟩
  · rw [he, hd] at h
    cases h
  · rw [he] at h
    exact absurd h (by simp [hd])
  · rw [he] at h
    exact absurd h (by simp [hd])
  · rw [he]
    exact drain_mixfrac _ _ le_rfl

/-- The loop takes all that is due, by induction on the passes. -/
theorem decodeLoop_mixfrac (n : Nat) : ∀ d : Decode, samplesDue d.vp.mixfrac ≤ n →
    d.ended = false →
    (decodeLoop m entry v n d).vp.mixfrac = d.vp.mixfrac - 4096 * samplesDue d.vp.mixfrac := by
  induction n with
  | zero =>
      intro d hn _
      have hz : samplesDue d.vp.mixfrac = 0 := by omega
      rw [hz]
      simp [decodeLoop]
  | succ n ih =>
      intro d hn hd
      unfold decodeLoop
      by_cases h : d.vp.mixfrac ≥ 0
      · rw [if_pos h]
        dsimp only
        cases he : (enterBlock m entry v d).ended
        · have hmix := enterBlock_mixfrac m entry v he
          have hpass := decodePass_mixfrac m.ram (enterBlock m entry v d)
          have hsucc := samplesDue_succ h
          rw [hmix] at hpass
          rw [if_neg (by simp), ih (decodePass m.ram (enterBlock m entry v d))
            (by rw [hpass]; omega) he, hpass, hsucc]
          push_cast
          ring
        · rw [if_pos rfl]
          exact enterBlock_ended_mixfrac m entry v he hd
      · rw [if_neg h, samplesDue_of_neg (by omega)]
        simp

/-- **The loop spends exactly what is due.** -/
theorem brrDecode_mixfrac (vp : VoiceState) :
    (brrDecode m entry v vp).vp.mixfrac = vp.mixfrac - 4096 * samplesDue vp.mixfrac :=
  decodeLoop_mixfrac m entry v _ _ le_rfl rfl

/-- **Where the loop leaves the resampler.** -/
theorem brrDecode_mixfrac_bounds {vp : VoiceState} (h : -4096 ≤ vp.mixfrac) :
    -4096 ≤ (brrDecode m entry v vp).vp.mixfrac ∧ (brrDecode m entry v vp).vp.mixfrac < 0 := by
  rw [brrDecode_mixfrac]
  exact samplesDue_rest h

/-! ## Induction over the passes -/

/-- What every block entry and every pass keeps, the loop keeps. -/
theorem decodeLoop_keeps {P : Decode → Prop}
    (henter : ∀ d, d.ended = false → 0 ≤ d.vp.mixfrac → P d → P (enterBlock m entry v d))
    (hpass : ∀ d, d.ended = false → d.vp.headerCnt ≠ 0 → P d → P (decodePass m.ram d)) :
    ∀ n d, d.ended = false → P d → P (decodeLoop m entry v n d) := by
  have hheader : ∀ d : Decode, (enterBlock m entry v d).ended = false →
      (enterBlock m entry v d).vp.headerCnt ≠ 0 := by
    intro d hd
    rcases enterBlock_cases m entry v d with ⟨hcnt, he⟩ | ⟨-, he⟩ | ⟨-, he⟩ | ⟨-, he⟩
    · rwa [he]
    · simp [he, readHeader]
    · simp [he, readHeader]
    · rw [he] at hd
      cases hd
  intro n
  induction n with
  | zero => intro d _ hP; exact hP
  | succ n ih =>
      intro d hd hP
      unfold decodeLoop
      by_cases h : d.vp.mixfrac ≥ 0
      · rw [if_pos h]
        dsimp only
        have hP' := henter d hd h hP
        cases he : (enterBlock m entry v d).ended
        · rw [if_neg (by simp)]
          exact ih _ he (hpass _ he (hheader d he) hP')
        · rw [if_pos rfl]
          exact hP'
      · rw [if_neg h]
        exact hP

/-- The fields of a voice that are not the decoder's. -/
def VoiceState.control (vp : VoiceState) : Int × EnvState × Nat × Int :=
  (vp.envcnt, vp.envstate, vp.onCnt, vp.pitch)

/-- Draining leaves the control state and the level. -/
theorem drain_control (n : Nat) : ∀ vp : VoiceState,
    (drain n vp).control = vp.control ∧ (drain n vp).envx = vp.envx := by
  induction n with
  | zero => intro vp; exact ⟨rfl, rfl⟩
  | succ n ih =>
      intro vp
      unfold drain
      split
      · exact ih _
      · exact ⟨rfl, rfl⟩

/-- The loop keeps the control fields; it zeroes the envelope exactly when it
ends the sample. -/
theorem brrDecode_control (vp : VoiceState) :
    (brrDecode m entry v vp).vp.control = vp.control ∧
    (brrDecode m entry v vp).vp.envx =
      if (brrDecode m entry v vp).ended then 0 else vp.envx := by
  refine decodeLoop_keeps m entry v
    (P := fun d => d.vp.control = vp.control ∧ d.vp.envx = if d.ended then 0 else vp.envx)
    ?_ ?_ _ _ rfl ⟨rfl, rfl⟩
  · intro d hd _ hP
    obtain ⟨hc, hx⟩ := hP
    rcases enterBlock_cases m entry v d with ⟨-, he⟩ | ⟨-, he⟩ | ⟨-, he⟩ | ⟨-, he⟩
    · rw [he]
      exact ⟨hc, hx⟩
    · rw [he]
      exact ⟨hc, hx⟩
    · rw [he]
      exact ⟨hc, hx⟩
    · obtain ⟨hc', hx'⟩ := drain_control (samplesDue d.vp.mixfrac) { d.vp with envx := 0 }
      rw [he]
      exact ⟨hc'.trans hc, hx'⟩
  · intro d _ _ hP
    obtain ⟨hc, hx⟩ := hP
    unfold decodePass decodeSample skipNybble
    dsimp only
    split <;> exact ⟨hc, hx⟩

/-! ## Block boundaries -/

/-- Nybbles left of the current block. -/
def blockLeft (vp : VoiceState) : Nat := 2 * vp.headerCnt - vp.half

/-- A pass takes one nybble from its block. -/
theorem decodePass_left (ram : Ram) {d : Decode} (hcnt : d.vp.headerCnt ≠ 0)
    (hhalf : d.vp.half ≤ 1) :
    blockLeft (decodePass ram d).vp + 1 = blockLeft d.vp ∧
      (decodePass ram d).vp.endBits = d.vp.endBits ∧ (decodePass ram d).vp.half ≤ 1 ∧
      ((decodePass ram d).vp.headerCnt = 0 → (decodePass ram d).vp.half = 0) := by
  unfold blockLeft decodePass decodeSample skipNybble
  dsimp only
  split
  · rename_i h
    exact ⟨by simp only [h]; omega, rfl, le_rfl, fun hz => absurd hz hcnt⟩
  · exact ⟨by simp only; omega, rfl, Nat.zero_le 1, fun _ => rfl⟩

/-- Nybbles the loop can take before it meets a block boundary that matters:
the rest of the current block, or a whole block when the next header will be
read without the previous one having ended the sample. -/
def nybblesLeft (vp : VoiceState) : Nat :=
  if vp.headerCnt = 0 then if vp.endBits.testBit 0 then 0 else 16
  else 2 * vp.headerCnt - vp.half

/-- What is left of the block is left of the sample. -/
theorem blockLeft_le_nybblesLeft (vp : VoiceState) : blockLeft vp ≤ nybblesLeft vp := by
  unfold blockLeft nybblesLeft
  split <;> omega

/-- Entering a block with nybbles left sets nothing and leaves as many. -/
theorem enterBlock_plain {d : Decode} (hleft : 0 < nybblesLeft d.vp) (hhalf : d.vp.half ≤ 1)
    (hzero : d.vp.headerCnt = 0 → d.vp.half = 0) :
    let e := enterBlock m entry v d
    e.endx = d.endx ∧ e.ended = d.ended ∧ e.vp.headerCnt ≠ 0 ∧ e.vp.half ≤ 1 ∧
      blockLeft e.vp = nybblesLeft d.vp := by
  intro e
  unfold nybblesLeft at hleft ⊢
  by_cases hcnt : d.vp.headerCnt = 0
  · rw [if_pos hcnt] at hleft ⊢
    have hend : d.vp.endBits.testBit 0 = false := by
      by_contra hset
      rw [if_pos (by simpa using hset)] at hleft
      exact absurd hleft (lt_irrefl 0)
    have he : e = _ := enterBlock_header m entry v hcnt hend
    rw [he, hend]
    simp [readHeader, blockLeft, hzero hcnt]
  · have he : e = d := enterBlock_keep m entry v hcnt
    rw [he, if_neg hcnt]
    exact ⟨rfl, rfl, hcnt, hhalf, rfl⟩

/-- **Away from a boundary nothing ends.** -/
theorem decodeLoop_plain : ∀ n d, n ≤ nybblesLeft d.vp → d.vp.half ≤ 1 →
    (d.vp.headerCnt = 0 → d.vp.half = 0) → d.ended = false →
    (decodeLoop m entry v n d).endx = d.endx ∧ (decodeLoop m entry v n d).ended = false := by
  intro n
  induction n with
  | zero => intro d _ _ _ hd; exact ⟨rfl, hd⟩
  | succ n ih =>
      intro d hn hhalf hzero hd
      obtain ⟨hendx, hended, hcnt, hhalf', hleft⟩ :=
        enterBlock_plain m entry v (by omega) hhalf hzero
      unfold decodeLoop
      split
      · dsimp only
        rw [hended, hd, if_neg (by simp)]
        obtain ⟨hpass, -, hhalf'', hzero'⟩ := decodePass_left m.ram hcnt hhalf'
        have hroom := blockLeft_le_nybblesLeft (decodePass m.ram (enterBlock m entry v d)).vp
        have h := ih (decodePass m.ram (enterBlock m entry v d)) (by omega) hhalf'' hzero'
          (hended.trans hd)
        exact ⟨h.1.trans hendx, h.2⟩
      · exact ⟨rfl, hd⟩

/-- The four samples of a start come from one block, whatever its header
says. -/
theorem brrDecode_start {vp : VoiceState} (hcnt : vp.headerCnt = 0) (hend : vp.endBits = 0)
    (hhalf : vp.half = 0) (hmix : vp.mixfrac = 3 * 4096) :
    (brrDecode m entry v vp).endx = false ∧ (brrDecode m entry v vp).ended = false := by
  unfold brrDecode
  apply decodeLoop_plain
  · simp [nybblesLeft, samplesDue, hcnt, hend, hmix]
  · simp [hhalf]
  · exact fun _ => hhalf
  · rfl

end Loop

end OpenSpc
