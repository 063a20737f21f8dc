import OpenSpc.VoiceStream

/-!
# What a starting voice remembers

A start re-initialises every field of a voice that is read before it is
written, except the two samples the filters of its first block start from.  So
two voices that start on the same sample agree from then on if that block does
not look at the samples in which they differ.
-/

namespace OpenSpc

/-- A filter that looks at the last sample only if it is not 0, and at the one
before only from 2 on, does not tell `p`, `q` from `p'`, `q'`. -/
def PastAgrees (filter : Nat) (p q p' q' : Int) : Prop :=
  filter = 0 ∨ p = p' ∧ (filter = 1 ∨ q = q')

instance (filter : Nat) (p q p' q' : Int) : Decidable (PastAgrees filter p q p' q') :=
  inferInstanceAs (Decidable (_ ∨ _))

namespace BrrStream

/-- The same blocks, played after something else. -/
structure SameSource (S S' : BrrStream) : Prop where
  ram : S'.ram = S.ram
  vptr : S'.vptr = S.vptr
  lptr : S'.lptr = S.lptr

variable {S S' : BrrStream}

/-- The same blocks come one after the other. -/
theorem SameSource.block (h : SameSource S S') (q : Nat) : S'.block q = S.block q := by
  induction q with
  | zero => exact congrArg some h.vptr
  | succ q ih =>
      have hnext : S'.nextBlock = S.nextBlock := by
        funext a
        unfold nextBlock
        rw [h.ram, h.lptr]
      rw [BrrStream.block, BrrStream.block, ih, hnext]

/-- The nybbles are decoded the same. -/
theorem SameSource.decodeAt (h : SameSource S S') : S'.decodeAt = S.decodeAt := by
  funext a r p q
  unfold BrrStream.decodeAt nybbleAt
  rw [h.ram]

/-- The samples of a block whose filter does not tell two pasts apart. -/
theorem decodeAt_past {a : BitVec 16} {r : Nat} {p q p' q' : Int}
    (h : PastAgrees (header (S.ram a)).filter p q p' q') :
    S.decodeAt a r p q = S.decodeAt a r p' q' := by
  have hpredict : predict (header (S.ram a)).filter p q = predict (header (S.ram a)).filter p' q' := by
    rcases h with hzero | ⟨rfl, hone | rfl⟩
    · rw [hzero]
      rfl
    · rw [hone]
      rfl
    · rfl
  unfold decodeAt
  dsimp only
  rw [hpredict]

/-- Two samples in agreement are followed by the same one. -/
theorem SameSource.history_succ (h : SameSource S S') {k : Nat}
    (heq : S'.history k = S.history k) : S'.history (k + 1) = S.history (k + 1) := by
  rw [BrrStream.history, BrrStream.history, heq, h.block, h.decodeAt]

/-- **Two samples are enough to forget.**  The first sample ignores the past, and
the second sees the first and what came before. -/
theorem SameSource.history (h : SameSource S S')
    (hpast : PastAgrees (header (S.ram S.vptr)).filter S.prev1 S.prev2 S'.prev1 S'.prev2) (k : Nat) :
    S'.sample k = S.sample k ∧ S'.history (k + 2) = S.history (k + 2) := by
  have hstep (S : BrrStream) (r : Nat) (hr : r < 16) : S.history (r + 1) =
      (S.decodeAt S.vptr r (S.history r).1 (S.history r).2, (S.history r).1) := by
    have hfirst := S.history_succ (q := 0) hr rfl
    rwa [Nat.mul_zero, Nat.zero_add] at hfirst
  have hone : S'.sample 0 = S.sample 0 := by
    unfold sample
    rw [hstep S' 0 (by decide), hstep S 0 (by decide), h.decodeAt, h.vptr]
    exact (decodeAt_past hpast).symm
  have htwo : S'.history 2 = S.history 2 := by
    have hagree : PastAgrees (header (S.ram S.vptr)).filter
        (S.history 1).1 (S.history 1).2 (S'.history 1).1 (S'.history 1).2 := by
      rw [hstep S' 0 (by decide), hstep S 0 (by decide)]
      rcases hpast with hzero | ⟨hp, -⟩
      · exact Or.inl hzero
      · exact Or.inr ⟨hone.symm, Or.inr hp⟩
    have hlast : (S'.history 1).1 = (S.history 1).1 := hone
    rw [hstep S' 1 (by decide), hstep S 1 (by decide), h.decodeAt, h.vptr,
      ← decodeAt_past hagree, hlast]
  have hlater (k : Nat) : S'.history (k + 2) = S.history (k + 2) := by
    induction k with
    | zero => exact htwo
    | succ k ih => exact h.history_succ ih
  refine ⟨?_, hlater k⟩
  cases k with
  | zero => exact hone
  | succ k => exact congrArg Prod.fst (hlater k)

/-- A position past the fourth sample determines the decoder. -/
theorem At.unique {k : Nat} {vp vp' : VoiceState} (hS : SameSource S S') (hk : 4 ≤ k)
    (hhist : S'.history k = S.history k) (hsample : ∀ i, S'.sample i = S.sample i)
    (h : S.At k vp) (h' : S'.At k vp') :
    vp' = { vp with
      envcnt := vp'.envcnt, envstate := vp'.envstate, envx := vp'.envx, onCnt := vp'.onCnt
      pitch := vp'.pitch, mixfrac := vp'.mixfrac } := by
  obtain ⟨hsmp1, hsmp2⟩ : vp'.smp1 = vp.smp1 ∧ vp'.smp2 = vp.smp2 := by
    rw [← Prod.mk.injEq, h.history, h'.history, hhist]
  have hptr : vp'.sampptr = vp.sampptr := by
    rw [h.ring.ptr, h'.ring.ptr]
  have hbuf : vp'.sampbuf = vp.sampbuf := by
    funext j
    have hread := h.ring.read hk (j - vp.sampptr)
    have hread' := h'.ring.read hk (j - vp.sampptr)
    rw [hptr] at hread'
    rw [add_sub_cancel] at hread hread'
    rw [hread, hread', hsample]
  rcases h.place with ⟨hzero, -⟩ | ⟨q, a, r, hq, h0, h16, hin⟩
  · omega
  rcases h'.place with ⟨hzero, -⟩ | ⟨q', a', r', hq', h0', h16', hin'⟩
  · omega
  obtain ⟨rfl, rfl⟩ : q' = q ∧ r' = r := by omega
  obtain rfl : a' = a := by
    have hblock := hin'.block
    rw [hS.block, hin.block] at hblock
    exact (Option.some.inj hblock).symm
  have hmem : vp'.memPtr = vp.memPtr := hin'.memPtr.trans hin.memPtr.symm
  have hcnt : vp'.headerCnt = vp.headerCnt := hin'.headerCnt.trans hin.headerCnt.symm
  have hhalf : vp'.half = vp.half := hin'.half.trans hin.half.symm
  have hrange : vp'.range = vp.range := by
    rw [hin.range, hin'.range, hS.ram]
  have hfilter : vp'.filter = vp.filter := by
    rw [hin.filter, hin'.filter, hS.ram]
  have hend : vp'.endBits = vp.endBits := by
    rw [hin.endBits, hin'.endBits, hS.ram]
  rw [← hmem, ← hcnt, ← hhalf, ← hrange, ← hfilter, ← hend, ← hptr, ← hbuf, ← hsmp1, ← hsmp2]

/-- **Two starts decode alike** if their pasts agree for the first block. -/
theorem SameSource.brrDecode_start {m : Mem} {entry : Nat} {vp vp' : VoiceState}
    (hS : SameSource S S')
    (hpast : PastAgrees (header (S.ram S.vptr)).filter S.prev1 S.prev2 S'.prev1 S'.prev2)
    (hb : S.Backs m entry) (hb' : S'.Backs m entry) (h : S.At 0 vp) (h' : S'.At 0 vp') (v : Fin 8)
    (hmix : vp.mixfrac = 3 * 4096) (hmix' : vp'.mixfrac = 3 * 4096)
    (hcontrol : vp'.control = vp.control) (henvx : vp'.envx = vp.envx) :
    (brrDecode m entry v vp').endx = (brrDecode m entry v vp).endx ∧
      (brrDecode m entry v vp').ended = (brrDecode m entry v vp).ended ∧
      (brrDecode m entry v vp').vp = (brrDecode m entry v vp).vp := by
  obtain ⟨hendx, hended, hat⟩ := BrrStream.brrDecode_start h hb v hmix
  obtain ⟨hendx', hended', hat'⟩ := BrrStream.brrDecode_start h' hb' v hmix'
  refine ⟨hendx'.trans hendx.symm, hended'.trans hended.symm, ?_⟩
  obtain ⟨hc, hx⟩ := brrDecode_control m entry v vp
  obtain ⟨hc', hx'⟩ := brrDecode_control m entry v vp'
  have hafter := brrDecode_mixfrac m entry v vp
  have hafter' := brrDecode_mixfrac m entry v vp'
  rw [hmix] at hafter
  rw [hmix', ← hafter] at hafter'
  rw [hended, if_neg Bool.false_ne_true] at hx
  rw [hended', if_neg Bool.false_ne_true, henvx, ← hx] at hx'
  rw [hcontrol, ← hc] at hc'
  simp only [VoiceState.control, Prod.mk.injEq] at hc'
  obtain ⟨hcnt, hst, hon, hpitch⟩ := hc'
  have hsame := At.unique hS (by decide) (hS.history hpast 2).2
    (fun i => (hS.history hpast i).1) hat hat'
  rw [hsame, hcnt, hst, hx', hon, hpitch, hafter']

end BrrStream

/-! ## Two voices -/

/-- Two cells that differ at most in the state of a voice that is off, and
there not in the countdown. -/
structure CellAgree (c c' : VoiceCell) : Prop where
  rest : c' = { c with vp := c'.vp }
  onCnt : c'.vp.onCnt = c.vp.onCnt
  sounding : c.key = true → c'.vp = c.vp

namespace CellAgree

variable {c c' : VoiceCell}

/-- Cells in agreement sound together. -/
theorem key (h : CellAgree c c') : c'.key = c.key := by rw [h.rest]

/-- Cells in agreement have the same bit of KON. -/
theorem kon (h : CellAgree c c') : c'.kon = c.kon := by rw [h.rest]

/-- Cells in agreement have the same bit of ENDX. -/
theorem endx (h : CellAgree c c') : c'.endx = c.endx := by rw [h.rest]

/-- Cells in agreement have the same ENVX. -/
theorem envxReg (h : CellAgree c c') : c'.envxReg = c.envxReg := by rw [h.rest]

/-- Cells in agreement have the same OUTX. -/
theorem outxReg (h : CellAgree c c') : c'.outxReg = c.outxReg := by rw [h.rest]

end CellAgree

/-- A cell agrees with itself. -/
theorem CellAgree.of_eq {c c' : VoiceCell} (h : c' = c) : CellAgree c c' := by
  subst h
  exact ⟨rfl, rfl, fun _ => rfl⟩

/-- The header filter of the first block a voice starting here decodes. -/
def firstFilter (i : VoiceInput) : Nat := (BrrStream.header (i.mem.ram (i.mem.vptr i.entry))).filter

namespace VoiceCell

variable {v : Fin 8} {i : VoiceInput} {outx : Int} {c c' : VoiceCell}

/-- The key rules keep two cells in agreement, the voice state apart. -/
theorem keyRules_agree (h : CellAgree c c') :
    c'.keyRules i = { c.keyRules i with vp := (c'.keyRules i).vp } ∧
      (c'.keyRules i).vp.onCnt = (c.keyRules i).vp.onCnt := by
  have hrest := h.rest
  have hcnt := h.onCnt
  generalize c'.vp = w at hrest hcnt
  subst hrest
  constructor
  · unfold keyRules keyOn accept keyOff accepts starts
    dsimp only at hcnt ⊢
    rw [hcnt]
    split <;> split <;> split <;> rfl
  · rw [keyRules_onCnt, keyRules_onCnt]
    unfold keyedOff accepts starts
    dsimp only at hcnt ⊢
    rw [hcnt]

/-- A start is in `ATTACK`, unless it is keyed off at once. -/
theorem keyRules_envstate (h : c.starts = true) :
    (c.keyRules i).vp.envstate = if c.keyedOff i then .release else .attack := by
  have hon : (c.keyOn i).vp.envstate = .attack ∧ (c.keyOn i).key = true := by
    unfold keyOn
    rw [if_pos h]
    exact ⟨rfl, rfl⟩
  have hacc : ((c.keyOn i).accept i).vp.envstate = .attack := by
    unfold accept
    split
    · exact hon.1
    · exact hon.1
  unfold keyRules keyOff keyedOff
  rw [accept_key, hon.2, h, Bool.or_true]
  split
  · rfl
  · exact hacc

/-- What `play` needs to know of the decode loop. -/
theorem play_congr {envx : Int} {w w' : VoiceState} {b : Byte}
    (hvp : (decode v i outx w').vp = (decode v i outx w).vp)
    (hendx : (decode v i outx w').endx = (decode v i outx w).endx)
    (hended : (decode v i outx w').ended = (decode v i outx w).ended) :
    (play v i outx envx { c with vp := w', envxReg := b }).cell =
        (play v i outx envx { c with vp := w, envxReg := b }).cell ∧
      (play v i outx envx { c with vp := w', envxReg := b }).outx =
        (play v i outx envx { c with vp := w, envxReg := b }).outx := by
  unfold play
  dsimp only
  rw [hvp, hendx, hended]
  exact ⟨rfl, rfl⟩

section Start

variable (h : CellAgree c c') (hs : c.starts = true)

include h hs

/-- Both cells start. -/
theorem starts_agree : c'.starts = true := by
  unfold starts
  rw [h.onCnt]
  exact hs

/-- Two starts begin with the same envelope. -/
theorem start_envelope :
    (c'.keyRules i).vp.withEnvelope (c.keyRules i).vp = (c'.keyRules i).vp := by
  have hs' := starts_agree h hs
  have hkeyed : c'.keyedOff i = c.keyedOff i := by
    unfold keyedOff
    rw [hs, hs', Bool.or_true, Bool.or_true]
  have hst : (c'.keyRules i).vp.envstate = (c.keyRules i).vp.envstate := by
    rw [keyRules_envstate hs, keyRules_envstate hs', hkeyed]
  have hvp := keyRules_vp i c
  have hvp' := keyRules_vp i c'
  rw [if_pos hs] at hvp
  rw [if_pos hs'] at hvp'
  have hc : (c.keyRules i).vp.envcnt = cntInit := by rw [hvp]; rfl
  have hc' : (c'.keyRules i).vp.envcnt = cntInit := by rw [hvp']; rfl
  have hx : (c.keyRules i).vp.envx = 0 := by rw [hvp]; rfl
  have hx' : (c'.keyRules i).vp.envx = 0 := by rw [hvp']; rfl
  unfold VoiceState.withEnvelope
  rw [hc, ← hc', hx, ← hx', ← hst]

variable (v outx) in
/-- Two starts decode the same four samples, whatever their envelope has
become. -/
theorem start_decode (hinv : DecoderInv c.vp) (hinv' : DecoderInv c'.vp)
    (hpast : PastAgrees (firstFilter i) c.vp.smp1 c.vp.smp2 c'.vp.smp1 c'.vp.smp2)
    (w : VoiceState) :
    let x := (c.keyRules i).vp.withEnvelope w
    let x' := (c'.keyRules i).vp.withEnvelope w
    (decode v i outx x').endx = (decode v i outx x).endx ∧
      (decode v i outx x').ended = (decode v i outx x).ended ∧
      (decode v i outx x').vp = (decode v i outx x).vp := by
  intro x x'
  obtain ⟨hat, hmix⟩ := keyRules_start_at (i := i) hinv hs
  obtain ⟨hat', hmix'⟩ := keyRules_start_at (i := i) hinv' (starts_agree h hs)
  have hin : (voiceStream i c.vp hinv).At 0 { x with pitch := effPitch i outx } :=
    hat.control _ _ _ _ _ _
  have hin' : (voiceStream i c'.vp hinv').At 0 { x' with pitch := effPitch i outx } :=
    hat'.control _ _ _ _ _ _
  have hcontrol : { x' with pitch := effPitch i outx }.control =
      { x with pitch := effPitch i outx }.control := by
    have hcnt : x'.onCnt = x.onCnt := (keyRules_agree h).2
    unfold VoiceState.control
    rw [hcnt]
    rfl
  have hsource : BrrStream.SameSource (voiceStream i c.vp hinv) (voiceStream i c'.vp hinv') :=
    ⟨rfl, rfl, rfl⟩
  exact hsource.brrDecode_start hpast ⟨fun _ _ => rfl, rfl⟩ ⟨fun _ _ => rfl, rfl⟩ hin hin' v hmix
    hmix' hcontrol rfl

omit h in
/-- A start comes out of its envelope step at a level from zero on. -/
theorem start_level {w : VoiceState} {b : Byte}
    (he : advanceEnvelope i.adsr1 i.adsr2 i.gain (c.keyRules i).vp = some (w, b)) :
    0 ≤ w.envx := by
  have hvp := keyRules_vp i c
  rw [if_pos hs] at hvp
  have hx : (c.keyRules i).vp.envx = 0 := by
    rw [hvp]
    rfl
  exact (advanceEnvelope_bounds he hx.ge (hx.trans_le (by decide))).1

/-- Two voices that start alike leave the same cell and the same output. -/
theorem pass_start (hinv : DecoderInv c.vp) (hinv' : DecoderInv c'.vp)
    (hpast : PastAgrees (firstFilter i) c.vp.smp1 c.vp.smp2 c'.vp.smp1 c'.vp.smp2) :
    CellAgree (pass v i outx c).cell (pass v i outx c').cell ∧
      (pass v i outx c').outx = (pass v i outx c).outx := by
  obtain ⟨hrest, hcnt⟩ := keyRules_agree (i := i) h
  have hkey : (c.keyRules i).key = true := by
    rw [keyRules_key, hs, Bool.or_true]
  have hadv := advanceEnvelope_withEnvelope i.adsr1 i.adsr2 i.gain (c'.keyRules i).vp
    (c.keyRules i).vp
  rw [start_envelope h hs] at hadv
  unfold pass
  dsimp only
  rw [hrest]
  dsimp only
  rw [if_pos hkey, if_pos hkey, hadv]
  cases he : advanceEnvelope i.adsr1 i.adsr2 i.gain (c.keyRules i).vp with
  | none => exact ⟨⟨rfl, hcnt, fun hk => by cases hk⟩, rfl⟩
  | some r =>
      obtain ⟨w, b⟩ := r
      have hw : w = (c.keyRules i).vp.withEnvelope w := advanceEnvelope_frame he
      obtain ⟨hendx, hended, hvp⟩ := start_decode v outx h hs hinv hinv' hpast w
      rw [← hw] at hendx hended hvp
      obtain ⟨hcell, hout⟩ := play_congr (c := c.keyRules i) (b := b) hvp hendx hended
      have hlevel : ¬ w.envx < 0 := (start_level hs he).not_gt
      have hlevel' : ¬ ((c'.keyRules i).vp.withEnvelope w).envx < 0 := hlevel
      dsimp only [Option.map_some]
      rw [if_neg hlevel, if_neg hlevel']
      exact ⟨.of_eq hcell, hout⟩

end Start

/-- **A pass forgets the past.**  Two cells in agreement are in agreement after
the pass, and hand on the same output, if a start in this pass does not see
how they differ.  Without a start they are both silent, or the same voice. -/
theorem pass_agree (h : CellAgree c c') (hinv : DecoderInv c.vp) (hinv' : DecoderInv c'.vp)
    (hpast : c.starts = true →
      PastAgrees (firstFilter i) c.vp.smp1 c.vp.smp2 c'.vp.smp1 c'.vp.smp2) :
    CellAgree (pass v i outx c).cell (pass v i outx c').cell ∧
      (pass v i outx c').outx = (pass v i outx c).outx := by
  cases hs : c.starts
  · cases hk : c.key
    · obtain ⟨hrest, hcnt⟩ := keyRules_agree (i := i) h
      have hkey : ¬ (c.keyRules i).key = true := by
        rw [keyRules_key, hs, hk]
        decide
      unfold pass
      dsimp only
      rw [hrest]
      dsimp only
      rw [if_neg hkey, if_neg hkey]
      exact ⟨⟨rfl, hcnt, fun hon => absurd hon hkey⟩, rfl⟩
    · have hsame : c' = c := by
        rw [h.rest, h.sounding hk]
      rw [hsame]
      exact ⟨.of_eq rfl, rfl⟩
  · exact pass_start h hs hinv hinv' (hpast hs)

end VoiceCell

end OpenSpc
