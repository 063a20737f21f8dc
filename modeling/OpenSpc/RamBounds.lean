import OpenSpc.DspInvariant
import OpenSpc.KeyProtocol

/-!
# Where the DSP reaches into RAM

Block pointers are 16 bits wide and the echo slot is masked to a multiple of
four, so these accesses stay inside the 64K.  The directory lookup is not
masked: with DIR at 0xFD, 0xFE or 0xFF the upper entries of the directory lie
past the end.  `dspLog_inRam_iff` says that these lookups, when they are made,
are the only accesses that leave RAM.
-/

namespace OpenSpc

open ByteMask (bit)

/-- The event does not access RAM outside its 65536 bytes. -/
def Event.InRam : Event → Prop
  | .read i => i < 0x10000
  | .write i => i < 0x10000
  | _ => True

/-- No event of the log accesses RAM outside its 65536 bytes. -/
def LogInRam (l : List Event) : Prop := ∀ e ∈ l, e.InRam

/-- One log after another. -/
theorem logInRam_append {l l' : List Event} (h : LogInRam l) (h' : LogInRam l') :
    LogInRam (l ++ l') := by
  intro e he
  rcases List.mem_append.mp he with he | he
  · exact h e he
  · exact h' e he

/-- A read at a pointer of 16 bits. -/
theorem logInRam_pointer (p : BitVec 16) : LogInRam [.read p.toNat] := by
  intro e he
  rw [List.mem_singleton] at he
  subst he
  exact p.isLt

/-- The end of a block is no access. -/
theorem logInRam_endBlock (v : Fin 8) : LogInRam [.endBlock v] := by
  intro e he
  rw [List.mem_singleton] at he
  subst he
  trivial

/-! ## The decode loop -/

/-- The loop is going to fetch the loop pointer: the current block ends the
sample with its loop flag set, and more samples are due than it has left. -/
def Loops (vp : VoiceState) : Prop := vp.endBits = 3 ∧ blockLeft vp < samplesDue vp.mixfrac

instance (vp : VoiceState) : Decidable (Loops vp) := inferInstanceAs (Decidable (_ ∧ _))

section Loop

variable (m : Mem) (entry : Nat) (v : Fin 8)

/-- The flags of a header in range are its two bits. -/
theorem endBits_cases {n : Nat} (h : n < 4) :
    (n.testBit 0 = false ∧ n ≠ 3) ∨ (n.testBit 0 = true ∧ n.testBit 1 = false ∧ n ≠ 3) ∨
      (n.testBit 0 = true ∧ n.testBit 1 = true ∧ n = 3) := by
  have hall : ∀ k : Fin 4, ((k : Nat).testBit 0 = false ∧ (k : Nat) ≠ 3) ∨
      ((k : Nat).testBit 0 = true ∧ (k : Nat).testBit 1 = false ∧ (k : Nat) ≠ 3) ∨
      ((k : Nat).testBit 0 = true ∧ (k : Nat).testBit 1 = true ∧ (k : Nat) = 3) := by decide
  exact hall ⟨n, h⟩

/-- Between two blocks nothing is left of the first. -/
theorem blockLeft_empty {vp : VoiceState} (hcnt : vp.headerCnt = 0) : blockLeft vp = 0 := by
  unfold blockLeft
  omega

/-- A new block has all its sixteen nybbles left. -/
theorem readHeader_blockLeft {vp : VoiceState} (hinv : DecoderInv vp) (hcnt : vp.headerCnt = 0)
    (ram : Ram) : blockLeft (readHeader ram vp) = 16 := by
  unfold blockLeft
  rw [show (readHeader ram vp).half = 0 from hinv.half_zero hcnt]
  rfl

/-- Until a loop pointer is fetched, every access is inside RAM.  A block that
does not loop is followed by a whole block at least, or by none, and so by
sixteen nybbles before anything can happen. -/
theorem decodeLoop_inRam : ∀ n d, DecoderInv d.vp →
    n ≤ blockLeft d.vp + (if d.vp.endBits = 3 then 0 else 16) → LogInRam d.log →
    LogInRam (decodeLoop m entry v n d).log := by
  intro n
  induction n with
  | zero => intro d _ _ hlog; exact hlog
  | succ n ih =>
      intro d hinv hn hlog
      have hpass (d : Decode) (hinv : DecoderInv d.vp) (hcnt : d.vp.headerCnt ≠ 0)
          (hleft : n < blockLeft d.vp + (if d.vp.endBits = 3 then 0 else 16))
          (hlog : LogInRam d.log) : LogInRam (decodeLoop m entry v n (decodePass m.ram d)).log := by
        obtain ⟨hone, hend, -, -⟩ := decodePass_left m.ram hcnt hinv.half_le
        exact ih _ (hinv.decodePass hcnt m.ram) (by rw [hend]; omega)
          (logInRam_append hlog (logInRam_pointer _))
      unfold decodeLoop
      split
      · dsimp only
        by_cases hcnt : d.vp.headerCnt = 0
        · have hempty := blockLeft_empty hcnt
          rcases endBits_cases hinv.endBits_lt with ⟨h0, h3⟩ | ⟨h0, h1, -⟩ | ⟨-, -, h3⟩
          · rw [enterBlock_header m entry v hcnt h0]
            have hnew := readHeader_blockLeft hinv hcnt m.ram
            have hheader := logInRam_append hlog (logInRam_pointer d.vp.memPtr)
            rw [if_neg h3] at hn
            dsimp only
            split
            · exact hheader
            · apply hpass _ (hinv.readHeader hcnt m.ram) (by simp [readHeader]) _ hheader
              dsimp only
              omega
          · rw [enterBlock_end m entry v hcnt h0 h1, if_pos rfl]
            exact logInRam_append hlog (logInRam_endBlock v)
          · rw [hempty, if_pos h3] at hn
            omega
        · rw [enterBlock_keep m entry v hcnt]
          split
          · exact hlog
          · exact hpass d hinv hcnt hn hlog
      · exact hlog

/-- A directory entry inside RAM keeps every access inside RAM. -/
theorem brrDecode_inRam_of_entry (hentry : entry + 3 < 0x10000) (vp : VoiceState) :
    LogInRam (brrDecode m entry v vp).log := by
  refine decodeLoop_keeps m entry v (P := fun d => LogInRam d.log) ?_ ?_ _ _ rfl
    (fun e he => absurd he List.not_mem_nil)
  · intro d _ _ hlog
    rcases enterBlock_cases m entry v d with ⟨-, hd⟩ | ⟨-, hd⟩ | ⟨-, hd⟩ | ⟨-, hd⟩
    · rwa [hd]
    · rw [hd]
      exact logInRam_append hlog (logInRam_pointer _)
    · rw [hd]
      refine logInRam_append hlog fun e he => ?_
      simp only [List.mem_cons, List.not_mem_nil, or_false] at he
      rcases he with rfl | rfl | rfl | rfl
      · trivial
      · exact Nat.lt_of_succ_lt hentry
      · exact hentry
      · exact logInRam_pointer _ _ (List.mem_singleton.mpr rfl)
    · rw [hd]
      exact logInRam_append hlog (logInRam_endBlock v)
  · intro d _ _ hlog
    exact logInRam_append hlog (logInRam_pointer _)

/-- The loop never forgets an event. -/
theorem decodeLoop_log {e : Event} (n : Nat) {d : Decode} (hd : d.ended = false)
    (he : e ∈ d.log) : e ∈ (decodeLoop m entry v n d).log := by
  refine decodeLoop_keeps m entry v (P := fun d => e ∈ d.log) ?_ ?_ n d hd he
  · intro d _ _ hd
    rcases enterBlock_cases m entry v d with ⟨-, he⟩ | ⟨-, he⟩ | ⟨-, he⟩ | ⟨-, he⟩
    · rwa [he]
    · rw [he]
      exact List.mem_append_left _ hd
    · rw [he]
      exact List.mem_append_left _ hd
    · rw [he]
      exact List.mem_append_left _ hd
  · intro d _ _ hd
    exact List.mem_append_left _ hd

/-- The loop pointer is fetched as soon as the block is used up. -/
theorem decodeLoop_fetches : ∀ n d, DecoderInv d.vp → d.ended = false → d.vp.endBits = 3 →
    samplesDue d.vp.mixfrac = n → blockLeft d.vp < n →
    .read (entry + 3) ∈ (decodeLoop m entry v n d).log := by
  intro n
  induction n with
  | zero => intro d _ _ _ _ hleft; exact absurd hleft (Nat.not_lt_zero _)
  | succ n ih =>
      intro d hinv hd h3 hdue hleft
      have hmix : d.vp.mixfrac ≥ 0 := by
        by_contra hneg
        rw [samplesDue_of_neg (by omega)] at hdue
        omega
      unfold decodeLoop
      rw [if_pos hmix]
      dsimp only
      by_cases hcnt : d.vp.headerCnt = 0
      · rw [enterBlock_loop m entry v hcnt (by rw [h3]; decide) (by rw [h3]; decide)]
        dsimp only
        rw [hd, if_neg Bool.false_ne_true]
        exact decodeLoop_log m entry v n rfl (List.mem_append_left _ (by simp))
      · rw [enterBlock_keep m entry v hcnt, hd, if_neg Bool.false_ne_true]
        obtain ⟨hpass, hend, -, -⟩ := decodePass_left m.ram hcnt hinv.half_le
        have hspent := decodePass_mixfrac m.ram d
        have hsucc := samplesDue_succ hmix
        exact ih _ (hinv.decodePass hcnt m.ram) hd (hend.trans h3) (by rw [hspent]; omega)
          (by omega)

/-- **The accesses of a decode loop.**  They stay inside RAM unless a loop
pointer outside RAM is fetched. -/
theorem brrDecode_inRam_iff {vp : VoiceState} (hinv : DecoderInv vp)
    (hmix : vp.mixfrac ≤ 0x7FFF) :
    LogInRam (brrDecode m entry v vp).log ↔ (Loops vp → entry + 3 < 0x10000) := by
  constructor
  · rintro hlog ⟨h3, hleft⟩
    exact hlog _ (decodeLoop_fetches m entry v _ _ hinv rfl h3 rfl hleft)
  · intro hentry
    by_cases hloops : Loops vp
    · exact brrDecode_inRam_of_entry m entry v (hentry hloops) vp
    · have hdue : samplesDue vp.mixfrac ≤ 8 := by
        unfold samplesDue
        omega
      refine decodeLoop_inRam m entry v _ _ hinv ?_ (fun e he => absurd he List.not_mem_nil)
      unfold Loops at hloops
      dsimp only
      split
      · rename_i h3
        simp only [h3, true_and, Nat.not_lt] at hloops
        omega
      · omega

end Loop

/-! ## A pass and an update -/

/-- A pass for voice `v` looks its sample up in the directory: at a start the
start pointer, in the decode loop the loop pointer. -/
def VoiceCell.LooksUp (i : VoiceInput) (c : VoiceCell) : Prop :=
  c.starts = true ∨ ∃ vp, c.playing i = some vp ∧ Loops vp

/-- **The accesses of a pass** stay inside RAM exactly if a directory entry that
it looks up does. -/
theorem VoiceCell.pass_inRam_iff {v : Fin 8} {i : VoiceInput} {outx : Int} {c : VoiceCell}
    (hinv : VoiceInv c.vp) (hentry : 4 ∣ i.entry) :
    LogInRam (pass v i outx c).log ↔ (c.LooksUp i → i.entry + 3 < 0x10000) := by
  constructor
  · rintro hlog (hstarts | ⟨vp, hplaying, hloops⟩)
    · have hread : (Event.read (i.entry + 1)).InRam := by
        apply hlog
        rw [mem_pass_log, mem_keyEvents]
        exact Or.inl (Or.inl ⟨hstarts, Or.inr (Or.inr rfl)⟩)
      change i.entry + 1 < 0x10000 at hread
      omega
    · obtain ⟨b, -, hadv, -⟩ := playing_eq_some.mp hplaying
      have hvp := hinv.keyRules.advanceEnvelope hadv
      have hdecode : LogInRam (decode v i outx vp).log := by
        intro e he
        apply hlog
        rw [mem_pass_log]
        exact Or.inr ⟨vp, hplaying, he⟩
      exact (brrDecode_inRam_iff i.mem i.entry v (hvp.setPitch (effPitch i outx))
        hvp.mixfrac_le).mp hdecode hloops
  · intro hlook e he
    rw [mem_pass_log, mem_keyEvents] at he
    rcases he with ((⟨hs, rfl | rfl | rfl⟩ | ⟨-, rfl⟩ | ⟨-, rfl⟩) | ⟨vp, hplaying, he⟩)
    · trivial
    · have := hlook (Or.inl hs)
      change i.entry < 0x10000
      omega
    · have := hlook (Or.inl hs)
      change i.entry + 1 < 0x10000
      omega
    · trivial
    · trivial
    · obtain ⟨b, -, hadv, -⟩ := playing_eq_some.mp hplaying
      have hvp := hinv.keyRules.advanceEnvelope hadv
      refine (brrDecode_inRam_iff i.mem i.entry v (hvp.setPitch (effPitch i outx))
        hvp.mixfrac_le).mpr (fun hloops => ?_) e he
      exact hlook (Or.inr ⟨vp, hplaying, hloops⟩)

/-- The update from `s` looks up the directory entry of voice `v`. -/
def LooksUp (host : Nat → Byte) (s : Dsp) (v : Fin 8) : Prop :=
  (voiceCell v (prelude s)).LooksUp (voiceInput host v (prelude s))

/-- The prelude leaves the directory entries. -/
theorem prelude_dirEntry (s : Dsp) (v : Fin 8) : dirEntry (prelude s) v = dirEntry s v :=
  congrArg VoiceInput.entry (prelude_input (fun _ => 0) s v)

/-- An echo slot starts at a multiple of four. -/
theorem echoBase_dvd {s : Dsp} (h : 4 ∣ s.echoPtr) : 4 ∣ echoBase s := by
  unfold echoBase
  omega

/-- The echo slot lies inside RAM. -/
theorem DspInv.slot_inRam {s : Dsp} (h : DspInv s) {i : Nat}
    (hi : i ∈ slotIndices (echoBase (prelude s))) : i < 0x10000 := by
  have hptr : 4 ∣ (prelude s).echoPtr := by
    rw [prelude_echoPtr]
    split
    · exact dvd_zero 4
    · exact h.echoPtr
  have hbase := echoBase_dvd hptr
  have hlt : echoBase (prelude s) < 2 ^ 16 := Nat.mod_lt _ (by decide)
  unfold slotIndices at hi
  simp only [List.mem_cons, List.not_mem_nil, or_false] at hi
  omega

/-- The accesses of an update from a state that keeps the invariant. -/
theorem DspInv.log_inRam {s : Dsp} (hinv : DspInv s) (host : Nat → Byte) :
    LogInRam (dspLog host s) ↔ ∀ v, LooksUp host s v → dirEntry s v + 3 < 0x10000 := by
  have hpass (v : Fin 8) : LogInRam (cellPass host s v).log ↔
      (LooksUp host s v → dirEntry s v + 3 < 0x10000) := by
    rw [← prelude_dirEntry]
    refine VoiceCell.pass_inRam_iff (hinv.prelude_voice v) ?_
    change 4 ∣ dirEntry (prelude s) v
    unfold dirEntry
    omega
  constructor
  · intro hlog v
    refine (hpass v).mp fun e he => hlog e ?_
    unfold dspLog
    rw [mem_dspUpdate_log]
    exact Or.inl ⟨v, he⟩
  · intro hlook e he
    unfold dspLog at he
    rw [mem_dspUpdate_log] at he
    rcases he with ⟨v, he⟩ | he | ⟨-, he⟩
    · exact (hpass v).mpr (hlook v) e he
    · obtain ⟨i, hi, rfl⟩ := List.mem_map.mp he
      exact hinv.slot_inRam hi
    · obtain ⟨i, hi, rfl⟩ := List.mem_map.mp he
      exact hinv.slot_inRam hi

/-- A directory below page 0xFD lies inside RAM whatever the sources are. -/
theorem dirEntry_inRam {s : Dsp} (h : (s.dspRegs 0x5D).toNat < 0xFD) (v : Fin 8) :
    dirEntry s v + 3 < 0x10000 := by
  unfold dirEntry
  omega

/-- With the directory there, no access leaves RAM. -/
theorem lowDirectory_inRam (host : Nat → Byte) {s : Dsp} (h : Reachable s)
    (hdir : (s.dspRegs 0x5D).toNat < 0xFD) : LogInRam (dspLog host s) :=
  (h.inv.log_inRam host).mpr fun v _ => dirEntry_inRam hdir v

/-- A start reads the start pointer of its directory entry. -/
theorem keyOn_reads {host : Nat → Byte} {s : Dsp} {v : Fin 8}
    (h : .keyOn v ∈ dspLog host s) : .read (dirEntry s v) ∈ dspLog host s := by
  rw [mem_dspLog_voice rfl] at h
  unfold cellPass at h
  rw [VoiceCell.mem_pass_log_key _ _ _ _ (by simp) (by simp), VoiceCell.mem_keyEvents] at h
  unfold dspLog
  rw [mem_dspUpdate_log, ← prelude_dirEntry]
  refine Or.inl ⟨v, ?_⟩
  unfold cellPass
  rw [VoiceCell.mem_pass_log, VoiceCell.mem_keyEvents]
  rcases h with ⟨hs, -⟩ | ⟨-, h⟩ | ⟨-, h⟩
  · exact Or.inl (Or.inl ⟨hs, Or.inr (Or.inl rfl)⟩)
  · cases h
  · cases h

/-- **Every access is inside RAM, except for directory lookups past its end.** -/
theorem dspLog_inRam_iff (host : Nat → Byte) {s : Dsp} (h : Reachable s) :
    LogInRam (dspLog host s) ↔ ∀ v, LooksUp host s v → dirEntry s v + 3 < 0x10000 :=
  h.inv.log_inRam host

/-- A start that looks its sample up on page 3 and an echo slot on the last
page. -/
theorem echoNoteRun_inRam :
    .read 0x300 ∈ dspLog (fun _ => 0) (echoNoteRun (fun _ => 0) 8) ∧
      .write 0xFF20 ∈ dspLog (fun _ => 0) (echoNoteRun (fun _ => 0) 8) ∧
      LogInRam (dspLog (fun _ => 0) (echoNoteRun (fun _ => 0) 8)) := by
  have hdir : (echoNoteRun (fun _ => 0) 8).dspRegs 0x5D = 3 :=
    drivenRun_reg (f := fun _ => 3) (fun _ _ => rfl) 8
  have hsrc : (echoNoteRun (fun _ => 0) 8).dspRegs (16 * (0 : Fin 8) + 4) = 0 :=
    drivenRun_reg (f := fun _ => 0) (fun _ _ => rfl) 8
  have hflg := echoNoteRun_flg (fun _ => 0) 8
  have hentry : dirEntry (echoNoteRun (fun _ => 0) 8) 0 = 0x300 := by
    unfold dirEntry
    rw [hdir, hsrc]
    rfl
  have hbase : echoBase (prelude (echoNoteRun (fun _ => 0) 8)) = 0xFF20 := by decide +kernel
  refine ⟨?_, ?_, (dspLog_inRam_iff _ (echoNoteRun_reachable _ 8)).mpr fun v _ => ?_⟩
  · rw [← hentry]
    exact keyOn_reads echoNoteRun_keyOn
  · unfold dspLog
    rw [mem_dspUpdate_log]
    refine Or.inr (Or.inr ⟨?_, List.mem_map.mpr ⟨0xFF20, ?_, rfl⟩⟩)
    · rw [prelude_flg, hflg]
      decide
    · rw [hbase]
      decide
  · exact dirEntry_inRam (by rw [hdir]; decide) v

/-! ## A lookup past the end -/

/-- Voice 0 is keyed on before update 0, with source 0xFF of the directory at
page 0xFF. -/
def topPage (t : Nat) (s : Dsp) : Dsp :=
  { s with dspRegs := fun i =>
      if i = 0x6C then 0x20
      else if i = 0x4C then if t = 0 then 1 else 0
      else if i = 0x5D then 0xFF
      else if i = 4 then 0xFF
      else 0 }

/-- The run with this traffic. -/
def topPageRun (host : Nat → Byte) : Nat → Dsp := drivenRun host topPage

/-- The traffic touches nothing but the registers. -/
theorem topPage_busWrite (t : Nat) (s : Dsp) : BusWrite s (topPage t s) := rfl

/-- The run begins after a reset, and FLG never asks for another. -/
theorem topPageRun_isKeyRun (host : Nat → Byte) : IsKeyRun host (topPageRun host) :=
  drivenRun_isKeyRun topPage_busWrite 0x20 (by decide) fun _ _ => rfl

/-- The accepted key-on is that of update 0, and it starts the voice in
update 8. -/
theorem topPageRun_starts (host : Nat → Byte) : .keyOn 0 ∈ dspLog host (topPageRun host 8) := by
  have hrun := topPageRun_isKeyRun host
  have hkon (u : Nat) : (topPageRun host u).dspRegs 0x4C = if u = 0 then 1 else 0 :=
    drivenRun_reg (f := fun u => if u = 0 then 1 else 0) (fun _ _ => rfl) u
  have hkof (u : Nat) : (topPageRun host u).dspRegs 0x5C = 0 :=
    drivenRun_reg (f := fun _ => 0) (fun _ _ => rfl) u
  have hacc (u : Nat) : .accept 0 ∈ dspLog host (topPageRun host u) ↔ u = 0 := by
    rw [mem_dspLog_accept (hrun.noReset u)]
    unfold keyOnRequested
    rw [hkon, hkof]
    split <;> simp_all [bit]
  rw [hrun.keyOn_iff]
  refine ⟨le_rfl, (hacc 0).mpr rfl, fun u h1 h2 => ⟨?_, ?_⟩⟩
  · rw [hacc]
    omega
  · rw [mem_dspLog_keyOff (hrun.noReset u), hkof]
    simp [bit]

/-- The entry of voice 0 lies past RAM. -/
theorem topPageRun_entry (host : Nat → Byte) : dirEntry (topPageRun host 8) 0 = 66300 := by
  have hdir : (topPageRun host 8).dspRegs 0x5D = 0xFF :=
    drivenRun_reg (f := fun _ => 0xFF) (fun _ _ => rfl) 8
  have hsrc : (topPageRun host 8).dspRegs (16 * (0 : Fin 8) + 4) = 0xFF :=
    drivenRun_reg (f := fun _ => 0xFF) (fun _ _ => rfl) 8
  unfold dirEntry
  rw [hdir, hsrc]
  rfl

/-- **A lookup past the end.**  The start in update 8 reads byte 66300. -/
theorem topPageRun_not_inRam :
    Reachable (topPageRun (fun _ => 0) 8) ∧
      ¬ LogInRam (dspLog (fun _ => 0) (topPageRun (fun _ => 0) 8)) := by
  refine ⟨drivenRun_reachable topPage_busWrite 8, fun hlog => ?_⟩
  have hread := hlog _ (keyOn_reads (topPageRun_starts fun _ => 0))
  rw [topPageRun_entry] at hread
  change 66300 < 0x10000 at hread
  omega

end OpenSpc
