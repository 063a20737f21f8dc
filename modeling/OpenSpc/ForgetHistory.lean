import OpenSpc.ForgetUpdate
import OpenSpc.SpcContext
import OpenSpc.TwoRuns

/-!
# Loading forgets

`OSPC_Init` re-creates the CPU's context and resets the DSP, but the voices
keep most of their state.  After an accepted image two libraries with different
pasts answer every further sequence of calls alike, as long as no voice they
start sees a sample of the past.
-/

namespace OpenSpc

open ByteMask (bit)

/-! ## Calls of `Run` -/

/-- The core reads no DSP register from 0x80 on: it ignores bit 7 of the DSP
address when it reads. -/
def CoreReadsLow (core : Bus → Bus) : Prop :=
  ∀ b b' : Bus, b'.cpu = b.cpu → b'.ram = b.ram → (∀ i, i < 0x80 → b'.regs i = b.regs i) →
    (core b').cpu = (core b).cpu ∧ (core b').ram = (core b).ram ∧
      ∀ i, i < 0x80 → (core b').regs i = (core b).regs i

/-- Two machines that differ at most in what is off. -/
structure MachineAgree (m m' : Machine) : Prop where
  cpu : m'.cpu = m.cpu
  dsp : Resembles m.dsp m'.dsp
  inv : DspInv m.dsp
  inv' : DspInv m'.dsp

/-- The update a call makes, if any, starts no voice that sees the past. -/
def CallClean (host : Nat → Byte) (m m' : Machine) : Call → Prop
  | .dspUpdate _ => StartsAgree host m.dsp m'.dsp
  | .spcRun _ => True

instance (host : Nat → Byte) (m m' : Machine) : ∀ c, Decidable (CallClean host m m' c)
  | .dspUpdate _ => inferInstanceAs (Decidable (StartsAgree host m.dsp m'.dsp))
  | .spcRun _ => .isTrue trivial

section Calls

variable {host : Nat → Byte} {core : Bus → Bus} {m m' : Machine}

/-- A cycle of the core keeps the invariant of the DSP. -/
theorem Machine.cycle_inv (h : DspInv m.dsp) : DspInv (m.cycle core).dsp := h.write rfl

/-- A cycle of the core keeps two machines in agreement. -/
theorem MachineAgree.cycle (h : MachineAgree m m') (hcore : CoreReadsLow core) :
    MachineAgree (m.cycle core) (m'.cycle core) := by
  obtain ⟨hcpu, hram, hregs⟩ := hcore ⟨m.cpu, m.dsp.spcRam, m.dsp.dspRegs⟩
    ⟨m'.cpu, m'.dsp.spcRam, m'.dsp.dspRegs⟩ h.cpu h.dsp.spcRam h.dsp.regs
  exact
    { cpu := hcpu
      dsp := ⟨h.dsp.1, h.dsp.2, h.dsp.3, h.dsp.4, h.dsp.5, h.dsp.6, h.dsp.7, hram, hregs, h.dsp.10,
        h.dsp.11, h.dsp.12⟩
      inv := Machine.cycle_inv h.inv
      inv' := Machine.cycle_inv h.inv' }

/-- So do the cycles of a call, by induction on them. -/
theorem MachineAgree.spcRun (hcore : CoreReadsLow core) (n : Nat) :
    ∀ {m m' : Machine}, MachineAgree m m' → MachineAgree (m.spcRun core n) (m'.spcRun core n) := by
  induction n with
  | zero => intro m m' h; exact h
  | succ n ih => intro m m' h; exact ih (h.cycle hcore)

/-- **One call.** -/
theorem MachineAgree.call (h : MachineAgree m m') (hcore : CoreReadsLow core) (c : Call)
    (hclean : CallClean host m m' c) :
    MachineAgree (m.call host core c).1 (m'.call host core c).1 ∧
      (m.call host core c).2 = (m'.call host core c).2 := by
  cases c with
  | dspUpdate buf =>
      obtain ⟨hdsp, hsample⟩ := h.dsp.update h.inv h.inv' hclean buf.isSome
      exact ⟨⟨h.cpu, hdsp, h.inv.dspNext host, h.inv'.dspNext host⟩,
        congrArg Option.toList hsample.symm⟩
  | spcRun n => exact ⟨h.spcRun hcore n, rfl⟩

/-- Calls are made one after the other. -/
theorem Machine.exec_eq_run (host : Nat → Byte) (core : Bus → Bus) (l : List Call) :
    ∀ m : Machine, m.exec host core l =
      ((TwoRuns.run (Machine.call host core) m l).1,
        (TwoRuns.run (Machine.call host core) m l).2.flatten) := by
  induction l with
  | nil => intro m; rfl
  | cons c l ih =>
      intro m
      simp only [Machine.exec, TwoRuns.run, ih, List.flatten_cons]

/-- A call of `Run` keeps the invariant. -/
theorem Machine.call_inv (host : Nat → Byte) (core : Bus → Bus) (s : Machine) (c : Call) (h : DspInv s.dsp) :
    DspInv (s.call host core c).1.dsp := by
  cases c with
  | dspUpdate buf => exact h.dspNext host
  | spcRun n =>
      change DspInv (s.spcRun core n).dsp
      induction n generalizing s with
      | zero => exact h
      | succ n ih => exact ih _ (Machine.cycle_inv h)

/-- **A list of calls.** -/
theorem MachineAgree.exec (h : MachineAgree m m') (hcore : CoreReadsLow core) (l : List Call)
    (hclean : TwoRuns.Along (Machine.call host core) (CallClean host) m m' l) :
    MachineAgree (m.exec host core l).1 (m'.exec host core l).1 ∧
      (m.exec host core l).2 = (m'.exec host core l).2 := by
  have hstep (m m' : Machine) (c : Call) (hm : MachineAgree m m') (hc : CallClean host m m' c) :=
    hm.call hcore c hc
  obtain ⟨hlast, hout⟩ := TwoRuns.agree hstep l m m' h hclean
  rw [Machine.exec_eq_run, Machine.exec_eq_run, hout]
  exact ⟨hlast, rfl⟩

end Calls

/-! ## Loading -/

section Load

variable {d d' : Dsp}

/-- A new context keeps the invariant. -/
theorem newContext_inv (h : DspInv d) : DspInv (newContext d).dsp where
  voice := fun v => (h.voice v).onCnt 0
  echoPtr := dvd_zero 4

/-- A fresh context with 128 registers loaded forgets the registers; what the
voices keep is off. -/
theorem restore_agree (h : DspInv d) (h' : DspInv d') (r : SavedRegs) (ram : Ram) {n : Nat}
    (hn : 0x80 ≤ n) (regs : Regs) :
    MachineAgree ((newContext d).restore r ram n regs) ((newContext d').restore r ram n regs) where
  cpu := rfl
  dsp :=
    { channelMask := rfl
      noiseCnt := rfl
      noiseLev := rfl
      firLbuf := rfl
      firRbuf := rfl
      firPtr := rfl
      echoPtr := rfl
      spcRam := rfl
      regs := by
        intro i hi
        have hlt : i < n := lt_of_lt_of_le hi hn
        unfold Machine.restore
        dsimp only
        rw [if_pos hlt, if_pos hlt]
      keys := rfl
      onCnt := fun _ => rfl
      sounding := by
        intro v hv
        simp [Machine.restore, newContext, dspReset, bit] at hv }
  inv := (newContext_inv h).write rfl
  inv' := (newContext_inv h').write rfl

variable {m m' : Machine}

/-- Loading sets DSP registers in both. -/
theorem MachineAgree.setReg (h : MachineAgree m m') (i : Nat) {b b' : Byte} (hb : b' = b) :
    MachineAgree { m with dsp := m.dsp.setReg i b } { m' with dsp := m'.dsp.setReg i b' } where
  cpu := h.cpu
  dsp := h.dsp.setReg hb
  inv := h.inv.write rfl
  inv' := h.inv'.write rfl

/-- Loading clears the echo in both. -/
theorem MachineAgree.clearEcho (h : MachineAgree m m') :
    MachineAgree { m with dsp := m.dsp.clearEcho } { m' with dsp := m'.dsp.clearEcho } where
  cpu := h.cpu
  dsp :=
    { h.dsp with
      spcRam := by
        unfold Dsp.clearEcho clearLen clearStart
        dsimp only
        rw [h.dsp.regs 0x6D (by decide), h.dsp.regs 0x7D (by decide), h.dsp.spcRam] }
  inv := h.inv.write rfl
  inv' := h.inv'.write rfl

/-- An SPC file makes two new contexts agree, or neither accepts it. -/
theorem loadSpc_agree (h : DspInv d) (h' : DspInv d') (buf : Nat → Byte) (size : Nat) :
    Option.Rel MachineAgree ((newContext d).loadSpc buf size)
      ((newContext d').loadSpc buf size) := by
  unfold Machine.loadSpc
  split
  · exact .none
  · exact .some (restore_agree h h' _ _ (by decide) _)

/-- A ZSNES state makes two new contexts agree, or neither accepts it. -/
theorem loadZst_agree (h : DspInv d) (h' : DspInv d') (buf : Nat → Byte) (size : Nat) :
    Option.Rel MachineAgree ((newContext d).loadZst buf size)
      ((newContext d').loadZst buf size) := by
  unfold Machine.loadZst
  split
  · exact .none
  · have hrestore := restore_agree h h'
      { pc := imageWord buf 265251, a := buf 265255, x := buf 265259, y := buf 265263,
        psw := zstPsw buf, sp := buf 265275 } (imageRam buf zstRamOffset)
      (by decide : 0x80 ≤ 256) fun i => buf (266623 + i)
    exact .some (hrestore.setReg _ (congrArg (zstKon buf · 8) (hrestore.dsp.regs 0x4C (by decide))))

/-- **Loading.**  Both contexts take the image or both reject it, and what they
load agrees. -/
theorem load_agree (h : DspInv d) (h' : DspInv d') (buf : Nat → Byte) (size : Nat) :
    Option.Rel MachineAgree ((newContext d).load buf size true)
      ((newContext d').load buf size true) := by
  have hspc := loadSpc_agree h h' buf size
  have hzst := loadZst_agree h h' buf size
  unfold Machine.load
  generalize (newContext d).loadSpc buf size = a at hspc ⊢
  generalize (newContext d').loadSpc buf size = a' at hspc ⊢
  cases hspc with
  | some hm => exact .some hm.clearEcho
  | none =>
      dsimp only
      generalize (newContext d).loadZst buf size = b at hzst ⊢
      generalize (newContext d').loadZst buf size = b' at hzst ⊢
      cases hzst with
      | none => exact .none
      | some hm => exact .some hm.clearEcho

end Load

/-! ## Calls of the library -/

/-- The library before the first call. -/
def bootLibrary : Library :=
  { machine := { cpu := resetSpc, dsp := zeroDsp }, mixLeft := 0 }

/-- No update the call makes starts a voice that sees the past. -/
def ApiClean (host : Nat → Byte) (core : Bus → Bus) (s s' : Library) : ApiCall → Prop
  | .run cyc buf size =>
      TwoRuns.Along (Machine.call host core) (CallClean host) s.machine s'.machine
        (runPlan s.mixLeft cyc buf (size % 2 ^ 64).toNat).calls
  | _ => True

instance (host : Nat → Byte) (core : Bus → Bus) (s s' : Library) :
    ∀ c, Decidable (ApiClean host core s s' c)
  | .run _ _ _ => inferInstanceAs (Decidable (TwoRuns.Along _ _ _ _ _))
  | .init _ _ => .isTrue trivial
  | .writePort _ _ => .isTrue trivial
  | .readPort _ => .isTrue trivial
  | .setChannelMask _ => .isTrue trivial

/-- Two libraries that differ at most in voices that are off. -/
structure LibraryAgree (s s' : Library) : Prop where
  machine : MachineAgree s.machine s'.machine
  mixLeft : s'.mixLeft = s.mixLeft

section Library

variable {host : Nat → Byte} {core : Bus → Bus} {s s' : Library}

/-- An accepted image makes the libraries agree; with a rejected one they agree
if they did before. -/
theorem LibraryAgree.init (h : DspInv s.machine.dsp) (h' : DspInv s'.machine.dsp)
    {buf : Nat → Byte} {size : Nat}
    (hpast : (s.init buf size).2.ret = 0 ∨ Resembles s.machine.dsp s'.machine.dsp) :
    LibraryAgree (s.init buf size).1 (s'.init buf size).1 ∧
      (s.init buf size).2 = (s'.init buf size).2 := by
  have hload := load_agree h h' buf size
  unfold Library.init at *
  dsimp only at *
  generalize (newContext s.machine.dsp).load buf size true = a at *
  generalize (newContext s'.machine.dsp).load buf size true = a' at *
  cases hload with
  | some hm => exact ⟨⟨hm, rfl⟩, rfl⟩
  | none =>
      obtain hret | hdsp := hpast
      · cases hret
      · have hfresh : Resembles (newContext s.machine.dsp).dsp (newContext s'.machine.dsp).dsp :=
          Resembles.reset { hdsp with channelMask := rfl, spcRam := rfl }
        exact ⟨⟨⟨rfl, hfresh, newContext_inv h, newContext_inv h'⟩, rfl⟩, rfl⟩

/-- **One call of the library.** -/
theorem LibraryAgree.api (h : LibraryAgree s s') (hcore : CoreReadsLow core) (c : ApiCall)
    (hclean : ApiClean host core s s' c) :
    LibraryAgree (s.api host core c).1 (s'.api host core c).1 ∧
      (s.api host core c).2 = (s'.api host core c).2 := by
  obtain ⟨hm, hleft⟩ := h
  cases c with
  | init buf size => exact LibraryAgree.init hm.inv hm.inv' (.inr hm.dsp)
  | run cyc buf size =>
      obtain ⟨hmachine, hpairs⟩ := hm.exec hcore _ hclean
      change LibraryAgree (s.run host core cyc buf size).1 (s'.run host core cyc buf size).1 ∧
        (s.run host core cyc buf size).2 = (s'.run host core cyc buf size).2
      unfold Library.run
      dsimp only
      rw [hleft, hpairs]
      exact ⟨⟨hmachine, rfl⟩, rfl⟩
  | writePort i b =>
      exact ⟨⟨⟨congrArg (spcWritePortR i b) hm.cpu, hm.dsp, hm.inv, hm.inv'⟩, hleft⟩, rfl⟩
  | readPort i =>
      refine ⟨⟨hm, hleft⟩, ?_⟩
      unfold Library.api
      rw [hm.cpu]
  | setChannelMask mask =>
      exact ⟨⟨⟨hm.cpu, { hm.dsp with channelMask := rfl }, ⟨hm.inv.1, hm.inv.2⟩,
        ⟨hm.inv'.1, hm.inv'.2⟩⟩, hleft⟩, rfl⟩

/-- The calls of `Run` keep the invariant, by induction on them. -/
theorem Machine.exec_inv (m : Machine) (l : List Call) (h : DspInv m.dsp) :
    DspInv (m.exec host core l).1.dsp := by
  rw [Machine.exec_eq_run]
  exact TwoRuns.invariant (fun m c => Machine.call_inv host core m c) l m h

/-- Every call keeps the DSP in shape. -/
theorem Library.api_inv (s : Library) (c : ApiCall) (h : DspInv s.machine.dsp) :
    DspInv (s.api host core c).1.machine.dsp := by
  cases c with
  | init buf size =>
      have hload := load_agree h h buf size
      change DspInv (s.init buf size).1.machine.dsp
      unfold Library.init
      dsimp only
      generalize (newContext s.machine.dsp).load buf size true = a at *
      cases hload with
      | none => exact newContext_inv h
      | some hm => exact hm.inv
  | run cyc buf size => exact Machine.exec_inv _ _ h
  | writePort i b => exact h
  | readPort i => exact h
  | setChannelMask mask => exact ⟨h.voice, h.echoPtr⟩

/-- The calls of the library are a run of the single calls. -/
theorem Library.apis_eq_run (host : Nat → Byte) (core : Bus → Bus) (cs : List ApiCall) :
    ∀ s : Library, s.apis host core cs = TwoRuns.run (Library.api host core) s cs := by
  induction cs with
  | nil => intro s; rfl
  | cons c cs ih =>
      intro s
      simp only [Library.apis, TwoRuns.run, ih]

/-- The calls of the library keep the invariant. -/
theorem Library.apis_inv (cs : List ApiCall) (h : DspInv s.machine.dsp) :
    DspInv (s.apis host core cs).1.machine.dsp := by
  rw [Library.apis_eq_run]
  exact TwoRuns.invariant (I := fun s : Library => DspInv s.machine.dsp)
    (fun s c => Library.api_inv s c) cs s h

end Library

/-- **Loading forgets.**  After any two histories of calls and the same accepted
image, the same calls give the same results, as long as no update starts a
voice that sees samples of the past.  One `host` serves both histories: what is
read behind RAM, through a directory from page 0xFD on, is taken to be the
same. -/
theorem init_forgets_history (host : Nat → Byte) (core : Bus → Bus) (hcore : CoreReadsLow core)
    (hist hist' : List ApiCall) (buf : Nat → Byte) (size : Nat) (calls : List ApiCall) :
    let s := (bootLibrary.apis host core hist).1
    let s' := (bootLibrary.apis host core hist').1
    (s.init buf size).2.ret = 0 →
    TwoRuns.Along (Library.api host core) (ApiClean host core) (s.init buf size).1
      (s'.init buf size).1 calls →
    (s.init buf size).2 = (s'.init buf size).2 ∧
      ((s.init buf size).1.apis host core calls).2 =
        ((s'.init buf size).1.apis host core calls).2 := by
  intro s s' haccepted hclean
  have hinv : DspInv s.machine.dsp := Library.apis_inv hist zeroDsp_inv
  have hinv' : DspInv s'.machine.dsp := Library.apis_inv hist' zeroDsp_inv
  obtain ⟨hstart, hret⟩ := LibraryAgree.init hinv hinv' (.inl haccepted)
  have hstep (s s' : Library) (c : ApiCall) (hs : LibraryAgree s s')
      (hc : ApiClean host core s s' c) := hs.api hcore c hc
  have hruns := (TwoRuns.agree hstep calls _ _ hstart hclean).2
  refine ⟨hret, ?_⟩
  rw [Library.apis_eq_run, Library.apis_eq_run]
  exact hruns

/-- An .spc image that keys on voice 0, with every byte of RAM equal to
`header`. -/
def songImage (header : Byte) (i : Nat) : Byte :=
  if i < 27 then spcIdent.getD i 0
  else if i < 256 then 0
  else if i < 65792 then header
  else if i = 65792 + 0x00 ∨ i = 65792 + 0x07 ∨ i = 65792 + 0x0C then 0x7F
  else if i = 65792 + 0x03 then 0x10
  else if i = 65792 + 0x4C then 1
  else if i = 65792 + 0x6C then 0x20
  else 0

/-- One song was played before. -/
def songBefore : List ApiCall := [.init (songImage 0x84) 65920, .run (-1) true 48]

/-- **The first block of a song predicts from the last samples of another.** -/
theorem song_remembers :
    let s := (bootLibrary.apis (fun _ => 0) id []).1
    let s' := (bootLibrary.apis (fun _ => 0) id songBefore).1
    (s.init (songImage 0x84) 65920).2.ret = 0 ∧
      ((s.init (songImage 0x84) 65920).1.apis (fun _ => 0) id [.run (-1) true 36]).2.map
          ApiResult.pairs ≠
        ((s'.init (songImage 0x84) 65920).1.apis (fun _ => 0) id [.run (-1) true 36]).2.map
          ApiResult.pairs := by
  decide +kernel

/-- A core that does nothing reads nothing. -/
theorem id_coreReadsLow : CoreReadsLow id := fun _ _ hcpu hram hregs => ⟨hcpu, hram, hregs⟩

/-- A song whose first block predicts nothing does not hear the one before. -/
theorem unpredictedSong_forgets :
    let s := (bootLibrary.apis (fun _ => 0) id []).1
    let s' := (bootLibrary.apis (fun _ => 0) id songBefore).1
    (s.init (songImage 0x80) 65920).2 = (s'.init (songImage 0x80) 65920).2 ∧
      ((s.init (songImage 0x80) 65920).1.apis (fun _ => 0) id [.run (-1) true 36]).2 =
        ((s'.init (songImage 0x80) 65920).1.apis (fun _ => 0) id [.run (-1) true 36]).2 :=
  init_forgets_history (fun _ => 0) id id_coreReadsLow [] songBefore (songImage 0x80) 65920
    [.run (-1) true 36] (by decide +kernel) (by decide +kernel)

end OpenSpc
