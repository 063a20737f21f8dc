import OpenSpc.BootTransfer

/-!
# Uploading a program

A host sends blocks of bytes to the boot ROM, each after a command that names
its address, and then the command to start at an address.  The mark of a byte
is its index modulo 256, and the mark of a command one that no byte may have.
-/

namespace OpenSpc

open Handshake (Fair)
open Plain (word word_toNat)
open Receiver (target stored Takes Receives)

/-! ## Blocks -/

/-- RAM with bytes from an address on. -/
def load : BitVec 16 → List Byte → Ram → Ram
  | _, [], ram => ram
  | a, d :: ds, ram => load (a + 1) ds (Function.update ram a d)

/-- Bytes that go to RAM, outside the pointer of the boot ROM. -/
structure Block where
  dest : BitVec 16
  bytes : List Byte
  nonempty : bytes ≠ []
  fits : ∀ i < bytes.length,
    InRam (dest + BitVec.ofNat 16 i) ∧ 2 ≤ (dest + BitVec.ofNat 16 i).toNat

/-- RAM with all the blocks in it. -/
def loadBlocks (blocks : List Block) (ram : Ram) : Ram :=
  blocks.foldl (fun ram b => load b.dest b.bytes ram) ram

/-- The same but for the pointer of the boot ROM. -/
def AlikeAbove (ram ram' : Ram) : Prop := ∀ a : BitVec 16, 2 ≤ a.toNat → ram a = ram' a

/-- A store to both keeps them alike. -/
theorem AlikeAbove.update {ram ram' : Ram} (h : AlikeAbove ram ram') (a : BitVec 16) (d : Byte) :
    AlikeAbove (Function.update ram a d) (Function.update ram' a d) := by
  intro a' ha'
  by_cases heq : a' = a
  · rw [heq, Function.update_self, Function.update_self]
  · rw [Function.update_of_ne heq, Function.update_of_ne heq]
    exact h a' ha'

/-- The pointer itself. -/
theorem AlikeAbove.low {ram ram' : Ram} (h : AlikeAbove ram ram') {a : BitVec 16} (d : Byte)
    (ha : a.toNat < 2) : AlikeAbove (Function.update ram a d) ram' := by
  intro a' ha'
  rw [Function.update_of_ne]
  · exact h a' ha'
  · rintro rfl
    omega

/-- A block that is loaded into both keeps them alike. -/
theorem AlikeAbove.load (ds : List Byte) :
    ∀ {a : BitVec 16} {ram ram' : Ram}, AlikeAbove ram ram' →
      AlikeAbove (OpenSpc.load a ds ram) (OpenSpc.load a ds ram') := by
  induction ds with
  | nil => exact fun h => h
  | cons d ds ih => exact fun h => ih (h.update _ d)

/-- So does a list of blocks. -/
theorem AlikeAbove.loadBlocks (bs : List Block) :
    ∀ {ram ram' : Ram}, AlikeAbove ram ram' →
      AlikeAbove (OpenSpc.loadBlocks bs ram) (OpenSpc.loadBlocks bs ram') := by
  induction bs with
  | nil => exact fun h => h
  | cons b bs ih => exact fun h => ih (AlikeAbove.load b.bytes h)

/-- Likeness is transitive. -/
theorem AlikeAbove.trans {ram ram' ram'' : Ram} (h : AlikeAbove ram ram')
    (h' : AlikeAbove ram' ram'') : AlikeAbove ram ram'' :=
  fun a ha => (h a ha).trans (h' a ha)

/-! ## Messages -/

/-- A command; `more` is 0 to start at the address. -/
def commandMessage (kick more : Byte) (a : BitVec 16) : HostMessage where
  data := [(⟨1, by decide⟩, more), (⟨2, by decide⟩, a.setWidth 8),
    (⟨3, by decide⟩, a.extractLsb' 8 8)]
  mark := kick

/-- A byte at an index. -/
def byteMessage (y data : Byte) : HostMessage where
  data := [(⟨1, by decide⟩, data)]
  mark := y

/-- The bytes of a block from an index on. -/
def byteMessages : Byte → List Byte → List HostMessage
  | _, [] => []
  | y, d :: ds => byteMessage y d :: byteMessages (y + 1) ds

/-- The mark of the command after so many bytes. -/
def nextKick (n : Nat) : Byte :=
  if BitVec.ofNat 8 n + 1 = 0 then 1 else BitVec.ofNat 8 n + 1

/-- The blocks, and the start at `entry`. -/
def upload (entry : BitVec 16) : Byte → List Block → List HostMessage
  | kick, [] => [commandMessage kick 0 entry]
  | kick, b :: bs =>
      commandMessage kick 1 b.dest ::
        (byteMessages 0 b.bytes ++ upload entry (nextKick b.bytes.length) bs)

/-! ## Bytes -/

/-- A word is made of its own bytes. -/
theorem word_split (a : BitVec 16) : word (a.setWidth 8) (a.extractLsb' 8 8) = a := by
  have ha := a.isLt
  apply BitVec.eq_of_toNat_eq
  rw [word_toNat, BitVec.toNat_setWidth, BitVec.extractLsb'_toNat, Nat.shiftRight_eq_div_pow]
  omega

/-- The pointer in page 0, and Y added to it. -/
theorem target_toNat (ram : Ram) (y : Byte) :
    (target ram y).toNat = (((ram 0).toNat + 256 * (ram 1).toNat) + y.toNat) % 2 ^ 16 := by
  have hy := y.isLt
  unfold target
  rw [BitVec.toNat_add, word_toNat, BitVec.toNat_setWidth]
  omega

/-- Above the pointer only the byte is stored. -/
theorem stored_alike (y data : Byte) (ram : Ram) :
    AlikeAbove (stored y data ram) (Function.update ram (target ram y) data) := by
  unfold stored
  split
  · exact AlikeAbove.low (fun _ _ => rfl) _ (by decide)
  · exact fun _ _ => rfl

/-- **The next byte goes to the next address.** -/
theorem target_stored (y data : Byte) (ram : Ram) (ha : 2 ≤ (target ram y).toNat) :
    target (stored y data ram) (y + 1) = target ram y + 1 := by
  have hne (a : BitVec 16) (hlow : a.toNat < 2) : a ≠ target ram y := by
    rintro rfl
    omega
  have hy := y.isLt
  have hr := (ram 1).isLt
  apply BitVec.eq_of_toNat_eq
  rw [BitVec.toNat_add, target_toNat, target_toNat]
  unfold stored
  split
  · rename_i hzero
    have hlast : y.toNat = 255 := by
      have hsum := congrArg BitVec.toNat hzero
      rw [BitVec.toNat_add] at hsum
      change (y.toNat + 1) % 2 ^ 8 = 0 at hsum
      omega
    rw [Function.update_of_ne (by decide), Function.update_self,
      Function.update_of_ne (hne 0 (by decide)), Function.update_of_ne (hne 1 (by decide)),
      BitVec.toNat_add, hzero, hlast]
    change (_ + 256 * (((ram 1).toNat + 1) % 2 ^ 8) + 0) % 2 ^ 16 = (_ % 2 ^ 16 + 1) % 2 ^ 16
    omega
  · rename_i hmore
    have hless : (y + 1).toNat = y.toNat + 1 := by
      have hpos : (y + 1).toNat ≠ 0 := fun h => hmore (BitVec.eq_of_toNat_eq h)
      rw [BitVec.toNat_add] at hpos ⊢
      change (y.toNat + 1) % 2 ^ 8 = _
      change (y.toNat + 1) % 2 ^ 8 ≠ 0 at hpos
      omega
    rw [Function.update_of_ne (hne 0 (by decide)), Function.update_of_ne (hne 1 (by decide)), hless]
    change _ = (_ % 2 ^ 16 + 1) % 2 ^ 16
    omega

/-- A receiver that takes `mark` for the mark of a byte at an index, or of a
command. -/
def Receiver.Expects (r : Receiver) (q mark : Byte) (kind : Option Byte) : Prop :=
  ∀ p : Ports, p 0 = mark → r.phase.Hears q p ∧ r.phase.kind p = kind

/-- **A byte is received.** -/
theorem receive_byte {r : Receiver} {p : Ports} {y : Byte} (d : Byte)
    (hr : r.Expects (p 0) y (some y)) (ha : InRam (target r.ram y)) :
    Takes (p 0) ((byteMessage y d).after p) r ∧
      r.receive ((byteMessage y d).after p) = r.store y d := by
  obtain ⟨hhears, hkind⟩ := hr _ ((byteMessage y d).after_flag p)
  refine ⟨⟨hhears, ?_⟩, ?_⟩
  · intro y' hy'
    rw [hkind] at hy'
    cases hy'
    exact ha
  · unfold Receiver.receive
    rw [hkind]
    rfl

/-- After a byte comes the next one. -/
theorem expects_next (r : Receiver) (q y d : Byte) :
    (r.store y d).Expects q (y + 1) (some (y + 1)) := fun _ hp => ⟨Or.inl hp, if_pos hp⟩

/-- **The bytes of a block**, by induction on them. -/
theorem receives_bytes (ds : List Byte) :
    ∀ {d : Byte} {r : Receiver} {p : Ports} {y : Byte}, r.Expects (p 0) y (some y) →
      (∀ i < (d :: ds).length, InRam (target r.ram y + BitVec.ofNat 16 i) ∧
        2 ≤ (target r.ram y + BitVec.ofNat 16 i).toNat) →
      ∃ r' p', Receives r p (byteMessages y (d :: ds)) r' p' ∧
        r'.phase = .transfer (y + BitVec.ofNat 8 (d :: ds).length) ∧
        AlikeAbove r'.ram (load (target r.ram y) (d :: ds) r.ram) := by
  have hcast (n i : Nat) : BitVec.ofNat n (i + 1) = 1 + BitVec.ofNat n i := by
    rw [Nat.add_comm]
    exact BitVec.ofNat_add 1 i
  have hfirst {d : Byte} {ds : List Byte} {a : BitVec 16}
      (hfits : ∀ i < (d :: ds).length, InRam (a + BitVec.ofNat 16 i) ∧
        2 ≤ (a + BitVec.ofNat 16 i).toNat) : InRam a ∧ 2 ≤ a.toNat := by
    have hfits := hfits 0 (Nat.succ_pos _)
    rwa [show a + BitVec.ofNat 16 0 = a from add_zero a] at hfits
  induction ds with
  | nil =>
      intro d r p y hr hfits
      obtain ⟨htakes, hreceive⟩ := receive_byte d hr (hfirst hfits).1
      refine ⟨_, _, .cons htakes (.nil _ _), ?_, ?_⟩
      · rw [hreceive]
        rfl
      · rw [hreceive]
        exact stored_alike y d r.ram
  | cons d' ds ih =>
      intro d r p y hr hfits
      obtain ⟨hin, habove⟩ := hfirst hfits
      obtain ⟨htakes, hreceive⟩ := receive_byte d hr hin
      have hnext : target (r.store y d).ram (y + 1) = target r.ram y + 1 :=
        target_stored y d _ habove
      have hrest : ∀ i < (d' :: ds).length,
          InRam (target (r.store y d).ram (y + 1) + BitVec.ofNat 16 i) ∧
            2 ≤ (target (r.store y d).ram (y + 1) + BitVec.ofNat 16 i).toNat := by
        intro i hi
        rw [hnext, add_assoc, ← hcast]
        exact hfits (i + 1) (Nat.succ_lt_succ hi)
      obtain ⟨r', p', hreceives, hphase, hram⟩ :=
        ih (p := (byteMessage y d).after p) (expects_next r _ y d) hrest
      rw [hnext] at hram
      refine ⟨r', p', .cons htakes (hreceive ▸ hreceives), ?_, ?_⟩
      · rw [hphase, add_assoc, ← hcast]
        rfl
      · exact hram.trans (AlikeAbove.load (d' :: ds) (stored_alike y d r.ram))

/-! ## Commands -/

/-- **A command is received.** -/
theorem receive_command {r : Receiver} {p : Ports} {kick : Byte} (hr : r.Expects (p 0) kick none)
    (more : Byte) (a : BitVec 16) :
    Takes (p 0) ((commandMessage kick more a).after p) r ∧
      r.receive ((commandMessage kick more a).after p) =
        ⟨if more = 0 then .started a else .block,
          Function.update (Function.update r.ram 0 (a.setWidth 8)) 1 (a.extractLsb' 8 8)⟩ := by
  obtain ⟨hhears, hkind⟩ := hr _ ((commandMessage kick more a).after_flag p)
  refine ⟨⟨hhears, ?_⟩, ?_⟩
  · rw [hkind]
    exact fun _ hy => by cases hy
  · unfold Receiver.receive
    rw [hkind]
    change Receiver.mk (if more = 0 then .started (word (a.setWidth 8) (a.extractLsb' 8 8))
      else .block) _ = _
    rw [word_split]
    rfl

/-- A command changes the pointer and nothing else. -/
theorem pointer_alike (ram : Ram) (v w : Byte) :
    AlikeAbove (Function.update (Function.update ram 0 v) 1 w) ram :=
  (AlikeAbove.low (fun _ _ => rfl) v (by decide)).low w (by decide)

/-- The mark of a command is neither the next index nor 0. -/
theorem nextKick_spec (y : Byte) :
    (if y + 1 = 0 then 1 else y + 1) ≠ y ∧ (y - (if y + 1 = 0 then 1 else y + 1)).msb = true ∧
      (if y + 1 = 0 then 1 else y + 1) ≠ 0 := by
  revert y
  decide

/-- After the bytes of a block comes a command. -/
theorem expects_nextKick {r : Receiver} {n : Nat} (hphase : r.phase = .transfer (BitVec.ofNat 8 n))
    (q : Byte) : r.Expects q (nextKick n) none := by
  obtain ⟨hne, hmsb, -⟩ := nextKick_spec (BitVec.ofNat 8 n)
  intro p hp
  rw [hphase]
  change (p 0 = _ ∨ _) ∧ (if p 0 = _ then some _ else none) = _
  rw [hp]
  exact ⟨Or.inr hmsb, if_neg hne⟩

/-- **A block is received.** -/
theorem receives_block (b : Block) {r : Receiver} {p : Ports} {kick : Byte} (hkick : kick ≠ 0)
    (hr : r.Expects (p 0) kick none) :
    ∃ r' p', Receives r p (commandMessage kick 1 b.dest :: byteMessages 0 b.bytes) r' p' ∧
      r'.phase = .transfer (BitVec.ofNat 8 b.bytes.length) ∧
      AlikeAbove r'.ram (load b.dest b.bytes r.ram) := by
  obtain ⟨dest, bytes, hne, hfits⟩ := b
  obtain ⟨d, ds, rfl⟩ := List.exists_cons_of_ne_nil hne
  obtain ⟨htakes, hreceive⟩ := receive_command hr 1 dest
  have hdest : target (Function.update (Function.update r.ram 0 (dest.setWidth 8)) 1
      (dest.extractLsb' 8 8)) 0 = dest := (add_zero _).trans (word_split dest)
  have hexpects : Receiver.Expects ⟨.block, Function.update (Function.update r.ram 0
      (dest.setWidth 8)) 1 (dest.extractLsb' 8 8)⟩ ((commandMessage kick 1 dest).after p 0) 0
      (some 0) := by
    rw [Handshake.Message.after_flag]
    exact fun _ hp => ⟨⟨hkick, hp⟩, rfl⟩
  obtain ⟨r', p', hreceives, hphase, hram⟩ := receives_bytes ds (d := d) hexpects (by
    rw [hdest]
    exact hfits)
  rw [hdest] at hram
  refine ⟨r', p', .cons htakes (hreceive ▸ hreceives), ?_, ?_⟩
  · rw [hphase]
    exact congrArg Phase.transfer (zero_add _)
  · exact hram.trans (AlikeAbove.load _ (pointer_alike _ _ _))

/-- **The whole upload**, by induction on the blocks. -/
theorem receives_upload (entry : BitVec 16) (bs : List Block) :
    ∀ {r : Receiver} {p : Ports} {kick : Byte}, kick ≠ 0 → r.Expects (p 0) kick none →
      ∃ r' p', Receives r p (upload entry kick bs) r' p' ∧ r'.phase = .started entry ∧
        AlikeAbove r'.ram (loadBlocks bs r.ram) := by
  induction bs with
  | nil =>
      intro r p kick _ hr
      obtain ⟨htakes, hreceive⟩ := receive_command hr 0 entry
      refine ⟨_, _, .cons htakes (.nil _ _), ?_, ?_⟩
      · rw [hreceive]
        rfl
      · rw [hreceive]
        exact pointer_alike _ _ _
  | cons b bs ih =>
      intro r p kick hkick hr
      obtain ⟨r₁, p₁, hblock, hphase₁, hram₁⟩ := receives_block b hkick hr
      obtain ⟨r', p', hrest, hphase, hram⟩ := ih (nextKick_spec (BitVec.ofNat 8 b.bytes.length)).2.2
        (expects_nextKick hphase₁ (p₁ 0))
      exact ⟨r', p', hblock.append hrest, hphase, hram.trans (AlikeAbove.loadBlocks bs hram₁)⟩

/-- **A program is uploaded and started.** -/
theorem upload_runs {b : Bus} (hb : Boots b) {schedule : Nat → Nat} (hfair : Fair schedule)
    (dsp : DspInput) (hport : b.cpu.portR 0 ≠ 0xCC) (entry : BitVec 16) (bs : List Block) :
    ∃ t e b', KeepsDsp schedule dsp (freshHost (upload entry 0xCC bs), b) t ∧
      hostRun schedule dsp (freshHost (upload entry 0xCC bs), b) t = .ok (⟨e, [], []⟩, b') ∧
      b'.cpu.pc = entry ∧ b'.cpu.cycle = 0 ∧
      AlikeAbove b'.ram (loadBlocks bs (Plain.clearPage 0xEF b.ram)) := by
  have hexpects : (freshReceiver b).Expects (b.cpu.portR 0) 0xCC none :=
    fun p hp => ⟨⟨hport, hp⟩, rfl⟩
  obtain ⟨r', p', hall, hphase, hram⟩ := receives_upload entry bs (by decide) hexpects
  obtain ⟨t, h⟩ : ∃ t, Awaits schedule dsp _ t r' p' [] := Awaits.boot hb hfair hall
  have hkeeps := h.keepsDsp
  obtain ⟨e, b', s, hrun, -, hcycle, hshows, hat, hram', -⟩ := h.done
  have hpc : s.regs.pc = entry := by
    rw [hphase] at hat
    cases hat
    rfl
  refine ⟨t, e, b', hkeeps, hrun, (congrArg CpuRegs.pc hshows.regs).trans hpc, hcycle, ?_⟩
  rw [hshows.ram, hram']
  exact hram

end OpenSpc
