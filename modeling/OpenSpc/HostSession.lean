import OpenSpc.CoreSafety

/-!
# What a host sees

Between its accesses to the ports a host lets the core run.  It does not matter
in how many calls it does so: the bytes it reads are the same.
-/

namespace OpenSpc

/-- What a host does. -/
inductive HostMove where
  | writePort (i : Fin 4) (data : Byte)
  | readPort (i : Fin 4)
  | run (cycles : Nat)
  deriving DecidableEq

namespace HostMove

/-- A call for some cycles as that many calls for one. -/
def cycles : HostMove → List HostMove
  | .run n => List.replicate n (.run 1)
  | m => [m]

/-- A number of cycles that `SPC_START` does not take for a negative one. -/
def Small : HostMove → Prop
  | .run n => n < 2 ^ 31
  | _ => True

instance : ∀ m, Decidable (Small m)
  | .run n => inferInstanceAs (Decidable (n < 2 ^ 31))
  | .writePort _ _ => .isTrue trivial
  | .readPort _ => .isTrue trivial

end HostMove

/-- Time as it passes, whatever calls it was cut into. -/
def uncut (ms : List HostMove) : List HostMove := ms.flatMap HostMove.cycles

/-- A session, and the bytes that are read in it. -/
def hostSession : List HostMove → Bus → Except Halt (Bus × List Byte)
  | [], b => .ok (b, [])
  | .writePort i data :: ms, b => hostSession ms { b with cpu := spcWritePortR i data b.cpu }
  | .readPort i :: ms, b => do
      let (b', bytes) ← hostSession ms b
      .ok (b', spcReadPortW i b.cpu :: bytes)
  | .run n :: ms, b => b.spcStart (BitVec.ofNat 32 n) >>= hostSession ms

/-- Two sessions that end at the same point, having read the same. -/
def SessionAlike (x y : Bus × List Byte) : Prop :=
  (RestAlike x.1 y.1 ∧ x.1.ahead ≤ 10) ∧ x.2 = y.2

section

variable {b b' : Bus}

/-- Single cycles in front of a session. -/
theorem hostSession_cycles (n : Nat) (ms : List HostMove) :
    hostSession (List.replicate n (.run 1) ++ ms) b =
      b.spcStarts (List.replicate n 1) >>= hostSession ms := by
  induction n generalizing b with
  | zero => rfl
  | succ n ih =>
      unfold Bus.spcStarts
      rw [List.replicate_succ, List.replicate_succ, List.cons_append, List.foldlM_cons, bind_assoc]
      change b.spcStart 1 >>= hostSession (List.replicate n (.run 1) ++ ms) = b.spcStart 1 >>= _
      congr 1
      funext b₁
      exact ih

/-- **Cutting the time of a session**, by induction on its moves. -/
theorem hostSession_uncut (ms : List HostMove) (hms : ∀ m ∈ ms, m.Small) :
    ∀ {b b' : Bus}, RestAlike b b' → b.ahead ≤ 10 →
      Alike SessionAlike (hostSession ms b) (hostSession (uncut ms) b') := by
  induction ms with
  | nil => intro b b' h hahead; exact Alike.ok ⟨⟨h, hahead⟩, rfl⟩
  | cons m ms ih =>
      intro b b' h hahead
      have hrest := @ih fun m hm => hms m (List.mem_cons_of_mem _ hm)
      have hm := hms m List.mem_cons_self
      unfold uncut at hrest ⊢
      rw [List.flatMap_cons]
      cases m with
      | writePort i data => exact hrest (h.writePort i data) hahead
      | readPort i =>
          obtain ⟨k, hk, hsame, hcycle⟩ := h.abreast
          have hread : spcReadPortW i b'.cpu = spcReadPortW i b.cpu := congrFun hsame.portW i
          refine (hrest h hahead).bind ?_
          rintro ⟨c, bytes⟩ ⟨c', bytes'⟩ ⟨hc, hbytes⟩
          refine Alike.ok ⟨hc, ?_⟩
          rw [hread]
          exact congrArg (spcReadPortW i b.cpu :: ·) hbytes
      | run n =>
          have hsmall : n < 2 ^ 31 := hm
          have hone : b.spcStarts [n] = b.spcStart (BitVec.ofNat 32 n) := bind_pure _
          have hones : ∀ k ∈ List.replicate n 1, k < 2 ^ 31 := by
            intro k hk
            rw [List.eq_of_mem_replicate hk]
            decide
          have hcall : ∀ k ∈ [n], k < 2 ^ 31 := by simpa using hsmall
          have hboth := spcStarts_alike h hahead hcall hones (by simp)
          rw [hone] at hboth
          change Alike SessionAlike _ (hostSession (List.replicate n (.run 1) ++ _) b')
          rw [hostSession_cycles]
          exact hboth.bind fun c c' hc => hrest hc.1 hc.2

/-- **It makes no difference to a host how it cuts the time into calls.**  Two
sessions with the same accesses to the ports, and the same number of cycles
between them in calls of any number and size, read the same bytes and leave the
core at the same point, or stop in the same way. -/
theorem hostSessions_alike (h : RestAlike b b') (hahead : b.ahead ≤ 10) {ms ms' : List HostMove}
    (hms : ∀ m ∈ ms, m.Small) (hms' : ∀ m ∈ ms', m.Small) (hcut : uncut ms = uncut ms') :
    Alike (fun x y => RestAlike x.1 y.1 ∧ x.2 = y.2) (hostSession ms b) (hostSession ms' b') := by
  have hahead' : b'.ahead ≤ 10 := h.ahead.trans_le hahead
  have hleft := hostSession_uncut ms hms h hahead
  have hright := hostSession_uncut ms' hms' (RestAlike.refl b') hahead'
  rw [hcut] at hleft
  refine (hleft.trans hright.symm).mono ?_
  rintro x z ⟨y, ⟨⟨hxy, -⟩, hbytes⟩, ⟨hzy, -⟩, hbytes'⟩
  exact ⟨hxy.trans hzy.symm, hbytes.trans hbytes'.symm⟩

/-- A sample period in which a port is written, in two ways. -/
theorem resetBus_sessions_alike :
    Alike (fun x y => RestAlike x.1 y.1 ∧ x.2 = y.2)
      (hostSession [.run 1, .run 15, .writePort 0 0xCC, .run 16, .readPort 0] resetBus)
      (hostSession [.run 16, .writePort 0 0xCC, .run 7, .run 0, .run 9, .readPort 0] resetBus) :=
  hostSessions_alike (RestAlike.refl resetBus) (by decide) (by decide) (by decide) (by decide)

end

/-- **The core keeps going.**  From whatever image the state is set on a fresh
CPU, calls for any number of cycles divide by no zero and leave no case of the
switch through its end; they take the steps that the sum of their cycles pays
for, run past it by at most ten cycles and move the counter by it, and stop only
at SLEEP or STOP. -/
theorem loaded_starts_safe (r : SavedRegs) (image : Ram) (regs : Regs) {ns : List Nat}
    (hns : ∀ n ∈ ns, n < 2 ^ 31) :
    Ends ((loadedBus r image regs).spcStarts ns)
      (fun b => CoreInv b ∧ RunsFor ns.sum (loadedBus r image regs) b) SleepOrStop := by
  have hahead : (loadedBus r image regs).ahead ≤ 10 := by
    change (resetSpc.totalCycles - resetSpc.cycles).toNat ≤ 10
    decide
  have hinv : CoreInv (loadedBus r image regs) :=
    ⟨TimersInv.loaded r image regs, fun ys _ => Nat.zero_le ys.length⟩
  exact spcStarts_safe hinv hahead hns

/-- Two sample periods of an image of zeroes. -/
theorem zeroImage_starts_safe :
    Ends ((loadedBus ⟨0x0100, 0, 0, 0, 0, 0⟩ (fun _ => 0) fun _ => 0).spcStarts [32, 32])
      (fun b => CoreInv b ∧
        RunsFor 64 (loadedBus ⟨0x0100, 0, 0, 0, 0, 0⟩ (fun _ => 0) fun _ => 0) b) SleepOrStop :=
  loaded_starts_safe _ _ _ (by decide)

end OpenSpc
