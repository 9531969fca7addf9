import RvEmu.Spec.Reservation
import RvEmu.Spec.Run

/-!
# Exclusive reservations

No two harts hold the same reservation, and of two SCs whose windows on an address overlap
at most one succeeds. A hart without a reservation has 0 in `reservations`, and an SC does
not tell this from a reservation of the physical address 0.

## Key results

- `reservation_step`: what one instruction of any hart does to a hart's reservation
- `exclusive_cycle`: no cycle of any hart gives two harts the same reservation
- `Window.stays`: a reservation within its window
- `Overlapping.lost`: the hart that reserved first has lost its reservation
- `reservations_exclusive`: both properties, over every interleaving
-/

namespace RvEmu

variable {δ : Type}

/-! ## Interleavings of instructions -/

/-- The instructions that the harts execute, one after the other. What happens between two
    of them may change anything but the reservations. -/
structure Interleaving (env : Env δ) (run : Nat → Sys δ) : Prop where
  hartid : ∀ n, (run n).hs.hartid < env.machHartCount
  cleared : ∀ i < env.machHartCount, (run 0).bus.reservations i = 0
  step : ∀ n, (run (n + 1)).bus.reservations = (decodeExc env (run n)).2.bus.reservations

/-- The instruction is an LR that completes, with `p` reserved. -/
def Reserves (env : Env δ) (s : Sys δ) (p : BitVec 64) : Prop :=
  ∃ d, Decodes s d ∧ d.IsLr ∧ (decodeExc env s).1 = .noexc ∧
    (decodeExc env s).2.bus.reservations s.hs.hartid = p

/-- The instruction is an SC that succeeds. -/
def ScWins (env : Env δ) (s : Sys δ) : Prop := ∃ a w, ScSucceeds env s a w

/-- The instruction is an SC of a hart without a reservation, and its walk gives the physical
    address 0. -/
def NullSc (env : Env δ) (s : Sys δ) : Prop :=
  ∃ d, Decodes s d ∧ d.IsSc ∧ s.bus.reservations s.hs.hartid = 0 ∧
    (pageTableWalk env s (s.hs.regs d.rs1) true).1 = 0

/-- From the last LR of a hart before an SC, which has reserved `p`, to that SC. -/
structure Window (env : Env δ) (run : Nat → Sys δ) (p : BitVec 64) (lr sc : Nat) : Prop where
  before : lr < sc
  hartid : (run lr).hs.hartid = (run sc).hs.hartid
  reserves : Reserves env (run lr) p
  last : ∀ n, lr < n → n < sc → (run n).hs.hartid = (run sc).hs.hartid →
    ∀ q, ¬ Reserves env (run n) q
  isSc : ∃ d, Decodes (run sc) d ∧ d.IsSc

/-- The windows of two harts on the same address overlap. -/
structure Overlapping (env : Env δ) (run : Nat → Sys δ) (p : BitVec 64)
    (lr₁ sc₁ lr₂ sc₂ : Nat) : Prop where
  first : Window env run p lr₁ sc₁
  second : Window env run p lr₂ sc₂
  harts : (run sc₁).hs.hartid ≠ (run sc₂).hs.hartid
  left : lr₁ < sc₂
  right : lr₂ < sc₁

/-! ## One instruction -/

section Step

variable {env : Env δ} {s : Sys δ} {p : BitVec 64} {i : BitVec 16}

/-- A hart keeps its reservation, loses it, or makes one. -/
theorem reservation_step (env : Env δ) (s : Sys δ) (i : BitVec 16) :
    (decodeExc env s).2.bus.reservations i = s.bus.reservations i ∨
    (decodeExc env s).2.bus.reservations i = 0 ∨
    (s.hs.hartid = i ∧ ∃ q, Reserves env s q) := by
  rcases decodeExc_reservations env s with hr | ⟨d, -, -, hr⟩ | ⟨d, a, hd, hl, hexc, -, hr⟩
  · exact .inl (congrFun hr i)
  · rw [hr]
    by_cases hi : i = s.hs.hartid
    · rw [hi, Function.update_self]
      exact .inr (.inl rfl)
    · rw [Function.update_of_ne hi]
      exact .inl rfl
  · by_cases hi : i = s.hs.hartid
    · exact .inr (.inr ⟨hi.symm, _, d, hd, hl, hexc, rfl⟩)
    · rw [hr, reserve_of_ne env _ a hi]
      split
      · exact .inr (.inl rfl)
      · exact .inl rfl

/-- An LR of `p` takes `p` away from the other harts. -/
theorem Reserves.takes (h : Reserves env s p) (hi : i < env.machHartCount)
    (hne : i ≠ s.hs.hartid) (hres : s.bus.reservations i = p ∨ s.bus.reservations i = 0) :
    (decodeExc env s).2.bus.reservations i = 0 := by
  obtain ⟨d, hd, hlr, hexc, rfl⟩ := h
  rcases decodeExc_lr_reservations env hd hlr with ⟨htrap, -⟩ | ⟨-, a, -, hr⟩
  · exact absurd hexc htrap
  · rw [hr, reserve_self] at hres
    rw [hr, reserve_of_ne env _ a hne]
    split
    · rfl
    · next hother => exact hres.resolve_left fun hp => hother ⟨hi, hp⟩

/-- An SC that succeeds without a reservation has walked to address 0. -/
theorem ScWins.null (h : ScWins env s) (hres : s.bus.reservations s.hs.hartid = 0) :
    NullSc env s := by
  obtain ⟨a, w, hwins⟩ := h
  have hwalk := hwins.walk
  obtain ⟨d, hd, hsc, rfl, -⟩ := hwins.stores
  exact ⟨d, hd, hsc, hres, hwalk.symm.trans hres⟩

/-- A fetch touches no reservation. -/
theorem fetch_reservations (env : Env δ) (s : Sys δ) :
    (fetch env s).2.bus.reservations = s.bus.reservations := by
  rw [fetch_bus]
  unfold fetchInst
  dsimp only
  split
  · exact (virtMemFetch_frame env (s.setMemStatus false) .u32 s.hs.pc).of_setMemStatus.reservations
  · rfl

/-- The instruction that a cycle executes is all of it that touches the reservations. -/
theorem cycle_reservations (env : Env δ) (t : Sys δ) :
    (cycle env t).2.bus.reservations = t.bus.reservations ∨
    ∃ s, Fetches env t s ∧ s.bus.reservations = t.bus.reservations ∧
      (cycle env t).2.bus.reservations = (decodeExc env s).2.bus.reservations := by
  have hfetch : (fetch env (t.setReg 0 0)).2.bus.reservations = t.bus.reservations :=
    fetch_reservations env _
  rcases cycle_cases env t with h | ⟨hf, h⟩ | ⟨-, h⟩ <;> rw [h]
  · exact .inl hfetch
  · exact .inr ⟨_, hf, hfetch, by rw [cycleEnd_bus]⟩
  · rw [cycleEnd_bus]
    exact .inl hfetch

/-- No cycle of a hart gives two harts the same reservation. -/
theorem exclusive_cycle (h : Exclusive env s.bus.reservations) :
    Exclusive env (cycle env s).2.bus.reservations := by
  rcases cycle_reservations env s with hr | ⟨t, -, ht, hr⟩ <;> rw [hr]
  · exact h
  · exact exclusive_step (by rw [ht]; exact h)

end Step

/-! ## Runs -/

section Runs

variable {env : Env δ} {run : Nat → Sys δ} (hrun : Interleaving env run)
include hrun

/-- No two harts hold the same reservation. -/
theorem Interleaving.exclusive (n : Nat) : Exclusive env (run n).bus.reservations := by
  induction n with
  | zero => exact fun i _ hi _ _ h0 => absurd (hrun.cleared i hi) h0
  | succ n ih =>
    rw [hrun.step n]
    exact exclusive_step ih

variable {p : BitVec 64} {lr sc lr₁ sc₁ lr₂ sc₂ : Nat}

/-- Within a window, the reservation of its hart is at most lost. -/
theorem Window.stays (hw : Window env run p lr sc) {Q : BitVec 64 → Prop} (h0 : Q 0) {n m : Nat}
    (hlr : lr < n) (hn : Q ((run n).bus.reservations (run sc).hs.hartid)) (hnm : n ≤ m)
    (hsc : m ≤ sc) : Q ((run m).bus.reservations (run sc).hs.hartid) := by
  induction hnm with
  | refl => exact hn
  | @step m hnm ih =>
    have hbefore := ih (Nat.le_of_succ_le hsc)
    rw [hrun.step m]
    rcases reservation_step env (run m) (run sc).hs.hartid with hr | hr | ⟨hhart, q, hq⟩
    · rw [hr]
      exact hbefore
    · rw [hr]
      exact h0
    -- the hart makes no reservation before its SC
    · exact absurd hq (hw.last m (Nat.lt_of_lt_of_le hlr hnm) hsc hhart q)

/-- After the LR of a window its hart holds the address, or nothing any more. -/
theorem Window.holds (hw : Window env run p lr sc) {n : Nat} (hn : lr < n) (hsc : n ≤ sc) :
    (run n).bus.reservations (run sc).hs.hartid = p ∨
      (run n).bus.reservations (run sc).hs.hartid = 0 := by
  refine hw.stays hrun (Q := fun a => a = p ∨ a = 0) (.inr rfl) (Nat.lt_succ_self lr) (.inl ?_) hn
    hsc
  obtain ⟨d, -, -, -, hp⟩ := hw.reserves
  rw [hrun.step lr, ← hw.hartid]
  exact hp

/-- Of two harts with overlapping windows, the one that has reserved first has lost its
    reservation before its SC. -/
theorem Overlapping.lost (h : Overlapping env run p lr₁ sc₁ lr₂ sc₂) (hlr : lr₁ < lr₂) :
    (run sc₁).bus.reservations (run sc₁).hs.hartid = 0 := by
  have hne : (run sc₁).hs.hartid ≠ (run lr₂).hs.hartid := by
    rw [h.second.hartid]
    exact h.harts
  -- the LR of the other hart comes within the window and takes the address away
  have hheld := h.first.holds hrun hlr (Nat.le_of_lt h.right)
  have htaken := h.second.reserves.takes (hrun.hartid sc₁) hne hheld
  rw [← hrun.step lr₂] at htaken
  exact h.first.stays hrun (Q := (· = 0)) rfl (Nat.lt_succ_of_lt hlr) htaken h.right (Nat.le_refl _)

end Runs

/-- Windows overlap both ways. -/
theorem Overlapping.symm {env : Env δ} {run : Nat → Sys δ} {p : BitVec 64}
    {lr₁ sc₁ lr₂ sc₂ : Nat} (h : Overlapping env run p lr₁ sc₁ lr₂ sc₂) :
    Overlapping env run p lr₂ sc₂ lr₁ sc₁ :=
  ⟨h.second, h.first, h.harts.symm, h.right, h.left⟩

/-- The LRs of two harts are two instructions. -/
theorem Overlapping.ne {env : Env δ} {run : Nat → Sys δ} {p : BitVec 64} {lr₁ sc₁ lr₂ sc₂ : Nat}
    (h : Overlapping env run p lr₁ sc₁ lr₂ sc₂) : lr₁ ≠ lr₂ := by
  rintro rfl
  exact h.harts (h.first.hartid.symm.trans h.second.hartid)

/-- In every interleaving no two harts hold the same address, and of two SCs whose windows on
    an address overlap at most one succeeds, unless an SC without a reservation has walked to
    the address 0. -/
theorem reservations_exclusive (env : Env δ) (run : Nat → Sys δ) (hrun : Interleaving env run) :
    (∀ n, Exclusive env (run n).bus.reservations) ∧
      ∀ p lr₁ sc₁ lr₂ sc₂, Overlapping env run p lr₁ sc₁ lr₂ sc₂ →
        ¬ NullSc env (run sc₁) → ¬ NullSc env (run sc₂) →
        ¬ (ScWins env (run sc₁) ∧ ScWins env (run sc₂)) := by
  refine ⟨hrun.exclusive, ?_⟩
  rintro p lr₁ sc₁ lr₂ sc₂ h hnull₁ hnull₂ ⟨hwins₁, hwins₂⟩
  rcases Nat.lt_or_gt_of_ne h.ne with hlr | hlr
  · exact hnull₁ (hwins₁.null (h.lost hrun hlr))
  · exact hnull₂ (hwins₂.null (h.symm.lost hrun hlr))

/-! ## Two harts -/

/-- The shared state before the `n`-th of the instructions that the harts execute. -/
def busBefore (env : Env δ) (b : Bus δ) (harts : Nat → HartState) : Nat → Bus δ
  | 0 => b
  | n + 1 => (decodeExc env ⟨harts n, busBefore env b harts n⟩).2.bus

/-- Harts that execute instruction after instruction on one memory. -/
def sharedRun (env : Env δ) (b : Bus δ) (harts : Nat → HartState) (n : Nat) : Sys δ :=
  ⟨harts n, busBefore env b harts n⟩

/-- A run depends on the instructions that have been executed. -/
theorem sharedRun_congr {env : Env δ} {b : Bus δ} {harts harts' : Nat → HartState} {n : Nat}
    (h : ∀ m ≤ n, harts m = harts' m) :
    sharedRun env b harts n = sharedRun env b harts' n := by
  induction n with
  | zero =>
    unfold sharedRun
    rw [h 0 (Nat.le_refl 0)]
    rfl
  | succ n ih =>
    have hbus : busBefore env b harts (n + 1) = busBefore env b harts' (n + 1) :=
      congrArg (fun s => (decodeExc env s).2.bus) (ih fun m hm => h m (Nat.le_succ_of_le hm))
    unfold sharedRun
    rw [h (n + 1) (Nat.le_refl _), hbus]

/-- Such a run is an interleaving. -/
theorem interleaving_sharedRun {env : Env δ} {b : Bus δ} {harts : Nat → HartState}
    (hartid : ∀ n, (harts n).hartid < env.machHartCount) (hb : ∀ i, b.reservations i = 0) :
    Interleaving env (sharedRun env b harts) :=
  ⟨hartid, fun i _ => hb i, fun _ => rfl⟩

private def dualHart : Env Unit := { Env.inert with machHartCount := 2 }

/-- Page tables that map the 2 MiB at 0x80000000 to themselves and those at 0x80200000 to the
    physical address 0. -/
private def nullTables : Bus Unit :=
  let root := storeLe (fun _ => 0) 0x80001010 0x20000801 8
  let level1 := storeLe root 0x80002000 0x200000CF 8
  { Bus.inert with mainMem := storeLe level1 0x80002008 0xCF 8 }

/-- Hart `i` in M-mode with `inst` fetched and `addr` in x10. -/
private def hartTo (i : BitVec 16) (satp : BitVec 64) (inst : BitVec 32) (addr : BitVec 64) :
    HartState :=
  let hs := resetState i
  { hs with
      inst := inst, instLen := 32, csr := { hs.csr with satp := satp },
      regs := fun r => if r = 10 then addr else 0 }

/-- LR of 0x80010000 by both harts, then SC by both; the first hart has Sv39 in `satp`, and
    its SC is to `addr`. -/
private def lrLrScSc (addr : BitVec 64) : Nat → HartState
  | 0 => hartTo 0 0x8000000000080001 0x100522AF 0x80010000
  | 1 => hartTo 1 0 0x100522AF 0x80010000
  | 2 => hartTo 0 0x8000000000080001 0x1875232F addr
  | _ => hartTo 1 0 0x1875232F 0x80010000

private def twoWindows (addr : BitVec 64) : Nat → Sys Unit :=
  sharedRun dualHart nullTables (lrLrScSc addr)

/-- Here of two harts, … -/
private theorem twoWindows_interleaving (addr : BitVec 64) :
    Interleaving dualHart (twoWindows addr) := by
  have hzero : (0 : BitVec 16) < dualHart.machHartCount := by decide
  have hone : (1 : BitVec 16) < dualHart.machHartCount := by decide
  refine interleaving_sharedRun (fun n => ?_) fun _ => rfl
  rcases n with _ | _ | _ | n
  · exact hzero
  · exact hone
  · exact hzero
  · exact hone

/-- … which both reserve the address, … -/
private theorem twoWindows_reserves :
    Reserves dualHart (twoWindows 0 0) 0x80010000 ∧ Reserves dualHart (twoWindows 0 1) 0x80010000 :=
  ⟨⟨_, .inr ⟨rfl, rfl⟩, ⟨by decide, by decide⟩, by decide +kernel, by decide +kernel⟩,
    ⟨_, .inr ⟨rfl, rfl⟩, ⟨by decide, by decide⟩, by decide +kernel, by decide +kernel⟩⟩

/-- What happens up to the LRs does not depend on `addr`. -/
private theorem twoWindows_lr (addr : BitVec 64) {n : Nat} (hn : n ≤ 1) :
    twoWindows addr n = twoWindows 0 n := by
  refine sharedRun_congr fun m hm => ?_
  obtain rfl | rfl : m = 0 ∨ m = 1 := by omega
  · rfl
  · rfl

/-- … in windows that overlap. -/
private theorem twoWindows_overlapping (addr : BitVec 64) :
    Overlapping dualHart (twoWindows addr) 0x80010000 0 2 1 3 := by
  obtain ⟨hfirst, hsecond⟩ := twoWindows_reserves
  rw [← twoWindows_lr addr (by decide)] at hfirst
  rw [← twoWindows_lr addr (by decide)] at hsecond
  have hsc : (decode32 0x1875232F).IsSc := ⟨by decide, by decide⟩
  have hne : (0 : BitVec 16) ≠ 1 := by decide
  refine ⟨⟨by decide, rfl, hfirst, fun n hlr hn => ?_,
      _, .inr ⟨rfl, rfl⟩, hsc⟩,
    ⟨by decide, rfl, hsecond, fun n hlr hn => ?_,
      _, .inr ⟨rfl, rfl⟩, hsc⟩, hne, by decide, by decide⟩
  · obtain rfl : n = 1 := by omega
    exact fun hhart => absurd hhart hne.symm
  · obtain rfl : n = 2 := by omega
    exact fun hhart => absurd hhart hne

/-- Both SCs are to 0x80010000. -/
theorem reservations_exclusive_lr_lr :
    ¬ (ScWins dualHart (twoWindows 0x80010000 2) ∧ ScWins dualHart (twoWindows 0x80010000 3)) := by
  have hrun := reservations_exclusive dualHart (twoWindows 0x80010000) (twoWindows_interleaving _)
  refine hrun.2 _ _ _ _ _ (twoWindows_overlapping _) ?_ ?_
  · rintro ⟨d, hd, -, -, hwalk⟩
    obtain rfl := hd.unique (.inr ⟨rfl, rfl⟩)
    exact absurd hwalk (by decide +kernel)
  · rintro ⟨d, hd, -, -, hwalk⟩
    obtain rfl := hd.unique (.inr ⟨rfl, rfl⟩)
    exact absurd hwalk (by decide +kernel)

/-- The first hart has lost its reservation, but its SC to 0x80200000 walks to the address 0;
    both SCs succeed. -/
theorem null_sc_succeeds :
    ¬ ∀ run : Nat → Sys Unit, Interleaving dualHart run →
      (∀ n, Exclusive dualHart (run n).bus.reservations) ∧
        ∀ p lr₁ sc₁ lr₂ sc₂, p ≠ 0 → Overlapping dualHart run p lr₁ sc₁ lr₂ sc₂ →
          ¬ (ScWins dualHart (run sc₁) ∧ ScWins dualHart (run sc₂)) := by
  intro h
  refine (h (twoWindows 0x80200000) (twoWindows_interleaving _)).2 _ _ _ _ _ (by decide)
    (twoWindows_overlapping _) ⟨?_, ?_⟩
  · exact ⟨0x80200000, .u32, _, .inr ⟨rfl, rfl⟩, ⟨by decide, by decide⟩, by decide +kernel,
      by decide +kernel, by decide +kernel⟩
  · exact ⟨0x80010000, .u32, _, .inr ⟨rfl, rfl⟩, ⟨by decide, by decide⟩, by decide +kernel,
      by decide +kernel, by decide +kernel⟩

end RvEmu
