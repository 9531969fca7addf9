import RvEmu.Native.Aclint

/-!
# Timer compare registers

The compare register of hart `h` is at MTIMER offset `8 * h`. The handlers use the offset
as the index of the register and of the hart, so only hart 0 has its register.

## Key results

- `timerRun_compare`: no access at another offset changes the register of hart 0
- `compareOwned_iff`: a compare register belongs to its hart only for hart 0
-/

namespace RvEmu

/-- The MTIMER offset of the compare register of a hart. -/
def compareOffset (hart : Nat) : BitVec 64 := BitVec.ofNat 64 (8 * hart)

/-- An access of the guest to the MTIMER registers, or a poll of the main loop. -/
inductive TimerEvent (machHartCount : BitVec 16) where
  | read (now offset : BitVec 64)
  | write (now offset data : BitVec 64)
  | chk (now : BitVec 64) (hart : Fin machHartCount.toNat)

variable {machHartCount : BitVec 16}

def TimerEvent.step (s : AclintState machHartCount) :
    TimerEvent machHartCount → AclintState machHartCount
  | read _ _ => s
  | write now offset data => aclintMtimerW now offset data s
  | chk now hart => aclintMtimerChk now hart s

/-- The state after a run. -/
def timerRun (s : AclintState machHartCount) (es : List (TimerEvent machHartCount)) :
    AclintState machHartCount :=
  es.foldl TimerEvent.step s

/-- An access at this offset uses no index, or one of the elements that exist. -/
def MtimerInBounds (machHartCount : BitVec 16) (offset : BitVec 64) : Prop :=
  offset = 0x7ff8 ∨ offset.toNat < machHartCount.toNat

/-- The accesses of an event are in bounds. -/
def TimerEvent.InBounds : TimerEvent machHartCount → Prop
  | read _ offset => MtimerInBounds machHartCount offset
  | write _ offset _ => MtimerInBounds machHartCount offset
  | chk _ _ => True

/-- `mip` with the timer interrupt pending or not. -/
def withMtip (pending : Bool) (mip : BitVec 64) : BitVec 64 :=
  if pending then mip ||| 1#64 <<< 7 else mip &&& ~~~(1#64 <<< 7)

/-- A write to the compare register of the hart changes this register and the timer interrupt
    of this hart alone, it is read back after the events `es`, and all accesses are in bounds. -/
structure CompareOwned (hart : Nat) (s : AclintState machHartCount)
    (es : List (TimerEvent machHartCount)) : Prop where
  compare : ∀ now v, ∀ i < machHartCount.toNat,
    (aclintMtimerW now (compareOffset hart) v s).mtimerRegs i =
      if i = hart then v else s.mtimerRegs i
  mip : ∀ now v, ∀ i < machHartCount.toNat,
    (aclintMtimerW now (compareOffset hart) v s).mip i =
      if i = hart then withMtip (v ≤ aclintMtimeGet now s) (s.mip i) else s.mip i
  readBack : ∀ now v now', aclintMtimerR now' (compareOffset hart)
    (timerRun (aclintMtimerW now (compareOffset hart) v s) es) = v
  access : MtimerInBounds machHartCount (compareOffset hart)
  run : ∀ e ∈ es, e.InBounds

/-! ## The register of hart 0 -/

section HartZero

variable {s : AclintState machHartCount} {es : List (TimerEvent machHartCount)}

/-- A poll of a hart that exists compares its own register. -/
theorem aclintMtimerChk_eq {i : Nat} (hi : i < machHartCount.toNat) (now : BitVec 64) :
    aclintMtimerChk now i s =
      { s with
        mip := Function.update s.mip i
          (withMtip (s.mtimerRegs i ≤ aclintMtimeGet now s) (s.mip i)) } := by
  unfold aclintMtimerChk withMtip
  simp only [s.hartid_toNat hi, decide_eq_true_eq]

theorem aclintMtimerW_zero (hcount : 0 < machHartCount.toNat) (now v : BitVec 64) :
    aclintMtimerW now (compareOffset 0) v s =
      { s with
        mtimerRegs := Function.update s.mtimerRegs 0 v
        mip := Function.update s.mip 0 (withMtip (v ≤ aclintMtimeGet now s) (s.mip 0)) } := by
  have hoffset : (compareOffset 0).toNat = 0 := rfl
  unfold aclintMtimerW
  rw [if_neg (by decide), hoffset, aclintMtimerChk_eq hcount]
  simp only [Function.update_self]
  rfl

/-- A step that does not write to the register of hart 0 keeps it. -/
theorem timerStep_compare {e : TimerEvent machHartCount}
    (he : ∀ now data, e ≠ .write now (compareOffset 0) data) :
    (e.step s).mtimerRegs 0 = s.mtimerRegs 0 := by
  cases e with
  | read now offset => rfl
  | chk now hart => rfl
  | write now offset data =>
    show (aclintMtimerW now offset data s).mtimerRegs 0 = s.mtimerRegs 0
    unfold aclintMtimerW
    split
    · rfl
    · have hne : 0 ≠ offset.toNat := fun hzero =>
        he now data (congrArg (TimerEvent.write now · data) (BitVec.eq_of_toNat_eq hzero.symm))
      exact Function.update_of_ne hne _ _

theorem timerRun_compare (hes : ∀ now data, TimerEvent.write now (compareOffset 0) data ∉ es) :
    (timerRun s es).mtimerRegs 0 = s.mtimerRegs 0 := by
  induction es generalizing s with
  | nil => rfl
  | cons e es ih =>
    have hstep : (e.step s).mtimerRegs 0 = s.mtimerRegs 0 :=
      timerStep_compare fun now data he => hes now data (he ▸ List.mem_cons_self)
    rw [timerRun, List.foldl_cons]
    exact (ih fun now data hmem => hes now data (List.mem_cons_of_mem e hmem)).trans hstep

theorem compareOwned_zero (hcount : 0 < machHartCount.toNat)
    (hes : ∀ now data, TimerEvent.write now (compareOffset 0) data ∉ es)
    (hrun : ∀ e ∈ es, e.InBounds) : CompareOwned 0 s es where
  compare now v i _ := by
    rw [aclintMtimerW_zero hcount]
    dsimp only
    rw [Function.update_apply]
  mip now v i _ := by
    rw [aclintMtimerW_zero hcount]
    dsimp only
    rw [Function.update_apply]
    split
    · next hi => rw [hi]
    · rfl
  readBack now v now' := by
    unfold aclintMtimerR
    rw [if_neg (by decide)]
    refine (timerRun_compare hes).trans ?_
    rw [aclintMtimerW_zero hcount]
    exact Function.update_self (0 : Nat) v s.mtimerRegs
  access := .inr hcount
  run := hrun

end HartZero

/-- A write of another hart's register misses it. -/
theorem aclintMtimerW_misses {hart : Nat} (hne : hart ≠ 0) (hlt : hart < 65536)
    (now v : BitVec 64) (s : AclintState machHartCount) :
    (aclintMtimerW now (compareOffset hart) v s).mtimerRegs hart = s.mtimerRegs hart := by
  have hoffset : (compareOffset hart).toNat = 8 * hart := by
    rw [compareOffset, BitVec.toNat_ofNat, Nat.mod_eq_of_lt (by omega)]
  unfold aclintMtimerW
  split
  · rfl
  · rw [hoffset]
    exact Function.update_of_ne (by omega) _ _

/-- For every hart count, hart, state and further accesses, the register belongs to the hart
    exactly if the hart is hart 0 and the further accesses stay in bounds. -/
theorem compareOwned_iff (machHartCount : BitVec 16) (hart : Nat)
    (hhart : hart < machHartCount.toNat) (s : AclintState machHartCount)
    (es : List (TimerEvent machHartCount))
    (hes : ∀ now data, TimerEvent.write now (compareOffset hart) data ∉ es) :
    CompareOwned hart s es ↔ hart = 0 ∧ ∀ e ∈ es, e.InBounds := by
  constructor
  · intro h
    refine ⟨?_, h.run⟩
    by_contra hne
    have hlt : hart < 65536 := Nat.lt_trans hhart machHartCount.isLt
    have hwrite := h.compare 0 (s.mtimerRegs hart + 1) hart hhart
    rw [if_pos rfl, aclintMtimerW_misses hne hlt] at hwrite
    have hnat := congrArg BitVec.toNat hwrite
    have hreg := (s.mtimerRegs hart).isLt
    rw [BitVec.toNat_add] at hnat
    have hone : (1 : BitVec 64).toNat = 1 := rfl
    omega
  · rintro ⟨rfl, hrun⟩
    exact compareOwned_zero hhart hes hrun

/-- The state after `aclint_mtimer_init`, on zeroed memory. -/
private def timerStart (machHartCount : BitVec 16) : AclintState machHartCount :=
  aclintMtimerInit 0 ⟨0, fun _ => 0, fun _ => 0, fun _ => 0, BitVec.ofNat 16, fun _ _ => rfl⟩

/-- Two harts; the time is set and read, and hart 1 is polled. -/
theorem compareOwned_iff_firstHart :
    CompareOwned 0 (timerStart 2) [.write 7 0x7ff8 3, .read 8 0x7ff8, .chk 9 ⟨1, by decide⟩] :=
  (compareOwned_iff 2 0 (by decide) _ _ (by simp [compareOffset])).mpr ⟨rfl, by
    simp only [List.forall_mem_cons, TimerEvent.InBounds, MtimerInBounds, true_or, true_and,
      List.not_mem_nil, false_imp_iff, implies_true]⟩

/-- The write to the register of the second of two harts uses index 8. -/
theorem compareOwned_secondHart : ¬ CompareOwned 1 (timerStart 2) [] :=
  fun h => absurd h.access (by unfold MtimerInBounds; decide)

end RvEmu
