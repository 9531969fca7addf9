import Mathlib.Data.List.Induction
import RvEmu.Native.Aclint

/-!
# Software interrupts

The MSIP bit of a hart has to follow the lowest bit of its MSWI register, which is at
offset `4 * h`. `aclint_mswi_chk` sets MSIP and never clears it, and the handlers use the
offset as the index of the register.

## Key results

- `msip_run_iff`: MSIP is set exactly if it was set before or some poll has found a set
  register
- `followsRegister_iff`: in which runs MSIP follows the register
-/

namespace RvEmu

/-- The MSWI offset of the register of a hart. -/
def mswiOffset (hart : Nat) : BitVec 64 := BitVec.ofNat 64 (4 * hart)

/-- A write of the guest to the register of the hart at hand, or a poll of a hart. -/
inductive MswiEvent (machHartCount : BitVec 16) where
  | write (data : BitVec 64)
  | chk (i : Fin machHartCount.toNat)

/-- The value that an event writes. -/
def MswiEvent.written {machHartCount : BitVec 16} :
    MswiEvent machHartCount → Option (BitVec 64)
  | write data => some data
  | chk _ => none

section Run

variable {machHartCount : BitVec 16} (hart : Fin machHartCount.toNat)

def MswiEvent.step (s : AclintState machHartCount) :
    MswiEvent machHartCount → AclintState machHartCount
  | write data => aclintMswiW (mswiOffset hart) data s
  | chk i => aclintMswiChk i s

/-- The state after a run. -/
def mswiRun (s : AclintState machHartCount) (es : List (MswiEvent machHartCount)) :
    AclintState machHartCount :=
  es.foldl (MswiEvent.step hart) s

end Run

section Condition

variable {machHartCount : BitVec 16} (hart : Fin machHartCount.toNat)
  (s : AclintState machHartCount) (es : List (MswiEvent machHartCount))

/-- MSIP of the hart. -/
def AclintState.msip : Bool := (s.mip hart).getLsbD 3

/-- The last value that was written. -/
def lastWritten : Option (BitVec 64) := (es.filterMap MswiEvent.written).getLast?

/-- After each poll of the hart, MSIP is the lowest bit of the last value written. -/
def FollowsRegister : Prop :=
  ∀ before, before ++ [.chk hart] <+: es → ∀ v, lastWritten before = some v →
    (mswiRun hart s (before ++ [.chk hart])).msip hart = v.getLsbD 0

/-- The register of hart 0 is set: by the last write, or from the start. -/
def firstSet : Bool :=
  match lastWritten es with
  | some v => v.getLsbD 0
  | none => s.mswiRegs 0 != 0

/-- Where a poll of hart 0 has a clear register to find, MSIP was clear at the start and no
    earlier poll has found the register set. A poll of another hart finds its cell as it was
    at the start, which has to agree with what is written. -/
structure MswiCondition : Prop where
  first : hart.val = 0 → ∀ before, before ++ [.chk hart] <+: es → ∀ v,
    lastWritten before = some v → v.getLsbD 0 = false →
      s.msip hart = false ∧
        ∀ earlier, earlier ++ [.chk hart] <+: before → firstSet s earlier = false
  others : hart.val ≠ 0 → ∀ before, before ++ [.chk hart] <+: es → ∀ v,
    lastWritten before = some v →
      (v.getLsbD 0 = true ↔ s.msip hart = true ∨ s.mswiRegs hart ≠ 0)

end Condition

/-! ## Runs -/

section Runs

variable {machHartCount : BitVec 16} {hart : Fin machHartCount.toNat}
  {s : AclintState machHartCount} {es : List (MswiEvent machHartCount)}

theorem mswiRun_append (e : MswiEvent machHartCount) :
    mswiRun hart s (es ++ [e]) = e.step hart (mswiRun hart s es) := by
  rw [mswiRun, List.foldl_append]
  rfl

/-- A poll looks at the cell of the hart's index. -/
theorem aclintMswiChk_eq (i : Fin machHartCount.toNat) :
    aclintMswiChk i s =
      if s.mswiRegs i ≠ 0 then
        { s with mip := Function.update s.mip i (s.mip i ||| 1#64 <<< 3) }
      else s := by
  unfold aclintMswiChk
  rw [s.hartid_toNat i.isLt]

/-- A poll of the hart sets MSIP if it finds the register set. -/
theorem msip_chk_self : (aclintMswiChk hart s).msip hart =
    (s.msip hart || s.mswiRegs hart != 0) := by
  rw [aclintMswiChk_eq]
  split
  · next hset =>
    have hbit : ∀ word : BitVec 64, (word ||| 1#64 <<< 3).getLsbD 3 = true := by
      intro word
      rw [BitVec.getLsbD_or]
      exact Bool.or_true _
    unfold AclintState.msip
    dsimp only
    rw [Function.update_self, hbit, bne_iff_ne.mpr hset, Bool.or_true]
  · next hclear =>
    rw [not_not] at hclear
    rw [hclear, bne_self_eq_false, Bool.or_false]

/-- A poll of another hart leaves MSIP alone. -/
theorem msip_chk_other {i : Fin machHartCount.toNat} (hi : i ≠ hart) :
    (aclintMswiChk i s).msip hart = s.msip hart := by
  have hne : (hart : Nat) ≠ i := fun h => hi (Fin.ext h.symm)
  rw [aclintMswiChk_eq]
  split
  · unfold AclintState.msip
    dsimp only
    rw [Function.update_of_ne hne]
  · rfl

theorem aclintMswiChk_mswiRegs (i : Fin machHartCount.toNat) :
    (aclintMswiChk i s).mswiRegs = s.mswiRegs := by
  rw [aclintMswiChk_eq]
  split <;> rfl

/-- The poll of the timer leaves MSIP alone. -/
theorem msip_mtimerChk (now : BitVec 64) (i : Fin machHartCount.toNat) :
    (aclintMtimerChk now i s).msip hart = s.msip hart := by
  have hbits : ∀ word : BitVec 64, (word ||| 1#64 <<< 7).getLsbD 3 = word.getLsbD 3 ∧
      (word &&& ~~~(1#64 <<< 7)).getLsbD 3 = word.getLsbD 3 := by
    intro word
    rw [BitVec.getLsbD_or, BitVec.getLsbD_and]
    exact ⟨Bool.or_false _, Bool.and_true _⟩
  unfold aclintMtimerChk AclintState.msip
  dsimp only
  rw [Function.update_apply]
  split
  · next hi =>
    rw [← hi]
    split
    · exact (hbits _).1
    · exact (hbits _).2
  · rfl

/-- The main loop polls through `hw_perhart_update`, which does to MSIP what
    `aclint_mswi_chk` does. -/
theorem msip_hwPerhartUpdate (now : BitVec 64) (i : Fin machHartCount.toNat) :
    (hwPerhartUpdate now i s).msip hart = (aclintMswiChk i s).msip hart := by
  unfold hwPerhartUpdate
  by_cases hi : i = hart
  · rw [hi, msip_chk_self, msip_chk_self, msip_mtimerChk]
    rfl
  · rw [msip_chk_other hi, msip_chk_other hi, msip_mtimerChk]

/-- A new poll comes behind those that a run already has. -/
theorem poll_prefix_append {before : List (MswiEvent machHartCount)}
    {e : MswiEvent machHartCount} :
    before ++ [.chk hart] <+: es ++ [e] ↔
      (before = es ∧ .chk hart = e) ∨ before ++ [.chk hart] <+: es := by
  rw [List.prefix_concat_iff, List.append_singleton_inj]

/-- MSIP is set exactly if it was set at the start, or some poll has found a set register. -/
theorem msip_run_iff : (mswiRun hart s es).msip hart = true ↔ s.msip hart = true ∨
    ∃ before, before ++ [.chk hart] <+: es ∧ (mswiRun hart s before).mswiRegs hart ≠ 0 := by
  induction es using List.reverseRecOn with
  | nil =>
    refine ⟨Or.inl, fun h => h.elim id ?_⟩
    rintro ⟨before, hpre, -⟩
    exact absurd (List.prefix_nil.mp hpre) (List.append_ne_nil_of_right_ne_nil _ (List.cons_ne_nil _ _))
  | append_singleton es e ih =>
    rw [mswiRun_append]
    simp only [poll_prefix_append]
    -- only a poll of the hart itself is one more that may have found the register set
    by_cases he : .chk hart = e
    · subst he
      have hstep : ((MswiEvent.chk hart).step hart (mswiRun hart s es)).msip hart =
          ((mswiRun hart s es).msip hart || (mswiRun hart s es).mswiRegs hart != 0) :=
        msip_chk_self
      rw [hstep, Bool.or_eq_true, bne_iff_ne, ih]
      constructor
      · rintro ((hstart | ⟨before, hpre, hset⟩) | hset)
        · exact .inl hstart
        · exact .inr ⟨before, .inr hpre, hset⟩
        · exact .inr ⟨es, .inl ⟨rfl, rfl⟩, hset⟩
      · rintro (hstart | ⟨before, ⟨rfl, -⟩ | hpre, hset⟩)
        · exact .inl (.inl hstart)
        · exact .inr hset
        · exact .inl (.inr ⟨before, hpre, hset⟩)
    · have hstep : (e.step hart (mswiRun hart s es)).msip hart =
          (mswiRun hart s es).msip hart := by
        cases e with
        | write data => rfl
        | chk i => exact msip_chk_other fun hi => he (congrArg MswiEvent.chk hi.symm)
      simp only [he, and_false, false_or]
      rw [hstep, ih]

/-! ## What the polls find -/

/-- The value that was written last, one event on. -/
theorem lastWritten_append (e : MswiEvent machHartCount) :
    lastWritten (es ++ [e]) = e.written.or (lastWritten es) := by
  unfold lastWritten
  rw [List.filterMap_append, List.getLast?_append]
  cases e <;> rfl

/-- What `aclint_mswi_w` stores is zero if the lowest bit is. -/
theorem lowestBit_ne_zero (data : BitVec 64) :
    (data &&& 0b1).setWidth 32 ≠ 0 ↔ data.getLsbD 0 = true := by
  have hmod : (data &&& 0b1).toNat = data.toNat % 2 := by
    rw [BitVec.toNat_and]
    exact Nat.and_one_is_mod _
  have hget : data.getLsbD 0 = decide (data.toNat % 2 = 1) := Nat.testBit_zero _
  rw [hget, decide_eq_true_iff, ne_eq, ← BitVec.toNat_inj, BitVec.toNat_setWidth, hmod]
  show ¬ _ = 0 ↔ _
  omega

/-- Polls of hart 0 find the register. -/
theorem mswiRegs_first (hfirst : hart.val = 0) :
    (mswiRun hart s es).mswiRegs hart ≠ 0 ↔ firstSet s es = true := by
  rw [hfirst]
  induction es using List.reverseRecOn with
  | nil => exact bne_iff_ne.symm
  | append_singleton es e ih =>
    rw [mswiRun_append]
    unfold firstSet
    rw [lastWritten_append]
    cases e with
    | write data =>
      have hoffset : (mswiOffset hart).toNat = 0 := by
        rw [hfirst]
        rfl
      show (aclintMswiW (mswiOffset hart) data (mswiRun hart s es)).mswiRegs 0 ≠ 0 ↔ _
      unfold aclintMswiW
      dsimp only
      rw [hoffset, Function.update_self, lowestBit_ne_zero]
      rfl
    | chk i =>
      show (aclintMswiChk i (mswiRun hart s es)).mswiRegs 0 ≠ 0 ↔ _
      rw [aclintMswiChk_mswiRegs, ih]
      rfl

/-- Polls of another hart find its cell as it was. -/
theorem mswiRegs_others (hother : hart.val ≠ 0) :
    (mswiRun hart s es).mswiRegs hart = s.mswiRegs hart := by
  have hcount := machHartCount.isLt
  have hlt := hart.isLt
  induction es using List.reverseRecOn with
  | nil => rfl
  | append_singleton es e ih =>
    rw [mswiRun_append]
    cases e with
    | write data =>
      have hne : hart.val ≠ (mswiOffset hart).toNat := by
        rw [mswiOffset, BitVec.toNat_ofNat, Nat.mod_eq_of_lt (by omega)]
        omega
      show (aclintMswiW (mswiOffset hart) data (mswiRun hart s es)).mswiRegs hart = _
      unfold aclintMswiW
      dsimp only
      rw [Function.update_of_ne hne, ih]
    | chk i =>
      show (aclintMswiChk i (mswiRun hart s es)).mswiRegs hart = _
      rw [aclintMswiChk_mswiRegs, ih]

theorem firstSet_of_written {v : BitVec 64} (hv : lastWritten es = some v) :
    firstSet s es = v.getLsbD 0 := by
  unfold firstSet
  rw [hv]

theorem followsRegister_first (hfirst : hart.val = 0) :
    FollowsRegister hart s es ↔ MswiCondition hart s es := by
  constructor
  · intro h
    refine ⟨fun _ before hpre v hv hclear => ?_, fun hne => absurd hfirst hne⟩
    have hmsip := h before hpre v hv
    rw [hclear, ← Bool.not_eq_true, msip_run_iff, not_or] at hmsip
    refine ⟨(Bool.not_eq_true _).mp hmsip.1, fun earlier hearlier => ?_⟩
    rw [← Bool.not_eq_true, ← mswiRegs_first hfirst]
    exact fun hset => hmsip.2 ⟨earlier, hearlier.trans (List.prefix_append _ _), hset⟩
  · intro h before hpre v hv
    rw [Bool.eq_iff_iff, msip_run_iff]
    constructor
    · intro hmsip
      by_contra hclear
      rw [Bool.not_eq_true] at hclear
      obtain ⟨hstart, hearlier⟩ := h.first hfirst before hpre v hv hclear
      rcases hmsip with hmsip | ⟨earlier, hpoll, hset⟩
      · exact absurd hmsip (by rw [hstart]; decide)
      · rw [mswiRegs_first hfirst] at hset
        rcases poll_prefix_append.mp hpoll with ⟨rfl, -⟩ | hpoll
        · rw [firstSet_of_written hv, hclear] at hset
          exact absurd hset (by decide)
        · rw [hearlier earlier hpoll] at hset
          exact absurd hset (by decide)
    · intro hset
      refine .inr ⟨before, List.prefix_rfl, (mswiRegs_first hfirst).mpr ?_⟩
      rw [firstSet_of_written hv]
      exact hset

theorem followsRegister_others (hother : hart.val ≠ 0) :
    FollowsRegister hart s es ↔ MswiCondition hart s es := by
  -- the polls find the cell of the hart, which no write changes
  have hmsip : ∀ before : List (MswiEvent machHartCount),
      (mswiRun hart s (before ++ [.chk hart])).msip hart = true ↔
        s.msip hart = true ∨ s.mswiRegs hart ≠ 0 := by
    intro before
    rw [msip_run_iff]
    refine or_congr_right ⟨?_, fun hset => ⟨before, List.prefix_rfl, ?_⟩⟩
    · rintro ⟨earlier, -, hset⟩
      rwa [mswiRegs_others hother] at hset
    · rwa [mswiRegs_others hother]
  constructor
  · intro h
    refine ⟨fun hfirst => absurd hfirst hother, fun _ before hpre v hv => ?_⟩
    rw [← hmsip before, h before hpre v hv]
  · intro h before hpre v hv
    rw [Bool.eq_iff_iff, hmsip before, h.others hother before hpre v hv]

end Runs

/-- For every hart, initial state and sequence of writes to the register of the hart and
    polls, MSIP follows the register exactly if the condition holds. -/
theorem followsRegister_iff {machHartCount : BitVec 16} (hart : Fin machHartCount.toNat)
    (s : AclintState machHartCount) (es : List (MswiEvent machHartCount)) :
    FollowsRegister hart s es ↔ MswiCondition hart s es := by
  by_cases hfirst : hart.val = 0
  · exact followsRegister_first hfirst
  · exact followsRegister_others hfirst

/-- One hart, reset. -/
private def mswiStart : AclintState 1 :=
  ⟨0, fun _ => 0, fun _ => 0, fun _ => 0, BitVec.ofNat 16, fun _ _ => rfl⟩

/-- Clearing the register does not withdraw the interrupt. -/
theorem followsRegister_withdrawn : ¬ FollowsRegister ⟨0, by decide⟩ mswiStart
    [.write 1, .chk ⟨0, by decide⟩, .write 0, .chk ⟨0, by decide⟩] := by
  intro h
  have hlast := h [.write 1, .chk ⟨0, by decide⟩, .write 0] List.prefix_rfl 0 rfl
  exact absurd hlast (by decide)

end RvEmu
