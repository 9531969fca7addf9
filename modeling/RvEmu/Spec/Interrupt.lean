import RvEmu.Spec.Trap

/-!
# When an interrupt is taken

`createException` decides with two early tests and a delegation test;
`createException_intTarget` restates the decision as one table, which is then
compared with `Isa.intTargetMode`. The two agree except for a delegated
interrupt in M-mode, which is taken, and for an undelegated supervisor
interrupt in S-mode with SIE clear, which is not.
-/

namespace RvEmu

open Isa (StdInt)

/-- The enumerator of a standard interrupt. -/
def Isa.StdInt.exc : StdInt → HartException
  | .ssoft => .ssoftint | .msoft => .msoftint | .stime => .stimeint
  | .mtime => .mtimeint | .sext => .sextint | .mext => .mextint

/-- The bit of `mideleg` for an interrupt. -/
def HartState.intDelegated (hs : HartState) (i : StdInt) : Bool := hs.csr.mideleg.getLsbD i.cause

/-- The architecture's answer for the state of a hart. -/
def HartState.intTarget (hs : HartState) (i : StdInt) : Option (BitVec 2) :=
  Isa.intTargetMode (hs.intDelegated i) i.supervisor hs.privmode hs.csr.mstatusMie
    hs.csr.mstatusSie

/-- The exception of an interrupt is one, … -/
theorem StdInt.exc_interrupt (i : StdInt) : i.exc.interrupt = true := by
  cases i <;> rfl

/-- … has the mask of its bit … -/
theorem StdInt.exc_intMask (i : StdInt) : i.exc.intMask = 1#64 <<< i.cause := by
  cases i <;> rfl

/-- … and is not none. -/
theorem StdInt.exc_ne_noexc (i : StdInt) : i.exc ≠ .noexc := by
  cases i <;> decide

/-- The list of causes in `create_exception` is the machine level. -/
theorem StdInt.exc_cause_machine (i : StdInt) :
    (i.exc.cause != 3 && i.exc.cause != 7 && i.exc.cause != 11) = i.supervisor := by
  cases i <;> decide

/-- When an interrupt is disabled … -/
theorem intDisabled_exc (hs : HartState) (i : StdInt) :
    intDisabled hs i.exc =
      ((hs.privmode == 3 && !hs.csr.mstatusMie) ||
       (hs.privmode == 1 && !hs.csr.mstatusSie && i.supervisor)) := by
  have hm : (hs.csr.mstatus &&& (0b1#64 <<< 3) == 0) = !hs.csr.mstatusMie :=
    BitVec.and_one_shiftLeft_beq_zero hs.csr.mstatus 3
  have hs' : (hs.csr.mstatus &&& (0b1#64 <<< 1) == 0) = !hs.csr.mstatusSie :=
    BitVec.and_one_shiftLeft_beq_zero hs.csr.mstatus 1
  rw [intDisabled, hm, hs', StdInt.exc_interrupt, ← StdInt.exc_cause_machine]
  simp only [Bool.true_and, Bool.and_assoc]

/-- … and when it is delegated. -/
theorem delegatedToS_exc (hs : HartState) (i : StdInt) :
    delegatedToS hs i.exc = (hs.intDelegated i && decide (hs.privmode ≤ 1)) := by
  have hz : (hs.csr.mideleg &&& (1#64 <<< i.cause) == 0) = !hs.intDelegated i :=
    BitVec.and_one_shiftLeft_beq_zero _ _
  have hd : (hs.csr.mideleg &&& i.exc.intMask != 0) = hs.intDelegated i := by
    rw [StdInt.exc_intMask, bne, hz, Bool.not_not]
  rw [delegatedToS, StdInt.exc_interrupt, if_pos rfl, hd]

/-- The decision of `createException` for a standard interrupt. -/
theorem createException_intTarget (hs : HartState) (i : StdInt) (tval : BitVec 64) :
    trapTarget hs i.exc tval =
      if (hs.privmode = 3 ∧ hs.csr.mstatusMie = false) ∨
         (hs.privmode = 1 ∧ hs.csr.mstatusSie = false ∧ i.supervisor = true) then none
      else if hs.intDelegated i = true ∧ hs.privmode ≤ 1 then
        if hs.csr.sie.getLsbD i.cause then some 1 else none
      else if hs.csr.mie.getLsbD i.cause then some 3 else none := by
  have hsie : (hs.csr.sie &&& i.exc.intMask == 0) = !hs.csr.sie.getLsbD i.cause := by
    rw [StdInt.exc_intMask]
    exact BitVec.and_one_shiftLeft_beq_zero _ _
  have hmie : (hs.csr.mie &&& i.exc.intMask == 0) = !hs.csr.mie.getLsbD i.cause := by
    rw [StdInt.exc_intMask]
    exact BitVec.and_one_shiftLeft_beq_zero _ _
  have hdis := intDisabled_exc { hs with instbuf := 0 } i
  have hdel := delegatedToS_exc { hs with instbuf := 0 } i
  have hne := StdInt.exc_ne_noexc i
  simp only [trapTarget, createException, hdis, hdel, hsie, hmie, StdInt.exc_interrupt,
    Bool.true_and]
  simp only [HartState.intDelegated]
  grind [trapToS, trapToM]

/-- `sie` is `mie` restricted to the supervisor level. -/
theorem sie_getLsbD {c : CsrState} (h : c.sie = c.mie &&& ~~~machineInts) (i : StdInt) :
    c.sie.getLsbD i.cause = (c.mie.getLsbD i.cause && i.supervisor) := by
  rw [h]
  cases i <;> simp [machineInts, StdInt.cause, StdInt.supervisor]

/-- `createException` takes an enabled interrupt just when the architecture says
    so, and in the mode it says, except in two situations. -/
theorem createException_matches_intTarget_iff (hs : HartState) (i : StdInt) (tval : BitVec 64)
    (hpriv : hs.privmode ≠ 2) (hmie : hs.csr.mie.getLsbD i.cause = true)
    (hsie : hs.csr.sie = hs.csr.mie &&& ~~~machineInts) :
    trapTarget hs i.exc tval = hs.intTarget i ↔
      ¬ (hs.privmode = 3 ∧ hs.csr.mstatusMie = true ∧ hs.intDelegated i = true) ∧
      ¬ (hs.privmode = 1 ∧ hs.csr.mstatusSie = false ∧ hs.intDelegated i = false ∧
          i.supervisor = true) := by
  rw [createException_intTarget, sie_getLsbD hsie, hmie, HartState.intTarget, Isa.intTargetMode]
  have hcases : hs.privmode = 0 ∨ hs.privmode = 1 ∨ hs.privmode = 3 := by
    have := hs.privmode.isLt
    have h2 : hs.privmode.toNat ≠ 2 := fun h => hpriv (BitVec.eq_of_toNat_eq h)
    simp only [← BitVec.toNat_inj]
    simp
    omega
  -- the table has one row for each mode and four flags
  cases hs.csr.mstatusMie <;> cases hs.csr.mstatusSie <;> cases hs.intDelegated i <;>
    cases i.supervisor <;> rcases hcases with h | h | h <;> rw [h] <;> decide

/-- A hart in S-mode with its timer interrupt pending, enabled and not
    delegated, and with SIE as given. -/
private def timerHart (sie : Bool) : HartState :=
  let hs := resetState 0
  { hs with
    privmode := 1
    csr := { hs.csr with
      mip := 1#64 <<< 5, mstatus := if sie then 1#64 <<< 1 else 0, mtvec := 0x80001000 } }

/-- A delegated timer interrupt. -/
theorem createException_matches_intTarget_timer :
    trapTarget (timerHart true) .stimeint 0 = (timerHart true).intTarget .stime :=
  (createException_matches_intTarget_iff (timerHart true) .stime 0 (by decide) (by decide)
    (by decide)).mpr ⟨by decide, by decide⟩

/-- With SIE clear the same interrupt belongs in M-mode, but is masked. -/
theorem createException_masks_undelegated_timer :
    ¬ ∀ (hs : HartState) (i : StdInt) (tval : BitVec 64), hs.privmode ≠ 2 →
      hs.csr.mip.getLsbD i.cause = true → hs.csr.mie.getLsbD i.cause = true →
      hs.csr.sie = hs.csr.mie &&& ~~~machineInts →
      trapTarget hs i.exc tval = hs.intTarget i := by
  intro h
  have htimer := h (timerHart false) .stime 0 (by decide) (by decide) (by decide) (by decide)
  exact absurd htimer (by decide +kernel)

end RvEmu
