import RvEmu.Spec.Interrupt
import RvEmu.Isa.Trap

/-!
# Trap entry against the privileged architecture

The two branches of `create_exception` are one operation on the trap CSRs of a
level, `Isa.TrapCsrs.enter`, and each leaves the CSRs of the other level alone.
They differ from the architecture in the pc of a vectored handler, to which
`create_exception` also sends exceptions.
-/

namespace RvEmu

open Isa (TrapLevel TrapCsrs)

/-! ## The vocabulary of the specification -/

/-- The cause that an enumerator stands for; NOEXC takes an interrupt number
    that is left to the platform. -/
def HartException.isaCause : HartException → Isa.Cause
  | imisalign => ⟨false, 0⟩ | iafault => ⟨false, 1⟩ | illinst => ⟨false, 2⟩ | bpoint => ⟨false, 3⟩
  | lmisalign => ⟨false, 4⟩ | lafault => ⟨false, 5⟩ | smisalign => ⟨false, 6⟩ | safault => ⟨false, 7⟩
  | uecall => ⟨false, 8⟩ | hsecall => ⟨false, 9⟩ | vsecall => ⟨false, 10⟩ | mecall => ⟨false, 11⟩
  | ipfault => ⟨false, 12⟩ | lpfault => ⟨false, 13⟩ | res2 => ⟨false, 14⟩ | spfault => ⟨false, 15⟩
  | res3 => ⟨true, 0⟩ | ssoftint => ⟨true, 1⟩ | res4 => ⟨true, 2⟩ | msoftint => ⟨true, 3⟩
  | res5 => ⟨true, 4⟩ | stimeint => ⟨true, 5⟩ | res6 => ⟨true, 6⟩ | mtimeint => ⟨true, 7⟩
  | res7 => ⟨true, 8⟩ | sextint => ⟨true, 9⟩ | res8 => ⟨true, 10⟩ | mextint => ⟨true, 11⟩
  | noexc => ⟨true, 16⟩

/-- The trap CSRs of a level. -/
def CsrState.trapCsrs (c : CsrState) : TrapLevel → TrapCsrs
  | .machine => ⟨c.mtvec, c.mscratch, c.mepc, c.mcause, c.mtval, c.mstatusMie,
      c.mretInfo.enable, c.mretInfo.privmode⟩
  | .supervisor => ⟨c.stvec, c.sscratch, c.sepc, c.scause, c.stval, c.mstatusSie,
      c.sretInfo.enable, c.sretInfo.privmode⟩

/-- The bit of `medeleg` or `mideleg` for a cause. -/
def CsrState.delegates (c : CsrState) (cause : Isa.Cause) : Bool :=
  (if cause.interrupt then c.mideleg else c.medeleg).getLsbD cause.code

/-- The level that the architecture takes a trap to. -/
def HartState.trapLevel (hs : HartState) (cause : Isa.Cause) : TrapLevel :=
  Isa.trapLevel (hs.csr.delegates cause) hs.privmode

/-- `hs'` is the state in which the handler starts when a trap is taken in `hs`. -/
structure TrapEntry (hs hs' : HartState) (cause : Isa.Cause) (tval : BitVec 64) : Prop where
  mode : hs'.privmode = (hs.trapLevel cause).mode
  csrs : hs'.csr.trapCsrs (hs.trapLevel cause) =
    (hs.csr.trapCsrs (hs.trapLevel cause)).enter hs.pc hs.privmode cause tval
  pc : hs'.pc = (hs.csr.trapCsrs (hs.trapLevel cause)).handler cause

/-- The cause of the ISA is an interrupt where the enumerator is one, … -/
theorem HartException.isaCause_interrupt (he : HartException) :
    he.isaCause.interrupt = he.interrupt := by
  cases he <;> rfl

/-- The enumerators have the values of `xcause`. -/
theorem HartException.isaCause_bits (he : HartException) : he.isaCause.bits = he.toBits := by
  cases he <;> rfl

/-- … with the same code … -/
theorem HartException.isaCause_code (he : HartException) :
    he.cause = BitVec.ofNat 64 he.isaCause.code := by
  cases he <;> rfl

/-- … and the mask of its bit. -/
theorem HartException.isaCause_intMask (he : HartException) :
    he.intMask = 1#64 <<< he.isaCause.code := by
  cases he <;> rfl

/-- `create_exception` tests the bits that the architecture names. -/
theorem delegatedToS_eq (hs : HartState) (he : HartException) :
    delegatedToS hs he = (hs.csr.delegates he.isaCause && decide (hs.privmode ≤ 1)) := by
  have hz (x : BitVec 64) : (x &&& he.intMask != 0) = x.getLsbD he.isaCause.code := by
    have h := BitVec.and_one_shiftLeft_beq_zero x he.isaCause.code
    rw [bne, HartException.isaCause_intMask]
    exact (congrArg not h).trans (Bool.not_not _)
  rw [delegatedToS, hz, CsrState.delegates, HartException.isaCause_interrupt]

/-- The level of the trap is decided by the delegation. -/
theorem trapLevel_of_delegated {hs : HartState} {he : HartException} (b : Bool)
    (h : delegatedToS hs he = b) :
    hs.trapLevel he.isaCause = if b then .supervisor else .machine := by
  rw [delegatedToS_eq] at h
  rw [HartState.trapLevel, Isa.trapLevel, h]

/-! ## One entry for both levels -/

/-- A trap to S-mode writes its CSRs as the ISA says, … -/
theorem trapToS_trapCsrs {hs : HartState} (he : HartException) (tval : BitVec 64)
    (hpriv : hs.privmode ≤ 1) :
    (trapToS hs he he.cause tval).csr.trapCsrs .supervisor =
      (hs.csr.trapCsrs .supervisor).enter hs.pc hs.privmode he.isaCause tval := by
  have hinfo := trapToS_sretInfo he he.cause tval hpriv
  have hpie := congrArg RetInfo.enable hinfo
  have hpp := congrArg RetInfo.privmode hinfo
  have hie : (trapToS hs he he.cause tval).csr.mstatusSie = false := by
    simp [trapToS, CsrState.mstatusSie]
  apply TrapCsrs.ext <;> try rfl
  · exact he.isaCause_bits.symm
  · exact hie
  · exact hpie
  · exact hpp

/-- … one to M-mode those of M-mode, … -/
theorem trapToM_trapCsrs (hs : HartState) (he : HartException) (tval : BitVec 64) :
    (trapToM hs he he.cause tval).csr.trapCsrs .machine =
      (hs.csr.trapCsrs .machine).enter hs.pc hs.privmode he.isaCause tval := by
  have hinfo := trapToM_mretInfo hs he he.cause tval
  have hpie := congrArg RetInfo.enable hinfo
  have hpp := congrArg RetInfo.privmode hinfo
  have hie : (trapToM hs he he.cause tval).csr.mstatusMie = false := by
    simp [trapToM, CsrState.mstatusMie]
  apply TrapCsrs.ext <;> try rfl
  · exact he.isaCause_bits.symm
  · exact hie
  · exact hpie
  · exact hpp

/-- The masks of the S-level branch do not reach the M-level fields. -/
theorem trapToS_trapCsrs_machine (hs : HartState) (he : HartException) (tval : BitVec 64) :
    (trapToS hs he he.cause tval).csr.trapCsrs .machine = hs.csr.trapCsrs .machine := by
  apply TrapCsrs.ext <;> try rfl
  · simp [trapToS, CsrState.trapCsrs, CsrState.mstatusMie]
  · simp [trapToS, CsrState.trapCsrs, CsrState.mretInfo]
  · ext i hi
    have : i = 0 ∨ i = 1 := by omega
    rcases this with rfl | rfl <;> simp [trapToS, CsrState.trapCsrs, CsrState.mretInfo]

/-- … and leaves those of S-mode alone. -/
theorem trapToM_trapCsrs_supervisor (hs : HartState) (he : HartException) (tval : BitVec 64) :
    (trapToM hs he he.cause tval).csr.trapCsrs .supervisor = hs.csr.trapCsrs .supervisor := by
  have hinfo := trapToM_sretInfo hs he he.cause tval
  have hpie := congrArg RetInfo.enable hinfo
  have hpp := congrArg RetInfo.privmode hinfo
  have hie : (trapToM hs he he.cause tval).csr.mstatusSie = hs.csr.mstatusSie := by
    simp [trapToM, CsrState.mstatusSie]
  apply TrapCsrs.ext <;> try rfl
  · exact hie
  · exact hpie
  · exact hpp

/-- What taking a trap does, at whichever level it is taken. -/
structure Entered (hs hs' : HartState) (l : TrapLevel) (he : HartException)
    (tval : BitVec 64) : Prop where
  mode : hs'.privmode = l.mode
  raised : hs.privmode ≤ l.mode
  own : hs'.csr.trapCsrs l =
    (hs.csr.trapCsrs l).enter hs.pc hs.privmode he.isaCause tval
  other : hs'.csr.trapCsrs l.other = hs.csr.trapCsrs l.other
  pc : hs'.pc = trapVector (hs.csr.trapCsrs l).tvec he.cause

/-- So the trap is entered in S-mode … -/
theorem entered_trapToS {hs : HartState} (he : HartException) (tval : BitVec 64)
    (hpriv : hs.privmode ≤ 1) :
    Entered hs (trapToS { hs with instbuf := 0 } he he.cause tval) .supervisor he tval where
  mode := rfl
  raised := hpriv
  own := @trapToS_trapCsrs { hs with instbuf := 0 } he tval hpriv
  other := trapToS_trapCsrs_machine { hs with instbuf := 0 } he tval
  pc := rfl

/-- … or in M-mode. -/
theorem entered_trapToM (hs : HartState) (he : HartException) (tval : BitVec 64) :
    Entered hs (trapToM { hs with instbuf := 0 } he he.cause tval) .machine he tval where
  mode := rfl
  raised := Nat.le_of_lt_succ hs.privmode.isLt
  own := trapToM_trapCsrs { hs with instbuf := 0 } he tval
  other := trapToM_trapCsrs_supervisor { hs with instbuf := 0 } he tval
  pc := rfl

/-- A trap that `create_exception` accepts is taken at the level that the
    architecture takes it to. -/
theorem createException_entered {hs : HartState} {he : HartException} {tval : BitVec 64}
    (h : (createException hs he tval).1 ≠ .noexc) :
    Entered hs (createException hs he tval).2 (hs.trapLevel he.isaCause) he tval := by
  rcases createException_cases hs he tval with hc | ⟨hpriv, hdel, hc⟩ | ⟨hdel, hc⟩
  · rw [hc] at h
    exact absurd rfl h
  · rw [hc, trapLevel_of_delegated true hdel]
    exact entered_trapToS he tval hpriv
  · rw [hc, trapLevel_of_delegated false hdel]
    exact entered_trapToM hs he tval

/-! ## The start of the handler -/

/-- Where both values of the lowest bit are defined, clearing it clears MODE. -/
theorem base_of_modeDefined {t : TrapCsrs} (h : t.ModeDefined) :
    t.tvec &&& ~~~1#64 = t.base := by
  have hbit : t.tvec.getLsbD 1 = false := by
    have htest : t.tvec.getLsbD 1 = (t.tvec &&& 0b11#64).getLsbD 1 := by simp
    rcases h with h | h <;> rw [htest, h] <;> rfl
  have hmask : ~~~0b11#64 = ~~~1#64 &&& ~~~(1#64 <<< 1) := rfl
  rw [TrapCsrs.base, hmask, ← BitVec.and_assoc]
  apply BitVec.eq_of_getLsbD_eq
  intro i hi
  by_cases h1 : i = 1
  · subst h1
    simp only [BitVec.getLsbD_and, hbit, Bool.false_and]
  · have hi1 : ¬ (1 ≤ i ∧ i - 1 = 0) := by omega
    simp only [BitVec.getLsbD_and, BitVec.getLsbD_not, BitVec.getLsbD_shiftLeft,
      BitVec.getLsbD_one, hi, decide_true, Bool.true_and]
    grind

/-- `create_exception` vectors exceptions as well as interrupts. -/
theorem trapVector_eq {t : TrapCsrs} (h : t.ModeDefined) (he : HartException) :
    trapVector t.tvec he.cause =
      if t.vectored then t.base + 4 * BitVec.ofNat 64 he.isaCause.code else t.base := by
  simp only [trapVector, base_of_modeDefined h, HartException.isaCause_code, TrapCsrs.vectored,
    beq_iff_eq]
  rfl

/-- The handler is the one of the ISA, but for exceptions in vectored mode. -/
theorem trapVector_eq_handler_iff {t : TrapCsrs} (h : t.ModeDefined) (he : HartException) :
    trapVector t.tvec he.cause = t.handler he.isaCause ↔
      he.isaCause.interrupt = true ∨ t.vectored = false ∨ he.isaCause.code = 0 := by
  rw [trapVector_eq h, TrapCsrs.handler]
  cases hv : t.vectored with
  | false => simp
  | true =>
    cases hi : he.isaCause.interrupt with
    | true => simp
    | false =>
      -- an exception in vectored mode: the offset must vanish
      have hzero : 4 * BitVec.ofNat 64 he.isaCause.code = 0#64 ↔ he.isaCause.code = 0 := by
        cases he <;> decide
      simp only [↓reduceIte, Bool.and_true, Bool.false_eq_true, false_or, Bool.true_eq_false,
        BitVec.add_right_eq_self, hzero]

/-- An accepted trap enters its handler as the architecture has it unless it is
    an exception whose level is in vectored mode and whose code is not zero. -/
theorem createException_trapEntry_iff (hs : HartState) (he : HartException) (tval : BitVec 64)
    (hmode : ∀ l, (hs.csr.trapCsrs l).ModeDefined)
    (htaken : (createException hs he tval).1 ≠ .noexc) :
    TrapEntry hs (createException hs he tval).2 he.isaCause tval ↔
      he.isaCause.interrupt = true ∨
      (hs.csr.trapCsrs (hs.trapLevel he.isaCause)).vectored = false ∨
      he.isaCause.code = 0 := by
  have hent := createException_entered htaken
  rw [← trapVector_eq_handler_iff (hmode _), ← hent.pc]
  constructor
  · intro h
    exact h.pc
  · intro hpc
    exact ⟨hent.mode, hent.own, hpc⟩

/-- A hart at reset with `mtvec` in vectored mode. -/
private def vectoredHart : HartState :=
  let hs := resetState 0
  { hs with csr := { hs.csr with mtvec := 0x80000001 } }

/-- An interrupt goes to its vector. -/
theorem createException_trapEntry_mtimeint :
    TrapEntry vectoredHart (createException vectoredHart .mtimeint 0).2
      HartException.mtimeint.isaCause 0 :=
  (createException_trapEntry_iff vectoredHart .mtimeint 0
    (by intro l; cases l <;> decide +kernel) (by decide +kernel)).mpr (.inl rfl)

/-- An ECALL does not go to BASE. -/
theorem createException_vectors_mecall :
    ¬ ∀ (hs : HartState) (he : HartException) (tval : BitVec 64), hs.privmode ≠ 2 →
      (∀ l, (hs.csr.trapCsrs l).ModeDefined) → (createException hs he tval).1 ≠ .noexc →
      TrapEntry hs (createException hs he tval).2 he.isaCause tval := by
  intro h
  have hentry := h vectoredHart .mecall 0 (by decide)
    (by intro l; cases l <;> decide +kernel) (by decide +kernel)
  exact absurd hentry.pc (by decide +kernel)

/-! ## What a trap leaves alone -/

/-- What no trap changes: the integer registers, the PMP state, the TLB, the
    pending and enabled interrupts and the delegation registers. -/
structure TrapKept (hs hs' : HartState) : Prop where
  regs : hs'.regs = hs.regs
  pmp : hs'.pmp = hs.pmp
  tlb : hs'.tlb = hs.tlb
  mip : hs'.csr.mip = hs.csr.mip
  mie : hs'.csr.mie = hs.csr.mie
  sie : hs'.csr.sie = hs.csr.sie
  medeleg : hs'.csr.medeleg = hs.csr.medeleg
  mideleg : hs'.csr.mideleg = hs.csr.mideleg

/-- No exception changes any of this. -/
theorem createException_kept (hs : HartState) (he : HartException) (tval : BitVec 64) :
    TrapKept hs (createException hs he tval).2 := by
  rcases createException_cases hs he tval with hc | ⟨-, -, hc⟩ | ⟨-, hc⟩ <;> rw [hc] <;>
    exact ⟨rfl, rfl, rfl, rfl, rfl, rfl, rfl, rfl⟩

/-- A refused trap only drops `instbuf`. -/
theorem createException_refused {hs : HartState} {he : HartException} {tval : BitVec 64}
    (hne : he ≠ .noexc) (h : (createException hs he tval).1 = .noexc) :
    (createException hs he tval).2 = { hs with instbuf := 0 } := by
  rcases createException_cases hs he tval with hc | ⟨-, -, hc⟩ | ⟨-, hc⟩
  · rw [hc]
  · rw [hc] at h
    exact absurd h hne
  · rw [hc] at h
    exact absurd h hne

/-- A trap never lowers the privilege. -/
theorem createException_privmode_le (hs : HartState) (he : HartException) (tval : BitVec 64) :
    hs.privmode ≤ (createException hs he tval).2.privmode := by
  rcases createException_cases hs he tval with hc | ⟨hpriv, -, hc⟩ | ⟨-, hc⟩ <;> rw [hc]
  · exact BitVec.le_refl _
  · exact hpriv
  · exact Nat.le_of_lt_succ hs.privmode.isLt

/-- Trap entry is contained: `privmode` never drops, an entry keeps the trap
    CSRs of the other level, the rest of `TrapKept` is never touched, and a
    refused trap leaves nothing but a dropped `instbuf`. -/
theorem createException_contained (hs : HartState) (he : HartException) (tval : BitVec 64)
    (hne : he ≠ .noexc) :
    hs.privmode ≤ (createException hs he tval).2.privmode ∧
    ((createException hs he tval).1 ≠ .noexc → ∀ l : TrapLevel,
      (createException hs he tval).2.privmode = l.mode →
      (createException hs he tval).2.csr.trapCsrs l.other = hs.csr.trapCsrs l.other) ∧
    TrapKept hs (createException hs he tval).2 ∧
    ((createException hs he tval).1 = .noexc →
      (createException hs he tval).2 = { hs with instbuf := 0 }) := by
  refine ⟨createException_privmode_le hs he tval, ?_, createException_kept hs he tval,
    createException_refused hne⟩
  intro htaken l hl
  have hent := createException_entered htaken
  have hlevel : hs.trapLevel he.isaCause = l :=
    TrapLevel.mode_injective (hent.mode.symm.trans hl)
  have hother := hent.other
  rwa [hlevel] at hother

/-- A hart in U-mode that delegates the calls of this mode, in an M-mode handler before. -/
private def ecallHart : HartState :=
  let hs := resetState 0
  { hs with
    privmode := 0, pc := 0x80000100
    csr := { hs.csr with
      medeleg := 0x100, stvec := 0x80000200, mepc := 0x80000100, mcause := 0xB, mscratch := 0x55 } }

/-- A call that is delegated keeps the trap CSRs of M-mode. -/
theorem createException_contained_uecall :
    (createException ecallHart .uecall 0).2.csr.trapCsrs .machine =
      ecallHart.csr.trapCsrs .machine :=
  (createException_contained ecallHart .uecall 0 (by decide)).2.1 (by decide +kernel)
    .supervisor (by decide +kernel)

end RvEmu
