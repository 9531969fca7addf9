import RvEmu.Spec.PmpSync
import RvEmu.Spec.Precise

/-!
# Illegal CSR instructions

The CSR instructions have exits to ILLINST at several stages. All but two of them
come before the hart has changed: an odd `pmpcfg` is rejected after the pc and
`minstret` have moved, and a write to a read-only CSR after `rd` has been set.
-/

namespace RvEmu

variable {δ : Type}

/-- The illegal instruction trap taken from `s` leaves the registers and the other
    CSRs alone, and records the pc of the instruction. -/
structure CsrPrecise (s u : Sys δ) : Prop where
  regs : u.hs.regs = s.hs.regs
  csr : u.hs.csr.untrapped = s.hs.csr.untrapped
  pmp : u.hs.pmp = s.hs.pmp
  xepc : u.hs.xepc = s.hs.pc

/-- The hart is in M-mode and accesses `pmpcfg` under an odd number. -/
structure OddPmpcfg (d : Decoded) (s : Sys δ) : Prop where
  privmode : s.hs.privmode = 3
  low : 0x3A0 ≤ d.csrno
  high : d.csrno < 0x3B0
  odd : d.csrno.getLsbD 0 = true

/-- The hart is in M-mode and accesses a read-only CSR, whose value goes into a
    register that holds another one. -/
structure ReadsReadOnly (d : Decoded) (s : Sys δ) : Prop where
  privmode : s.hs.privmode = 3
  changes : ∃ ptr, csrFromAddr d.csrno = some ptr ∧ 0xC00 ≤ d.csrno ∧ d.rd ≠ 0 ∧
    s.hs.regs d.rd ≠ ptr.get s.hs

section Csr

variable (env : Env δ) (s : Sys δ)

/-- An illegal instruction is no interrupt. -/
theorem illinst_exception : HartException.illinst.interrupt = false := rfl

/-- An illegal instruction trap from a state that is still that of `s`. -/
theorem csrPrecise_illinst {s t : Sys δ} (hregs : t.hs.regs = s.hs.regs)
    (hcsr : t.hs.csr.untrapped = s.hs.csr.untrapped) (hpmp : t.hs.pmp = s.hs.pmp)
    (hpc : t.hs.pc = s.hs.pc) (tval : BitVec 64) :
    CsrPrecise s (t.createException .illinst tval).2 := by
  have hrec := createException_recorded t.hs tval illinst_exception
  exact ⟨hrec.regs.trans hregs, hrec.csr.trans hcsr, hrec.pmp.trans hpmp, hrec.xepc.trans hpc⟩

/-- An access to an odd `pmpcfg` has already been counted, and stepped over. -/
theorem pmpcfgRw_odd {t : Sys δ} {addr : BitVec 12} (hodd : addr.getLsbD 0 = true) (rd : BitVec 5)
    (wvalue : BitVec 64) (funct : BitVec 2)
    (ht : t.hs.csr.minstret = s.hs.csr.minstret + 1) :
    ¬ CsrPrecise s (pmpcfgRw env t addr rd wvalue funct).2 := by
  intro h
  have hrec := createException_recorded t.hs (t.hs.inst.signExtend 64) illinst_exception
  have hrw : pmpcfgRw env t addr rd wvalue funct =
      t.createException .illinst (t.hs.inst.signExtend 64) := if_pos hodd
  rw [hrw] at h
  have hret := congrArg CsrState.minstret (hrec.csr.symm.trans h.csr)
  have hret' : t.hs.csr.minstret = s.hs.csr.minstret := hret
  rw [ht] at hret'
  bv_omega

/-- If the execute stage ends in ILLINST, the trap is precise exactly when `P`
    holds. -/
def IllinstIff (P : Prop) (s : Sys δ) (r : Flow × Sys δ) : Prop :=
  (finish r).1 = .illinst → (CsrPrecise s (finish r).2 ↔ P)

/-- An instruction that completes, … -/
theorem illinstIff_brk (P : Prop) (b : Bool) (t : Sys δ) : IllinstIff P s (.brk b, t) := by
  intro h
  cases h

/-- … and one that is illegal. -/
theorem illinstIff_illinst {P : Prop} (hP : P) : IllinstIff P s (illinst s) :=
  fun _ => iff_of_true (csrPrecise_illinst rfl rfl rfl rfl _) hP

/-- The read of a CSR before the trap is invisible if `rd` held its value. -/
theorem csrPrecise_read_iff {rd : BitVec 5} {v : BitVec 64} :
    CsrPrecise s (finish (illinst (if rd ≠ 0 then s.setReg rd v else s))).2 ↔
      ¬ (rd ≠ 0 ∧ s.hs.regs rd ≠ v) := by
  by_cases hrd : rd = 0
  · rw [if_neg (not_not.mpr hrd)]
    exact iff_of_true (csrPrecise_illinst rfl rfl rfl rfl _) fun h => h.1 hrd
  · rw [if_pos hrd]
    refine ⟨fun hpre h => h.2 ?_, fun h => ?_⟩
    -- the trap shows the value that has been read
    · have hrec := createException_recorded (s.setReg rd v).hs
        ((s.setReg rd v).hs.inst.signExtend 64) illinst_exception
      have hsame := congrFun (hrec.regs.symm.trans hpre.regs) rd
      exact hsame.symm.trans (Function.update_self ..)
    · have hv : s.hs.regs rd = v := by
        by_contra hne
        exact h ⟨hrd, hne⟩
      refine csrPrecise_illinst (s := s) (t := s.setReg rd v) ?_ rfl rfl rfl _
      rw [← hv]
      exact Function.update_eq_self ..

/-- The CSRs whose number says that they are read-only belong to M-mode. -/
theorem readOnly_machine {n : BitVec 12} {ptr : CsrPtr} (hptr : csrFromAddr n = some ptr)
    (hn : 0xC00 ≤ n) {privmode : BitVec 2} (hpriv : n.extractLsb' 8 2 ≤ privmode) :
    privmode = 3 := by
  -- the read-only CSRs of the table need M-mode
  have hlevel : n.extractLsb' 8 2 = 3 := by
    unfold csrFromAddr at hptr
    split at hptr
    case h_24 =>
      by_cases hr : 0x3B0 ≤ n ∧ n < 0x3B0 + 16
      · bv_omega
      · rw [if_neg hr] at hptr
        cases hptr
    all_goals first | rfl | exact absurd hn (by decide)
  rw [hlevel] at hpriv
  revert privmode
  decide

/-- The numbers with an alias are below those of the read-only CSRs. -/
theorem not_aliased_of_ge {n : BitVec 12} (h : 0xC00 ≤ n) :
    (n == 0x100) = false ∧ (n == 0x104) = false ∧ (n == 0x144) = false :=
  ⟨beq_false_of_ne (by bv_omega), beq_false_of_ne (by bv_omega), beq_false_of_ne (by bv_omega)⟩

/-- The numbers from 0xC00 on have no alias. -/
theorem csrAlias_of_ge {n : BitVec 12} (h : 0xC00 ≤ n) : csrAlias n = n := by
  obtain ⟨h₁, h₂, h₃⟩ := not_aliased_of_ge h
  simp only [csrAlias, h₁, h₂, h₃, Bool.false_eq_true, ↓reduceIte]

/-- The numbers whose two highest bits are set. -/
theorem highBits_iff (n : BitVec 12) :
    n &&& (0b11#12 <<< 10) = 0b11#12 <<< 10 ↔ 0xC00 ≤ n := by
  have hones : 0b11#12 = (BitVec.allOnes 2).setWidth 12 := rfl
  have hthree : (BitVec.allOnes 2).toNat = 3 := rfl
  have hbound : (0xC00 : BitVec 12).toNat = 0xC00 := rfl
  have hn := n.isLt
  rw [hones, BitVec.and_eq_mask_iff n 10 2 (by decide), ← BitVec.toNat_inj, BitVec.le_def, hthree,
    hbound, BitVec.extractLsb'_toNat, Nat.shiftRight_eq_div_pow]
  omega

/-- The test for a read-only CSR is one of the number in the instruction. -/
theorem readOnly_iff (n : BitVec 12) :
    (csrAlias n &&& (0b11#12 <<< 10) = 0b11#12 <<< 10 ∧
      !((n == 0x100) || (n == 0x104) || (n == 0x144))) ↔ 0xC00 ≤ n := by
  rw [highBits_iff]
  constructor
  · rintro ⟨hhigh, hno⟩
    simp only [Bool.not_eq_true', Bool.or_eq_false_iff] at hno
    obtain ⟨⟨h₁, h₂⟩, h₃⟩ := hno
    simp only [csrAlias, h₁, h₂, h₃, Bool.false_eq_true, ↓reduceIte] at hhigh
    exact hhigh
  · intro h
    obtain ⟨h₁, h₂, h₃⟩ := not_aliased_of_ge h
    rw [csrAlias_of_ge h, h₁, h₂, h₃]
    exact ⟨h, rfl⟩

/-- An access through the pointer, with the privilege it needs. -/
theorem execCsrPtr_illinstIff {d : Decoded} (wvalue : BitVec 64)
    (hpriv : d.csrno.extractLsb' 8 2 ≤ s.hs.privmode) (hodd : ¬ OddPmpcfg d s) :
    IllinstIff (¬ OddPmpcfg d s ∧ ¬ ReadsReadOnly d s) s
      (execCsrPtr d d.csrno wvalue s) := by
  have halias : csrAlias d.csrno = if d.csrno == 0x100 then 0x300 else if d.csrno == 0x104 then 0x304
    else if d.csrno == 0x144 then 0x344 else d.csrno := rfl
  -- read-only CSRs have no alias
  have hro : ReadsReadOnly d s → ∃ ptr, csrFromAddr (csrAlias d.csrno) = some ptr ∧
      0xC00 ≤ d.csrno ∧ d.rd ≠ 0 ∧ s.hs.regs d.rd ≠ ptr.get s.hs := by
    rintro ⟨-, ptr, hptr, hn, hrd⟩
    have hself : csrAlias d.csrno = d.csrno := csrAlias_of_ge hn
    exact ⟨ptr, by rw [hself]; exact hptr, hn, hrd⟩
  simp only [execCsrPtr, ← halias, readOnly_iff]
  split
  · next htvm =>
    refine illinstIff_illinst s ⟨hodd, fun h => ?_⟩
    obtain ⟨ptr, -, hn, -⟩ := hro h
    rw [csrAlias_of_ge hn] at htvm
    rw [htvm.1] at hn
    exact absurd hn (by decide)
  · split
    · next hnone =>
      refine illinstIff_illinst s ⟨hodd, fun h => ?_⟩
      obtain ⟨ptr, hptr, -⟩ := hro h
      rw [hnone] at hptr
      cases hptr
    · next ptr hptr =>
      generalize hread : (if d.rd ≠ 0 then s.setReg d.rd (ptr.get s.hs) else s) = t
      split
      · exact illinstIff_brk s _ _ _
      · split
        · split
          · next hn =>
            -- here `rd` has been written before the trap
            intro _
            rw [← hread, csrPrecise_read_iff, and_iff_right hodd, not_iff_not]
            rw [csrAlias_of_ge hn] at hptr
            refine ⟨fun h => ⟨readOnly_machine hptr hn hpriv, ptr, hptr, hn, h⟩, fun h => ?_⟩
            obtain ⟨ptr', hptr', -, h⟩ := h.changes
            obtain rfl := Option.some.inj (hptr.symm.trans hptr')
            exact h
          · split
            · exact illinstIff_brk s _ _ _
            · exact illinstIff_brk s _ _ _
        · exact illinstIff_brk s _ _ _

/-- An illegal CSR instruction has changed nothing, but for the two exceptions. -/
theorem execCsr_illinstIff (d : Decoded) :
    IllinstIff (¬ OddPmpcfg d s ∧ ¬ ReadsReadOnly d s) s (execCsr env d s) := by
  have hcsrno : d.imm.setWidth 12 = d.csrno := rfl
  simp only [execCsr, hcsrno]
  split
  · next hlevel =>
    -- no CSR is out of the reach of M-mode
    have hlow : s.hs.privmode ≠ 3 := by
      intro h3
      rw [h3] at hlevel
      generalize d.csrno.extractLsb' 8 2 = level at hlevel
      revert level
      decide
    exact illinstIff_illinst s ⟨fun h => hlow h.privmode, fun h => hlow h.privmode⟩
  · next hlevel =>
    split
    · exact illinstIff_brk s _ _ _
    · split
      · exact illinstIff_brk s _ _ _
      · split
        · exact illinstIff_brk s _ _ _
        · split
          · next hnum =>
            intro hexc
            have hhigh : d.csrno < 0x3C0 := BitVec.lt_trans hnum.2 (by decide)
            have h3 := privmode_of_pmp_csrno hnum.1 hhigh (BitVec.not_lt.mp hlevel)
            -- only an odd number makes `pmpcfg_rw` trap
            cases hodd : d.csrno.getLsbD 0 with
            | true =>
              exact iff_of_false (pmpcfgRw_odd env s hodd _ _ _ rfl)
                fun h => h.1 ⟨h3, hnum.1, hnum.2, hodd⟩
            | false =>
              simp only [pmpcfgRw, hodd] at hexc
              cases hexc
          · next hnum =>
            exact execCsrPtr_illinstIff s _ (BitVec.not_lt.mp hlevel) fun h => hnum ⟨h.low, h.high⟩

/-- `funct3` is in bits 12 to 14. -/
theorem decode32_funct3 (inst : BitVec 32) : (decode32 inst).funct3 = inst.extractLsb' 12 3 := by
  simp only [decode32]
  split <;> rfl

/-- The ILLINST trap of a CSR instruction is precise, except for an odd `pmpcfg`,
    and for a write to a read-only CSR that has replaced the value of `rd`. -/
theorem csr_trap_precise_iff (hlen : s.hs.instLen = 32)
    (hsys : (decode32 s.hs.inst).opFun = .system) (hfunct : (decode32 s.hs.inst).funct3 ≠ 0)
    (hexc : (decodeExc env s).1 = .illinst) :
    CsrPrecise s (decodeExc env s).2 ↔
      ¬ OddPmpcfg (decode32 s.hs.inst) s ∧ ¬ ReadsReadOnly (decode32 s.hs.inst) s := by
  have hd : Decodes s (decode32 s.hs.inst) := .inr ⟨hlen, rfl⟩
  have hself : s.withInst (decode32 s.hs.inst).inst s.hs.instLen = s := by
    rw [decode32_inst]
    rfl
  have hne {x : BitVec 32} (hx : x.extractLsb' 12 3 = 0) : s.hs.inst ≠ x := by
    intro h
    rw [decode32_funct3, h] at hfunct
    exact hfunct hx
  have hcsr : execSystem env (decode32 s.hs.inst) s =
      if (decode32 s.hs.inst).inst.extractLsb' 25 7 = funct7Sfence then
        if s.hs.csr.mstatus.getLsbD 20 then illinst s
        else (.brk false, (s.setTlb tlbClear).setInstbuf 0)
      else execCsr env (decode32 s.hs.inst) s := by
    simp only [execSystem, decode32_inst, decode32_cebreak, hne (x := instEcall) rfl,
      hne (x := instEbreak) rfl, hne (x := instMret) rfl, hne (x := instSret) rfl,
      hne (x := instWfi) rfl, Bool.false_eq_true, or_self, ↓reduceIte]
  rw [decodeExc_of_decodes env hd, hself, execute_system env hsys, hcsr] at hexc ⊢
  split at hexc
  · next hsfence =>
    -- small numbers, which are taken for SFENCE.VMA
    have hsmall : ¬ 0x3A0 ≤ (decode32 s.hs.inst).csrno := by
      intro hle
      have hnum := csrno_decode32 hsys
      rw [hnum] at hle
      exact funct7_ne_sfence hle ((BitVec.extractLsb'_extractLsb' _ (by decide)).trans hsfence)
    have hP : ¬ OddPmpcfg (decode32 s.hs.inst) s ∧ ¬ ReadsReadOnly (decode32 s.hs.inst) s := by
      refine ⟨fun h => hsmall h.low, fun h => hsmall ?_⟩
      obtain ⟨ptr, -, hn, -⟩ := h.changes
      exact BitVec.le_trans (by decide) hn
    rw [if_pos hsfence]
    split at hexc
    · next htvm =>
      rw [if_pos htvm]
      exact illinstIff_illinst s hP hexc
    · cases hexc
  · next hsfence =>
    rw [if_neg hsfence]
    exact execCsr_illinstIff env s _ hexc

end Csr

/-- A write to `mvendorid`, with a register that holds something else. -/
private def vendorProgram : List (BitVec 32) := [
  0x00100293, -- addi x5, x0, 1
  0xF11012F3] -- csrrw x5, mvendorid, x0

private def vendorState : Sys Unit := fetchedAfter Env.inert 4 (boot vendorProgram)

/-- `csrrw x5, mvendorid, x0` … -/
private theorem vendorState_inst : vendorState.hs.inst = 0xF11012F3 := by decide +kernel

/-- … is illegal, … -/
private theorem vendorState_illinst : (decodeExc Env.inert vendorState).1 = .illinst := by
  decide +kernel

/-- … has 32 bits, … -/
private theorem vendorState_len : vendorState.hs.instLen = 32 := by decide +kernel

/-- … is a `SYSTEM` instruction … -/
private theorem vendorState_system : (decode32 vendorState.hs.inst).opFun = .system := by
  rw [vendorState_inst]
  decide

/-- … and one on a CSR. -/
private theorem vendorState_funct3 : (decode32 vendorState.hs.inst).funct3 ≠ 0 := by
  rw [vendorState_inst]
  decide

/-- Its trap loses `x5`, unless the condition holds. -/
theorem csr_trap_precise_vendor :
    CsrPrecise vendorState (decodeExc Env.inert vendorState).2 ↔
      ¬ OddPmpcfg (decode32 vendorState.hs.inst) vendorState ∧
      ¬ ReadsReadOnly (decode32 vendorState.hs.inst) vendorState :=
  csr_trap_precise_iff Env.inert vendorState vendorState_len vendorState_system
    vendorState_funct3 vendorState_illinst

/-- The rejected write has put the value of `mvendorid` into `x5`. -/
theorem csr_trap_writes_rd :
    ¬ ∀ s, s.hs.instLen = 32 → (decode32 s.hs.inst).opFun = .system →
      (decode32 s.hs.inst).funct3 ≠ 0 → (decodeExc Env.inert s).1 = .illinst →
      CsrPrecise s (decodeExc Env.inert s).2 := by
  intro h
  have hpre := h vendorState vendorState_len vendorState_system vendorState_funct3
    vendorState_illinst
  have hx5 : (decodeExc Env.inert vendorState).2.hs.regs 5 ≠ vendorState.hs.regs 5 := by
    decide +kernel
  exact hx5 (congrFun hpre.regs 5)

end RvEmu
