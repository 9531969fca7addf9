import RvEmu.Spec.CsrAccess
import RvEmu.Isa.System

/-!
# Legality of privileged instructions

Each of the privileged instructions has a test of its own in `decode_exc`: MRET
none, SRET, WFI and SFENCE.VMA one of a virtualisation bit in every mode. Only
CSR instructions test the mode as well, and they do so before the bit.
-/

namespace RvEmu

open Isa (PrivInst CsrOp)

variable {δ : Type}

/-- TSR of `mstatus`. -/
def CsrState.tsr (c : CsrState) : Bool := c.mstatus.getLsbD 22

/-- TW of `mstatus`. -/
def CsrState.tw (c : CsrState) : Bool := c.mstatus.getLsbD 21

/-- TVM of `mstatus`. -/
def CsrState.tvm (c : CsrState) : Bool := c.mstatus.getLsbD 20

/-- The architecture's answer for the state of a hart. -/
def HartState.illegal (hs : HartState) (i : PrivInst) : Bool :=
  i.illegal hs.privmode hs.csr.tsr hs.csr.tw hs.csr.tvm

/-- The test that `decode_exc` makes. -/
def HartState.rejects (hs : HartState) : PrivInst → Bool
  | .mret => false
  | .sret => hs.csr.tsr
  | .wfi => hs.csr.tw
  | .sfenceVma _ _ => hs.csr.tvm
  | .satp _ _ _ => hs.privmode == 0 || hs.csr.tvm

/-- The states in which this test is right: the bit is set where the mode alone
    makes the instruction illegal, and clear where it has no meaning. -/
def HartState.Judged (hs : HartState) : PrivInst → Prop
  | .mret => hs.privmode = 3
  | .sret => hs.privmode = 1 ∨ hs.csr.tsr = (hs.privmode == 0)
  | .wfi => hs.privmode = 3 → hs.csr.tw = false
  | .sfenceVma _ _ => hs.privmode = 1 ∨ hs.csr.tvm = (hs.privmode == 0)
  | .satp _ _ _ => 1 < hs.privmode → hs.csr.tvm = false

theorem rejects_eq_illegal_iff (hs : HartState) (i : PrivInst) :
    hs.rejects i = hs.illegal i ↔ hs.Judged i := by
  cases i <;> simp only [HartState.rejects, HartState.illegal, PrivInst.illegal, HartState.Judged] <;>
    generalize hs.privmode = p
  all_goals
    generalize hs.csr.tsr = a
    generalize hs.csr.tw = b
    generalize hs.csr.tvm = c
    revert p a b c
    decide

/-! ## What `decode_exc` tests -/

/-- The instruction raises ILLINST. -/
def RaisesIllegal (r : Flow × Sys δ) : Prop := (finish r).1 = .illinst

theorem raisesIllegal_illinst (s : Sys δ) : RaisesIllegal (illinst s) :=
  createException_fst s _ rfl

theorem not_raisesIllegal_brk (b : Bool) (s : Sys δ) :
    ¬ RaisesIllegal (Flow.brk b, s) := HartException.noConfusion

/-- A test with ILLINST as its outcome. -/
theorem raisesIllegal_ite (c : Bool) (b : Bool) (s t : Sys δ) :
    RaisesIllegal (if c then illinst s else (.brk b, t)) ↔ c = true := by
  cases c with
  | false => exact iff_of_false (not_raisesIllegal_brk b t) Bool.false_ne_true
  | true => exact iff_of_true (raisesIllegal_illinst s) rfl

theorem execSystem_sfenceVma (env : Env δ) (s : Sys δ) (rs1 rs2 : BitVec 5) :
    execSystem env (decode32 (PrivInst.sfenceVma rs1 rs2).encode) s =
      if s.hs.csr.tvm then illinst s else (.brk false, (s.setTlb tlbClear).setInstbuf 0) := by
  have hfunct7 : (PrivInst.sfenceVma rs1 rs2).encode.extractLsb' 25 7 = funct7Sfence :=
    Isa.encR_funct7 ..
  have hne {x : BitVec 32} (hx : x.extractLsb' 25 7 ≠ funct7Sfence) :
      (PrivInst.sfenceVma rs1 rs2).encode ≠ x := by
    rintro rfl
    exact hx hfunct7
  have hecall := hne (x := instEcall) (by decide)
  have hebreak := hne (x := instEbreak) (by decide)
  have hmret := hne (x := instMret) (by decide)
  have hsret := hne (x := instSret) (by decide)
  have hwfi := hne (x := instWfi) (by decide)
  simp only [execSystem, decode32_inst, decode32_cebreak, hecall, hebreak, hmret, hsret, hwfi,
    hfunct7, Bool.false_eq_true, or_self, ↓reduceIte]
  rfl

/-- With the mode and TVM checked, an access to `satp` completes. -/
theorem execCsrPtr_satp_raises (d : Decoded) (wvalue : BitVec 64) (s : Sys δ) :
    RaisesIllegal (execCsrPtr d 0x180 wvalue s) ↔ s.hs.csr.tvm = true := by
  by_cases htvm : s.hs.csr.tvm = true
  · have hill : execCsrPtr d 0x180 wvalue s = illinst s := if_pos ⟨rfl, htvm⟩
    rw [hill]
    exact iff_of_true (raisesIllegal_illinst s) htvm
  · have hbit : s.hs.csr.mstatus.getLsbD 20 = false := Bool.eq_false_iff.mpr htvm
    obtain ⟨t, ht⟩ : ∃ t, execCsrPtr d 0x180 wvalue s = (.brk false, t) := by
      by_cases hrd : d.rd ≠ 0 <;> cases hneeded : csrWriteNeeded d wvalue <;>
        simp only [execCsrPtr, hbit, hrd, hneeded, Bool.false_eq_true, and_false, ne_eq,
          not_false_eq_true, ↓reduceIte] <;> exact ⟨_, rfl⟩
    rw [ht]
    exact iff_of_false (not_raisesIllegal_brk false t) htvm

theorem execCsr_satp_raises (env : Env δ) (s : Sys δ) (op : CsrOp) (rd rs1 : BitVec 5) :
    RaisesIllegal (execCsr env (decode32 (csrWord 0x180 op rd rs1)) s) ↔
      (s.hs.privmode == 0 || s.hs.csr.tvm) = true := by
  have hlevel : ∀ p : BitVec 2, (0x180 : BitVec 12).extractLsb' 8 2 > p ↔ p = 0 := by decide
  have hcsrno := csrno_csrWord 0x180 op rd rs1
  have hoperand := csrOperand_csrWord 0x180 op rd rs1 s.hs
  rw [Decoded.csrno] at hcsrno
  rw [Decoded.csrOperand] at hoperand
  by_cases hpriv : s.hs.privmode = 0
  · have hill : execCsr env (decode32 (csrWord 0x180 op rd rs1)) s = illinst s := by
      simp only [execCsr, hcsrno, (hlevel _).mpr hpriv, ↓reduceIte]
    rw [hill, hpriv]
    exact iff_of_true (raisesIllegal_illinst s) rfl
  · have hptr : execCsr env (decode32 (csrWord 0x180 op rd rs1)) s =
        execCsrPtr (decode32 (csrWord 0x180 op rd rs1)) 0x180 (op.operand s.hs.regs rs1) s := by
      simp only [execCsr, hcsrno, hoperand, mt (hlevel _).mp hpriv, ↓reduceIte]
      rfl
    rw [hptr, execCsrPtr_satp_raises, beq_false_of_ne hpriv, Bool.false_or]

/-- `decode_exc` raises ILLINST just when its test says so. -/
theorem raises_iff_rejects (env : Env δ) (s : Sys δ) (i : PrivInst) :
    (decodeExc env (s.withInst i.encode 32)).1 = .illinst ↔ s.hs.rejects i = true := by
  let u := s.withInst i.encode 32
  have hrun : execute env (decode32 i.encode) u = execSystem env (decode32 i.encode) u := by
    have hop : (decode32 i.encode).opFun = .system := by
      rw [decode32_opFun]
      cases i with
      | sfenceVma rs1 rs2 => rw [PrivInst.encode, Isa.encR_op]; rfl
      | satp op rd rs1 => rw [PrivInst.encode, Isa.encI_op]; rfl
      | _ => rfl
    rw [execute, hop]
  rw [decodeExc_withInst32, hrun]
  change RaisesIllegal _ ↔ _
  cases i with
  | mret => exact iff_of_false (not_raisesIllegal_brk true _) Bool.false_ne_true
  | sret => exact raisesIllegal_ite s.hs.csr.tsr true u _
  | wfi => exact raisesIllegal_ite s.hs.csr.tw false u _
  | sfenceVma rs1 rs2 =>
    rw [execSystem_sfenceVma]
    exact raisesIllegal_ite s.hs.csr.tvm false u _
  | satp op rd rs1 =>
    have hcsr := @execSystem_csrWord δ env u 0x180 (by decide) op rd rs1
    exact (congrArg RaisesIllegal hcsr).to_iff.trans (execCsr_satp_raises env u op rd rs1)

/-- `decode_exc` judges a privileged instruction as the architecture does just in
    the states of `Judged`. -/
theorem privLegal_iff (env : Env δ) (s : Sys δ) (i : PrivInst) :
    ((decodeExc env (s.withInst i.encode 32)).1 = .illinst ↔ s.hs.illegal i = true) ↔
      s.hs.Judged i := by
  rw [raises_iff_rejects, ← rejects_eq_illegal_iff]
  exact Bool.eq_iff_iff.symm

/-- MRET is not illegal in U-mode. -/
theorem mret_not_illegal :
    ¬ ∀ (s : Sys Unit) (i : PrivInst), s.hs.privmode ≠ 2 →
      ((decodeExc Env.inert (s.withInst i.encode 32)).1 = .illinst ↔ s.hs.illegal i = true) := by
  intro h
  have hmret := h ⟨{ resetState 0 with privmode := 0 }, Bus.inert⟩ .mret (by decide)
  exact absurd (hmret.mpr rfl) (by decide +kernel)

end RvEmu
