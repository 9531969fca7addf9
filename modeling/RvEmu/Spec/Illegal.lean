import RvEmu.Isa.Legal
import RvEmu.Spec.PreciseCsr

/-!
# Illegal instructions

An encoding that is no instruction has to raise ILLINST and leave the hart as it was. In
`decode_exc` most switches have no default, and such an encoding is retired without a
trap, or with the effect of another instruction. The encodings that do trap are the words of all
zeros or ones, one reserved row of the compressed ones, and those that are rejected on
the way to a CSR.
-/

namespace RvEmu

open Isa

variable {δ : Type}

/-- What `cycle` does with a word that is fetched. -/
def executeWord (env : Env δ) (s : Sys δ) : HartException × Sys δ :=
  let r := fetchLength s
  if r.1 ≠ .noexc then r else decodeExc env r.2

/-- A cycle that has fetched its word. -/
theorem cycle_eq_executeWord {env : Env δ} (hsig : env.sigMode = false) {s u : Sys δ}
    (hu : fetchInst env (s.setReg 0 0) = u)
    (hok : handleMemError .iafault .ipfault u.hs.pc u = none) :
    cycle env s = (true, cycleEnd (executeWord env u).2) := by
  have hfetch : fetch env (s.setReg 0 0) = fetchLength u := by
    rw [fetch, hu]
    simp only [hok]
  rw [cycle, hfetch, hsig]
  simp only [Bool.false_eq_true, false_and, ↓reduceIte, executeWord]
  split
  · rfl
  · rfl

/-- ILLINST is raised at the pc of `s`; the registers, RAM and `minstret` are those of
    `s`. -/
structure RaisesIllinst (s : Sys δ) (r : HartException × Sys δ) : Prop where
  exception : r.1 = .illinst
  xepc : r.2.hs.xepc = s.hs.pc
  regs : r.2.hs.regs = s.hs.regs
  mainMem : r.2.bus.mainMem = s.bus.mainMem
  minstret : r.2.hs.csr.minstret = s.hs.csr.minstret

/-! ## What is rejected -/

/-- A CSR number that the mode may access, and that is not answered without its CSR. -/
structure ReachesCsr (d : Decoded) (s : Sys δ) : Prop where
  privilege : ¬ d.csrno.extractLsb' 8 2 > s.hs.privmode
  time : d.csrno ≠ 0xC01
  zero : ¬ chkRo0Csr d.csrno = true
  counteren : ¬ (d.csrno = 0x306 ∨ d.csrno = 0x106 ∨ d.csrno = 0x320)
  pmpcfg : ¬ (0x3A0 ≤ d.csrno ∧ d.csrno < 0x3B0)

/-- The reasons to reject an access to a CSR with no change before: its privilege, TVM, a
    number without a CSR, and a write to a read-only one whose value `rd` holds already. -/
inductive CsrRejected (d : Decoded) (s : Sys δ) : Prop
  | privilege (h : d.csrno.extractLsb' 8 2 > s.hs.privmode)
  | tvm (h : ReachesCsr d s) (hsatp : csrAlias d.csrno = 0x180)
    (htvm : s.hs.csr.mstatus.getLsbD 20 = true)
  | unknown (h : ReachesCsr d s) (hnone : csrFromAddr (csrAlias d.csrno) = none)
  | readOnly (h : ReachesCsr d s) (ptr : CsrPtr) (hptr : csrFromAddr (csrAlias d.csrno) = some ptr)
    (hnum : 0xC00 ≤ d.csrno) (hneeded : csrWriteNeeded d (d.csrOperand s.hs) = true)
    (hrd : ¬ (d.rd ≠ 0 ∧ s.hs.regs d.rd ≠ ptr.get s.hs))

/-- A SYSTEM word that is rejected: as SFENCE.VMA under TVM, or as a CSR instruction. -/
def SystemRejected (d : Decoded) (s : Sys δ) : Prop :=
  if d.inst.extractLsb' 25 7 = funct7Sfence then s.hs.csr.mstatus.getLsbD 20 = true
  else CsrRejected d s

/-- The illegal words that trap. -/
inductive Rejected (s : Sys δ) : Prop
  | uniform (h : s.hs.inst = 0 ∨ s.hs.inst = 0xffffffff)
  | reserved (hquadrant : s.hs.inst.extractLsb' 0 2 = 0b00)
    (hrow : s.hs.inst.extractLsb' 13 3 = 0b100)
  | system (hlen : s.hs.inst.extractLsb' 0 2 = 0b11) (hop : s.hs.inst.extractLsb' 2 5 = 0b11100)
    (h : SystemRejected (decode32 s.hs.inst) s)

/-! ## Traps -/

section Raises

variable {s t : Sys δ}

/-- An instruction that completes raises nothing. -/
theorem not_raises_brk (b : Bool) (t : Sys δ) : ¬ RaisesIllinst s (finish (.brk b, t)) := by
  intro h
  cases h.exception

/-- The trap is the same for states with the same progress. -/
theorem RaisesIllinst.congr {r : HartException × Sys δ} (hprog : t.hs.progress = s.hs.progress)
    (hmem : t.bus.mainMem = s.bus.mainMem) (h : RaisesIllinst t r) : RaisesIllinst s r :=
  ⟨h.exception, h.xepc.trans (congrArg (·.2.1) hprog), h.regs.trans (congrArg (·.1) hprog),
    h.mainMem.trans hmem, h.minstret.trans (congrArg (·.2.2) hprog)⟩

/-- The state that is compared with may be one with the same progress and RAM. -/
theorem RaisesIllinst.congr_iff {r : HartException × Sys δ} (hprog : t.hs.progress = s.hs.progress)
    (hmem : t.bus.mainMem = s.bus.mainMem) : RaisesIllinst t r ↔ RaisesIllinst s r :=
  ⟨.congr hprog hmem, .congr hprog.symm hmem.symm⟩

/-- The exception itself, … -/
theorem raises_createException_self (s : Sys δ) (tval : BitVec 64) :
    RaisesIllinst s (s.createException .illinst tval) := by
  have hrec := createException_recorded s.hs tval illinst_exception
  exact ⟨createException_fst s tval illinst_exception, hrec.xepc, hrec.regs, rfl,
    (congrArg CsrState.minstret hrec.csr :)⟩

/-- ILLINST from a state that has not moved on. -/
theorem raises_createException (hprog : t.hs.progress = s.hs.progress)
    (hmem : t.bus.mainMem = s.bus.mainMem) (tval : BitVec 64) :
    RaisesIllinst s (t.createException .illinst tval) :=
  (raises_createException_self t tval).congr hprog hmem

/-- … and the instruction that raises it. -/
theorem raises_illinst : RaisesIllinst s (finish (illinst s)) :=
  raises_createException_self s _

/-- Another exception. -/
theorem not_raises_createException {he : HartException} (hexc : he.interrupt = false)
    (hne : he ≠ .illinst) (tval : BitVec 64) : ¬ RaisesIllinst s (t.createException he tval) := by
  intro h
  exact hne ((createException_fst t tval hexc).symm.trans h.exception)

/-- A system call is another exception. -/
theorem not_raises_ecall (privmode : BitVec 2) (tval : BitVec 64) :
    ¬ RaisesIllinst s (t.createException (.ofEcall privmode) tval) := by
  have hecall : ∀ p : BitVec 2,
      (HartException.ofEcall p).interrupt = false ∧ HartException.ofEcall p ≠ .illinst := by
    decide
  exact not_raises_createException (hecall privmode).1 (hecall privmode).2 tval

/-- A CSR that is read into `rd` before the trap. -/
theorem raises_read_iff {rd : BitVec 5} {v : BitVec 64} :
    RaisesIllinst s (finish (illinst (if rd ≠ 0 then s.setReg rd v else s))) ↔
      ¬ (rd ≠ 0 ∧ s.hs.regs rd ≠ v) := by
  by_cases hrd : rd = 0
  · rw [if_neg (not_not.mpr hrd)]
    exact iff_of_true raises_illinst fun h => h.1 hrd
  · rw [if_pos hrd]
    constructor
    -- the write to `rd` comes before the trap, so it shows unless the value was there
    · intro h hne
      have hrec := createException_recorded (s.setReg rd v).hs
        ((s.setReg rd v).hs.inst.signExtend 64) illinst_exception
      have hsame := congrFun (hrec.regs.symm.trans h.regs) rd
      exact hne.2 (hsame.symm.trans (Function.update_self ..))
    · intro h
      have hv : s.hs.regs rd = v := by
        by_contra hne
        exact h ⟨hrd, hne⟩
      have hregs : (s.setReg rd v).hs.regs = s.hs.regs := by
        rw [← hv]
        exact Function.update_eq_self ..
      exact raises_createException (t := s.setReg rd v) (Prod.ext hregs rfl) rfl _

end Raises

/-! ## SYSTEM -/

section System

variable (env : Env δ) {d : Decoded} {s : Sys δ}

/-- Read-only CSRs are not locked. -/
theorem locked_of_readOnly {n : BitVec 12} {ptr : CsrPtr} (hptr : csrFromAddr n = some ptr)
    (hn : 0xC00 ≤ n) (hs : HartState) : ptr.locked hs = false := by
  unfold csrFromAddr at hptr
  split at hptr
  case h_24 =>
    by_cases hr : 0x3B0 ≤ n ∧ n < 0x3B0 + 16
    · bv_omega
    · rw [if_neg hr] at hptr
      cases hptr
  all_goals
    obtain rfl := Option.some.inj hptr
    rfl

/-- With a CSR of its number, and not kept from it by TVM, an access is rejected for a
    write to a read-only CSR alone. -/
theorem csrRejected_iff_readOnly (h : ReachesCsr d s) {ptr : CsrPtr}
    (hptr : csrFromAddr (csrAlias d.csrno) = some ptr)
    (htvm : ¬ (csrAlias d.csrno = 0x180 ∧ s.hs.csr.mstatus.getLsbD 20 = true)) :
    CsrRejected d s ↔ 0xC00 ≤ d.csrno ∧ csrWriteNeeded d (d.csrOperand s.hs) = true ∧
      ¬ (d.rd ≠ 0 ∧ s.hs.regs d.rd ≠ ptr.get s.hs) := by
  constructor
  · intro hr
    cases hr with
    | privilege hp => exact absurd hp h.privilege
    | tvm _ hsatp hbit => exact absurd ⟨hsatp, hbit⟩ htvm
    | unknown _ hnone =>
      rw [hptr] at hnone
      cases hnone
    | readOnly _ ptr' hptr' hnum hneeded hrd =>
      obtain rfl := Option.some.inj (hptr.symm.trans hptr')
      exact ⟨hnum, hneeded, hrd⟩
  · rintro ⟨hnum, hneeded, hrd⟩
    exact .readOnly h ptr hptr hnum hneeded hrd

/-- Behind the checks, a CSR access is illegal if and only if it is rejected, … -/
theorem execCsrPtr_raises (h : ReachesCsr d s) :
    RaisesIllinst s (finish (execCsrPtr d d.csrno (d.csrOperand s.hs) s)) ↔ CsrRejected d s := by
  have halias : csrAlias d.csrno = if d.csrno == 0x100 then 0x300 else if d.csrno == 0x104 then 0x304
    else if d.csrno == 0x144 then 0x344 else d.csrno := rfl
  simp only [execCsrPtr, ← halias, readOnly_iff]
  split
  · next htvm => exact iff_of_true raises_illinst (.tvm h htvm.1 htvm.2)
  · next htvm =>
    split
    · next hnone => exact iff_of_true raises_illinst (.unknown h hnone)
    · next ptr hptr =>
      have hlocked : ptr.locked (if d.rd ≠ 0 then s.setReg d.rd (ptr.get s.hs) else s).hs =
          ptr.locked s.hs := by
        cases ptr <;> split <;> rfl
      rw [csrRejected_iff_readOnly h hptr htvm, hlocked]
      split
      · next hlock =>
        -- a locked `pmpaddr` ignores the write
        refine iff_of_false (not_raises_brk _ _) fun hr => ?_
        rw [csrAlias_of_ge hr.1] at hptr
        rw [locked_of_readOnly hptr hr.1] at hlock
        cases hlock
      · split
        · next hneeded =>
          split
          · next hnum => rw [raises_read_iff, and_iff_right hnum, and_iff_right hneeded]
          · next hnum =>
            have hwritable : ¬ (0xC00 ≤ d.csrno ∧ csrWriteNeeded d (d.csrOperand s.hs) = true ∧
              ¬ (d.rd ≠ 0 ∧ s.hs.regs d.rd ≠ ptr.get s.hs)) := fun hr => hnum hr.1
            split
            · exact iff_of_false (not_raises_brk _ _) hwritable
            · exact iff_of_false (not_raises_brk _ _) hwritable
        · next hneeded =>
          exact iff_of_false (not_raises_brk _ _) fun hr => hneeded hr.2.1

/-- An access to `pmpcfg` that is let through has moved on. -/
theorem pmpcfgRw_not_raises {t : Sys δ} (addr : BitVec 12) (rd : BitVec 5) (wvalue : BitVec 64)
    (funct : BitVec 2) (ht : t.hs.csr.minstret = s.hs.csr.minstret + 1) :
    ¬ RaisesIllinst s (finish (trap (pmpcfgRw env t addr rd wvalue funct))) := by
  intro h
  unfold pmpcfgRw at h
  split at h
  · have hrec := createException_recorded t.hs (t.hs.inst.signExtend 64) illinst_exception
    have hret : t.hs.csr.minstret = s.hs.csr.minstret :=
      (congrArg CsrState.minstret hrec.csr.symm).trans h.minstret
    rw [ht] at hret
    bv_omega
  · cases h.exception

/-- … and so is a CSR instruction as a whole. -/
theorem execCsr_raises : RaisesIllinst s (finish (execCsr env d s)) ↔ CsrRejected d s := by
  have hcsrno : d.imm.setWidth 12 = d.csrno := rfl
  have hoperand : (if d.funct3.getLsbD 2 = true then d.rs1.setWidth 64 else s.hs.regs d.rs1) =
    d.csrOperand s.hs := rfl
  -- a number that is answered without its CSR reaches no other test
  have hanswered : ¬ d.csrno.extractLsb' 8 2 > s.hs.privmode → ¬ ReachesCsr d s →
      ¬ CsrRejected d s := by
    intro hpriv hno hr
    cases hr with
    | privilege h => exact hpriv h
    | tvm h => exact hno h
    | unknown h => exact hno h
    | readOnly h => exact hno h
  simp only [execCsr, hcsrno, hoperand]
  split
  · next hpriv => exact iff_of_true raises_illinst (.privilege hpriv)
  · next hpriv =>
    split
    · next htime =>
      exact iff_of_false (not_raises_brk _ _) (hanswered hpriv fun h => h.time htime)
    · next htime =>
      split
      · next hzero =>
        exact iff_of_false (not_raises_brk _ _) (hanswered hpriv fun h => h.zero hzero)
      · next hzero =>
        split
        · next hcount =>
          exact iff_of_false (not_raises_brk _ _) (hanswered hpriv fun h => h.counteren hcount)
        · next hcount =>
          split
          · next hpmp =>
            exact iff_of_false (pmpcfgRw_not_raises env _ _ _ _ rfl)
              (hanswered hpriv fun h => h.pmpcfg hpmp)
          · next hpmp => exact execCsrPtr_raises ⟨hpriv, htime, hzero, hcount, hpmp⟩

/-- A SYSTEM word that is none of the instructions without a CSR. -/
theorem execSystem_raises (hcebreak : d.cebreak = false) (hword : systemWord d.inst = false) :
    RaisesIllinst s (finish (execSystem env d s)) ↔ SystemRejected d s := by
  simp only [systemWord, Bool.or_eq_false_iff, beq_eq_false_iff_ne] at hword
  obtain ⟨⟨⟨⟨⟨hecall, hebreak⟩, hmret⟩, hsret⟩, hwfi⟩, -⟩ := hword
  unfold execSystem SystemRejected
  have hbreak : ¬ (d.inst = instEbreak ∨ false = true) :=
    fun h => h.elim hebreak fun hf => Bool.noConfusion hf
  rw [if_neg (show ¬ d.inst = instEcall from hecall), hcebreak, if_neg hbreak,
    if_neg (show ¬ d.inst = instMret from hmret), if_neg (show ¬ d.inst = instSret from hsret),
    if_neg (show ¬ d.inst = instWfi from hwfi)]
  split
  · split
    · next htvm => exact iff_of_true raises_illinst htvm
    · next htvm => exact iff_of_false (not_raises_brk _ _) htvm
  · exact execCsr_raises env

end System

/-! ## The other opcodes -/

section Execute

variable (env : Env δ) (d : Decoded) (s : Sys δ)

/-- The execute stage ends without ILLINST. -/
abbrev NoIllinst : Flow × Sys δ → Prop := Ends (fun he _ _ => he ≠ .illinst) (fun _ _ => True)

/-- A jump is not illegal, … -/
theorem noIllinst_jumped : NoIllinst (jumped s) := by
  unfold jumped
  split
  · exact .trap s .imisalign _ HartException.noConfusion rfl
  · exact .brk true s trivial

/-- … nor is a result for `rd`, … -/
theorem noIllinst_writeback (v : Option (BitVec 64)) : NoIllinst (writeback d s v) := by
  cases v with
  | some v => exact .brk false _ trivial
  | none => exact .brk false _ trivial

/-- Stores and AMOs trap with store faults. -/
theorem noIllinst_storeFault {tval : BitVec 64} {r : HartException × Sys δ}
    (h : handleMemError .safault .spfault tval s = some r) : NoIllinst (trap r) :=
  ends_memError h HartException.noConfusion HartException.noConfusion rfl rfl

/-- … a LOAD, … -/
theorem noIllinst_load : NoIllinst (execLoad env d s) := by
  refine (execLoad_ends env d s).mono (fun he tval t h => ?_) fun _ _ _ => trivial
  rcases h.2.2 with rfl | rfl <;> exact HartException.noConfusion

/-- … a STORE, … -/
theorem noIllinst_store : NoIllinst (execStore env d s) := by
  refine (execStore_ends env d s).mono (fun he tval t h => ?_) fun _ _ _ => trivial
  rcases h.2.2 with rfl | rfl <;> exact HartException.noConfusion

/-- … or an SC. -/
theorem noIllinst_sc : NoIllinst (execSc env d s) := by
  unfold execSc
  dsimp only
  split
  · next t ht => exact noIllinst_storeFault _ ht
  · split
    · split
      · next t ht => exact noIllinst_storeFault _ ht
      · exact .brk false _ trivial
    · exact .brk false _ trivial

/-- An AMO with a `funct5` that no case names stores back what it has loaded. -/
theorem noIllinst_amo : NoIllinst (execAmo env d s) := by
  unfold execAmo
  dsimp only
  split
  · exact noIllinst_sc env d s
  · split
    · next t ht => exact noIllinst_storeFault _ ht
    · split
      · unfold execLrReserve
        dsimp only
        split
        · next t ht => exact noIllinst_storeFault _ ht
        · exact .brk false _ trivial
      · unfold execAmoWrite
        dsimp only
        split
        · next t ht => exact noIllinst_storeFault _ ht
        · exact .brk false _ trivial

/-- No opcode but `SYSTEM` checks that its fields are those of an instruction. -/
theorem execute_noIllinst (hsys : d.opFun ≠ .system) : NoIllinst (execute env d s) := by
  unfold execute
  split
  case h_7 => exact noIllinst_jumped _
  case h_8 => exact noIllinst_jumped _
  case h_9 =>
    unfold execBranch
    split
    · exact noIllinst_jumped _
    · exact .brk false s trivial
  case h_10 => exact noIllinst_load env d s
  case h_11 => exact noIllinst_store env d s
  case h_12 => exact .brk false _ trivial
  case h_13 h => exact absurd h hsys
  case h_14 => exact noIllinst_amo env d s
  case h_15 => exact .brk false s trivial
  all_goals exact noIllinst_writeback d s _

variable {env d s}

/-- What is not illegal raises no such exception. -/
theorem not_raises_of_noIllinst {r : Flow × Sys δ} (h : NoIllinst r) :
    ¬ RaisesIllinst s (finish r) := by
  rcases finish_of_ends h with ⟨t, he, tval, hne, hexc, hf⟩ | ⟨b, t, -, hf⟩ <;> rw [hf]
  · exact not_raises_createException hexc hne tval
  · intro hr
    cases hr.exception

end Execute

/-! ## The length of an instruction -/

section Word

variable (env : Env δ) {s : Sys δ}

/-- The only 16-bit encodings that the decoder rejects. -/
theorem decode16_eq_none_iff (inst : BitVec 32) :
    decode16 inst = none ↔ inst.extractLsb' 0 2 = 0b00 ∧ inst.extractLsb' 13 3 = 0b100 := by
  have hrow : InstOp16.ofInst inst = .res1 ↔
      inst.extractLsb' 0 2 = 0b00 ∧ inst.extractLsb' 13 3 = 0b100 := by
    unfold InstOp16.ofInst
    generalize inst.extractLsb' 0 2 = quadrant
    generalize inst.extractLsb' 13 3 = row
    revert quadrant row
    decide
  rw [← hrow]
  unfold decode16
  dsimp only
  cases InstOp16.ofInst inst
  case res1 => exact iff_of_true rfl rfl
  case lui =>
    dsimp only
    split
    · exact iff_of_false (Option.some_ne_none _) InstOp16.noConfusion
    · exact iff_of_false (Option.some_ne_none _) InstOp16.noConfusion
  all_goals exact iff_of_false (Option.some_ne_none _) InstOp16.noConfusion

/-- The encodings of `SYSTEM`. -/
theorem decode32_system (w : BitVec 32) :
    (decode32 w).opFun = .system ↔ w.extractLsb' 2 5 = 0b11100 := by
  rw [decode32_opFun]
  generalize w.extractLsb' 2 5 = opcode
  revert opcode
  decide

/-- What rejects a `SYSTEM` word is not the instruction word or its length. -/
theorem systemRejected_withInst (d : Decoded) (s : Sys δ) (inst : BitVec 32) (len : BitVec 8) :
    SystemRejected d (s.withInst inst len) ↔ SystemRejected d s := by
  have hget (ptr : CsrPtr) : ptr.get (s.withInst inst len).hs = ptr.get s.hs := by
    cases ptr <;> rfl
  have hreaches : ReachesCsr d (s.withInst inst len) ↔ ReachesCsr d s :=
    ⟨fun h => ⟨h.privilege, h.time, h.zero, h.counteren, h.pmpcfg⟩,
      fun h => ⟨h.privilege, h.time, h.zero, h.counteren, h.pmpcfg⟩⟩
  have hcsr : CsrRejected d (s.withInst inst len) ↔ CsrRejected d s := by
    constructor
    · intro h
      cases h with
      | privilege hp => exact .privilege hp
      | tvm hr hsatp htvm => exact .tvm (hreaches.mp hr) hsatp htvm
      | unknown hr hnone => exact .unknown (hreaches.mp hr) hnone
      | readOnly hr ptr hptr hnum hneeded hrd =>
        rw [hget] at hrd
        exact .readOnly (hreaches.mp hr) ptr hptr hnum hneeded hrd
    · intro h
      cases h with
      | privilege hp => exact .privilege hp
      | tvm hr hsatp htvm => exact .tvm (hreaches.mpr hr) hsatp htvm
      | unknown hr hnone => exact .unknown (hreaches.mpr hr) hnone
      | readOnly hr ptr hptr hnum hneeded hrd =>
        refine .readOnly (hreaches.mpr hr) ptr hptr hnum hneeded ?_
        rw [hget]
        exact hrd
  unfold SystemRejected
  rw [hcsr]
  rfl

/-- A 16-bit encoding: only the reserved row is rejected. -/
theorem decodeExc_raises16 (hlen : s.hs.instLen = 16) :
    RaisesIllinst s (decodeExc env s) ↔ decode16 s.hs.inst = none := by
  cases hd : decode16 s.hs.inst with
  | none =>
    rw [decodeExc, if_pos hlen, hd]
    exact iff_of_true (raises_createException_self s _) rfl
  | some d =>
    refine iff_of_false ?_ (Option.some_ne_none d)
    rw [decodeExc_of_decodes env (.inl ⟨hlen, hd⟩)]
    by_cases hsys : d.opFun = .system
    · -- C.EBREAK
      have hcebreak := decode16_system hd hsys
      rw [execute, hsys]
      dsimp only
      unfold execSystem
      split
      · exact not_raises_ecall _ _
      · rw [if_pos (.inr hcebreak)]
        exact not_raises_createException rfl HartException.noConfusion _
    · exact not_raises_of_noIllinst (execute_noIllinst env d _ hsys)

/-- A 32-bit word that is no instruction: only `SYSTEM` words are rejected. -/
theorem decodeExc_raises32 (hlen : s.hs.instLen = 32) (hword : systemWord s.hs.inst = false) :
    RaisesIllinst s (decodeExc env s) ↔
      s.hs.inst.extractLsb' 2 5 = 0b11100 ∧ SystemRejected (decode32 s.hs.inst) s := by
  rw [← decode32_system, decodeExc_of_decodes env (.inr ⟨hlen, rfl⟩)]
  by_cases hsys : (decode32 s.hs.inst).opFun = .system
  · rw [and_iff_right hsys, execute, hsys]
    dsimp only
    rw [← systemRejected_withInst _ s (decode32 s.hs.inst).inst s.hs.instLen,
      ← execSystem_raises env (decode32_cebreak _)
        ((congrArg systemWord (decode32_inst _)).trans hword)]
    exact ⟨RaisesIllinst.congr rfl rfl, RaisesIllinst.congr rfl rfl⟩
  · exact iff_of_false (not_raises_of_noIllinst (execute_noIllinst env _ _ hsys)) fun h => hsys h.1

/-- A word of an unsupported length traps before it is decoded, … -/
theorem executeWord_of_trap {t : Sys δ} {he : HartException} {tval : BitVec 64}
    (h : fetchLength s = t.createException he tval) (hexc : he.interrupt = false) :
    executeWord env s = t.createException he tval := by
  rw [executeWord, h]
  exact if_pos (createException_raises t tval hexc)

/-- … and another one is decoded. -/
theorem executeWord_of_length {t : Sys δ} (h : fetchLength s = (.noexc, t)) :
    executeWord env s = decodeExc env t := by
  rw [executeWord, h]
  exact if_neg (not_not.mpr rfl)

/-- The word of zeros and the word of ones. -/
theorem executeWord_uniform (h : s.hs.inst = 0 ∨ s.hs.inst = 0xffffffff) :
    RaisesIllinst s (executeWord env s) := by
  let t := s.setHs { s.hs with instLen := 0 }
  have hlen : fetchLength s = t.createException .illinst (s.hs.inst.signExtend 64) := if_pos h
  rw [executeWord_of_trap env hlen rfl]
  exact raises_createException (s := s) (t := t) rfl rfl _

/-- Any other word whose lower parcel is an encoding of its own. -/
theorem executeWord_parcel (hu : ¬ (s.hs.inst = 0 ∨ s.hs.inst = 0xffffffff))
    (h16 : s.hs.inst.extractLsb' 0 2 ≠ 0b11) :
    RaisesIllinst s (executeWord env s) ↔
      s.hs.inst.extractLsb' 0 2 = 0b00 ∧ s.hs.inst.extractLsb' 13 3 = 0b100 := by
  have hmask : s.hs.inst &&& 0b11 ≠ 0b11 := fun h =>
    h16 ((BitVec.and_eq_mask_iff s.hs.inst 0 2 (by decide)).mp h)
  obtain ⟨instbuf, hlen⟩ : ∃ instbuf, fetchLength s = (.noexc, s.setHs { s.hs with
      instLen := 16, instbuf := instbuf, inst := s.hs.inst &&& 0xFFFF }) := by
    rw [fetchLength, if_neg hu, if_pos hmask]
    exact ⟨_, rfl⟩
  generalize ht : s.setHs _ = t at hlen
  have hinst : t.hs.inst = s.hs.inst &&& (BitVec.allOnes 16).setWidth 32 := by
    rw [← ht]
    rfl
  have hprog : t.hs.progress = s.hs.progress := by
    rw [← ht]
    rfl
  have hmem : t.bus.mainMem = s.bus.mainMem := by
    rw [← ht]
    rfl
  rw [executeWord_of_length env hlen, ← RaisesIllinst.congr_iff hprog hmem,
    decodeExc_raises16 env (by rw [← ht]; rfl), decode16_eq_none_iff, hinst,
    BitVec.extractLsb'_and_allOnes _ 16 (by decide), BitVec.extractLsb'_and_allOnes _ 16 (by decide)]

/-- A word with the lower bits of a 32-bit word that is no instruction. -/
theorem executeWord_word (hu : ¬ (s.hs.inst = 0 ∨ s.hs.inst = 0xffffffff))
    (h32 : s.hs.inst.extractLsb' 0 2 = 0b11) (hword : systemWord s.hs.inst = false) :
    RaisesIllinst s (executeWord env s) ↔
      s.hs.inst.extractLsb' 2 5 = 0b11100 ∧ SystemRejected (decode32 s.hs.inst) s := by
  have hmask : ¬ s.hs.inst &&& 0b11 ≠ 0b11 :=
    not_not.mpr ((BitVec.and_eq_mask_iff s.hs.inst 0 2 (by decide)).mpr h32)
  by_cases hlong : s.hs.inst.extractLsb' 2 3 = 0b111
  · -- the start of a longer encoding
    have hmask' : ¬ s.hs.inst &&& 0b11100 ≠ 0b11100 :=
      not_not.mpr ((BitVec.and_eq_mask_iff s.hs.inst 2 3 (by decide)).mpr hlong)
    have hlen : fetchLength s =
        (s.setHs { s.hs with instLen := 0 }).createException .imisalign s.hs.pc := by
      rw [fetchLength, if_neg hu, if_neg hmask, if_neg hmask']
    rw [executeWord_of_trap env hlen rfl]
    refine iff_of_false (not_raises_createException rfl HartException.noConfusion _) fun h => ?_
    have hrow : (s.hs.inst.extractLsb' 2 5).extractLsb' 0 3 = s.hs.inst.extractLsb' 2 3 :=
      BitVec.extractLsb'_extractLsb' _ (by decide)
    rw [h.1, hlong] at hrow
    cases hrow
  · have hmask' : s.hs.inst &&& 0b11100 ≠ 0b11100 := fun h =>
      hlong ((BitVec.and_eq_mask_iff s.hs.inst 2 3 (by decide)).mp h)
    have hlen : fetchLength s = (.noexc, s.withInst s.hs.inst 32) := by
      rw [fetchLength, if_neg hu, if_neg hmask, if_pos hmask']
      rfl
    rw [executeWord_of_length env hlen, ← systemRejected_withInst _ s s.hs.inst 32,
      ← RaisesIllinst.congr_iff (s := s) (t := s.withInst s.hs.inst 32) rfl rfl]
    exact decodeExc_raises32 env rfl hword

/-- **Illegal instructions.** An encoding that is no instruction raises ILLINST, with the
    hart as it was, if and only if it is a word of zeros or ones, the reserved compressed
    row, or a `SYSTEM` word that is rejected. -/
theorem illegal_traps_iff (hill : Illegal s.hs.inst) :
    RaisesIllinst s (executeWord env s) ↔ Rejected s := by
  by_cases hu : s.hs.inst = 0 ∨ s.hs.inst = 0xffffffff
  · exact iff_of_true (executeWord_uniform env hu) (.uniform hu)
  · by_cases h32 : s.hs.inst.extractLsb' 0 2 = 0b11
    · have hword : systemWord s.hs.inst = false := by
        unfold Illegal at hill
        rw [if_pos h32, legalWord, h32] at hill
        exact (Bool.or_eq_false_iff.mp hill).1
      rw [executeWord_word env hu h32 hword]
      constructor
      · rintro ⟨hop, hrej⟩
        exact .system h32 hop hrej
      · intro h
        cases h with
        | uniform h => exact absurd h hu
        | reserved hquadrant =>
          rw [hquadrant] at h32
          cases h32
        | system _ hop hrej => exact ⟨hop, hrej⟩
    · rw [executeWord_parcel env hu h32]
      constructor
      · rintro ⟨hquadrant, hrow⟩
        exact .reserved hquadrant hrow
      · intro h
        cases h with
        | uniform h => exact absurd h hu
        | reserved hquadrant hrow => exact ⟨hquadrant, hrow⟩
        | system hlen => exact absurd hlen h32

end Word

/-- A hart in user mode that has fetched a word; its registers hold zero. -/
private def fetchedState (w : BitVec 32) : Sys Unit :=
  ⟨{ hartInit Env.inert 0 with inst := w, pc := 0x80000000, privmode := 0 }, Bus.inert⟩

/-- The unused `funct3` of `SYSTEM`. -/
theorem illegal_traps_funct3 :
    Illegal 0x30004073 ∧ RaisesIllinst (fetchedState 0x30004073)
      (executeWord Env.inert (fetchedState 0x30004073)) := by
  have hprivilege : Rejected (fetchedState 0x30004073) :=
    .system (by decide) (by decide) (.privilege (by decide +kernel))
  exact ⟨by decide, (illegal_traps_iff Env.inert (by decide)).mpr hprivilege⟩

/-- FADD.S is retired. -/
theorem illegal_retired_fadd :
    ¬ ∀ s : Sys Unit, Illegal s.hs.inst → RaisesIllinst s (executeWord Env.inert s) := by
  intro h
  have hfadd := (h (fetchedState 0x00000053) (by decide)).exception
  have hretired : (executeWord Env.inert (fetchedState 0x00000053)).1 = .noexc := by
    decide +kernel
  rw [hretired] at hfadd
  cases hfadd

end RvEmu
