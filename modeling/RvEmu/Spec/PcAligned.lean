import RvEmu.Spec.Precise
import RvEmu.Spec.Rvc

/-!
# The pc is even

Every write of the pc masks bit 0, or adds an even number to an even pc: the length of an
instruction, or the immediate of a jump. So the exits of the jumps for a misaligned target
are never taken.

## Key results

- `Decodes.imm_even`: the offsets of jumps and branches, compressed or not
- `pc_even`: the pc in every run
-/

namespace RvEmu

variable {δ : Type}

/-! ## Immediates -/

section Immediates

variable {inst : BitVec 32}

/-- The immediate of a branch has bit 0 moved away. -/
theorem moveBit0To11_even (imm : BitVec 64) : (moveBit0To11 imm).getLsbD 0 = false :=
  moveBit0To11_getLsbD imm (Nat.zero_lt_succ 63)

/-- The sum of even numbers is even. -/
theorem add_even {x y : BitVec 64} (hx : x.getLsbD 0 = false) (hy : y.getLsbD 0 = false) :
    (x + y).getLsbD 0 = false := by
  rw [BitVec.getLsbD_zero_add (Nat.zero_lt_succ 63), hx, hy]
  rfl

/-- A field that is masked to even positions. -/
theorem shrMask_even (n : Nat) {mask : BitVec 32} (h : mask.getLsbD 0 = false) :
    (shrMask inst n mask).getLsbD 0 = false := by
  simp only [shrMask, BitVec.getLsbD_signExtend, BitVec.getLsbD_and, h, Bool.and_false]
  rfl

/-- A field shifted to the left and masked to even positions. -/
theorem shlMask_even (n : Nat) {mask : BitVec 32} (h : mask.getLsbD 0 = false) :
    (shlMask inst n mask).getLsbD 0 = false := by
  simp only [shlMask, BitVec.getLsbD_signExtend, BitVec.getLsbD_and, h, Bool.and_false]
  rfl

/-- Sign extension keeps bit 0. -/
theorem signExtendImm_even {imm : BitVec 64} {n : Nat} (hn : n < 64)
    (h : imm.getLsbD 0 = false) : (signExtendImm imm n).getLsbD 0 = false := by
  rw [signExtendImm_getLsbD imm hn (Nat.zero_lt_succ 63), if_pos (Nat.sub_pos_of_lt hn)]
  exact h

/-- The immediate of C.J. -/
theorem immCJ_even : (signExtendImm (shrMask inst 1 0xB40 + shrMask inst 2 0xE +
    shrMask inst 7 0x10 + shlMask inst 1 0x80 + shlMask inst 2 0x400 + shlMask inst 3 0x20)
    52).getLsbD 0 = false := by
  refine signExtendImm_even (by decide) ?_
  exact add_even (add_even (add_even (add_even (add_even (shrMask_even 1 rfl)
    (shrMask_even 2 rfl)) (shrMask_even 7 rfl)) (shlMask_even 1 rfl)) (shlMask_even 2 rfl))
    (shlMask_even 3 rfl)

/-- The immediate of C.BEQZ and C.BNEZ. -/
theorem immCB_even : (signExtendImm (shrMask inst 4 0b100000000 + shlMask inst 1 0b11000000 +
    shlMask inst 3 0b100000 + shrMask inst 7 0b11000 + shrMask inst 2 0b110)
    55).getLsbD 0 = false := by
  refine signExtendImm_even (by decide) ?_
  exact add_even (add_even (add_even (add_even (shrMask_even 4 rfl) (shlMask_even 1 rfl))
    (shlMask_even 3 rfl)) (shrMask_even 7 rfl)) (shrMask_even 2 rfl)

/-- JAL and the branches add their immediate to the pc. -/
def Decoded.AddsImm (d : Decoded) : Prop := d.opFun = .jal ∨ d.opFun = .branch

/-- The offsets of JAL and of the branches are even. -/
theorem decode32_even (h : (decode32 inst).AddsImm) : (decode32 inst).imm.getLsbD 0 = false := by
  unfold Decoded.AddsImm at h
  rw [decode32_opFun] at h
  simp only [decode32]
  rcases h with h | h <;> rw [h] <;> exact moveBit0To11_even _

/-- MISC-ALU has no jump with an offset. -/
theorem decodeMiscAlu_addsImm (inst : BitVec 32) (d : Decoded) :
    ¬ (decodeMiscAlu inst d).AddsImm := by
  simp only [decodeMiscAlu]
  split
  · rintro (h | h) <;> cases h
  · rintro (h | h) <;> cases h
  · rintro (h | h) <;> cases h
  · split
    · rintro (h | h) <;> cases h
    · split <;> rintro (h | h) <;> cases h

/-- The compressed indirect jumps add no offset. -/
theorem decodeJalr16_addsImm (inst : BitVec 32) (d : Decoded) :
    ¬ (decodeJalr16 inst d).AddsImm := by
  simp only [decodeJalr16]
  split
  · rintro (h | h) <;> cases h
  · split <;> split <;> rintro (h | h) <;> cases h

/-- The offsets of the compressed jumps and branches are even. -/
theorem decode16_even {d : Decoded} (hd : decode16 inst = some d) (h : d.AddsImm) :
    d.imm.getLsbD 0 = false := by
  unfold decode16 at hd
  dsimp only at hd
  cases hop : InstOp16.ofInst inst <;> rw [hop] at hd
  case res1 => cases hd
  case lui =>
    dsimp only at hd
    split at hd <;> obtain rfl := Option.some.inj hd <;> rcases h with h | h <;> cases h
  case miscAlu =>
    obtain rfl := Option.some.inj hd
    exact absurd h (decodeMiscAlu_addsImm inst _)
  case jalr =>
    obtain rfl := Option.some.inj hd
    exact absurd h (decodeJalr16_addsImm inst _)
  case j =>
    obtain rfl := Option.some.inj hd
    exact immCJ_even
  case beqz =>
    obtain rfl := Option.some.inj hd
    exact immCB_even
  case bnez =>
    obtain rfl := Option.some.inj hd
    exact immCB_even
  all_goals
    obtain rfl := Option.some.inj hd
    rcases h with h | h <;> cases h

/-- The immediate that a jump adds is even. -/
theorem Decodes.imm_even {s : Sys δ} {d : Decoded} (hd : Decodes s d) (h : d.AddsImm) :
    d.imm.getLsbD 0 = false := by
  rcases hd with ⟨-, hd⟩ | ⟨-, rfl⟩
  · exact decode16_even hd h
  · exact decode32_even h

end Immediates

/-! ## What writes the pc -/

/-- The pc is even. -/
def HartState.PcEven (hs : HartState) : Prop := hs.pc.getLsbD 0 = false

/-- Clearing bit 0 leaves an even number. -/
theorem and_not_one_even (x : BitVec 64) : (x &&& ~~~1#64).getLsbD 0 = false := by
  rw [BitVec.getLsbD_and]
  exact Bool.and_false _

/-- A multiple of four is even. -/
theorem four_mul_even (x : BitVec 64) : (4 * x).getLsbD 0 = false := by
  have hmod : (4 * x).toNat % 2 = 0 := by
    have hfour : (4 : BitVec 64).toNat = 4 := rfl
    rw [BitVec.toNat_mul, hfour]
    omega
  rw [BitVec.getLsbD, Nat.testBit_zero, hmod]
  rfl

/-- A trap vector, whatever is in `mtvec` or `stvec`. -/
theorem trapVector_even (tvec cause : BitVec 64) : (trapVector tvec cause).getLsbD 0 = false := by
  have hbase := and_not_one_even tvec
  simp only [trapVector]
  split
  · exact add_even hbase (four_mul_even cause)
  · exact hbase

/-- An exception goes to an even address. -/
theorem createException_pcEven (hs : HartState) (he : HartException) (tval : BitVec 64)
    (h : hs.PcEven) : (createException hs he tval).2.PcEven := by
  rcases createException_cases hs he tval with hc | ⟨-, -, hc⟩ | ⟨-, hc⟩ <;> rw [hc]
  · exact h
  · exact trapVector_even hs.csr.stvec he.cause
  · exact trapVector_even hs.csr.mtvec he.cause

/-- An instruction is about to be executed: the pc is even, and so is the length. -/
structure PcReady (s : Sys δ) : Prop where
  even : s.hs.PcEven
  len : s.hs.instLen = 16 ∨ s.hs.instLen = 32

namespace PcReady

variable {s t : Sys δ}

/-- The property depends on the pc and the instruction length. -/
theorem of_eq (h : PcReady s) (hpc : t.hs.pc = s.hs.pc) (hlen : t.hs.instLen = s.hs.instLen) :
    PcReady t where
  even := by
    unfold HartState.PcEven
    rw [hpc]
    exact h.even
  len := hlen ▸ h.len

/-- Memory accesses keep it. -/
theorem memClosed (env : Env δ) : MemClosed env PcReady :=
  .of_frame env (fun ht h => h.of_eq (ht.proj (·.pc)) (ht.proj (·.instLen)))
    fun _ _ h => h.of_eq rfl rfl

/-- The next instruction is at an even address. -/
theorem next (h : PcReady s) : (s.hs.pc + s.hs.instBytes).getLsbD 0 = false := by
  refine add_even h.even ?_
  rcases h.len with hlen | hlen
  · rw [HartState.instBytes_of_len16 hlen]
    rfl
  · rw [HartState.instBytes_of_len32 hlen]
    rfl

/-- Stepping over the instruction leaves an even pc. -/
theorem retire (h : PcReady s) (pcChgd : Bool) : (retire pcChgd s).hs.PcEven := by
  cases pcChgd with
  | true => exact h.even
  | false => exact h.next

/-- A jump to an even address does not trap. -/
theorem jumped (h : PcReady s) : jumped s = (.brk true, s) := by
  have heven : s.hs.pc.getLsbD 0 = false := h.even
  rw [RvEmu.jumped, heven]
  rfl

end PcReady

/-! ## Instructions -/

section Execute

variable (env : Env δ) (d : Decoded) {s : Sys δ}

/-- JAL never takes its misaligned exit. -/
theorem execJal_eq (h : PcReady s) (himm : d.imm.getLsbD 0 = false) :
    execJal d s = (.brk true,
      (s.setReg d.rd (s.hs.pc + s.hs.instBytes)).setPc (s.hs.pc + d.imm)) :=
  PcReady.jumped ⟨add_even h.even himm, h.len⟩

/-- JALR clears bit 0 of its target, and never takes its misaligned exit. -/
theorem execJalr_eq (h : PcReady s) :
    execJalr d s = (.brk true, (s.setPc ((s.hs.regs d.rs1 + d.imm) &&& ~~~0b1#64)).setReg d.rd
      (s.hs.pc + s.hs.instBytes)) :=
  PcReady.jumped ⟨and_not_one_even _, h.len⟩

/-- A branch never takes its misaligned exit. -/
theorem execBranch_eq (h : PcReady s) (himm : d.imm.getLsbD 0 = false) :
    execBranch d s =
      if branchTaken d.funct3 (s.hs.regs d.rs1) (s.hs.regs d.rs2) then
        (.brk true, s.setPc (s.hs.pc + d.imm))
      else (.brk false, s) := by
  unfold execBranch
  split
  · exact PcReady.jumped ⟨add_even h.even himm, h.len⟩
  · rfl

/-- Outside `SYSTEM` the pc is even wherever the switch is left. -/
theorem execute_pcReady (h : PcReady s) (himm : d.AddsImm → d.imm.getLsbD 0 = false)
    (hsys : d.opFun ≠ .system) : Outcome PcReady (execute env d s) := by
  have hbus {s t : Sys δ} (hs : PcReady s) (ht : t.hs = s.hs) : PcReady t :=
    hs.of_eq (congrArg (·.pc) ht) (congrArg (·.instLen) ht)
  have hback (v : Option (BitVec 64)) : Outcome PcReady (writeback d s v) := by
    cases v with
    | some v => exact .brk false _ (h.of_eq rfl rfl)
    | none => exact .brk false s h
  unfold execute
  split
  case h_7 hop =>
    have hd := himm (.inl hop)
    rw [execJal_eq d h hd]
    exact .brk true _ ⟨add_even h.even hd, h.len⟩
  case h_8 =>
    rw [execJalr_eq d h]
    exact .brk true _ ⟨and_not_one_even _, h.len⟩
  case h_9 hop =>
    have hd := himm (.inr hop)
    rw [execBranch_eq d h hd]
    split
    · exact .brk true _ ⟨add_even h.even hd, h.len⟩
    · exact .brk false s h
  case h_10 => exact ((PcReady.memClosed env).execLoad env d h).outcome
  case h_11 => exact ((PcReady.memClosed env).execStore env d h).outcome
  case h_12 =>
    refine .brk false _ ?_
    split
    · exact h.of_eq rfl rfl
    · exact h
  case h_13 hop => exact absurd hop hsys
  case h_14 => exact ((PcReady.memClosed env).execAmo env d hbus h).outcome
  case h_15 => exact .brk false s h
  all_goals exact hback _

/-- An instruction that keeps the property ends with an even pc. -/
theorem Outcome.pcEven {r : Flow × Sys δ} (h : Outcome PcReady r) : (finish r).2.hs.PcEven := by
  rcases finish_of_ends h with ⟨t, he, tval, ht, -, hf⟩ | ⟨b, t, ht, hf⟩ <;> rw [hf]
  · exact createException_pcEven t.hs he tval ht.even
  · exact ht.retire b

/-! ## SYSTEM -/

/-- Reading a CSR keeps the property. -/
theorem CsrRead.pcReady {t : Sys δ} (ht : CsrRead s t) (h : PcReady s) : PcReady t := by
  obtain ⟨regs, chkInt, dev, rfl⟩ := ht
  exact h.of_eq rfl rfl

/-- A CSR instruction that only reads ends with an even pc. -/
theorem CsrReads.pcEven {r : Flow × Sys δ} (hr : CsrReads s r) (h : PcReady s) :
    (finish r).2.hs.PcEven :=
  Outcome.pcEven (Ends.mono hr (fun _ _ _ ht => ht.2.pcReady h) fun _ _ ht => ht.pcReady h)

/-- The fix-ups after a CSR access keep the pc. -/
theorem csrMirror_pc (hs : HartState) (imm : BitVec 12) (sstatus sie : Bool) :
    (csrMirror hs imm sstatus sie).pc = hs.pc := by
  rw [csrMirror_frame]

/-- The fix-ups after a CSR access keep the instruction length. -/
theorem csrMirror_instLen (hs : HartState) (imm : BitVec 12) (sstatus sie : Bool) :
    (csrMirror hs imm sstatus sie).instLen = hs.instLen := by
  rw [csrMirror_frame]

/-- A write through the pointer keeps the pc and the instruction length. -/
theorem CsrPtr.set_pc (hs : HartState) (v : BitVec 64) (ptr : CsrPtr) :
    (CsrPtr.set hs v ptr).pc = hs.pc ∧ (CsrPtr.set hs v ptr).instLen = hs.instLen := by
  cases ptr <;> exact ⟨rfl, rfl⟩

/-- The CSR instructions end with an even pc. -/
theorem execCsr_pcEven (h : PcReady s) : (finish (execCsr env d s)).2.hs.PcEven := by
  rcases execCsr_ends env d s with hr | ⟨-, -, hr⟩ | ⟨-, hr⟩
  · exact hr.pcEven h
  · rw [hr]
    -- the early return comes after the step to the next instruction
    have hnext : (RvEmu.retire false s).hs.PcEven := h.retire false
    simp only [pmpcfgRw]
    split
    · exact createException_pcEven _ .illinst _ hnext
    · exact hnext
  · rw [hr]
    rcases execCsrPtr_ends d s d.csrno (d.csrOperand s.hs) with hr | ⟨t, hs, ht, hr, hhs⟩
    · exact hr.pcEven h
    · have hsame : hs.pc = t.hs.pc ∧ hs.instLen = t.hs.instLen := by
        rcases hhs with rfl | ⟨ptr, v, rfl, -⟩
        · exact ⟨rfl, rfl⟩
        · exact CsrPtr.set_pc t.hs v ptr
      have hready : PcReady (t.setHs (csrMirror hs (csrAlias d.csrno) (d.csrno == 0x100)
          (d.csrno == 0x104))) := (ht.pcReady h).of_eq ((csrMirror_pc ..).trans hsame.1)
        ((csrMirror_instLen ..).trans hsame.2)
      rw [hr]
      exact hready.retire false

/-- `SYSTEM` ends with an even pc: MRET and SRET clear bit 0. -/
theorem execSystem_pcEven (h : PcReady s) : (finish (execSystem env d s)).2.hs.PcEven := by
  rcases execSystem_ends env d s with hr | ⟨-, -, hr⟩ | ⟨-, -, -, hr⟩ | ⟨-, hr⟩
  · refine Outcome.pcEven (hr.mono ?_ ?_)
    · rintro he tval t ⟨-, rfl⟩
      exact h
    · rintro b t ⟨-, rfl | rfl⟩
      · exact h.of_eq rfl rfl
      · exact h.of_eq rfl rfl
  · rw [hr]
    exact and_not_one_even s.hs.csr.mepc
  · rw [hr]
    exact and_not_one_even s.hs.csr.sepc
  · rw [hr]
    exact execCsr_pcEven env d h

end Execute

/-! ## Cycles -/

section Cycle

variable {env : Env δ} {s : Sys δ}

/-- Replacing the instruction keeps the property. -/
theorem withInst_pcReady (h : PcReady s) (inst : BitVec 32) :
    PcReady (s.withInst inst s.hs.instLen) := h.of_eq rfl rfl

/-- `decode_exc` ends with an even pc. -/
theorem decodeExc_pcEven (h : PcReady s) : (decodeExc env s).2.hs.PcEven := by
  have hrun {d : Decoded} (hd : Decodes s d) : (decodeExc env s).2.hs.PcEven := by
    have hready := withInst_pcReady h d.inst
    rw [decodeExc_of_decodes env hd]
    by_cases hsys : d.opFun = .system
    · rw [execute_system env hsys]
      exact execSystem_pcEven env d hready
    · exact Outcome.pcEven (execute_pcReady env d hready hd.imm_even hsys)
  rcases h.len with hlen | hlen
  · cases hd : decode16 s.hs.inst with
    | some d => exact hrun (.inl ⟨hlen, hd⟩)
    | none =>
      unfold decodeExc
      rw [if_pos hlen, hd]
      exact createException_pcEven s.hs .illinst _ h.even
  · exact hrun (.inr ⟨hlen, rfl⟩)

/-- The length stage of `fetch` keeps the pc even. -/
theorem fetchLength_pcEven (h : s.hs.PcEven) : (fetchLength s).2.hs.PcEven := by
  rcases fetchLength_cases s with ⟨he, tval, -, hl⟩ | ⟨len, instbuf, inst, hl⟩ <;> rw [hl]
  · exact createException_pcEven { s.hs with instLen := 0 } he tval h
  · exact h

/-- The length test accepts two lengths. -/
theorem fetchLength_len (h : (fetchLength s).1 = .noexc) :
    (fetchLength s).2.hs.instLen = 16 ∨ (fetchLength s).2.hs.instLen = 32 := by
  unfold fetchLength at h ⊢
  dsimp only at h ⊢
  split
  · next hbad =>
    rw [if_pos hbad, createException_fst _ _ rfl] at h
    cases h
  · next hbad =>
    rw [if_neg hbad] at h
    split
    · exact .inl rfl
    · next hrvc =>
      rw [if_neg hrvc] at h
      split
      · exact .inr rfl
      · next hlong =>
        rw [if_neg hlong, createException_fst _ _ rfl] at h
        cases h

/-- The access of `fetch` keeps the pc even. -/
theorem fetchInst_pcEven (h : s.hs.PcEven) : (fetchInst env s).hs.PcEven := by
  have hpc : (fetchInst env s).hs.pc = s.hs.pc := congrArg (·.2.1) (fetchInst_progress env s)
  unfold HartState.PcEven
  rw [hpc]
  exact h

/-- `fetch` keeps the pc even. -/
theorem fetch_pcEven (h : s.hs.PcEven) : (fetch env s).2.hs.PcEven := by
  have hinst : (fetchInst env s).hs.PcEven := fetchInst_pcEven h
  simp only [fetch]
  split
  · next t ht =>
    rcases handleMemError_cases ht with rfl | rfl
    · exact createException_pcEven _ .iafault _ hinst
    · exact createException_pcEven _ .ipfault _ hinst
  · exact fetchLength_pcEven hinst

/-- What is fetched without an exception is ready to be executed. -/
theorem fetch_pcReady {u : Sys δ} (h : s.hs.PcEven) (hf : fetch env s = (.noexc, u)) :
    PcReady u := by
  have heven : (fetch env s).2.hs.PcEven := fetch_pcEven h
  rw [hf] at heven
  refine ⟨heven, ?_⟩
  simp only [fetch] at hf
  split at hf
  · next t ht =>
    rcases handleMemError_fst rfl rfl ht with hexc | hexc <;> rw [hf] at hexc <;> cases hexc
  · have hlen := fetchLength_len (s := fetchInst env s) (by rw [hf])
    rw [hf] at hlen
    exact hlen

/-- The interrupt check at the end of a cycle keeps the pc even. -/
theorem cycleEnd_pcEven (h : s.hs.PcEven) : (cycleEnd s).hs.PcEven :=
  cycleEnd_preserves createException_pcEven h id

/-- A cycle keeps the pc even. -/
theorem cycle_pcEven (h : s.hs.PcEven) : (cycle env s).2.hs.PcEven := by
  have hreg : (s.setReg 0 0).hs.PcEven := h
  have hfetch : (fetch env (s.setReg 0 0)).2.hs.PcEven := fetch_pcEven hreg
  rcases cycle_cases env s with hc | ⟨hf, hc⟩ | ⟨-, hc⟩ <;> rw [hc]
  · exact hfetch
  · exact cycleEnd_pcEven (decodeExc_pcEven (fetch_pcReady hreg hf.1))
  · exact cycleEnd_pcEven hfetch

/-- The pc is even in every reachable state. -/
theorem Reachable.pcEven (h : Reachable env s) : s.hs.PcEven := by
  have hstart : (0x1000#64).getLsbD 0 = false := rfl
  refine h.invariant (P := fun t => t.hs.PcEven) (fun _ _ => hstart) fun s t hstep hs => ?_
  cases hstep with
  | cycle _ => exact cycle_pcEven hs
  | others _ _ _ => exact hs

/-- An instruction that jumps, if it is a branch, when it is taken. -/
def Decoded.Jumps (d : Decoded) : Prop := d.AddsImm ∨ d.opFun = .jalr

/-- In every run the pc is even at the start of a cycle, and a jump or a branch does not
    trap. -/
theorem pc_even (h : Reachable env s) :
    s.hs.pc.getLsbD 0 = false ∧
    ∀ t d, Fetches env s t → Decodes t d → d.Jumps →
      ∃ pcChgd u, execute env d (t.withInst d.inst t.hs.instLen) = (.brk pcChgd, u) := by
  refine ⟨h.pcEven, fun t d hf hd hjump => ?_⟩
  have hpc : (s.setReg 0 0).hs.PcEven := h.pcEven
  have hready := withInst_pcReady (fetch_pcReady hpc hf.1) d.inst
  rcases hjump with hadds | hop
  · have himm := hd.imm_even hadds
    rcases hadds with hop | hop
    · rw [execute, hop]
      exact ⟨true, _, execJal_eq d hready himm⟩
    · rw [execute, hop]
      dsimp only
      rw [execBranch_eq d hready himm]
      split
      · exact ⟨true, _, rfl⟩
      · exact ⟨false, _, rfl⟩
  · rw [execute, hop]
    exact ⟨true, _, execJalr_eq d hready⟩

/-- A jump to an odd address. -/
private def oddJump : Sys Unit := boot [0x00100067] -- jalr x0, 1(x0)

/-- A jump to an odd address goes to the even one below it. -/
theorem pc_even_odd_jump :
    (runCycles Env.inert 3 oddJump).hs.pc.getLsbD 0 = false ∧
      ∃ pcChgd u, execute Env.inert (decode32 0x00100067)
        ((fetchedAfter Env.inert 3 oddJump).withInst 0x00100067 32) = (.brk pcChgd, u) := by
  have hrun : Reachable Env.inert (runCycles Env.inert 3 oddJump) := reachable_runCycles rfl 0 _ 3
  have hf : Fetches Env.inert (runCycles Env.inert 3 oddJump)
      (fetchedAfter Env.inert 3 oddJump) := fetches_fetchedAfter rfl (by decide +kernel)
  have hlen : (fetchedAfter Env.inert 3 oddJump).hs.instLen = 32 := by decide +kernel
  have hinst : (fetchedAfter Env.inert 3 oddJump).hs.inst = 0x00100067 := by decide +kernel
  obtain ⟨heven, hjumps⟩ := pc_even hrun
  have hjump := hjumps _ _ hf (.inr ⟨hlen, congrArg decode32 hinst⟩) (.inr rfl)
  rw [hlen] at hjump
  exact ⟨heven, hjump⟩

end Cycle

end RvEmu
