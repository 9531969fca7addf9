import RvEmu.Native.Cycle
import RvEmu.Isa.Privileged
import RvEmu.ForStd.BitVec

/-!
# Traps and returns

`createException` enters a trap by saving the current pc, mode and interrupt
enable of the target level in a `RetInfo`; MRET and SRET load it back. The
M-level and the S-level `RetInfo` do not overlap, which is what lets an M-level
trap nest inside an S-level handler.

`trapTarget` relates the decision made by `createException` to the rule of the
privileged architecture, `Isa.intTargetMode`.
-/

namespace RvEmu

variable {δ : Type}

/-! ## The state a trap return restores -/

/-- What a return instruction restores. -/
@[ext] structure RetInfo where
  pc : BitVec 64
  privmode : BitVec 2
  enable : Bool
  deriving DecidableEq

/-- `mstatus.MIE` -/
def CsrState.mstatusMie (c : CsrState) : Bool := c.mstatus.getLsbD 3

/-- `mstatus.SIE` -/
def CsrState.mstatusSie (c : CsrState) : Bool := c.mstatus.getLsbD 1

/-- The state saved for MRET: `mepc`, MPP and MPIE. -/
def CsrState.mretInfo (c : CsrState) : RetInfo :=
  ⟨c.mepc, c.mstatus.extractLsb' 11 2, c.mstatus.getLsbD 7⟩

/-- The state saved for SRET: `sepc`, SPP and SPIE. -/
def CsrState.sretInfo (c : CsrState) : RetInfo :=
  ⟨c.sepc, (c.mstatus.extractLsb' 8 1).setWidth 2, c.mstatus.getLsbD 5⟩

/-- The running state as an M-level trap saves it. -/
def HartState.runInfoM (hs : HartState) : RetInfo := ⟨hs.pc, hs.privmode, hs.csr.mstatusMie⟩

/-- The running state as an S-level trap saves it. -/
def HartState.runInfoS (hs : HartState) : RetInfo := ⟨hs.pc, hs.privmode, hs.csr.mstatusSie⟩

/-- Returns clear the lowest bit of the saved pc. -/
def RetInfo.aligned (r : RetInfo) : RetInfo := { r with pc := r.pc &&& ~~~1#64 }

/-- An even return address stays as it is. -/
theorem RetInfo.aligned_eq_self {r : RetInfo} (h : r.pc.getLsbD 0 = false) : r.aligned = r := by
  have hpc : r.pc &&& ~~~1#64 = r.pc := BitVec.and_not_one_eq_self h
  simp only [RetInfo.aligned, hpc]

/-- A trap to M-mode saves what is running, … -/
theorem trapToM_mretInfo (hs : HartState) (he : HartException) (cause tval : BitVec 64) :
    (trapToM hs he cause tval).csr.mretInfo = hs.runInfoM := by
  ext i hi
  · simp [trapToM, CsrState.mretInfo, HartState.runInfoM]
  · have : i = 0 ∨ i = 1 := by omega
    rcases this with rfl | rfl <;> simp [trapToM, CsrState.mretInfo, HartState.runInfoM]
  · simp [trapToM, CsrState.mretInfo, HartState.runInfoM, CsrState.mstatusMie]

/-- … and leaves the stack of S-mode alone, … -/
theorem trapToM_sretInfo (hs : HartState) (he : HartException) (cause tval : BitVec 64) :
    (trapToM hs he cause tval).csr.sretInfo = hs.csr.sretInfo := by
  ext i hi
  · rfl
  · have : i = 0 ∨ i = 1 := by omega
    rcases this with rfl | rfl <;> simp [trapToM, CsrState.sretInfo]
  · simp [trapToM, CsrState.sretInfo]

/-- … where a trap to S-mode saves it. -/
theorem trapToS_sretInfo {hs : HartState} (he : HartException) (cause tval : BitVec 64)
    (hpriv : hs.privmode ≤ 1) :
    (trapToS hs he cause tval).csr.sretInfo = hs.runInfoS := by
  have hhigh : hs.privmode[1] = false := by
    rcases BitVec.le_one_cases hpriv with h | h <;> simp [h]
  ext i hi
  · rfl
  · have : i = 0 ∨ i = 1 := by omega
    rcases this with rfl | rfl <;> simp [trapToS, CsrState.sretInfo, HartState.runInfoS, hhigh]
  · simp [trapToS, CsrState.sretInfo, HartState.runInfoS, CsrState.mstatusSie]

/-- MRET restores what was saved, but for the lowest bit of the pc, … -/
theorem execMret_runInfoM (s : Sys δ) :
    (execMret s).hs.runInfoM = s.hs.csr.mretInfo.aligned := by
  have hmpp : (execMret s).hs.privmode = s.hs.csr.mstatus.extractLsb' 11 2 := by
    ext i hi
    have : i = 0 ∨ i = 1 := by omega
    rcases this with rfl | rfl <;> simp [execMret, Sys.setHs]
  have hmie : (execMret s).hs.csr.mstatusMie = s.hs.csr.mstatus.getLsbD 7 := by
    simp only [execMret, Sys.setHs, CsrState.mstatusMie]
    split <;> simp
  simp only [HartState.runInfoM, hmpp, hmie]
  rfl

/-- … and leaves the stack of S-mode alone. -/
theorem execMret_sretInfo (s : Sys δ) :
    (execMret s).hs.csr.sretInfo = s.hs.csr.sretInfo := by
  ext i hi
  · rfl
  · have : i = 0 ∨ i = 1 := by omega
    rcases this with rfl | rfl <;>
      simp only [execMret, Sys.setHs, CsrState.sretInfo] <;> split <;> simp
  · simp only [execMret, Sys.setHs, CsrState.sretInfo]
    split <;> simp

/-- SRET restores what was saved there. -/
theorem execSret_runInfoS (s : Sys δ) :
    (execSret s).hs.runInfoS = s.hs.csr.sretInfo.aligned := by
  have hspp : (execSret s).hs.privmode = (s.hs.csr.mstatus.extractLsb' 8 1).setWidth 2 := by
    ext i hi
    have : i = 0 ∨ i = 1 := by omega
    rcases this with rfl | rfl <;> simp [execSret, Sys.setHs]
  have hsie : (execSret s).hs.csr.mstatusSie = s.hs.csr.mstatus.getLsbD 5 := by
    simp only [execSret, Sys.setHs, CsrState.mstatusSie]
    split <;> simp
  simp only [HartState.runInfoS, hspp, hsie]
  rfl

/-! ## Where `createException` traps to -/

/-- The mode `createException` traps to, `none` if the exception is masked. -/
def trapTarget (hs : HartState) (he : HartException) (tval : BitVec 64) : Option (BitVec 2) :=
  let r := createException hs he tval
  if r.1 = .noexc then none else some r.2.privmode

/-- What `createException` can do: nothing but drop `instbuf`, trap to S-mode
    from U- or S-mode, or trap to M-mode. -/
theorem createException_cases (hs : HartState) (he : HartException) (tval : BitVec 64) :
    createException hs he tval = (.noexc, { hs with instbuf := 0 }) ∨
    (hs.privmode ≤ 1 ∧ delegatedToS hs he = true ∧
      createException hs he tval = (he, trapToS { hs with instbuf := 0 } he he.cause tval)) ∨
    (delegatedToS hs he = false ∧
      createException hs he tval = (he, trapToM { hs with instbuf := 0 } he he.cause tval)) := by
  unfold createException
  dsimp only
  -- masked in the mode, delegated to S, or taken in M; the last two may be masked again
  split
  · exact .inl rfl
  · split
    · rename_i hdel
      split
      · exact .inl rfl
      · refine .inr (.inl ⟨?_, hdel, rfl⟩)
        simp only [delegatedToS, Bool.and_eq_true, decide_eq_true_eq] at hdel
        exact hdel.2
    · rename_i hdel
      split
      · exact .inl rfl
      · exact .inr (.inr ⟨Bool.eq_false_iff.mpr hdel, rfl⟩)

/-- A change of the hart that `create_exception` neither reads nor overwrites. -/
structure TrapIgnores (f : HartState → HartState) : Prop where
  instbuf : ∀ hs, { f hs with instbuf := 0 } = f { hs with instbuf := 0 }
  intDisabled : ∀ hs he, intDisabled (f hs) he = intDisabled hs he
  delegated : ∀ hs he, delegatedToS (f hs) he = delegatedToS hs he
  sie : ∀ hs, (f hs).csr.sie = hs.csr.sie
  mie : ∀ hs, (f hs).csr.mie = hs.csr.mie
  trapToS : ∀ hs he cause tval, trapToS (f hs) he cause tval = f (trapToS hs he cause tval)
  trapToM : ∀ hs he cause tval, trapToM (f hs) he cause tval = f (trapToM hs he cause tval)

/-- The change can be made before the trap as well as after it. -/
theorem createException_comm {f : HartState → HartState} (h : TrapIgnores f) (hs : HartState)
    (he : HartException) (tval : BitVec 64) :
    createException (f hs) he tval =
      ((createException hs he tval).1, f (createException hs he tval).2) := by
  have hdis : intDisabled { f hs with instbuf := 0 } he = intDisabled { hs with instbuf := 0 } he :=
    h.intDisabled hs he
  have hdel : delegatedToS { f hs with instbuf := 0 } he =
      delegatedToS { hs with instbuf := 0 } he := h.delegated hs he
  have hbuf := h.instbuf hs
  unfold createException
  dsimp only
  rw [hdis, hdel, h.sie, h.mie]
  split
  · exact Prod.ext rfl hbuf
  · split
    · split
      · exact Prod.ext rfl hbuf
      · exact Prod.ext rfl ((congrArg (trapToS · he he.cause tval) hbuf).trans (h.trapToS ..))
    · split
      · exact Prod.ext rfl hbuf
      · exact Prod.ext rfl ((congrArg (trapToM · he he.cause tval) hbuf).trans (h.trapToM ..))

/-- An exception, as opposed to an interrupt, is always taken. -/
theorem createException_fst (s : Sys δ) {he : HartException} (tval : BitVec 64)
    (h : he.interrupt = false) : (s.createException he tval).1 = he := by
  simp only [Sys.createException, createException, intDisabled, h, Bool.false_and, Bool.or_self]
  split
  · contradiction
  · split <;> rfl

/-- An exception is always raised. -/
theorem createException_raises (s : Sys δ) {he : HartException} (tval : BitVec 64)
    (h : he.interrupt = false) : (s.createException he tval).1 ≠ .noexc := by
  rw [createException_fst s tval h]
  rintro rfl
  exact absurd h (by decide)

/-- A jump completes, or raises an exception. -/
theorem jumped_flow (s : Sys δ) :
    (∃ he, (jumped s).1 = .ret he ∧ he ≠ .noexc) ∨ (jumped s).1 = .brk true := by
  unfold jumped
  split
  · exact .inl ⟨_, rfl, createException_raises s _ rfl⟩
  · exact .inr rfl

/-- A fault is raised as one of the two causes. -/
theorem handleMemError_fst {afault pfault : HartException} {tval : BitVec 64} {s : Sys δ}
    {t : HartException × Sys δ} (ha : afault.interrupt = false) (hp : pfault.interrupt = false)
    (h : handleMemError afault pfault tval s = some t) : t.1 = afault ∨ t.1 = pfault := by
  unfold handleMemError at h
  split at h
  · obtain rfl := Option.some.inj h
    exact .inl (createException_fst _ tval ha)
  · split at h
    · obtain rfl := Option.some.inj h
      exact .inr (createException_fst _ tval hp)
    · cases h

/-- A trap whose target is M-mode is the one of `trapToM`, … -/
theorem trapTarget_eq_three {hs : HartState} {he : HartException} {tval : BitVec 64}
    (h : trapTarget hs he tval = some 3) :
    (createException hs he tval).2 = trapToM { hs with instbuf := 0 } he he.cause tval := by
  rcases createException_cases hs he tval with hc | ⟨-, -, hc⟩ | ⟨-, hc⟩
  · simp [trapTarget, hc] at h
  · simp only [trapTarget, hc, trapToS] at h
    split at h <;> simp at h
  · rw [hc]

/-- … and one whose target is S-mode comes from below M-mode. -/
theorem trapTarget_eq_one {hs : HartState} {he : HartException} {tval : BitVec 64}
    (h : trapTarget hs he tval = some 1) :
    hs.privmode ≤ 1 ∧
    (createException hs he tval).2 = trapToS { hs with instbuf := 0 } he he.cause tval := by
  rcases createException_cases hs he tval with hc | ⟨hp, -, hc⟩ | ⟨-, hc⟩
  · simp [trapTarget, hc] at h
  · exact ⟨hp, by rw [hc]⟩
  · simp only [trapTarget, hc, trapToM] at h
    split at h <;> simp at h

/-! ## MRET and SRET as instructions -/

/-- Decoding keeps the instruction word. -/
theorem decode32_inst (inst : BitVec 32) : (decode32 inst).inst = inst := by
  simp only [decode32]
  split <;> rfl

/-- The operation is in bits 2 to 6. -/
theorem decode32_opFun (inst : BitVec 32) :
    (decode32 inst).opFun = InstOp32.ofBits (inst.extractLsb' 2 5) := by
  simp only [decode32]
  split <;> rfl

/-- A 32-bit instruction is executed as `decode32` decodes it. -/
theorem decodeExc_of_len32 (env : Env δ) {s : Sys δ} (hlen : s.hs.instLen = 32) :
    decodeExc env s =
      match execute env (decode32 s.hs.inst) s with
      | (.ret he, s) => (he, s)
      | (.brk pcChgd, s) => (.noexc, retire pcChgd s) := by
  have hne : ¬ s.hs.instLen = 16 := by rw [hlen]; decide
  rw [decodeExc, if_neg hne, if_pos hlen, runDecoded, decode32_inst]
  rfl

/-- `decode_exc` on MRET … -/
theorem decodeExc_mret (env : Env δ) {s : Sys δ} (hinst : s.hs.inst = instMret)
    (hlen : s.hs.instLen = 32) : decodeExc env s = (.noexc, retire true (execMret s)) := by
  rw [decodeExc_of_len32 env hlen, hinst]
  rfl

/-- … and on SRET, unless it is trapped. -/
theorem decodeExc_sret (env : Env δ) {s : Sys δ} (hinst : s.hs.inst = instSret)
    (hlen : s.hs.instLen = 32) (htsr : s.hs.csr.mstatus.getLsbD 22 = false) :
    decodeExc env s = (.noexc, retire true (execSret s)) := by
  rw [decodeExc_of_len32 env hlen, hinst]
  have hex : execute env (decode32 instSret) s = (.brk true, execSret s) := by
    change execSystem env (decode32 instSret) s = _
    simp only [execSystem, decode32_inst, htsr]
    rfl
  rw [hex]

/-- The end of the instruction changes nothing of this: not what is running, … -/
@[simp] theorem retire_runInfoM (s : Sys δ) : (retire true s).hs.runInfoM = s.hs.runInfoM := rfl

/-- … for either stack, … -/
@[simp] theorem retire_runInfoS (s : Sys δ) : (retire true s).hs.runInfoS = s.hs.runInfoS := rfl

/-- … and not what S-mode has saved. -/
@[simp] theorem retire_sretInfo (s : Sys δ) :
    (retire true s).hs.csr.sretInfo = s.hs.csr.sretInfo := rfl

/-- The hart is about to execute MRET. -/
def AtMret (s : Sys δ) : Prop := s.hs.inst = instMret ∧ s.hs.instLen = 32

/-- The hart is about to execute SRET, which TSR does not forbid. -/
def AtSret (s : Sys δ) : Prop :=
  s.hs.inst = instSret ∧ s.hs.instLen = 32 ∧ s.hs.csr.mstatus.getLsbD 22 = false

/-- MRET completes, resuming at what the last M-level trap saved and leaving
    the S-level state alone. -/
theorem mret_spec (env : Env δ) {s : Sys δ} (h : AtMret s) :
    (decodeExc env s).1 = .noexc ∧
    (decodeExc env s).2.hs.runInfoM = s.hs.csr.mretInfo.aligned ∧
    (decodeExc env s).2.hs.csr.sretInfo = s.hs.csr.sretInfo := by
  rw [decodeExc_mret env h.1 h.2]
  exact ⟨rfl, execMret_runInfoM s, execMret_sretInfo s⟩

/-- SRET completes, resuming at what the last S-level trap saved. -/
theorem sret_spec (env : Env δ) {s : Sys δ} (h : AtSret s) :
    (decodeExc env s).1 = .noexc ∧
    (decodeExc env s).2.hs.runInfoS = s.hs.csr.sretInfo.aligned := by
  rw [decodeExc_sret env h.1 h.2.1 h.2.2]
  exact ⟨rfl, execSret_runInfoS s⟩

/-- What `createException` saves for MRET when it traps to M-mode. -/
theorem createException_mretInfo {hs : HartState} {he : HartException} {tval : BitVec 64}
    (h : trapTarget hs he tval = some 3) :
    (createException hs he tval).2.csr.mretInfo = hs.runInfoM := by
  rw [trapTarget_eq_three h, trapToM_mretInfo]
  rfl

/-- An M-level trap keeps what is saved for SRET. -/
theorem createException_sretInfo_of_three {hs : HartState} {he : HartException}
    {tval : BitVec 64} (h : trapTarget hs he tval = some 3) :
    (createException hs he tval).2.csr.sretInfo = hs.csr.sretInfo := by
  rw [trapTarget_eq_three h, trapToM_sretInfo]

/-- What `createException` saves for SRET when it traps to S-mode. -/
theorem createException_sretInfo_of_one {hs : HartState} {he : HartException}
    {tval : BitVec 64} (h : trapTarget hs he tval = some 1) :
    (createException hs he tval).2.csr.sretInfo = hs.runInfoS := by
  obtain ⟨hpriv, heq⟩ := trapTarget_eq_one h
  rw [heq]
  exact trapToS_sretInfo he he.cause tval hpriv

/-- A trap followed by the return of its level resumes where it was taken, with
    the mode and the interrupt enable of that moment; and an S-level trap still
    does so when its handler is itself interrupted by an M-level trap. The
    handlers may do anything that keeps what their return restores. -/
theorem trap_return_nests (env : Env δ) (hs : HartState) (he : HartException) (tval : BitVec 64)
    (heven : hs.pc.getLsbD 0 = false) :
    (trapTarget hs he tval = some 3 → ∀ s : Sys δ, AtMret s →
      s.hs.csr.mretInfo = (createException hs he tval).2.csr.mretInfo →
      (decodeExc env s).1 = .noexc ∧ (decodeExc env s).2.hs.runInfoM = hs.runInfoM) ∧
    (trapTarget hs he tval = some 1 → ∀ s : Sys δ, AtSret s →
      s.hs.csr.sretInfo = (createException hs he tval).2.csr.sretInfo →
      (decodeExc env s).1 = .noexc ∧ (decodeExc env s).2.hs.runInfoS = hs.runInfoS) ∧
    (trapTarget hs he tval = some 1 →
      ∀ (h : HartState) (he' : HartException) (tval' : BitVec 64) (s₁ s₂ : Sys δ),
      -- somewhere in the S-level handler, an M-level trap
      h.csr.sretInfo = (createException hs he tval).2.csr.sretInfo →
      trapTarget h he' tval' = some 3 →
      -- whose handler ends in MRET
      AtMret s₁ → s₁.hs.csr.sretInfo = (createException h he' tval').2.csr.sretInfo →
      -- and then the end of the S-level handler
      AtSret s₂ → s₂.hs.csr.sretInfo = (decodeExc env s₁).2.hs.csr.sretInfo →
      (decodeExc env s₁).2.hs.csr.sretInfo = h.csr.sretInfo ∧
      (decodeExc env s₂).1 = .noexc ∧ (decodeExc env s₂).2.hs.runInfoS = hs.runInfoS) := by
  have hM : hs.runInfoM.aligned = hs.runInfoM := RetInfo.aligned_eq_self heven
  have hS : hs.runInfoS.aligned = hs.runInfoS := RetInfo.aligned_eq_self heven
  refine ⟨?_, ?_, ?_⟩
  · intro h3 s hs' hinfo
    have hret := mret_spec env hs'
    rw [hinfo, createException_mretInfo h3, hM] at hret
    exact ⟨hret.1, hret.2.1⟩
  · intro h1 s hs' hinfo
    have hret := sret_spec env hs'
    rw [hinfo, createException_sretInfo_of_one h1, hS] at hret
    exact hret
  · intro h1 h he' tval' s₁ s₂ hh h3 hm hs₁ hsr hs₂
    have hkeep : (decodeExc env s₁).2.hs.csr.sretInfo = h.csr.sretInfo := by
      rw [(mret_spec env hm).2.2, hs₁, createException_sretInfo_of_three h3]
    have hret := sret_spec env hsr
    rw [hs₂, hkeep, hh, createException_sretInfo_of_one h1, hS] at hret
    exact ⟨hkeep, hret⟩

/-- A hart in S-mode that delegates ECALLs from U- and S-mode. -/
private def delegatingHart : HartState :=
  let hs := resetState 0
  { hs with
    pc := 0x80000000
    privmode := 1
    csr := { hs.csr with medeleg := 0x300, mtvec := 0x80001000, stvec := 0x80002000 } }

/-- The machine of `hs` with the instruction `inst` fetched. -/
private def machineAt (hs : HartState) (inst : BitVec 32) : Sys Unit :=
  ⟨{ hs with inst := inst, instLen := 32 }, Bus.inert⟩

/-- A hart that delegates: a trap to M-mode, one to S-mode, and that one with a trap in its
    handler. -/
theorem trap_return_nests_delegating :
    let m := (createException delegatingHart .illinst 0).2
    let h := (createException delegatingHart .hsecall 0).2
    let hm := (createException h .lafault 0).2
    let s₁ := machineAt hm instMret
    let s₂ := machineAt (decodeExc Env.inert s₁).2.hs instSret
    (decodeExc Env.inert (machineAt m instMret)).2.hs.runInfoM = delegatingHart.runInfoM ∧
    (decodeExc Env.inert (machineAt h instSret)).2.hs.runInfoS = delegatingHart.runInfoS ∧
    (decodeExc Env.inert s₂).2.hs.runInfoS = delegatingHart.runInfoS := by
  intro m h hm s₁ s₂
  have he : delegatingHart.pc.getLsbD 0 = false := by decide +kernel
  have hM := (trap_return_nests Env.inert delegatingHart .illinst 0 he).1
  have hS := (trap_return_nests Env.inert delegatingHart .hsecall 0 he).2
  refine ⟨?_, ?_, ?_⟩
  · exact (hM (by decide +kernel) (machineAt m instMret) ⟨rfl, rfl⟩ (by decide +kernel)).2
  · exact (hS.1 (by decide +kernel) (machineAt h instSret)
      ⟨rfl, rfl, by decide +kernel⟩ (by decide +kernel)).2
  · exact (hS.2 (by decide +kernel) h .lafault 0 s₁ s₂ (by decide +kernel) (by decide +kernel)
      ⟨rfl, rfl⟩ (by decide +kernel) ⟨rfl, rfl, by decide +kernel⟩ (by decide +kernel)).2.2

end RvEmu
