import RvEmu.Spec.Run

/-!
# Privilege

The mode of a hart changes only by traps and by the return instructions. MRET
and SRET do not test the current mode, so that code in U- or S-mode can raise it
by a return; nothing else does.
-/

namespace RvEmu

variable {δ : Type}

/-- The hart is about to execute a return to a mode above its own. -/
def RaisesPrivilege (s : Sys δ) : Prop :=
  AtMret s ∧ s.hs.privmode < s.hs.csr.mretInfo.privmode ∨
  AtSret s ∧ s.hs.privmode < s.hs.csr.sretInfo.privmode

/-! ## The mode after an instruction -/

/-- A case of the switch traps, or keeps the mode. -/
def ModeKept (s : Sys δ) (r : Flow × Sys δ) : Prop :=
  (∃ he, r.1 = .ret he ∧ he ≠ .noexc) ∨ r.2.hs.privmode = s.hs.privmode

/-- An exception is not none. -/
theorem HartException.ne_noexc {he : HartException} (h : he.interrupt = false) : he ≠ .noexc := by
  rintro rfl
  cases h

/-- An instruction that keeps the control state keeps the mode. -/
theorem Outcome.modeKept {s : Sys δ} {r : Flow × Sys δ} (h : Outcome (SameControl s) r) :
    ModeKept s r := by
  cases h with
  | trap t he tval ht hexc =>
    refine .inl ⟨he, ?_, HartException.ne_noexc hexc⟩
    exact congrArg Flow.ret (createException_fst t tval hexc)
  | brk pcChgd t ht => exact .inr ht.privmode

/-- A write to a CSR keeps the mode, … -/
theorem CsrPtr.set_privmode (hs : HartState) (v : BitVec 64) (ptr : CsrPtr) :
    (CsrPtr.set hs v ptr).privmode = hs.privmode := by
  cases ptr <;> rfl

/-- … and so does the access behind the pointer, … -/
theorem execCsrPtr_modeKept (d : Decoded) (csrno : BitVec 12) (wvalue : BitVec 64) (s : Sys δ) :
    ModeKept s (execCsrPtr d csrno wvalue s) := by
  rcases execCsrPtr_cases d s csrno wvalue with h | ⟨t, hs, sstatus, sie, ht, h, hhs⟩
  · exact h.control.modeKept
  · rw [h]
    refine .inr ?_
    change (csrMirror hs (csrAlias csrno) sstatus sie).privmode = _
    rw [csrMirror_frame]
    rcases hhs with rfl | ⟨ptr, v, rfl, -⟩
    · exact ht.control.privmode
    · exact (CsrPtr.set_privmode t.hs v ptr).trans ht.control.privmode

/-- … that to `pmpcfg`, … -/
theorem pmpcfgRw_modeKept (env : Env δ) (s : Sys δ) (addr : BitVec 12) (rd : BitVec 5)
    (wvalue : BitVec 64) (funct : BitVec 2) :
    ModeKept s (trap (pmpcfgRw env s addr rd wvalue funct)) := by
  unfold pmpcfgRw
  split
  · exact (illinst_outcome (.refl s)).control.modeKept
  · exact .inr rfl

/-- … and a CSR instruction. -/
theorem execCsr_modeKept (env : Env δ) (d : Decoded) (s : Sys δ) :
    ModeKept s (execCsr env d s) := by
  rcases execCsr_cases env d s with h | ⟨-, -, t, ht, h⟩ | ⟨-, h⟩
  · exact h.control.modeKept
  · rw [h]
    have hkept := pmpcfgRw_modeKept env t d.csrno d.rd (d.csrOperand s.hs) (d.funct3.setWidth 2)
    exact hkept.imp_right fun hp => hp.trans ht.control.privmode
  · rw [h]
    exact execCsrPtr_modeKept d d.csrno _ s

/-- Without a trap the mode is that of before. -/
theorem finish_modeKept {s : Sys δ} {r : Flow × Sys δ} (h : ModeKept s r)
    (hexc : (finish r).1 = .noexc) : (finish r).2.hs.privmode = s.hs.privmode := by
  obtain ⟨f, u⟩ := r
  rcases h with ⟨he, hret, hne⟩ | hpriv
  · obtain rfl : f = .ret he := hret
    exact absurd hexc hne
  · cases f with
    | ret he => exact hpriv
    | brk pcChgd =>
      cases pcChgd with
      | false => exact hpriv
      | true => exact hpriv

/-- A `SYSTEM` instruction that is not C.EBREAK is a 32-bit one. -/
theorem Decodes.of_system {s : Sys δ} {d : Decoded} (h : Decodes s d) (hsys : d.opFun = .system)
    (hc : d.cebreak = false) : s.hs.instLen = 32 ∧ d.inst = s.hs.inst := by
  obtain ⟨hlen, rfl⟩ := h.len32 hsys hc
  exact ⟨hlen, decode32_inst _⟩

/-- An instruction that completes keeps the mode, unless it is a return. -/
theorem decodeExc_privmode (env : Env δ) {s : Sys δ} (hexc : (decodeExc env s).1 = .noexc) :
    (decodeExc env s).2.hs.privmode = s.hs.privmode ∨ AtMret s ∨ AtSret s := by
  rcases decodeExc_cases env s with ⟨t, tval, -, -, h⟩ | ⟨d, hd, h⟩
  · rw [h] at hexc
    exact absurd hexc (createException_raises t tval rfl)
  · rw [h] at hexc ⊢
    -- the mode is part of what the other instructions keep
    by_cases hsys : d.opFun = .system
    · rw [execute_system env hsys] at hexc ⊢
      rcases execSystem_cases env d (s.withInst d.inst s.hs.instLen) with
        hout | ⟨hmret, hc, -⟩ | ⟨hsret, hc, htsr, -⟩ | ⟨-, hcsr⟩
      · exact .inl (finish_modeKept hout.control.modeKept hexc)
      · obtain ⟨hlen, hinst⟩ := hd.of_system hsys hc
        exact .inr (.inl ⟨hinst ▸ hmret, hlen⟩)
      · obtain ⟨hlen, hinst⟩ := hd.of_system hsys hc
        exact .inr (.inr ⟨hinst ▸ hsret, hlen, htsr⟩)
      · rw [hcsr] at hexc ⊢
        exact .inl (finish_modeKept (execCsr_modeKept env d _) hexc)
    · exact .inl (finish_modeKept (execute_outcome env d _ hsys).modeKept hexc)

/-- The mode after MRET. -/
theorem mret_privmode (env : Env δ) {s : Sys δ} (h : AtMret s) :
    (decodeExc env s).2.hs.privmode = s.hs.csr.mretInfo.privmode :=
  congrArg RetInfo.privmode (mret_spec env h).2.1

/-- The mode after SRET. -/
theorem sret_privmode (env : Env δ) {s : Sys δ} (h : AtSret s) :
    (decodeExc env s).2.hs.privmode = s.hs.csr.sretInfo.privmode :=
  congrArg RetInfo.privmode (sret_spec env h).2

/-- An instruction that completes raises the mode just when it is a return to
    a higher one. -/
theorem decodeExc_privmode_le_iff (env : Env δ) (s : Sys δ) :
    ((decodeExc env s).1 = .noexc → (decodeExc env s).2.hs.privmode ≤ s.hs.privmode) ↔
      ¬ RaisesPrivilege s := by
  constructor
  · rintro h (⟨hm, hlt⟩ | ⟨hs, hlt⟩)
    · have hle := h (mret_spec env hm).1
      rw [mret_privmode env hm] at hle
      exact absurd hlt (BitVec.not_lt.mpr hle)
    · have hle := h (sret_spec env hs).1
      rw [sret_privmode env hs] at hle
      exact absurd hlt (BitVec.not_lt.mpr hle)
  · intro h hexc
    -- without a trap, only a return changes the mode
    rcases decodeExc_privmode env hexc with heq | hm | hs
    · exact BitVec.le_of_eq heq
    · rw [mret_privmode env hm]
      exact BitVec.not_lt.mp fun hlt => h (.inl ⟨hm, hlt⟩)
    · rw [sret_privmode env hs]
      exact BitVec.not_lt.mp fun hlt => h (.inr ⟨hs, hlt⟩)

/-! ## Runs without traps -/

/-- A step of a run in which nothing traps and no return raises the mode. -/
inductive UntrappedStep (env : Env δ) : Sys δ → Sys δ → Prop
  | cycle (t s : Sys δ) (hf : Fetches env t s) (hexc : (decodeExc env s).1 = .noexc)
    (hint : ¬ TakesInterrupt (decodeExc env s).2) (hraise : ¬ RaisesPrivilege s) :
    UntrappedStep env t (cycle env t).2
  | others (s : Sys δ) (bus : Bus δ) (mip : BitVec 64) (chkInt : Bool) :
    UntrappedStep env s ⟨{ s.hs with csr := { s.hs.csr with mip := mip }, chkInt := chkInt }, bus⟩

/-- A step without a trap does not raise the privilege, … -/
theorem UntrappedStep.privmode_le {env : Env δ} {s u : Sys δ} (h : UntrappedStep env s u) :
    u.hs.privmode ≤ s.hs.privmode := by
  cases h with
  | cycle t hf hexc hint hraise =>
    have hfetch : t.hs.privmode = s.hs.privmode := (fetch_sameControl hf.1).privmode
    rw [cycle_of_fetches hf, (cycleEnd_sameControl hint).privmode, ← hfetch]
    exact (decodeExc_privmode_le_iff env t).mpr hraise hexc
  | others => exact BitVec.le_refl _

/-- … and a run of such steps does not. -/
theorem privmode_le_of_untrapped {env : Env δ} {s u : Sys δ}
    (h : Relation.ReflTransGen (UntrappedStep env) s u) : u.hs.privmode ≤ s.hs.privmode := by
  induction h with
  | refl => exact BitVec.le_refl _
  | tail _ hstep ih => exact BitVec.le_trans hstep.privmode_le ih

/-- Below M-mode, an instruction that completes keeps the mode or lowers it just
    when it is not a return to a higher mode; and as long as nothing traps and
    there is no such return, no run gets to a higher mode. -/
theorem privmode_raised_iff (env : Env δ) :
    (∀ s, Executes env s → s.hs.privmode < 3 →
      (((decodeExc env s).1 = .noexc → (decodeExc env s).2.hs.privmode ≤ s.hs.privmode) ↔
        ¬ RaisesPrivilege s)) ∧
    ∀ s u, Reachable env s → Relation.ReflTransGen (UntrappedStep env) s u →
      u.hs.privmode ≤ s.hs.privmode :=
  ⟨fun s _ _ => decodeExc_privmode_le_iff env s, fun _ _ _ h => privmode_le_of_untrapped h⟩

/-- M-mode code that sets SPP and returns to U-mode, where SRET follows. -/
private def sretProgram : List (BitVec 32) := [
  0x3A002073, -- csrrs x0, pmpcfg0, x0
  0x01840293, -- addi x5, x8, 0x18
  0x34129073, -- csrrw x0, mepc, x5
  0x10000313, -- addi x6, x0, 0x100
  0x30031073, -- csrrw x0, mstatus, x6
  instMret,
  instSret]

/-- Three instructions of the boot ROM and six of the program have run. -/
private def atUserSret : Sys Unit := fetchedAfter Env.inert 9 (boot sretProgram)

/-- SRET in U-mode is reached from the start. -/
private theorem atUserSret_executes : Executes Env.inert atUserSret :=
  executes_fetchedAfter rfl 0 (programBus sretProgram) 9 (by decide +kernel)

/-- SRET in U-mode does not keep the mode, as it raises privilege. -/
theorem privmode_raised_sret :
    ¬ ((decodeExc Env.inert atUserSret).1 = .noexc →
      (decodeExc Env.inert atUserSret).2.hs.privmode ≤ atUserSret.hs.privmode) := by
  have hiff := (privmode_raised_iff Env.inert).1 atUserSret atUserSret_executes (by decide +kernel)
  have hraise : RaisesPrivilege atUserSret :=
    .inr ⟨⟨by decide +kernel, by decide +kernel, by decide +kernel⟩, by decide +kernel⟩
  exact fun h => hiff.mp h hraise

/-- A run in which an instruction raises the mode without a trap. -/
theorem sret_raises_privmode :
    ¬ ∀ s, Executes Env.inert s → s.hs.privmode < 3 → (decodeExc Env.inert s).1 = .noexc →
      (decodeExc Env.inert s).2.hs.privmode ≤ s.hs.privmode := by
  intro h
  have hle := h atUserSret atUserSret_executes (by decide +kernel) (by decide +kernel)
  exact absurd hle (by decide +kernel)

end RvEmu
