import RvEmu.Spec.FaultFlags
import RvEmu.Spec.Mprv
import RvEmu.Spec.Mstatus

/-!
# The supported modes

The hart has the modes U, S and M; mode 2 is reserved. MRET and the accesses under MPRV take
their mode from MPP, and the fix-up of `mstatus` leaves MPP as it was written. So the mode is
a supported one for as long as no CSR instruction writes the reserved value to MPP.

## Key results

- `decodeExc_modeLegal_iff`: an instruction keeps the mode and MPP legal unless it is such a
  write
- `privmode_supported_iff`: without them, the mode is supported in every run, and at every
  moment of its memory accesses
-/

namespace RvEmu

open Isa (CsrOp)

variable {δ : Type}

/-- Neither the mode nor MPP has the reserved value. -/
def ModeLegal (mode : BitVec 2 × BitVec 64) : Prop := mode.1 ≠ 2 ∧ mstatusMpp mode.2 ≠ 2

instance instDecidableModeLegal (mode : BitVec 2 × BitVec 64) : Decidable (ModeLegal mode) :=
  inferInstanceAs (Decidable (_ ∧ _))

/-! ## Traps and returns -/

/-- MPP is bits 12:11. -/
theorem mstatusMpp_congr {x y : BitVec 64} (h : x &&& 0x1800 = y &&& 0x1800) :
    mstatusMpp x = mstatusMpp y := by
  have hmask (v : BitVec 64) : mstatusMpp (v &&& 0x1800) = mstatusMpp v := by
    apply BitVec.eq_of_getLsbD_eq
    intro i hi
    have hcases : i = 0 ∨ i = 1 := by omega
    rcases hcases with rfl | rfl <;> simp [mstatusMpp]
  rw [← hmask x, h, hmask]

/-- MRET leaves U in MPP. -/
theorem execMret_mpp (s : Sys δ) : mstatusMpp (execMret s).hs.csr.mstatus = 0 := by
  have hclear (x : BitVec 64) : mstatusMpp (x &&& ~~~(0b11#64 <<< 11)) = 0 := by
    have hzero : x &&& ~~~(0b11#64 <<< 11) &&& 0x1800 = 0 &&& 0x1800 :=
      (BitVec.and_not_and_self x 0x1800).trans BitVec.zero_and.symm
    exact mstatusMpp_congr hzero
  simp only [execMret, Sys.setHs]
  split
  · rw [mstatusMpp_congr (BitVec.and_not_and_of_disjoint (by decide) _)]
    exact hclear _
  · exact hclear _

/-- A trap to S-mode keeps MPP, and one to M-mode saves the mode in it. MRET takes the mode
    from MPP, and SRET from the one bit of SPP. -/
theorem modeLegal_invariant : ModeInvariant ModeLegal where
  trapToS hs he cause tval _ h := by
    have hmpp : mstatusMpp (trapToS hs he cause tval).csr.mstatus = mstatusMpp hs.csr.mstatus :=
      mstatusMpp_congr (trapToS_mstatus_and hs he cause tval (by decide))
    have hmode : (1 : BitVec 2) ≠ 2 := by decide
    exact ⟨hmode, fun heq => h.2 (hmpp.symm.trans heq)⟩
  trapToM hs he cause tval h := by
    have hmpp : mstatusMpp (trapToM hs he cause tval).csr.mstatus = hs.privmode :=
      congrArg RetInfo.privmode (trapToM_mretInfo hs he cause tval)
    have hmode : (3 : BitVec 2) ≠ 2 := by decide
    exact ⟨hmode, fun heq => h.1 (hmpp.symm.trans heq)⟩
  mret s h := by
    have hmode : (execMret s).hs.privmode = mstatusMpp s.hs.csr.mstatus :=
      congrArg RetInfo.privmode (execMret_runInfoM s)
    have hmpp : (0 : BitVec 2) ≠ 2 := by decide
    exact ⟨fun heq => h.2 (hmode.symm.trans heq), fun heq => hmpp ((execMret_mpp s).symm.trans heq)⟩
  sret s h := by
    have hmpp : mstatusMpp (execSret s).hs.csr.mstatus = mstatusMpp s.hs.csr.mstatus :=
      mstatusMpp_congr (execSret_mstatus_and s (by decide))
    have hmode : (execSret s).hs.privmode = (s.hs.csr.mstatus.extractLsb' 8 1).setWidth 2 :=
      congrArg RetInfo.privmode (execSret_runInfoS s)
    have hspp (b : BitVec 1) : b.setWidth 2 ≠ 2#2 := by
      revert b
      decide
    exact ⟨fun heq => hspp _ (hmode.symm.trans heq), fun heq => h.2 (hmpp.symm.trans heq)⟩

/-! ## Writes of the reserved value -/

/-- A CSR instruction on `mstatus`, under either number, whose result has the reserved value
    in MPP. -/
structure ReservedMppWrite (s : Sys δ) : Prop where
  access : AccessesMstatus s
  reserved : ∃ op : CsrOp, (decode32 s.hs.inst).funct3 = op.funct3 ∧
    mstatusMpp (op.result s.hs.csr.mstatus ((decode32 s.hs.inst).csrOperand s.hs)
      (decode32 s.hs.inst).rs1) = 2

/-- The fix-up leaves MPP alone. -/
theorem mstatusMpp_fixed (v : BitVec 64) : mstatusMpp (mstatusFixed v) = mstatusMpp v := by
  refine mstatusMpp_congr ?_
  unfold mstatusFixed
  rw [BitVec.or_and_of_disjoint (by decide), BitVec.and_not_and_of_disjoint (by decide),
    BitVec.and_not_and_of_disjoint (by decide)]

/-- An instruction keeps the mode and MPP legal, unless it is such a write. -/
theorem decodeExc_modeLegal_iff (env : Env δ) {s : Sys δ} (h : ModeLegal s.hs.mode) :
    ModeLegal (decodeExc env s).2.hs.mode ↔ ¬ ReservedMppWrite s := by
  by_cases ha : AccessesMstatus s
  -- MPP is then what the instruction writes, and the mode stays
  · let d := decode32 s.hs.inst
    have hold : ¬ mstatusMpp s.hs.csr.mstatus = 2 := h.2
    have hwrite : ReservedMppWrite s ↔ mstatusMpp (d.mstatusAfter s.hs) = 2 := by
      rw [Decoded.mstatusAfter, mstatusMpp_fixed,
        csrWritten_iff d (Q := fun v => mstatusMpp v = 2) hold]
      exact ⟨fun hw => hw.reserved, fun hw => ⟨ha, hw⟩⟩
    rw [decodeExc_mode env ha, hwrite]
    exact ⟨fun hlegal => hlegal.2, fun hmpp => ⟨h.1, hmpp⟩⟩
  · exact iff_of_true (modeLegal_invariant.decodeExc env ha h) fun hw => ha hw.access

/-! ## Memory accesses -/

section Moments

variable (env : Env δ)

/-- What a memory operation checks, it checks in a supported mode. -/
theorem MemOp.checks_privmode {s : Sys δ} (h : ModeLegal s.hs.mode) (op : MemOp) {c : Check δ}
    (hc : c ∈ op.checks env s) : c.state.hs.privmode ≠ 2 := by
  have hvirt {w : Width} {isWrite : Bool} {va : BitVec 64}
      (hc : c ∈ virtChecks env w isWrite s va) : c.state.hs.privmode ≠ 2 := by
    unfold virtChecks at hc
    split at hc
    · rw [accessChecks_privmode env w isWrite hc]
      exact h.2
    · split at hc
      · rw [List.mem_singleton.mp hc]
        exact h.1
      · rw [accessChecks_privmode env w isWrite hc]
        exact h.1
  cases op with
  | fetch w va => exact hvirt hc
  | store w va data => exact hvirt hc
  | walk va isWrite =>
    rw [(walkLoopChecks_frame env isWrite c hc).privmode]
    exact h.1

/-- An access stays within its frame. -/
theorem MemOp.run_frame (s : Sys δ) (op : MemOp) : MemFrame s (op.run env s) := by
  cases op with
  | fetch w va => exact virtMemFetch_frame env s w va
  | store w va data => exact virtMemStore_frame env s w va data
  | walk va isWrite => exact pageTableWalk_frame env s va isWrite

/-- The moments of a memory operation: its start, its checks, and the test of the flags
    behind it. -/
def MemSite.moments (x : MemSite δ) : List (Sys δ) :=
  x.before :: x.after :: (x.op.elim [] fun op => (op.checks env x.before).map Check.state)

/-- The moments of the memory operations of a cycle. -/
def cycleMoments (s : Sys δ) : List (Sys δ) := (cycleSites env s).flatMap (MemSite.moments env)

/-- The operation of a site is made with the control state of `s`. -/
structure MemSite.Within (s : Sys δ) (x : MemSite δ) : Prop where
  before : SameControl s x.before
  after : SameControl s x.after

variable {env} {s : Sys δ}

/-- At every moment of an access that starts in a supported mode, the mode is supported. -/
theorem MemSite.Within.moments {x : MemSite δ} (hx : x.Within s) (h : ModeLegal s.hs.mode)
    {t : Sys δ} (ht : t ∈ x.moments env) : t.hs.privmode ≠ 2 := by
  rcases List.mem_cons.mp ht with rfl | ht
  · rw [hx.before.privmode]
    exact h.1
  · rcases List.mem_cons.mp ht with rfl | ht
    · rw [hx.after.privmode]
      exact h.1
    · have hlegal : ModeLegal x.before.hs.mode := hx.before.mode.symm ▸ h
      cases hop : x.op with
      | none =>
        rw [hop] at ht
        cases ht
      | some op =>
        rw [hop] at ht
        obtain ⟨c, hc, rfl⟩ := List.mem_map.mp ht
        exact op.checks_privmode env hlegal hc

/-! Where the operations of a cycle are made -/

/-- An access from a state with the control of the start. -/
theorem within_of_frame {op : MemOp} {before after : Sys δ} {o : Option MemOp} {kind : Access}
    {tval : BitVec 64} (hbefore : SameControl s before)
    (hafter : SameControl (op.run env before) after) :
    MemSite.Within s ⟨before, o, after, kind, tval⟩ :=
  ⟨hbefore, (hbefore.trans (op.run_frame env before).sameControl).trans hafter⟩

section Instruction

variable (env) (d : Decoded) (s)

/-- The accesses of an SC start there, … -/
theorem scSites_within : ∀ x ∈ scSites env d s, x.Within s := by
  have hfirst : (scWalkSite env d s).Within s := within_of_frame (.refl s) (.refl _)
  have hsecond : (scStoreSite env d (scWalkSite env d s).after (s.hs.regs d.rs1)).Within s :=
    within_of_frame (hfirst.after) (.refl _)
  unfold scSites
  dsimp only
  split
  · exact List.forall_mem_cons.mpr ⟨hfirst, List.forall_mem_singleton.mpr hsecond⟩
  · exact List.forall_mem_singleton.mpr hfirst

/-- … those of an LR or AMO, … -/
theorem amoSites_within : ∀ x ∈ amoSites env d s, x.Within s := by
  have hstart : SameControl s (s.setMemStatus true) := .refl s
  have hafter : SameControl (s.setMemStatus true) (amoLoadSite env d s).after :=
    ((MemOp.fetch (amoWidth d) (s.hs.regs d.rs1)).run_frame env _).sameControl
  have hfirst : (amoLoadSite env d s).Within s := ⟨hstart, hstart.trans hafter⟩
  unfold amoSites
  extract_lets x u y
  have hu : SameControl s u := hfirst.after
  have hsecond : y.Within s := by
    show MemSite.Within s (if d.funct7.extractLsb' 2 5 = 0b00010 then lrSite env d u else _)
    split
    · exact within_of_frame hu (.refl _)
    · exact within_of_frame hu (.refl _)
  split
  · exact List.forall_mem_cons.mpr ⟨hfirst, List.forall_mem_singleton.mpr hsecond⟩
  · exact List.forall_mem_singleton.mpr hfirst

/-- … and those of any instruction. -/
theorem memSites_within : ∀ x ∈ memSites env d s, x.Within s := by
  unfold memSites
  split
  · exact List.forall_mem_singleton.mpr (within_of_frame (.refl s) (.refl _))
  · refine List.forall_mem_singleton.mpr ?_
    unfold storeSite
    dsimp only
    split
    · exact ⟨.refl s, .refl s⟩
    · exact within_of_frame (.refl s) (.refl _)
  · split
    · exact scSites_within env s d
    · exact amoSites_within env s d
  · exact fun x hx => absurd hx List.not_mem_nil

end Instruction

/-- The start may be one with the same control. -/
theorem MemSite.Within.of_control {u : Sys δ} {x : MemSite δ} (hx : x.Within u)
    (h : SameControl s u) : x.Within s := ⟨h.trans hx.before, h.trans hx.after⟩

/-- The accesses of an instruction start where it was fetched, … -/
theorem instSites_within {x : MemSite δ} (hx : x ∈ instSites env s) : x.Within s := by
  rcases decodeExc_sites env s with ⟨-, -, -, -, hsites⟩ | ⟨d, -, hsites⟩ <;> rw [hsites] at hx
  · cases hx
  · exact (memSites_within env (s.withInst d.inst s.hs.instLen) d x hx).of_control (.refl s)

/-- … that of the fetch where the cycle starts, … -/
theorem fetchSites_within {x : MemSite δ} (hx : x ∈ fetchSites env s) : x.Within s := by
  have hinst := fetchInst_sameControl env s
  have hfirst : (fetchSite env s).Within s := ⟨.refl s, hinst⟩
  simp only [fetchSites] at hx
  split at hx
  · next hpass =>
    have hlen : SameControl (fetchInst env s) (fetchLength (fetchInst env s)).2 :=
      fetchLength_sameControl (Prod.ext hpass.2 rfl)
    rcases List.mem_cons.mp hx with rfl | hx
    · exact hfirst
    · rw [List.mem_singleton.mp hx]
      exact ⟨hinst.trans hlen, hinst.trans hlen⟩
  · rw [List.mem_singleton.mp hx]
    exact hfirst

/-- … and so all of them where the cycle starts. -/
theorem cycleSites_within {x : MemSite δ} (hx : x ∈ cycleSites env s) : x.Within s := by
  have hreg : SameControl s (s.setReg 0 0) := .refl s
  unfold cycleSites at hx
  rcases List.mem_append.mp hx with hx | hx
  · exact (fetchSites_within hx).of_control hreg
  · split at hx
    · cases hx
    · next hgo =>
      have hexc : (fetch env (s.setReg 0 0)).1 = .noexc := not_not.mp fun hne => hgo (.inr hne)
      have hfetch : SameControl (s.setReg 0 0) (fetch env (s.setReg 0 0)).2 :=
        fetch_sameControl (Prod.ext hexc rfl)
      exact (instSites_within hx).of_control (hreg.trans hfetch)

/-- From a legal state, a cycle accesses memory in supported modes only. -/
theorem cycleMoments_privmode (h : ModeLegal s.hs.mode) {t : Sys δ}
    (ht : t ∈ cycleMoments env s) : t.hs.privmode ≠ 2 := by
  obtain ⟨x, hx, ht⟩ := List.mem_flatMap.mp ht
  exact (cycleSites_within hx).moments h ht

end Moments

/-! ## Runs -/

/-- A step of a run without writes of the reserved value. -/
inductive SupportedStep (env : Env δ) : Sys δ → Sys δ → Prop
  | cycle (t : Sys δ) (h : (cycle env t).1 = true)
    (hw : ∀ s, Fetches env t s → ¬ ReservedMppWrite s) : SupportedStep env t (cycle env t).2
  | others (s : Sys δ) (bus : Bus δ) (mip : BitVec 64) (chkInt : Bool) :
    SupportedStep env s
      ⟨{ s.hs with csr := { s.hs.csr with mip := mip }, chkInt := chkInt }, bus⟩

/-- A step that meets the condition keeps the modes supported. -/
theorem SupportedStep.modeLegal {env : Env δ} {s t : Sys δ} (h : SupportedStep env s t)
    (hs : ModeLegal s.hs.mode) : ModeLegal t.hs.mode := by
  cases h with
  | cycle _ hw =>
    refine modeLegal_invariant.cycle env (fun t hf ha ht => ?_) hs
    rw [← decodeExc_mode env ha]
    exact (decodeExc_modeLegal_iff env ht).mpr (hw t hf)
  | others _ _ _ => exact hs

/-- An instruction executed in a supported mode, with a supported mode in MPP, keeps both
    unless it writes the reserved value to MPP. In every run from reset without such writes
    the mode is a supported one, and so it is at every moment of a memory access. -/
theorem privmode_supported_iff (env : Env δ) :
    (∀ s, Executes env s → ModeLegal s.hs.mode →
      (ModeLegal (decodeExc env s).2.hs.mode ↔ ¬ ReservedMppWrite s)) ∧
    ∀ hartid pc regs bus s, Relation.ReflTransGen (SupportedStep env)
        ⟨{ resetState hartid with pc := pc, regs := regs }, bus⟩ s →
      s.hs.privmode ≠ 2 ∧ ∀ t ∈ cycleMoments env s, t.hs.privmode ≠ 2 := by
  refine ⟨fun s _ hs => decodeExc_modeLegal_iff env hs, fun hartid pc regs bus s hrun => ?_⟩
  have hstart : ModeLegal (3, mstatusReset) := by decide
  have hlegal : ModeLegal s.hs.mode :=
    holds_of_run (P := fun t => ModeLegal t.hs.mode) (fun _ _ hstep ht => hstep.modeLegal ht)
      hrun hstart
  exact ⟨hlegal.1, fun t ht => cycleMoments_privmode hlegal ht⟩

/-- A return with the MPP of reset. -/
private def atReturn : Sys Unit := fetchedAfter Env.inert 3 (boot [instMret])

/-- An MRET to a supported mode. -/
theorem privmode_supported_return : ModeLegal (decodeExc Env.inert atReturn).2.hs.mode := by
  have hrun : Executes Env.inert atReturn :=
    executes_fetchedAfter rfl 0 (programBus [instMret]) 3 (by decide +kernel)
  refine ((privmode_supported_iff Env.inert).1 atReturn hrun (by decide +kernel)).mpr fun h => ?_
  -- MRET has neither of the two numbers in its immediate
  rcases h.access.number with ⟨hn, -⟩ | ⟨hn, -⟩
  · exact absurd hn (by decide +kernel)
  · exact absurd hn (by decide +kernel)

/-- M-mode writes the reserved value to MPP, and returns. -/
private def reservedProgram : List (BitVec 32) := [
  0x00001337, -- lui x6, 1
  csrWord 0x300 .csrrw 0 6,
  instMret]

/-- The mode is the reserved one after MRET. -/
theorem privmode_reserved_after_mret :
    ¬ ∀ s : Sys Unit, ReachableFromReset Env.inert s → s.hs.privmode ≠ 2 := by
  intro h
  have hrun : Reachable Env.inert (runCycles Env.inert 6 (boot reservedProgram)) :=
    reachable_runCycles rfl 0 (programBus reservedProgram) 6
  exact h _ hrun.fromReset (by decide +kernel)

end RvEmu
