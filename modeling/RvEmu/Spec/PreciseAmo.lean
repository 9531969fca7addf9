import RvEmu.Spec.FinalAddress
import RvEmu.Spec.Precise

/-!
# Traps of the A extension

LR and the AMOs commit `rd` after their first access, whether it faults or not. Their traps
are precise only if `rd` held before what the access leaves there.
-/

namespace RvEmu

variable {δ : Type}

section Amo

variable (env : Env δ) (d : Decoded) (s : Sys δ)

/-- The first access of an LR or AMO. -/
def amoAccess : BitVec 64 × Sys δ :=
  virtMemFetch env (amoWidth d) (s.setMemStatus true) (s.hs.regs d.rs1)

/-- What the first access leaves in `rd`, whether it faults or not. -/
def amoLoaded : BitVec 64 :=
  if AccessOk (amoAccess env d s).2 then amoSigned d (amoAccess env d s).1
  else (amoAccess env d s).1

/-- SC traps before it has changed a register. -/
theorem execSc_traps :
    Ends (fun _ tval t => t.hs.regs = s.hs.regs ∧ tval = s.hs.regs d.rs1) (fun _ _ => True)
      (execSc env d s) := by
  have hwalk := (pageTableWalk_frame env s (s.hs.regs d.rs1) true).regs
  unfold execSc
  dsimp only
  generalize pageTableWalk env s (s.hs.regs d.rs1) true = r at hwalk
  -- the walk may fault, and then the store behind a matching reservation
  split
  · next t ht => exact ends_memError ht ⟨hwalk, rfl⟩ ⟨hwalk, rfl⟩ rfl rfl
  · split
    · generalize hu : virtMemStore env (amoWidth d) _ _ _ = u
      have hstore : u.hs.regs = s.hs.regs := by
        rw [← hu]
        exact (virtMemStore_frame env _ _ _ _).regs.trans hwalk
      split
      · next t ht => exact ends_memError ht ⟨hstore, rfl⟩ ⟨hstore, rfl⟩ rfl rfl
      · exact .brk false _ trivial
    · exact .brk false _ trivial

/-- LR traps with the address that the load has left in `rs1`. -/
theorem execLrReserve_traps :
    Ends (fun _ tval t => t.hs.regs = s.hs.regs ∧ tval = s.hs.regs d.rs1) (fun _ _ => True)
      (execLrReserve env d s) := by
  have hwalk := (pageTableWalk_frame env (s.setMemStatus true) (s.hs.regs d.rs1) false).regs
  unfold execLrReserve
  dsimp only
  split
  · next t ht =>
    have hrs1 := congrFun hwalk d.rs1
    exact ends_memError ht ⟨hwalk, hrs1⟩ ⟨hwalk, hrs1⟩ rfl rfl
  · exact .brk false _ trivial

/-- The store of an AMO traps with the address of the load. -/
theorem execAmoWrite_traps (funct5 : BitVec 5) (opAddr src usrc : BitVec 64) :
    Ends (fun _ tval t => t.hs.regs = s.hs.regs ∧ tval = opAddr) (fun _ _ => True)
      (execAmoWrite env d funct5 opAddr src usrc s) := by
  unfold execAmoWrite
  dsimp only
  generalize amoValue funct5 _ src _ usrc = v
  have hstore := (virtMemStore_frame env (s.setMemStatus false) (amoWidth d) opAddr v).regs
  split
  · next t ht => exact ends_memError ht ⟨hstore, rfl⟩ ⟨hstore, rfl⟩ rfl rfl
  · exact .brk false _ trivial

/-- An LR whose load has succeeded traps with the address that is then in `rs1`. -/
def LateAddress (tval : BitVec 64) (t : Sys δ) : Prop :=
  tval = if d.funct5 = 0b00010 ∧ AccessOk (amoAccess env d s).2 then t.hs.regs d.rs1
    else s.hs.regs d.rs1

/-- LR and AMO have committed `rd` when they trap. -/
theorem execAmo_traps (hsc : d.funct5 ≠ 0b00011) :
    Ends (fun _ tval t => t.hs.regs = Function.update s.hs.regs d.rd (amoLoaded env d s) ∧
      LateAddress env d s tval t) (fun _ _ => True) (execAmo env d s) := by
  have hregs : (amoAccess env d s).2.hs.regs = s.hs.regs :=
    (virtMemFetch_frame env (s.setMemStatus true) (amoWidth d) (s.hs.regs d.rs1)).regs
  unfold execAmo
  dsimp only
  rw [if_neg (show ¬ d.funct7.extractLsb' 2 5 = 0b00011 from hsc)]
  rw [show virtMemFetch env (amoWidth d) (s.setMemStatus true) (s.hs.regs d.rs1) =
    amoAccess env d s from rfl]
  split
  · next t ht =>
    -- the load has gone to `rd` although it has faulted
    have hfault : ¬ AccessOk (amoAccess env d s).2 :=
      @handleMemError_some δ _ _ _ ((amoAccess env d s).2.setReg d.rd (amoAccess env d s).1) _ ht
    have hset : ((amoAccess env d s).2.setReg d.rd (amoAccess env d s).1).hs.regs =
        Function.update s.hs.regs d.rd (amoLoaded env d s) := by
      rw [amoLoaded, if_neg hfault, ← hregs]
      rfl
    have hlate (t : Sys δ) : LateAddress env d s (s.hs.regs d.rs1) t :=
      (if_neg fun h => hfault h.2).symm
    exact ends_memError ht ⟨hset, hlate _⟩ ⟨hset, hlate _⟩ rfl rfl
  · next hnone =>
    have hok : AccessOk (amoAccess env d s).2 :=
      @handleMemError_none δ _ _ _ ((amoAccess env d s).2.setReg d.rd (amoAccess env d s).1) hnone
    -- behind a load that has not, `rd` holds the signed value
    generalize hu : ((amoAccess env d s).2.setReg d.rd (amoAccess env d s).1).setReg d.rd _ = u
    have hset : u.hs.regs = Function.update s.hs.regs d.rd (amoLoaded env d s) := by
      rw [← hu, amoLoaded, if_pos hok, ← hregs]
      simp only [Sys.setReg, Function.update_self, Function.update_idem]
    split
    · next hlr =>
      refine (execLrReserve_traps env d u).mono (fun _ tval t ht => ?_) fun _ _ _ => trivial
      have hlate : LateAddress env d s (t.hs.regs d.rs1) t := (if_pos ⟨hlr, hok⟩).symm
      rw [ht.2, ← congrFun ht.1 d.rs1]
      exact ⟨ht.1.trans hset, hlate⟩
    · next hlr =>
      refine (execAmoWrite_traps env d u _ _ _ _).mono (fun _ tval t ht => ?_) fun _ _ _ => trivial
      have hlate : LateAddress env d s (s.hs.regs d.rs1) t := (if_neg fun h => hlr h.1).symm
      rw [ht.2]
      exact ⟨ht.1.trans hset, hlate⟩

/-- The trap leaves the registers alone, but for `x0`, which is zeroed before the next
    instruction, and records the address that was in `rs1`. -/
structure AmoPrecise (u : HartState) : Prop where
  regs : ∀ r, r ≠ 0 → u.regs r = s.hs.regs r
  xtval : u.xtval = s.hs.regs d.rs1

/-- The instruction loses a register or its address: the first access is refused, and `rd` does
    not hold zero; or it is granted at `p`, and the word there differs from what is in `rd`,
    which is not `x0` or holds the address of an LR. -/
inductive Clobbers : Prop
  | refused (hno : ¬ ∃ p m, Granted env (amoWidth d) (s.setMemStatus true) (s.hs.regs d.rs1) p m)
    (hrd : d.rd ≠ 0) (hne : s.hs.regs d.rd ≠ 0)
  | loaded (p : BitVec 64) (m : BitVec 64 → BitVec 8)
    (hgranted : Granted env (amoWidth d) (s.setMemStatus true) (s.hs.regs d.rs1) p m)
    (hrd : d.rd ≠ 0 ∨ (d.funct5 = 0b00010 ∧ d.rs1 = d.rd))
    (hne : s.hs.regs d.rd ≠
      amoSigned d (finalWord env (amoWidth d) (s.setMemStatus true) (s.hs.regs d.rs1) p m))

variable {env d s}

/-- The value in `rd` behind a granted access is the word at its address. -/
theorem Granted.amoLoaded {p : BitVec 64} {m : BitVec 64 → BitVec 8}
    (hfault : s.hs.pageFault = false)
    (h : Granted env (amoWidth d) (s.setMemStatus true) (s.hs.regs d.rs1) p m) :
    AccessOk (amoAccess env d s).2 ∧ amoLoaded env d s =
      amoSigned d (finalWord env (amoWidth d) (s.setMemStatus true) (s.hs.regs d.rs1) p m) := by
  have hok : AccessOk (amoAccess env d s).2 :=
    (virtMemFetch_ok_granted (by exact hfault)).mpr ⟨p, m, h⟩
  refine ⟨hok, ?_⟩
  rw [RvEmu.amoLoaded, if_pos hok, amoAccess, h.value (by exact hfault)]

/-- Behind a refused access `rd` holds zero. -/
theorem amoLoaded_refused (hfault : s.hs.pageFault = false)
    (h : ¬ ∃ p m, Granted env (amoWidth d) (s.setMemStatus true) (s.hs.regs d.rs1) p m) :
    ¬ AccessOk (amoAccess env d s).2 ∧ amoLoaded env d s = 0 := by
  have hno : ¬ AccessOk (amoAccess env d s).2 :=
    fun hok => h ((virtMemFetch_ok_granted (by exact hfault)).mp hok)
  refine ⟨hno, ?_⟩
  rw [RvEmu.amoLoaded, if_neg hno, amoAccess, virtMemFetch_refused (by exact hfault) h]

/-- Where nothing is lost, the first access leaves in `rd` what was there, unless `rd` is `x0`
    and does not hold the address of an LR. -/
theorem amoLoaded_of_not_clobbers (hfault : s.hs.pageFault = false) (hno : ¬ Clobbers env d s)
    (hr : d.rd ≠ 0 ∨
      (d.funct5 = 0b00010 ∧ d.rs1 = d.rd ∧ AccessOk (amoAccess env d s).2)) :
    amoLoaded env d s = s.hs.regs d.rd := by
  by_contra hne
  by_cases hg : ∃ p m, Granted env (amoWidth d) (s.setMemStatus true) (s.hs.regs d.rs1) p m
  · obtain ⟨p, m, hg⟩ := hg
    rw [(hg.amoLoaded hfault).2] at hne
    exact hno (.loaded p m hg (hr.imp_right fun h => ⟨h.1, h.2.1⟩) (Ne.symm hne))
  · obtain ⟨hbad, hzero⟩ := amoLoaded_refused hfault hg
    rw [hzero] at hne
    rcases hr with hr | ⟨-, -, hok⟩
    · exact hno (.refused hg hr (Ne.symm hne))
    · exact hbad hok

/-- A trap with `rd` committed is precise where nothing is lost. -/
theorem amoPrecise_iff (hfault : s.hs.pageFault = false) {t : Sys δ} {tval : BitVec 64}
    (hregs : t.hs.regs = Function.update s.hs.regs d.rd (amoLoaded env d s))
    (htval : LateAddress env d s tval t) {u : HartState} (hu : u.regs = t.hs.regs)
    (hx : u.xtval = tval) : AmoPrecise d s u ↔ ¬ Clobbers env d s := by
  have hrd : u.regs d.rd = amoLoaded env d s := by
    rw [hu, hregs]
    exact Function.update_self ..
  have hkept {r : BitVec 5} (hr : r ≠ d.rd) : u.regs r = s.hs.regs r := by
    rw [hu, hregs]
    exact Function.update_of_ne hr ..
  unfold LateAddress at htval
  rw [← hx, ← hu] at htval
  constructor
  · intro h hc
    cases hc with
    | refused hno hr hne =>
      rw [(amoLoaded_refused hfault hno).2] at hrd
      exact hne ((h.regs d.rd hr).symm.trans hrd)
    | loaded p m hgranted hr hne =>
      obtain ⟨hok, hvalue⟩ := hgranted.amoLoaded hfault
      rw [hvalue] at hrd
      rcases hr with hr | ⟨hlr, hsame⟩
      · exact hne ((h.regs d.rd hr).symm.trans hrd)
      · rw [if_pos ⟨hlr, hok⟩, h.xtval, hsame] at htval
        exact hne (htval.trans hrd)
  · intro hno
    refine ⟨fun r hr => ?_, ?_⟩
    · by_cases heq : r = d.rd
      · rw [heq] at hr ⊢
        exact hrd.trans (amoLoaded_of_not_clobbers hfault hno (.inl hr))
      · exact hkept heq
    · rw [htval]
      split
      · next hlate =>
        -- an LR records what is then in `rs1`
        by_cases heq : d.rs1 = d.rd
        · rw [heq]
          exact hrd.trans (amoLoaded_of_not_clobbers hfault hno (.inr ⟨hlate.1, heq, hlate.2⟩))
        · exact hkept heq
      · rfl

/-- The first access does not see the instruction word. -/
theorem amoAccess_withInst (inst : BitVec 32) (len : BitVec 8) :
    amoAccess env d (s.withInst inst len) = mapInst inst len (amoAccess env d s) :=
  virtMemFetch_withInst env (s.setMemStatus true) inst len (amoWidth d) (s.hs.regs d.rs1)

/-- What it leaves in `rd` and the recorded address do not depend on that word either. -/
theorem amoLoaded_withInst (inst : BitVec 32) (len : BitVec 8) :
    amoLoaded env d (s.withInst inst len) = amoLoaded env d s ∧
      ∀ tval t, LateAddress env d (s.withInst inst len) tval t ↔ LateAddress env d s tval t := by
  unfold amoLoaded LateAddress
  rw [amoAccess_withInst]
  exact ⟨rfl, fun _ _ => Iff.rfl⟩

/-- The trap of an LR, SC or AMO leaves the registers alone and records the address
    that was in `rs1`, if and only if the instruction is an SC, or its first access loses
    nothing. -/
theorem amo_trap_precise_iff (hd : Decodes s d) (hop : d.opFun = .amo)
    (hfault : s.hs.pageFault = false) (h : (decodeExc env s).1.memFault = true) :
    AmoPrecise d s (decodeExc env s).2.hs ↔ d.IsSc ∨ ¬ Clobbers env d s := by
  let u := s.withInst d.inst s.hs.instLen
  obtain ⟨hloaded, hlate⟩ := @amoLoaded_withInst δ env d s d.inst s.hs.instLen
  rw [decodeExc_of_decodes env hd, execute_amo env hop] at h ⊢
  -- SC traps before it writes `rd`, the others afterwards
  by_cases hsc : d.funct5 = 0b00011
  · have hamo : execAmo env d u = execSc env d u := if_pos hsc
    rw [hamo] at h ⊢
    rcases finish_of_ends (execSc_traps env d u) with
      ⟨t, x, v, ⟨hregs, htval⟩, hx, hf⟩ | ⟨b, t, -, hf⟩
    · have hrec := createException_recorded t.hs v hx
      rw [hf]
      refine iff_of_true ⟨fun r _ => ?_, hrec.xtval.trans htval⟩ (.inl ⟨hop, hsc⟩)
      exact congrFun (hrec.regs.trans hregs) r
    · rw [hf] at h
      cases h
  · have hnsc : ¬ d.IsSc := fun hd => hsc hd.2
    rw [or_iff_right hnsc]
    rcases finish_of_ends (execAmo_traps env d u hsc) with
      ⟨t, x, v, ⟨hregs, htval⟩, hx, hf⟩ | ⟨b, t, -, hf⟩
    · have hrec := createException_recorded t.hs v hx
      rw [hloaded] at hregs
      rw [hf]
      exact amoPrecise_iff hfault hregs ((hlate v t).mp htval) hrec.regs hrec.xtval
    · rw [hf] at h
      cases h

end Amo

/-- A swap with the word at 0x100, where there is nothing, through `x5`. -/
private def amoProgram : List (BitVec 32) := [
  0x10000293, -- addi x5, x0, 0x100
  0x0802A2AF] -- amoswap.w x5, x0, (x5)

private def amoState : Sys Unit := fetchedAfter Env.inert 4 (boot amoProgram)

private theorem amoState_decodes : Decodes amoState (decode32 0x0802A2AF) :=
  have hinst : amoState.hs.inst = 0x0802A2AF := by decide +kernel
  .inr ⟨by decide +kernel, congrArg decode32 hinst⟩

private theorem amoState_fault : (decodeExc Env.inert amoState).1.memFault = true := by
  decide +kernel

theorem amo_trap_precise_swap :
    AmoPrecise (decode32 0x0802A2AF) amoState (decodeExc Env.inert amoState).2.hs ↔
      (decode32 0x0802A2AF).IsSc ∨ ¬ Clobbers Env.inert (decode32 0x0802A2AF) amoState :=
  amo_trap_precise_iff amoState_decodes rfl (by decide +kernel) amoState_fault

/-- The swap faults, and `x5` no longer holds the address. -/
theorem amo_trap_loses_address :
    ¬ ∀ (s : Sys Unit) d, Decodes s d → d.opFun = .amo → s.hs.pageFault = false →
      (decodeExc Env.inert s).1.memFault = true →
      AmoPrecise d s (decodeExc Env.inert s).2.hs := by
  intro h
  have hprecise := h amoState _ amoState_decodes rfl (by decide +kernel) amoState_fault
  have hx5 : (decodeExc Env.inert amoState).2.hs.regs 5 ≠ amoState.hs.regs 5 := by decide +kernel
  exact hx5 (hprecise.regs 5 (by decide))

end RvEmu
