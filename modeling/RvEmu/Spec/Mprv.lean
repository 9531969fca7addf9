import RvEmu.Spec.MemFault
import RvEmu.Spec.WalkPermission

/-!
# Modify privilege

Under MPRV a load or a store of M-mode is checked as one of the mode in MPP. The accessors
write that mode to the hart for as long as they run, and restore M-mode behind each of
their returns.

## Key results

- `MemOp.checks`: what a memory operation checks against the mode, and in which state
- `mprv_swap_undone`: an access restores what it has swapped; until then all of its checks
  are made in the mode of MPP
-/

namespace RvEmu

variable {δ : Type}

/-! ## The checks of a memory operation -/

/-- A check that depends on the mode of the hart, with the state it is made in. -/
inductive Check (δ : Type) where
  /-- `tlb_find` compares its entries. -/
  | entries (s : Sys δ) (va : BitVec 64) (perms : BitVec 8)
  /-- `page_table_walk` checks a leaf at level `i`. -/
  | leaf (s : Sys δ) (isWrite kind : Bool) (i : Nat) (pte : BitVec 64)
  /-- `mem_fetch` and `mem_store` ask the memory map and PMP. -/
  | access (s : Sys δ) (w : Width) (isWrite : Bool) (p : BitVec 64)

namespace Check

def state : Check δ → Sys δ
  | entries s _ _ => s
  | leaf s _ _ _ _ => s
  | access s _ _ _ => s

/-- Entries that do not match lead to a walk, not to a fault. -/
def passes (env : Env δ) : Check δ → Bool
  | entries _ _ _ => true
  | leaf s isWrite kind i pte => !leafFault s.hs isWrite kind i pte
  | access s w isWrite p => accessPermitted env w isWrite s p

end Check

section Checks

variable (env : Env δ) (w : Width) (isWrite : Bool)

/-- The checks of `tlb_find`, on a hit with those of its accesses to the PTE. -/
def lookupChecks (s : Sys δ) (va : BitVec 64) (perms : BitVec 8) : List (Check δ) :=
  if s.hs.csr.satp = 0 then []
  else .entries s va perms ::
    match tlbEntry s.hs va perms with
    | none => []
    | some (_, e) =>
      let r := memFetch env .u64 s e.pteAddr
      let touch : Bool := ~~~(r.1 ||| (0b11#64 <<< 6)) != 0
      .access s .u64 false e.pteAddr ::
        if touch then [.access r.2 .u64 true e.pteAddr] else []

/-- The checks on a leaf, then for the update of its A and D bits. -/
def walkLeafChecks (kind : Bool) (i : Nat) (pteAddr pte : BitVec 64) (s : Sys δ) :
    List (Check δ) :=
  let touch : Bool := ~~~(pte ||| (0b11#64 <<< 6)) != 0
  .leaf s isWrite kind i pte ::
    if !leafFault s.hs isWrite kind i pte && touch then [.access s .u64 true pteAddr] else []

/-- The checks of the level loop of a walk. -/
def walkLoopChecks (va : BitVec 64) (kind : Bool) : Nat → BitVec 64 → Sys δ → List (Check δ)
  | 0, _, _ => []
  | i + 1, a, s =>
    let pteAddr := pteAddrAt a va i
    let r := memFetch env .u64 (s.setMemStatus kind) pteAddr
    .access (s.setMemStatus kind) .u64 false pteAddr ::
      if r.2.hs.memStatus || pteInvalid r.1 then []
      else if r.1 &&& 0b1110 = 0 then walkLoopChecks va kind i (nextTable r.1) r.2
      else walkLeafChecks isWrite kind i pteAddr r.1 r.2

/-- The checks of `page_table_walk`. -/
def walkChecks (s : Sys δ) (va : BitVec 64) : List (Check δ) :=
  walkLoopChecks env isWrite va s.hs.memStatus (satpLevels s.hs.csr.satp)
    (satpRoot s.hs.csr.satp) s

/-- The checks of the walk, if no entry gives an address, and of the final access, if the
    translation does. -/
def guardChecks (s : Sys δ) (va : BitVec 64) : List (Check δ) :=
  let r := tlbFind env s va (accessOf isWrite s).perms
  (if r.1 = 0 then walkChecks env isWrite r.2 va else []) ++
    match byteAddress env isWrite s va with
    | none => []
    | some p => [.access (translated env isWrite s va) w isWrite p]

/-- The checks of a translated access. -/
def accessChecks (s : Sys δ) (va : BitVec 64) : List (Check δ) :=
  lookupChecks env s va (accessOf isWrite s).perms ++ guardChecks env w isWrite s va

/-- The checks of `virt_mem_store` and `virt_mem_fetch`. -/
def virtChecks (s : Sys δ) (va : BitVec 64) : List (Check δ) :=
  if mprvInEffect isWrite s.hs then
    accessChecks env w isWrite (s.setPrivmode (mstatusMpp s.hs.csr.mstatus)) va
  else if s.hs.privmode = 3 then [.access s w isWrite va]
  else accessChecks env w isWrite s va

end Checks

def MemOp.checks (env : Env δ) (s : Sys δ) : MemOp → List (Check δ)
  | fetch w va => virtChecks env w false s va
  | store w va _ => virtChecks env w true s va
  | walk va isWrite => walkChecks env isWrite s va

/-! ## In which state the checks are made -/

section Frames

variable (env : Env δ) (w : Width) (isWrite : Bool) {s : Sys δ}

/-- Every check of an access is made within the frame of the access: that of a hit, … -/
theorem lookupChecks_frame {va : BitVec 64} {perms : BitVec 8} :
    ∀ c ∈ lookupChecks env s va perms, MemFrame s c.state := by
  unfold lookupChecks
  split
  · exact fun c hc => absurd hc List.not_mem_nil
  · refine List.forall_mem_cons.mpr ⟨.refl s, ?_⟩
    split
    · exact fun c hc => absurd hc List.not_mem_nil
    · next i e _ =>
      refine List.forall_mem_cons.mpr ⟨.refl s, ?_⟩
      split
      · exact List.forall_mem_singleton.mpr (memFetch_frame env s .u64 e.pteAddr)
      · exact fun c hc => absurd hc List.not_mem_nil

/-- … that of the leaf, … -/
theorem walkLeafChecks_frame {kind : Bool} {i : Nat} {pteAddr pte : BitVec 64} :
    ∀ c ∈ walkLeafChecks isWrite kind i pteAddr pte s, MemFrame s c.state := by
  unfold walkLeafChecks
  refine List.forall_mem_cons.mpr ⟨.refl s, ?_⟩
  split
  · exact List.forall_mem_singleton.mpr (.refl s)
  · exact fun c hc => absurd hc List.not_mem_nil

/-- … those of the PTEs … -/
theorem walkLoopChecks_frame {va : BitVec 64} {kind : Bool} {n : Nat} {a : BitVec 64} :
    ∀ c ∈ walkLoopChecks env isWrite va kind n a s, MemFrame s c.state := by
  induction n generalizing a s with
  | zero => exact fun c hc => absurd hc List.not_mem_nil
  | succ i ih =>
    have hread : MemFrame s (memFetch env .u64 (s.setMemStatus kind) (pteAddrAt a va i)).2 :=
      (memFetch_frame env (s.setMemStatus kind) .u64 (pteAddrAt a va i)).of_setMemStatus
    refine List.forall_mem_cons.mpr ⟨(MemFrame.refl s).setMemStatus kind, ?_⟩
    generalize memFetch env .u64 (s.setMemStatus kind) (pteAddrAt a va i) = r at hread
    split
    · exact fun c hc => absurd hc List.not_mem_nil
    · split
      · exact fun c hc => hread.trans (ih c hc)
      · exact fun c hc => hread.trans (walkLeafChecks_frame isWrite c hc)

/-- … and that of the access itself. -/
theorem guardChecks_frame {va : BitVec 64} :
    ∀ c ∈ guardChecks env w isWrite s va, MemFrame s c.state := by
  have hfind := tlbFind_frame env s va (accessOf isWrite s).perms
  have htrans : MemFrame s (translated env isWrite s va) := translate_frame env s va isWrite _
  unfold guardChecks
  intro c hc
  -- a check of the walk behind the TLB, or the one of the final access
  rcases List.mem_append.mp hc with hc | hc
  · split at hc
    · exact hfind.trans (walkLoopChecks_frame env isWrite c hc)
    · cases hc
  · split at hc
    · cases hc
    · rw [List.mem_singleton.mp hc]
      exact htrans

/-- A translated access makes its checks in the mode that it starts in. -/
theorem accessChecks_privmode {va : BitVec 64} {c : Check δ}
    (hc : c ∈ accessChecks env w isWrite s va) : c.state.hs.privmode = s.hs.privmode := by
  rcases List.mem_append.mp hc with hc | hc
  · exact (lookupChecks_frame env c hc).privmode
  · exact (guardChecks_frame env w isWrite c hc).privmode

end Frames

/-! ## What the checks decide -/

section Passes

variable {env : Env δ} {w : Width} {isWrite : Bool} {s : Sys δ}

/-- An access without a fault is permitted. -/
theorem physFault_none {p : BitVec 64} (h : physFault env w isWrite s p = none) :
    accessPermitted env w isWrite s p = true := by
  unfold physFault at h
  split at h
  · assumption
  · cases h

/-- Without a fault all of the checks pass: that of the leaf, … -/
theorem walkLeafChecks_pass {kind : Bool} {i : Nat} {pteAddr pte : BitVec 64}
    (h : walkLeafFault env isWrite kind i pteAddr pte s = none) :
    ∀ c ∈ walkLeafChecks isWrite kind i pteAddr pte s, c.passes env = true := by
  unfold walkLeafFault at h
  split at h
  · cases h
  · next hleaf =>
    have hpass : (!leafFault s.hs isWrite kind i pte) = true := by
      rw [Bool.eq_false_iff.mpr hleaf]
      rfl
    simp only [walkLeafChecks]
    rw [hpass, Bool.true_and]
    refine List.forall_mem_cons.mpr ⟨hpass, ?_⟩
    split at h
    · next htouch =>
      rw [if_pos htouch]
      exact List.forall_mem_singleton.mpr (physFault_none h)
    · next htouch =>
      rw [if_neg htouch]
      exact fun c hc => absurd hc List.not_mem_nil

/-- … those of the PTEs, … -/
theorem walkLoopChecks_pass {va : BitVec 64} {kind : Bool} {n : Nat} {a : BitVec 64}
    (h : walkLoopFault env isWrite va kind n a s = none) :
    ∀ c ∈ walkLoopChecks env isWrite va kind n a s, c.passes env = true := by
  -- level by level, along the PTEs that the walk follows
  induction n generalizing a s with
  | zero => cases h
  | succ i ih =>
    simp only [walkLoopFault] at h
    split at h
    · next hok =>
      refine List.forall_mem_cons.mpr ⟨hok, ?_⟩
      generalize memFetch env .u64 (s.setMemStatus kind) (pteAddrAt a va i) = r at h
      split
      · exact fun c hc => absurd hc List.not_mem_nil
      · next hvalid =>
        have hv : pteInvalid r.1 = false :=
          (Bool.or_eq_false_iff.mp (Bool.eq_false_iff.mpr hvalid)).2
        rw [hv, if_neg Bool.false_ne_true] at h
        split
        · next hptr =>
          rw [if_pos hptr] at h
          exact ih h
        · next hleaf =>
          rw [if_neg hleaf] at h
          exact walkLeafChecks_pass h
    · cases h

/-- … and so those of the whole walk. -/
theorem walkChecks_pass {va : BitVec 64} (h : walkFault env isWrite s va = none) :
    ∀ c ∈ walkChecks env isWrite s va, c.passes env = true := by
  unfold walkFault at h
  unfold walkChecks
  generalize satpLevels s.hs.csr.satp = n at h
  cases n with
  | zero => exact fun c hc => absurd hc List.not_mem_nil
  | succ n => exact walkLoopChecks_pass h

/-- An access without a fault has passed the checks of its walk and its final one. -/
theorem guardChecks_pass {va : BitVec 64} (h : accessFault env w isWrite s va = none) :
    ∀ c ∈ guardChecks env w isWrite s va, c.passes env = true := by
  obtain ⟨htrans, hfinal⟩ := Option.or_eq_none_iff.mp h
  unfold guardChecks
  intro c hc
  rcases List.mem_append.mp hc with hc | hc
  · unfold translateFault at htrans
    split at hc
    · next hmiss =>
      rw [if_pos hmiss] at htrans
      exact walkChecks_pass htrans c hc
    · cases hc
  · split at hc
    · cases hc
    · next p hp =>
      rw [hp] at hfinal
      rw [List.mem_singleton.mp hc]
      exact physFault_none hfinal

end Passes

/-! ## The swap -/

/-- What a caller of the accessors finds as it was. -/
structure ContextKept (s t : Sys δ) : Prop where
  privmode : t.hs.privmode = s.hs.privmode
  mstatus : t.hs.csr.mstatus = s.hs.csr.mstatus
  satp : t.hs.csr.satp = s.hs.csr.satp
  regs : t.hs.regs = s.hs.regs
  pc : t.hs.pc = s.hs.pc

/-- An access to memory keeps the context. -/
theorem MemFrame.contextKept {s t : Sys δ} (h : MemFrame s t) : ContextKept s t :=
  ⟨h.privmode, h.mstatus, h.satp, h.regs, h.proj (·.pc)⟩

section Swap

variable {env : Env δ} {w : Width} {isWrite : Bool} {s : Sys δ} {va : BitVec 64}

/-- MPRV is in effect in M-mode, for loads and stores. -/
theorem mprvInEffect_eq_true (h : mprvInEffect isWrite s.hs = true) :
    s.hs.privmode = 3 ∧ (isWrite || s.hs.memStatus) = true ∧
      mprvActive s.hs.csr.mstatus = true := by
  obtain ⟨hpriv, hactive⟩ := Bool.and_eq_true_iff.mp h
  obtain ⟨hpriv, hkind⟩ := Bool.and_eq_true_iff.mp hpriv
  exact ⟨eq_of_beq hpriv, hkind, hactive⟩

/-- The mode that is swapped in is not M-mode. -/
theorem mpp_ne_machine (h : mprvInEffect isWrite s.hs = true) :
    (s.setPrivmode (mstatusMpp s.hs.csr.mstatus)).hs.privmode ≠ 3 :=
  bne_iff_ne.mp (Bool.and_eq_true_iff.mp (mprvInEffect_eq_true h).2.2).2

/-- Under MPRV a fetch is the one of mode MPP, with the mode set back, … -/
theorem virtMemFetch_mprv (h : mprvInEffect false s.hs = true) :
    let r := virtMemFetch env w (s.setPrivmode (mstatusMpp s.hs.csr.mstatus)) va
    virtMemFetch env w s va = (r.1, r.2.setPrivmode 3) := by
  obtain ⟨hpriv, hkind, hactive⟩ := mprvInEffect_eq_true h
  have hload : (!(s.hs.memStatus && mprvActive s.hs.csr.mstatus)) ≠ true := by
    rw [hactive, show s.hs.memStatus = true from hkind]
    exact Bool.false_ne_true
  have hmpp := mpp_ne_machine h
  unfold virtMemFetch
  rw [if_pos hpriv, if_neg hload, if_neg hmpp]

/-- … and so is a store. -/
theorem virtMemStore_mprv (h : mprvInEffect true s.hs = true) (data : BitVec 64) :
    virtMemStore env w s va data =
      (virtMemStore env w (s.setPrivmode (mstatusMpp s.hs.csr.mstatus)) va data).setPrivmode 3 := by
  obtain ⟨hpriv, -, hactive⟩ := mprvInEffect_eq_true h
  have hstore : (!mprvActive s.hs.csr.mstatus) ≠ true := by
    rw [hactive]
    exact Bool.false_ne_true
  have hmpp := mpp_ne_machine h
  unfold virtMemStore
  rw [if_pos hpriv, if_neg hstore, if_neg hmpp]

/-- Its checks are those of mode MPP. -/
theorem virtChecks_mprv (h : mprvInEffect isWrite s.hs = true) :
    virtChecks env w isWrite s va =
      accessChecks env w isWrite (s.setPrivmode (mstatusMpp s.hs.csr.mstatus)) va := if_pos h

/-- A load below M-mode that sets no flag has passed its checks. -/
theorem virtMemFetch_passes (hpriv : s.hs.privmode ≠ 3)
    (hok : AccessOk (virtMemFetch env w s va).2) :
    ∀ c ∈ guardChecks env w false s va, c.passes env = true := by
  have hflags := virtMemFetch_fault env w va (virtMemFetch_ok_iff.mp hok).1
  rw [virtFault_below env w _ va hpriv] at hflags
  exact guardChecks_pass (fault_none (hflags.symm.trans (Prod.ext hok.1 hok.2)))

/-- A store below M-mode that sets no flag has passed its checks. -/
theorem virtMemStore_passes (hpriv : s.hs.privmode ≠ 3) {data : BitVec 64}
    (hok : AccessOk (virtMemStore env w s va data)) :
    ∀ c ∈ guardChecks env w true s va, c.passes env = true := by
  have hflags := virtMemStore_fault env w va (virtMemStore_pageFault hpriv hok) data
  rw [virtFault_below env w _ va hpriv] at hflags
  exact guardChecks_pass (fault_none (hflags.symm.trans (Prod.ext hok.1 hok.2)))

end Swap

/-- The accessors restore the mode they have swapped, whatever they return with. While MPRV
    is in effect they do what they do for a hart in the mode of MPP, every check is made in
    that mode, and an access that sets neither flag has passed those of its walk and its final
    one. -/
theorem mprv_swap_undone (env : Env δ) (s : Sys δ) (w : Width) (va data : BitVec 64) :
    let u := s.setPrivmode (mstatusMpp s.hs.csr.mstatus)
    ContextKept s (virtMemFetch env w s va).2 ∧
    ContextKept s (virtMemStore env w s va data) ∧
    (mprvInEffect false s.hs = true →
      virtMemFetch env w s va =
        ((virtMemFetch env w u va).1, (virtMemFetch env w u va).2.setPrivmode 3) ∧
      (AccessOk (virtMemFetch env w s va).2 →
        ∀ c ∈ guardChecks env w false u va, c.passes env = true)) ∧
    (mprvInEffect true s.hs = true →
      virtMemStore env w s va data = (virtMemStore env w u va data).setPrivmode 3 ∧
      (AccessOk (virtMemStore env w s va data) →
        ∀ c ∈ guardChecks env w true u va, c.passes env = true)) ∧
    ∀ isWrite, mprvInEffect isWrite s.hs = true → ∀ c ∈ virtChecks env w isWrite s va,
      c.state.hs.privmode = mstatusMpp s.hs.csr.mstatus := by
  refine ⟨(virtMemFetch_frame env s w va).contextKept,
    (virtMemStore_frame env s w va data).contextKept, fun h => ⟨virtMemFetch_mprv h, fun hok => ?_⟩,
    fun h => ⟨virtMemStore_mprv h data, fun hok => ?_⟩, fun isWrite h c hc => ?_⟩
  · rw [virtMemFetch_mprv h] at hok
    exact virtMemFetch_passes (mpp_ne_machine h) hok
  · rw [virtMemStore_mprv h] at hok
    exact virtMemStore_passes (mpp_ne_machine h) hok
  · rw [virtChecks_mprv h] at hc
    exact accessChecks_privmode env w isWrite hc

/-- M-mode about to load as S-mode from a page with all permissions. -/
private def mprvLoad : Sys Unit :=
  let s := (gigapage 0x200000CF).setMemStatus true
  s.setHs { s.hs with privmode := 3, csr := { s.hs.csr with mstatus := 0x20800 } }

/-- A load in M-mode with MPP = S. -/
theorem mprv_swap_undone_load :
    mprvInEffect false mprvLoad.hs = true ∧
      (virtMemFetch Env.inert .u64 mprvLoad 0x80002000).2.hs.privmode = 3 ∧
      ∀ c ∈ virtChecks Env.inert .u64 false mprvLoad 0x80002000, c.state.hs.privmode = 1 := by
  have heffect : mprvInEffect false mprvLoad.hs = true := by decide
  obtain ⟨hfetch, -, -, -, hchecks⟩ := mprv_swap_undone Env.inert mprvLoad .u64 0x80002000 0
  exact ⟨heffect, hfetch.privmode, hchecks false heffect⟩

end RvEmu
