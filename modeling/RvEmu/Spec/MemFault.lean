import RvEmu.Spec.FinalAccess

/-!
# Faults of memory operations

`page_table_walk`, `virt_mem_fetch` and `virt_mem_store` report a fault in two flags of
the hart. What they report is a matter of the operation: the PTEs on the way, the checks
on the leaf, and the memory map and PMP at each physical access.

## Key results

- `MemOp.fault`: the fault of an operation
- `MemOp.run_flags`: the flags after it, if it starts with `page_fault` clear
-/

namespace RvEmu

variable {δ : Type}

/-- The faults of a memory operation. -/
inductive Fault where
  | access | page
  deriving DecidableEq

/-- `mem_status` and `page_fault` -/
def HartState.flags (hs : HartState) : Bool × Bool := (hs.memStatus, hs.pageFault)

/-- The flags that report a fault. -/
def Fault.flags : Option Fault → Bool × Bool
  | some .access => (true, false)
  | some .page => (false, true)
  | none => (false, false)

section Faults

variable (env : Env δ) (w : Width) (isWrite : Bool)

/-- A physical access at `p`. -/
def physFault (s : Sys δ) (p : BitVec 64) : Option Fault :=
  if accessPermitted env w isWrite s p then none else some .access

/-- The checks on a leaf at level `i`, and the update of its A and D bits. -/
def walkLeafFault (kind : Bool) (i : Nat) (pteAddr pte : BitVec 64) (s : Sys δ) : Option Fault :=
  if leafFault s.hs isWrite kind i pte then some .page
  else if ~~~(pte ||| (0b11#64 <<< 6)) != 0 then physFault env .u64 true s pteAddr
  else none

/-- The level loop of a walk; `kind` is `mem_status` at its start. -/
def walkLoopFault (va : BitVec 64) (kind : Bool) : Nat → BitVec 64 → Sys δ → Option Fault
  | 0, _, _ => some .page
  | i + 1, a, s =>
    let u := s.setMemStatus kind
    if accessPermitted env .u64 false u (pteAddrAt a va i) then
      let r := memFetch env .u64 u (pteAddrAt a va i)
      if pteInvalid r.1 then some .page
      else if r.1 &&& 0b1110 = 0 then walkLoopFault va kind i (nextTable r.1) r.2
      else walkLeafFault env isWrite kind i (pteAddrAt a va i) r.1 r.2
    else some .access

/-- `page_table_walk` -/
def walkFault (s : Sys δ) (va : BitVec 64) : Option Fault :=
  match satpLevels s.hs.csr.satp with
  | 0 => none
  | level => walkLoopFault env isWrite va s.hs.memStatus level (satpRoot s.hs.csr.satp) s

/-- A translation, which walks if no TLB entry gives an address. -/
def translateFault (s : Sys δ) (va : BitVec 64) : Option Fault :=
  let r := tlbFind env s va (accessOf isWrite s).perms
  if r.1 = 0 then walkFault env isWrite r.2 va else none

/-- An access that is translated: the translation, then the physical access. -/
def accessFault (s : Sys δ) (va : BitVec 64) : Option Fault :=
  (translateFault env isWrite s va).or
    ((byteAddress env isWrite s va).bind (physFault env w isWrite (translated env isWrite s va)))

/-- MPRV is in effect for the access: in M-mode, and not for instruction fetches. -/
def mprvInEffect (hs : HartState) : Bool :=
  hs.privmode == 3 && (isWrite || hs.memStatus) && mprvActive hs.csr.mstatus

/-- `virt_mem_store` or `virt_mem_fetch` -/
def virtFault (s : Sys δ) (va : BitVec 64) : Option Fault :=
  if mprvInEffect isWrite s.hs then
    accessFault env w isWrite (s.setPrivmode (mstatusMpp s.hs.csr.mstatus)) va
  else if s.hs.privmode = 3 then physFault env w isWrite s va
  else accessFault env w isWrite s va

end Faults

/-- What an instruction calls between two tests of the flags. -/
inductive MemOp where
  | fetch (w : Width) (va : BitVec 64)
  | store (w : Width) (va data : BitVec 64)
  | walk (va : BitVec 64) (isWrite : Bool)

namespace MemOp

variable (env : Env δ)

/-- `virt_mem_fetch`, `virt_mem_store` and `page_table_walk` -/
def run (s : Sys δ) : MemOp → Sys δ
  | fetch w va => (virtMemFetch env w s va).2
  | store w va data => virtMemStore env w s va data
  | walk va isWrite => (pageTableWalk env s va isWrite).2

/-- The fault that the operation reports. -/
def fault (s : Sys δ) : MemOp → Option Fault
  | fetch w va => virtFault env w false s va
  | store w va _ => virtFault env w true s va
  | walk va isWrite => walkFault env isWrite s va

end MemOp

/-! ## The flags after an operation -/

section Flags

variable (env : Env δ) {s : Sys δ} (w : Width) (isWrite : Bool) (va : BitVec 64)

/-- The flags report the fault: that of a fetch, … -/
theorem memFetch_physFault (hfault : s.hs.pageFault = false) :
    (memFetch env w s va).2.hs.flags = Fault.flags (physFault env w false s va) := by
  have hflags := memFetch_flags env w s va
  unfold HartState.flags physFault accessPermitted
  rw [hflags.1, hflags.2, hfault, if_neg Bool.false_ne_true]
  cases outOfRange env va || pmpRefusesFetch w s.hs va <;> rfl

/-- … that of a store, … -/
theorem memStore_physFault (hfault : s.hs.pageFault = false) (data : BitVec 64) :
    (memStore env w s va data).hs.flags = Fault.flags (physFault env w true s va) := by
  have hflags := memStore_flags env w s va data
  unfold HartState.flags physFault accessPermitted
  rw [hflags.1, hflags.2, hfault, if_pos rfl]
  cases outOfRange env va || pmpRefusesStore w s.hs va <;> rfl

/-- … that of a leaf, … -/
theorem walkLeaf_fault {kind : Bool} {i : Nat} {pteAddr pte : BitVec 64}
    (hmem : s.hs.memStatus = false) (hfault : s.hs.pageFault = false) :
    (walkLeaf env va isWrite kind i pteAddr pte s).2.hs.flags =
      Fault.flags (walkLeafFault env isWrite kind i pteAddr pte s) := by
  have hcases := walkLeaf_cases env va s isWrite kind ⟨i, pteAddr, pte⟩
  have hstore := memStore_physFault env .u64 pteAddr hfault (pteTouched pte isWrite)
  generalize walkLeaf env va isWrite kind i pteAddr pte s = r at hcases
  unfold walkLeafFault
  cases hcases with
  | fault h =>
    rw [if_pos h]
    exact Prod.ext hmem rfl
  | refused h htouch hm => rw [if_neg (Bool.eq_false_iff.mp h), if_pos htouch, ← hstore]
  | untouched h htouch =>
    rw [if_neg (Bool.eq_false_iff.mp h), if_neg (Bool.eq_false_iff.mp htouch)]
    exact Prod.ext rfl hfault
  | touched t h htouch ht hm =>
    rw [if_neg (Bool.eq_false_iff.mp h), if_pos htouch, ← hstore, ← ht]
    exact Prod.ext hm.symm rfl

/-- … that of the PTEs before it … -/
theorem walkLoop_fault {kind : Bool} {n : Nat} {a : BitVec 64} (hfault : s.hs.pageFault = false)
    (hn : n = 0 → s.hs.memStatus = false) :
    (walkLoop env va isWrite kind n a s).2.hs.flags =
      Fault.flags (walkLoopFault env isWrite va kind n a s) := by
  -- level by level; `mem_status` is clear whenever a PTE has been read
  induction n generalizing a s with
  | zero => exact Prod.ext (hn rfl) rfl
  | succ i ih =>
    have hflags : (memFetch env .u64 (s.setMemStatus kind) (pteAddrAt a va i)).2.hs.flags =
        Fault.flags (physFault env .u64 false (s.setMemStatus kind) (pteAddrAt a va i)) :=
      memFetch_physFault env .u64 _ hfault
    simp only [walkLoop, walkLoopFault]
    unfold physFault at hflags
    generalize memFetch env .u64 (s.setMemStatus kind) (pteAddrAt a va i) = r at hflags
    by_cases hok : accessPermitted env .u64 false (s.setMemStatus kind) (pteAddrAt a va i) = true
    · rw [if_pos hok] at hflags ⊢
      obtain ⟨hm, hpf⟩ := Prod.mk.inj hflags
      rw [hm, if_neg Bool.false_ne_true]
      by_cases hv : pteInvalid r.1 = true
      · rw [if_pos hv, if_pos hv]
        exact Prod.ext hm rfl
      · rw [if_neg hv, if_neg hv]
        by_cases hp : r.1 &&& 0b1110 = 0
        · rw [if_pos hp, if_pos hp]
          exact ih hpf fun _ => hm
        · rw [if_neg hp, if_neg hp]
          exact walkLeaf_fault env isWrite va hm hpf
    · rw [if_neg hok] at hflags ⊢
      obtain ⟨hm, hpf⟩ := Prod.mk.inj hflags
      rw [if_pos hm]
      exact hflags

/-- … and that of the walk as a whole; … -/
theorem pageTableWalk_fault (hfault : s.hs.pageFault = false) :
    (pageTableWalk env s va isWrite).2.hs.flags = Fault.flags (walkFault env isWrite s va) := by
  unfold pageTableWalk walkFault
  generalize hn : satpLevels s.hs.csr.satp = n
  cases n with
  | zero => exact Prod.ext rfl hfault
  | succ n => exact walkLoop_fault env isWrite va hfault fun h0 => absurd h0 (Nat.succ_ne_zero n)

/-- Only a fault is reported by a flag. -/
theorem fault_none {f : Option Fault} (h : Fault.flags f = (false, false)) : f = none := by
  cases f with
  | none => rfl
  | some f => cases f <;> cases h

/-- A translation without an address reports the fault of its walk; with an address there
    is none, and `page_fault` is clear. -/
theorem translate_fault (hfault : s.hs.pageFault = false) :
    (byteAddress env isWrite s va = none →
      (translated env isWrite s va).hs.flags = Fault.flags (translateFault env isWrite s va)) ∧
    (∀ p, byteAddress env isWrite s va = some p → translateFault env isWrite s va = none ∧
      (translated env isWrite s va).hs.pageFault = false) := by
  have hwalk : (pageTableWalk env (tlbFind env s va (accessOf isWrite s).perms).2 va
      isWrite).2.hs.flags = Fault.flags
        (walkFault env isWrite (tlbFind env s va (accessOf isWrite s).perms).2 va) :=
    pageTableWalk_fault env isWrite va (tlbFind_pageFault.trans hfault)
  refine ⟨fun hnone => ?_, fun p hp => ⟨?_, translate_pageFault hfault hp⟩⟩
  · simp only [byteAddress, translated, translate, translateFault] at hnone ⊢
    split at hnone
    · next hmiss =>
      rw [if_pos hmiss, if_pos hmiss]
      split at hnone
      · next hflags =>
        rw [if_pos hflags]
        exact hwalk
      · cases hnone
    · cases hnone
  · -- with an address, the walk on a miss has left both flags clear
    simp only [byteAddress, translate, translateFault] at hp ⊢
    split at hp
    · next hmiss =>
      rw [if_pos hmiss]
      split at hp
      · cases hp
      · next hflags =>
        obtain ⟨hpf, hm⟩ := Bool.or_eq_false_iff.mp (Bool.eq_false_iff.mpr hflags)
        rw [HartState.flags, hpf, hm] at hwalk
        exact fault_none hwalk.symm
    · next hhit => rw [if_neg hhit]

/-- … that of an access below M-mode, … -/
theorem accessAt_fault (hfault : s.hs.pageFault = false) (data : BitVec 64) :
    (accessAt env w isWrite s va data).hs.flags =
      Fault.flags (accessFault env w isWrite s va) := by
  obtain ⟨hnone, hsome⟩ := translate_fault env isWrite va hfault
  unfold accessFault
  cases hp : byteAddress env isWrite s va with
  | none =>
    rw [accessAt_none hp, hnone hp]
    cases translateFault env isWrite s va <;> rfl
  | some p =>
    obtain ⟨hok, hpf⟩ := hsome p hp
    rw [accessAt_some hp, hok]
    cases isWrite with
    | true => exact memStore_physFault env w p hpf data
    | false => exact memFetch_physFault env w p hpf

/-- … a fetch … -/
theorem virtMemFetchAt_fault (hfault : s.hs.pageFault = false) :
    (virtMemFetchAt env w s va).2.hs.flags = Fault.flags (accessFault env w false s va) :=
  accessAt_fault env w false va hfault 0

/-- … or a store. -/
theorem virtMemStoreAt_fault (hfault : s.hs.pageFault = false) (data : BitVec 64) :
    (virtMemStoreAt env w s va data).hs.flags = Fault.flags (accessFault env w true s va) :=
  accessAt_fault env w true va hfault data

/-- MPRV is in effect in M-mode, for loads and stores, … -/
theorem mprvInEffect_machine (hpriv : s.hs.privmode = 3) :
    mprvInEffect isWrite s.hs = ((isWrite || s.hs.memStatus) && mprvActive s.hs.csr.mstatus) := by
  rw [mprvInEffect, hpriv]
  rfl

/-- … and in no other mode. -/
theorem mprvInEffect_below (hpriv : s.hs.privmode ≠ 3) : mprvInEffect isWrite s.hs = false := by
  rw [mprvInEffect, beq_false_of_ne hpriv, Bool.false_and, Bool.false_and]

/-- Below M-mode an access is translated as it is. -/
theorem virtFault_below (hpriv : s.hs.privmode ≠ 3) :
    virtFault env w isWrite s va = accessFault env w isWrite s va := by
  rw [virtFault, mprvInEffect_below isWrite hpriv, if_neg Bool.false_ne_true, if_neg hpriv]

/-- The flags of `virt_mem_fetch` report its fault, … -/
theorem virtMemFetch_fault (hfault : s.hs.pageFault = false) :
    (virtMemFetch env w s va).2.hs.flags = Fault.flags (virtFault env w false s va) := by
  unfold virtMemFetch virtFault
  by_cases hpriv : s.hs.privmode = 3
  -- `mem_status` tells a load from an instruction fetch, which MPRV leaves alone
  · rw [mprvInEffect_machine false hpriv, Bool.false_or, if_pos hpriv, if_pos hpriv]
    cases s.hs.memStatus && mprvActive s.hs.csr.mstatus with
    | true => exact virtMemFetchAt_fault env w va (s := s.setPrivmode _) hfault
    | false => exact memFetch_physFault env w va hfault
  · rw [mprvInEffect_below false hpriv, if_neg hpriv, if_neg hpriv]
    exact virtMemFetchAt_fault env w va hfault

/-- … and those of `virt_mem_store`. -/
theorem virtMemStore_fault (hfault : s.hs.pageFault = false) (data : BitVec 64) :
    (virtMemStore env w s va data).hs.flags = Fault.flags (virtFault env w true s va) := by
  unfold virtMemStore virtFault
  by_cases hpriv : s.hs.privmode = 3
  · rw [mprvInEffect_machine true hpriv, Bool.true_or, Bool.true_and, if_pos hpriv, if_pos hpriv]
    cases mprvActive s.hs.csr.mstatus with
    | true =>
      exact virtMemStoreAt_fault env w va (s := s.setPrivmode (mstatusMpp s.hs.csr.mstatus))
        hfault data
    | false => exact memStore_physFault env w va hfault data
  · rw [mprvInEffect_below true hpriv, if_neg hpriv, if_neg hpriv]
    exact virtMemStoreAt_fault env w va hfault data

/-- A store below M-mode that sets no flag has found none set. -/
theorem virtMemStore_pageFault {env : Env δ} {w : Width} {va : BitVec 64}
    (hpriv : s.hs.privmode ≠ 3) {data : BitVec 64} (hok : AccessOk (virtMemStore env w s va data)) :
    s.hs.pageFault = false := by
  have hbelow : virtMemStore env w s va data = virtMemStoreAt env w s va data := if_neg hpriv
  rw [hbelow] at hok
  cases hp : byteAddress env true s va with
  | none =>
    have hnone : virtMemStoreAt env w s va data = translated env true s va := accessAt_none hp
    rw [hnone] at hok
    exact absurd hok (translate_none hp)
  | some p =>
    have hsome : virtMemStoreAt env w s va data = memStore env w (translated env true s va) p data :=
      accessAt_some hp
    rw [hsome] at hok
    exact (translate_keeps_pageFault hp).symm.trans
      ((memStore_flags env w _ p data).2.symm.trans hok.2)

/-- The flags after an operation report its own fault, and nothing else. -/
theorem MemOp.run_flags (op : MemOp) (hfault : s.hs.pageFault = false) :
    (op.run env s).hs.flags = Fault.flags (op.fault env s) := by
  cases op with
  | fetch w va => exact virtMemFetch_fault env w va hfault
  | store w va data => exact virtMemStore_fault env w va hfault data
  | walk va isWrite => exact pageTableWalk_fault env isWrite va hfault

end Flags

end RvEmu
