import RvEmu.Spec.Trap

/-!
# What the memory accessors read and change

The translated accessors neither read nor write the part of a hart that only
the instruction stages use, its `Core`; this is one commutation lemma for each
accessor. They do read the rest of the hart, but change little of it, which is
what `MemFrame` says.
-/

namespace RvEmu

variable {δ : Type} (env : Env δ)

/-! ## Accessors do not see the core -/

/-- The part of a hart state that memory accesses have nothing to do with. -/
structure Core where
  regs : BitVec 5 → BitVec 64
  pc : BitVec 64
  inst : BitVec 32
  instbuf : BitVec 16
  instLen : BitVec 8
  chkInt : Bool

/-- The state with its core replaced. -/
def Sys.withCore (s : Sys δ) (c : Core) : Sys δ :=
  { s with hs := { s.hs with
    regs := c.regs, pc := c.pc, inst := c.inst, instbuf := c.instbuf, instLen := c.instLen
    chkInt := c.chkInt } }

/-- Replace the core of a resulting state. -/
def mapCore {α : Type} (c : Core) (r : α × Sys δ) : α × Sys δ := (r.1, r.2.withCore c)

section Core

variable (s : Sys δ) (c : Core) (w : Width) (addr data : BitVec 64)

/-- Setting `mem_status` commutes with replacing the core. -/
@[simp] theorem withCore_setMemStatus (b : Bool) :
    (s.withCore c).setMemStatus b = (s.setMemStatus b).withCore c := rfl

/-- Setting `page_fault` commutes with replacing the core. -/
@[simp] theorem withCore_setPageFault (b : Bool) :
    (s.withCore c).setPageFault b = (s.setPageFault b).withCore c := rfl

/-- Setting the mode commutes with replacing the core. -/
@[simp] theorem withCore_setPrivmode (p : BitVec 2) :
    (s.withCore c).setPrivmode p = (s.setPrivmode p).withCore c := rfl

/-- `mem_status` is not part of the core. -/
@[simp] theorem withCore_memStatus : (s.withCore c).hs.memStatus = s.hs.memStatus := rfl

/-- `page_fault` is not part of the core. -/
@[simp] theorem withCore_pageFault : (s.withCore c).hs.pageFault = s.hs.pageFault := rfl

/-- The mode is not part of the core. -/
@[simp] theorem withCore_privmode : (s.withCore c).hs.privmode = s.hs.privmode := rfl

/-- The CSRs are not part of the core. -/
@[simp] theorem withCore_csr : (s.withCore c).hs.csr = s.hs.csr := rfl

/-- The TLB is not part of the core. -/
@[simp] theorem withCore_tlb : (s.withCore c).hs.tlb = s.hs.tlb := rfl

/-- `phy_mem_fetch` does not depend on the core. -/
theorem phyMemFetch_withCore :
    phyMemFetch env w (s.withCore c) addr = mapCore c (phyMemFetch env w s addr) := by
  unfold phyMemFetch
  split
  · rfl
  · split
    · rfl
    · split <;> rfl

/-- `phy_mem_store` does not depend on the core. -/
theorem phyMemStore_withCore :
    phyMemStore env w (s.withCore c) addr data = (phyMemStore env w s addr data).withCore c := by
  unfold phyMemStore
  split
  · rfl
  · split <;> rfl

/-- `mem_fetch` does not depend on the core. -/
theorem memFetch_withCore :
    memFetch env w (s.withCore c) addr = mapCore c (memFetch env w s addr) := by
  have hpmp : pmpRefusesFetch w (s.withCore c).hs addr = pmpRefusesFetch w s.hs addr := by
    cases w <;> rfl
  rw [memFetch, memFetch, hpmp, withCore_setMemStatus, withCore_setMemStatus,
    phyMemFetch_withCore]
  split <;> rfl

/-- `mem_store` does not depend on the core. -/
theorem memStore_withCore :
    memStore env w (s.withCore c) addr data = (memStore env w s addr data).withCore c := by
  have hpmp : pmpRefusesStore w (s.withCore c).hs addr = pmpRefusesStore w s.hs addr := by
    cases w <;> rfl
  rw [memStore, memStore, hpmp, withCore_setMemStatus, withCore_setMemStatus,
    phyMemStore_withCore]
  split <;> rfl

variable (virtAddr pteAddr pte : BitVec 64) (isWrite currMemStatus : Bool)

/-- The leaf stage of a walk does not depend on the core. -/
theorem walkLeaf_withCore (i : Nat) :
    walkLeaf env virtAddr isWrite currMemStatus i pteAddr pte (s.withCore c) =
      mapCore c (walkLeaf env virtAddr isWrite currMemStatus i pteAddr pte s) := by
  have hfault : leafFault (s.withCore c).hs isWrite currMemStatus i pte =
      leafFault s.hs isWrite currMemStatus i pte := rfl
  simp only [walkLeaf, hfault, memStore_withCore, withCore_setPageFault]
  -- whether A and D are written back does not depend on the core
  generalize (~~~(pte ||| (0b11#64 <<< 6)) != 0) = touch
  split
  · rfl
  · cases touch with
    | false => rfl
    | true =>
      simp only [Bool.true_and, ↓reduceIte, withCore_memStatus]
      split <;> rfl

/-- The level loop does not depend on the core, by induction on the levels left. -/
theorem walkLoop_withCore (i : Nat) (a : BitVec 64) :
    walkLoop env virtAddr isWrite currMemStatus i a (s.withCore c) =
      mapCore c (walkLoop env virtAddr isWrite currMemStatus i a s) := by
  induction i generalizing a s with
  | zero => rfl
  | succ i ih =>
    simp only [walkLoop, withCore_setMemStatus, memFetch_withCore, mapCore, withCore_memStatus,
      ih, walkLeaf_withCore]
    split
    · rfl
    · split
      · rfl
      · split <;> rfl

/-- `page_table_walk` does not depend on the core. -/
theorem pageTableWalk_withCore :
    pageTableWalk env (s.withCore c) virtAddr isWrite =
      mapCore c (pageTableWalk env s virtAddr isWrite) := by
  simp only [pageTableWalk, withCore_csr, withCore_memStatus, walkLoop_withCore]
  split <;> rfl

variable (perms : BitVec 8)

/-- A TLB hit does not depend on the core. -/
theorem tlbHit_withCore (i : Nat) (e : TLBEntry) :
    tlbHit env (s.withCore c) virtAddr perms i e = mapCore c (tlbHit env s virtAddr perms i e) := by
  simp only [tlbHit, memFetch_withCore, mapCore, memStore_withCore]
  generalize (~~~((memFetch env .u64 s e.pteAddr).1 ||| (0b11#64 <<< 6)) != 0) = touch
  cases touch with
  | false => rfl
  | true =>
    simp only [Bool.true_and, ↓reduceIte, withCore_memStatus]
    split <;> rfl

/-- The loop of `tlb_find` does not depend on the core. -/
theorem tlbFindLoop_withCore (i : Nat) :
    tlbFindLoop env (s.withCore c) virtAddr perms i =
      mapCore c (tlbFindLoop env s virtAddr perms i) := by
  induction i with
  | zero => rfl
  | succ i ih =>
    have hmatch (e : TLBEntry) : tlbMatches (s.withCore c).hs virtAddr perms i e =
        tlbMatches s.hs virtAddr perms i e := rfl
    simp only [tlbFindLoop, withCore_tlb, hmatch, tlbHit_withCore, ih]
    split <;> rfl

/-- `tlb_find` does not depend on the core. -/
theorem tlbFind_withCore :
    tlbFind env (s.withCore c) virtAddr perms = mapCore c (tlbFind env s virtAddr perms) := by
  simp only [tlbFind, withCore_csr, withCore_tlb, tlbFindLoop_withCore]
  split <;> rfl

/-- Translation does not depend on the core. -/
theorem translate_withCore :
    translate env (s.withCore c) virtAddr perms isWrite =
      mapCore c (translate env s virtAddr perms isWrite) := by
  simp only [translate, tlbFind_withCore, mapCore, withCore_memStatus, pageTableWalk_withCore,
    withCore_pageFault]
  split
  · split <;> rfl
  · rfl

/-- `virt_mem_fetch` below the MPRV test does not depend on the core. -/
theorem virtMemFetchAt_withCore :
    virtMemFetchAt env w (s.withCore c) addr = mapCore c (virtMemFetchAt env w s addr) := by
  rw [virtMemFetchAt, virtMemFetchAt, withCore_memStatus, translate_withCore]
  generalize translate env s addr _ false = t
  obtain ⟨t, s'⟩ := t
  cases t with
  | none => rfl
  | some phyAddr => exact memFetch_withCore env s' c w phyAddr

/-- `virt_mem_fetch` does not depend on the core. -/
theorem virtMemFetch_withCore :
    virtMemFetch env w (s.withCore c) addr = mapCore c (virtMemFetch env w s addr) := by
  simp only [virtMemFetch, withCore_privmode, withCore_memStatus, withCore_csr,
    memFetch_withCore, withCore_setPrivmode, virtMemFetchAt_withCore]
  split
  · split <;> rfl
  · rfl

/-- `virt_mem_store` below the MPRV test does not depend on the core. -/
theorem virtMemStoreAt_withCore :
    virtMemStoreAt env w (s.withCore c) addr data =
      (virtMemStoreAt env w s addr data).withCore c := by
  rw [virtMemStoreAt, virtMemStoreAt, translate_withCore]
  generalize translate env s addr _ true = t
  obtain ⟨t, s'⟩ := t
  cases t with
  | none => rfl
  | some phyAddr => exact memStore_withCore env s' c w phyAddr data

/-- `virt_mem_store` does not depend on the core. -/
theorem virtMemStore_withCore :
    virtMemStore env w (s.withCore c) addr data = (virtMemStore env w s addr data).withCore c := by
  simp only [virtMemStore, withCore_privmode, withCore_csr, memStore_withCore,
    withCore_setPrivmode, virtMemStoreAt_withCore]
  split
  · split <;> rfl
  · rfl

/-- The core of the hart. -/
def Sys.core (s : Sys δ) : Core :=
  ⟨s.hs.regs, s.hs.pc, s.hs.inst, s.hs.instbuf, s.hs.instLen, s.hs.chkInt⟩

/-- The core that was put in place. -/
@[simp] theorem withCore_core : (s.withCore c).core = c := rfl

/-- A load leaves the core alone. -/
theorem virtMemFetch_core : (virtMemFetch env w s addr).2.core = s.core := by
  have hself : virtMemFetch env w s addr = mapCore s.core (virtMemFetch env w s addr) :=
    virtMemFetch_withCore env s s.core w addr
  rw [hself, mapCore, withCore_core]

/-- A walk leaves the core alone. -/
theorem pageTableWalk_core (isWrite : Bool) :
    (pageTableWalk env s addr isWrite).2.core = s.core := by
  have hself : pageTableWalk env s addr isWrite =
      mapCore s.core (pageTableWalk env s addr isWrite) :=
    pageTableWalk_withCore env s s.core addr isWrite
  rw [hself, mapCore, withCore_core]

/-- A store leaves the core alone. -/
theorem virtMemStore_core : (virtMemStore env w s addr data).core = s.core := by
  have hself : virtMemStore env w s addr data = (virtMemStore env w s addr data).withCore s.core :=
    virtMemStore_withCore env s s.core w addr data
  rw [hself, withCore_core]

end Core

/-! ## What accessors change -/

/-- The part of a hart that no memory access changes: all but the two flags,
    the TLB, and `mip`, which the devices write. -/
def HartState.stable (hs : HartState) : HartState :=
  { hs with
    memStatus := false, pageFault := false, tlb := tlbClear, csr := { hs.csr with mip := 0 } }

/-- The change from `s` to `s'` is one that memory accesses may make. -/
structure MemFrame (s s' : Sys δ) : Prop where
  stable : s'.hs.stable = s.hs.stable
  reservations : s'.bus.reservations = s.bus.reservations

namespace MemFrame

variable {s s' s'' : Sys δ}

/-- A state frames itself. -/
theorem refl (s : Sys δ) : MemFrame s s := ⟨rfl, rfl⟩

/-- Frames compose. -/
theorem trans (h : MemFrame s s') (h' : MemFrame s' s'') : MemFrame s s'' :=
  ⟨h'.stable.trans h.stable, h'.reservations.trans h.reservations⟩

/-- Whatever a stable part of the hart determines is unchanged. -/
theorem proj {α : Type} (h : MemFrame s s') (f : HartState → α) :
    f s'.hs.stable = f s.hs.stable := congrArg f h.stable

/-- A memory access keeps the mode. -/
theorem privmode (h : MemFrame s s') : s'.hs.privmode = s.hs.privmode := h.proj (·.privmode)

/-- A memory access keeps the PMP registers and their table. -/
theorem pmp (h : MemFrame s s') : s'.hs.pmp = s.hs.pmp := h.proj (·.pmp)

/-- A memory access keeps the integer registers. -/
theorem regs (h : MemFrame s s') : s'.hs.regs = s.hs.regs := h.proj (·.regs)

/-- A memory access keeps the number of the hart. -/
theorem hartid (h : MemFrame s s') : s'.hs.hartid = s.hs.hartid := h.proj (·.hartid)

/-- A memory access keeps `mstatus`. -/
theorem mstatus (h : MemFrame s s') : s'.hs.csr.mstatus = s.hs.csr.mstatus :=
  h.proj (·.csr.mstatus)

/-- A memory access keeps `satp`. -/
theorem satp (h : MemFrame s s') : s'.hs.csr.satp = s.hs.csr.satp := h.proj (·.csr.satp)

/-- `mem_status` may change. -/
theorem setMemStatus (h : MemFrame s s') (b : Bool) : MemFrame s (s'.setMemStatus b) :=
  ⟨h.stable, h.reservations⟩

/-- `mem_status` may have been set before. -/
theorem of_setMemStatus {b : Bool} (h : MemFrame (s.setMemStatus b) s') : MemFrame s s' :=
  ⟨h.stable, h.reservations⟩

/-- `page_fault` may change. -/
theorem setPageFault (h : MemFrame s s') (b : Bool) : MemFrame s (s'.setPageFault b) :=
  ⟨h.stable, h.reservations⟩

/-- The TLB may change. -/
theorem setTlb (h : MemFrame s s') (t : TLBStruct) : MemFrame s (s'.setTlb t) :=
  ⟨h.stable, h.reservations⟩

/-- Both states in another mode. -/
theorem setPrivmode (h : MemFrame s s') (p : BitVec 2) :
    MemFrame (s.setPrivmode p) (s'.setPrivmode p) :=
  ⟨congrArg (fun hs => { hs with privmode := p }) h.stable, h.reservations⟩

end MemFrame

section MemFrame

variable (s : Sys δ) (w : Width) (addr data : BitVec 64)

/-- `phy_mem_fetch` is a memory access. -/
theorem phyMemFetch_frame : MemFrame s (phyMemFetch env w s addr).2 := by
  unfold phyMemFetch
  split
  · exact .refl s
  · split
    · exact ⟨rfl, rfl⟩
    · split <;> exact .refl s

/-- `phy_mem_store` is a memory access; a device may set `mip`. -/
theorem phyMemStore_frame : MemFrame s (phyMemStore env w s addr data) := by
  unfold phyMemStore
  split
  · exact ⟨rfl, rfl⟩
  · split
    · exact ⟨rfl, rfl⟩
    · exact .refl s

/-- `mem_fetch` is a memory access. -/
theorem memFetch_frame : MemFrame s (memFetch env w s addr).2 := by
  unfold memFetch
  split
  · exact (MemFrame.refl s).setMemStatus true
  · exact ((MemFrame.refl s).setMemStatus false).trans (phyMemFetch_frame env _ w addr)

/-- `mem_store` is a memory access. -/
theorem memStore_frame : MemFrame s (memStore env w s addr data) := by
  unfold memStore
  split
  · exact (MemFrame.refl s).setMemStatus true
  · exact ((MemFrame.refl s).setMemStatus false).trans (phyMemStore_frame env _ w addr data)

variable (virtAddr pteAddr pte : BitVec 64) (isWrite currMemStatus : Bool)

/-- The leaf stage of a walk is a memory access. -/
theorem walkLeaf_frame (i : Nat) :
    MemFrame s (walkLeaf env virtAddr isWrite currMemStatus i pteAddr pte s).2 := by
  unfold walkLeaf
  split
  · exact (MemFrame.refl s).setPageFault true
  · dsimp only
    -- whether A and D have to be written back
    generalize (~~~(pte ||| (0b11#64 <<< 6)) != 0) = touch
    cases touch with
    | false => exact ((MemFrame.refl s).setTlb _).setMemStatus false
    | true =>
      have hstore := memStore_frame env s .u64 pteAddr (pteTouched pte isWrite)
      simp only [Bool.true_and, ↓reduceIte]
      split
      · exact hstore
      · exact (hstore.setTlb _).setMemStatus false

/-- The level loop is a memory access, by induction on the levels left. -/
theorem walkLoop_frame (i : Nat) (a : BitVec 64) :
    MemFrame s (walkLoop env virtAddr isWrite currMemStatus i a s).2 := by
  induction i generalizing a s with
  | zero => exact (MemFrame.refl s).setPageFault true
  | succ i ih =>
    have hfetch := ((MemFrame.refl s).setMemStatus currMemStatus).trans
      (memFetch_frame env _ .u64 (pteAddrAt a virtAddr i))
    simp only [walkLoop]
    -- an access fault, an invalid PTE, a pointer to the next table, or a leaf
    split
    · exact hfetch
    · split
      · exact hfetch.setPageFault true
      · split
        · exact hfetch.trans (ih _ _)
        · exact hfetch.trans (walkLeaf_frame env _ _ _ _ _ _ _)

/-- `page_table_walk` is a memory access. -/
theorem pageTableWalk_frame : MemFrame s (pageTableWalk env s virtAddr isWrite).2 := by
  unfold pageTableWalk
  split
  · exact (MemFrame.refl s).setMemStatus false
  · exact walkLoop_frame env s virtAddr isWrite _ _ _

variable (perms : BitVec 8)

/-- A hit reads the PTE of its entry, and writes it back unless that changes nothing. -/
theorem tlbHit_cases (i : Nat) (e : TLBEntry) :
    (tlbHit env s virtAddr perms i e).2 = (memFetch env .u64 s e.pteAddr).2 ∨
    ∃ b, (tlbHit env s virtAddr perms i e).2 =
      (memStore env .u64 (memFetch env .u64 s e.pteAddr).2 e.pteAddr
        (pteTouched (memFetch env .u64 s e.pteAddr).1 (perms &&& 0b010 != 0))).setMemStatus b := by
  simp only [tlbHit]
  generalize (~~~((memFetch env .u64 s e.pteAddr).1 ||| (0b11#64 <<< 6)) != 0) = touch
  cases touch with
  | false => exact .inl rfl
  | true =>
    simp only [Bool.true_and, ↓reduceIte]
    split
    · exact .inr ⟨false, rfl⟩
    · exact .inr ⟨_, rfl⟩

/-- A TLB hit is a memory access. -/
theorem tlbHit_frame (i : Nat) (e : TLBEntry) :
    MemFrame s (tlbHit env s virtAddr perms i e).2 := by
  have hfetch := memFetch_frame env s .u64 e.pteAddr
  rcases tlbHit_cases env s virtAddr perms i e with h | ⟨b, h⟩ <;> rw [h]
  · exact hfetch
  · exact (hfetch.trans (memStore_frame env _ .u64 e.pteAddr _)).setMemStatus b

/-- The loop of `tlb_find` is a memory access. -/
theorem tlbFindLoop_frame (i : Nat) : MemFrame s (tlbFindLoop env s virtAddr perms i).2 := by
  induction i with
  | zero => exact .refl s
  | succ i ih =>
    simp only [tlbFindLoop]
    split
    · exact tlbHit_frame env s virtAddr perms i _
    · exact ih

/-- `tlb_find` is a memory access. -/
theorem tlbFind_frame : MemFrame s (tlbFind env s virtAddr perms).2 := by
  unfold tlbFind
  split
  · exact .refl s
  · exact tlbFindLoop_frame env s virtAddr perms _

/-- Translation is a memory access. -/
theorem translate_frame : MemFrame s (translate env s virtAddr perms isWrite).2 := by
  have hfind := tlbFind_frame env s virtAddr perms
  have hwalk := hfind.trans (pageTableWalk_frame env _ virtAddr isWrite)
  simp only [translate]
  split
  · split
    · exact hwalk
    · exact hwalk.setMemStatus _
  · exact hfind

/-- `virt_mem_fetch` below the MPRV test is a memory access. -/
theorem virtMemFetchAt_frame : MemFrame s (virtMemFetchAt env w s addr).2 := by
  have htrans := translate_frame env s addr false (if s.hs.memStatus then 0b001 else 0b100)
  unfold virtMemFetchAt
  split
  · next s' h =>
    rw [h] at htrans
    exact htrans
  · next phyAddr s' h =>
    rw [h] at htrans
    exact htrans.trans (memFetch_frame env s' w phyAddr)

/-- `virt_mem_fetch` is one as well: it puts the mode back. -/
theorem virtMemFetch_frame : MemFrame s (virtMemFetch env w s addr).2 := by
  unfold virtMemFetch
  split
  · next hpriv =>
    split
    · exact memFetch_frame env s w addr
    · have hself : s.setPrivmode 3 = s := by rw [← hpriv]; rfl
      have h := (virtMemFetchAt_frame env (s.setPrivmode (mstatusMpp s.hs.csr.mstatus)) w
        addr).setPrivmode 3
      exact ⟨h.stable.trans (congrArg (·.hs.stable) hself), h.reservations⟩
  · exact virtMemFetchAt_frame env s w addr

/-- `virt_mem_store` below the MPRV test is a memory access. -/
theorem virtMemStoreAt_frame : MemFrame s (virtMemStoreAt env w s addr data) := by
  have htrans := translate_frame env s addr true 0b010
  unfold virtMemStoreAt
  split
  · next s' h =>
    rw [h] at htrans
    exact htrans
  · next phyAddr s' h =>
    rw [h] at htrans
    exact htrans.trans (memStore_frame env s' w phyAddr data)

/-- `virt_mem_store` is one as well: it puts the mode back. -/
theorem virtMemStore_frame : MemFrame s (virtMemStore env w s addr data) := by
  unfold virtMemStore
  split
  · next hpriv =>
    split
    · exact memStore_frame env s w addr data
    · have hself : s.setPrivmode 3 = s := by rw [← hpriv]; rfl
      have h := (virtMemStoreAt_frame env (s.setPrivmode (mstatusMpp s.hs.csr.mstatus)) w addr
        data).setPrivmode 3
      exact ⟨h.stable.trans (congrArg (·.hs.stable) hself), h.reservations⟩
  · exact virtMemStoreAt_frame env s w addr data

end MemFrame

/-! ## The instruction word and its length -/

/-- The state with another instruction fetched. -/
def Sys.withInst (s : Sys δ) (inst : BitVec 32) (len : BitVec 8) : Sys δ :=
  { s with hs := { s.hs with inst := inst, instLen := len } }

/-- Replace the instruction of a resulting state. -/
def mapInst {α : Type} (inst : BitVec 32) (len : BitVec 8) (r : α × Sys δ) : α × Sys δ :=
  (r.1, r.2.withInst inst len)

section Inst

variable (s : Sys δ) (inst : BitVec 32) (len : BitVec 8)

/-- Replacing the instruction in a state with the core of another. -/
theorem withCore_of_core_eq {s t : Sys δ} (h : t.core = s.core) :
    t.withCore { s.core with inst := inst, instLen := len } = t.withInst inst len := by
  rw [← h]
  rfl

/-- `virt_mem_fetch` does not see the instruction. -/
theorem virtMemFetch_withInst (w : Width) (addr : BitVec 64) :
    virtMemFetch env w (s.withInst inst len) addr = mapInst inst len (virtMemFetch env w s addr) := by
  have h := virtMemFetch_withCore env s { s.core with inst := inst, instLen := len } w addr
  rw [mapCore, withCore_of_core_eq inst len (virtMemFetch_core env s w addr)] at h
  exact h

/-- `page_table_walk` does not see the instruction. -/
theorem pageTableWalk_withInst (addr : BitVec 64) (isWrite : Bool) :
    pageTableWalk env (s.withInst inst len) addr isWrite =
      mapInst inst len (pageTableWalk env s addr isWrite) := by
  have h := pageTableWalk_withCore env s { s.core with inst := inst, instLen := len } addr isWrite
  rw [mapCore, withCore_of_core_eq inst len (pageTableWalk_core env s addr isWrite)] at h
  exact h

/-- `virt_mem_store` does not see the instruction. -/
theorem virtMemStore_withInst (w : Width) (addr data : BitVec 64) :
    virtMemStore env w (s.withInst inst len) addr data =
      (virtMemStore env w s addr data).withInst inst len := by
  have h := virtMemStore_withCore env s { s.core with inst := inst, instLen := len } w addr data
  rw [withCore_of_core_eq inst len (virtMemStore_core env s w addr data)] at h
  exact h

/-- Setting `mem_status` commutes with replacing the instruction. -/
@[simp] theorem withInst_setMemStatus (b : Bool) :
    (s.withInst inst len).setMemStatus b = (s.setMemStatus b).withInst inst len := rfl

/-- Setting `page_fault` commutes with replacing the instruction. -/
@[simp] theorem withInst_setPageFault (b : Bool) :
    (s.withInst inst len).setPageFault b = (s.setPageFault b).withInst inst len := rfl

/-- Replacing the instruction keeps `mem_status`. -/
@[simp] theorem withInst_memStatus : (s.withInst inst len).hs.memStatus = s.hs.memStatus := rfl

/-- Replacing the instruction keeps `page_fault`. -/
@[simp] theorem withInst_pageFault : (s.withInst inst len).hs.pageFault = s.hs.pageFault := rfl

/-- Replacing the instruction keeps the registers. -/
@[simp] theorem withInst_regs : (s.withInst inst len).hs.regs = s.hs.regs := rfl

/-- Replacing the instruction keeps the pc. -/
@[simp] theorem withInst_pc : (s.withInst inst len).hs.pc = s.hs.pc := rfl

/-- Replacing the instruction keeps the CSRs. -/
@[simp] theorem withInst_csr : (s.withInst inst len).hs.csr = s.hs.csr := rfl

/-- `create_exception` does not see the instruction. -/
theorem createException_withInst (he : HartException) (tval : BitVec 64) :
    (s.withInst inst len).createException he tval =
      mapInst inst len (s.createException he tval) := by
  have h : TrapIgnores fun hs => { hs with inst := inst, instLen := len } := by
    constructor <;> intros <;> rfl
  exact congrArg (fun r => (r.1, s.setHs r.2)) (createException_comm h s.hs he tval)

/-- `HANDLE_MEM_ERROR` does not see the instruction. -/
theorem handleMemError_withInst (afault pfault : HartException) (tval : BitVec 64) :
    handleMemError afault pfault tval (s.withInst inst len) =
      (handleMemError afault pfault tval s).map (mapInst inst len) := by
  simp only [handleMemError, withInst_memStatus, withInst_pageFault, withInst_setMemStatus,
    withInst_setPageFault, createException_withInst]
  split
  · rfl
  · split <;> rfl

/-- The end of a jump does not see the instruction. -/
theorem jumped_withInst : jumped (s.withInst inst len) = mapInst inst len (jumped s) := by
  simp only [jumped, withInst_pc, createException_withInst]
  split <;> rfl

/-- An exception neither reads nor writes the integer registers. -/
theorem createException_setReg (rd : BitVec 5) (v : BitVec 64) (he : HartException)
    (tval : BitVec 64) :
    (s.setReg rd v).createException he tval =
      ((s.createException he tval).1, (s.createException he tval).2.setReg rd v) := by
  have h : TrapIgnores fun hs => { hs with regs := Function.update hs.regs rd v } := by
    constructor <;> intros <;> rfl
  exact congrArg (fun r => (r.1, s.setHs r.2)) (createException_comm h s.hs he tval)

/-- The end of a jump neither reads nor writes the integer registers. -/
theorem jumped_setReg (rd : BitVec 5) (v : BitVec 64) :
    jumped (s.setReg rd v) = ((jumped s).1, (jumped s).2.setReg rd v) := by
  have hpc : (s.setReg rd v).hs.pc = s.hs.pc := rfl
  simp only [jumped, hpc, createException_setReg]
  split <;> rfl

/-- `LOAD` does not see the instruction word. -/
theorem execLoad_withInst (d : Decoded) :
    execLoad env d (s.withInst inst len) = mapInst inst len (execLoad env d s) := by
  simp only [execLoad, withInst_regs, withInst_setMemStatus, virtMemFetch_withInst, mapInst,
    handleMemError_withInst]
  generalize virtMemFetch env _ (s.setMemStatus true) _ = r
  cases handleMemError _ _ _ r.2 <;> rfl

/-- `STORE` does not see the instruction word. -/
theorem execStore_withInst (d : Decoded) :
    execStore env d (s.withInst inst len) = mapInst inst len (execStore env d s) := by
  simp only [execStore, withInst_regs, withInst_setMemStatus, virtMemStore_withInst]
  cases d.funct3.getLsbD 2 with
  | false =>
    simp only [Bool.false_eq_true, ↓reduceIte, handleMemError_withInst]
    generalize virtMemStore env _ (s.setMemStatus false) _ _ = t
    cases handleMemError _ _ _ t <;> rfl
  | true =>
    simp only [↓reduceIte, handleMemError_withInst]
    cases handleMemError _ _ _ (s.setMemStatus false) <;> rfl

end Inst

/-! ## From the execute stage to the result -/

/-- The result of `decode_exc` for an outcome of the execute stage. -/
def finish (r : Flow × Sys δ) : HartException × Sys δ :=
  match r with
  | (.ret he, s) => (he, s)
  | (.brk pcChgd, s) => (.noexc, retire pcChgd s)

/-- Past the switch only the pc, `instbuf` and `minstret` change. -/
theorem finish_proj {β : Type} (f : HartState → β)
    (hf : ∀ hs pc instbuf minstret, f { hs with
      pc := pc, instbuf := instbuf, csr := { hs.csr with minstret := minstret } } = f hs)
    (r : Flow × Sys δ) : f (finish r).2.hs = f r.2.hs := by
  obtain ⟨flow, t⟩ := r
  cases flow with
  | ret he => rfl
  | brk pcChgd => cases pcChgd <;> exact hf t.hs _ _ _

/-- The execute stage and what follows it, in a state that holds the decoded instruction. -/
theorem runDecoded_eq_finish (env : Env δ) (d : Decoded) (s : Sys δ) (inst : BitVec 32)
    (len : BitVec 8) :
    runDecoded env d (s.withInst inst len) = finish (execute env d (s.withInst d.inst len)) := rfl

end RvEmu
