import RvEmu.Spec.FinalAddress
import RvEmu.Spec.Precise
import RvEmu.Spec.WalkPmp

/-!
# Machine mode and `satp`

In M-mode, with MPRV clear, loads, stores and AMOs do not look at `satp` or the
TLB. LR and SC walk the page tables even there, to find the address to reserve,
so that what they do depends on `satp`.
-/

namespace RvEmu

variable {δ : Type} (env : Env δ)

/-- The state with another `satp` and other TLB contents. -/
def Sys.withTranslation (s : Sys δ) (satp : BitVec 64) (tlb : TLBStruct) : Sys δ :=
  s.setHs { s.hs with tlb := tlb, csr := { s.hs.csr with satp := satp } }

/-- Replace `satp` and the TLB of a resulting state. -/
def mapTranslation {α : Type} (satp : BitVec 64) (tlb : TLBStruct) (r : α × Sys δ) : α × Sys δ :=
  (r.1, r.2.withTranslation satp tlb)

/-- The hart accesses memory as M-mode does. -/
structure MachineAccess (s : Sys δ) : Prop where
  privmode : s.hs.privmode = 3
  mprv : s.hs.csr.mstatus.getLsbD 17 = false

/-- The accesses to memory keep the mode and MPRV. -/
theorem MemFrame.machineAccess {s t : Sys δ} (h : MemFrame s t) (hs : MachineAccess s) :
    MachineAccess t :=
  ⟨h.privmode.trans hs.privmode, h.mstatus ▸ hs.mprv⟩

/-! ## Instructions that do not see `satp` -/

section Translation

variable (s : Sys δ) (satp : BitVec 64) (tlb : TLBStruct) (w : Width) (addr data : BitVec 64)

/-- Setting a flag commutes with another `satp` and TLB, … -/
@[simp] theorem withTranslation_setMemStatus (b : Bool) :
    (s.withTranslation satp tlb).setMemStatus b = (s.setMemStatus b).withTranslation satp tlb := rfl

/-- … as does the other flag, … -/
@[simp] theorem withTranslation_setPageFault (b : Bool) :
    (s.withTranslation satp tlb).setPageFault b =
      (s.setPageFault b).withTranslation satp tlb := rfl

/-- … and a register. -/
@[simp] theorem withTranslation_setReg (rd : BitVec 5) (v : BitVec 64) :
    (s.withTranslation satp tlb).setReg rd v = (s.setReg rd v).withTranslation satp tlb := rfl

/-- The flags are those of before, … -/
@[simp] theorem withTranslation_memStatus :
    (s.withTranslation satp tlb).hs.memStatus = s.hs.memStatus := rfl

/-- … both of them, … -/
@[simp] theorem withTranslation_pageFault :
    (s.withTranslation satp tlb).hs.pageFault = s.hs.pageFault := rfl

/-- … and so are the registers. -/
@[simp] theorem withTranslation_regs : (s.withTranslation satp tlb).hs.regs = s.hs.regs := rfl

/-- Physical memory does not depend on `satp`, for a fetch … -/
theorem phyMemFetch_withTranslation :
    phyMemFetch env w (s.withTranslation satp tlb) addr =
      mapTranslation satp tlb (phyMemFetch env w s addr) := by
  unfold phyMemFetch
  split
  · rfl
  · split
    · rfl
    · split <;> rfl

/-- … and for a store; … -/
theorem phyMemStore_withTranslation :
    phyMemStore env w (s.withTranslation satp tlb) addr data =
      (phyMemStore env w s addr data).withTranslation satp tlb := by
  unfold phyMemStore
  split
  · rfl
  · split <;> rfl

/-- … nor do the checks of PMP before a fetch … -/
theorem memFetch_withTranslation :
    memFetch env w (s.withTranslation satp tlb) addr =
      mapTranslation satp tlb (memFetch env w s addr) := by
  have hpmp : pmpRefusesFetch w (s.withTranslation satp tlb).hs addr =
      pmpRefusesFetch w s.hs addr := rfl
  simp only [memFetch, hpmp]
  split
  · rfl
  · exact phyMemFetch_withTranslation env (s.setMemStatus false) satp tlb w addr

/-- … and before a store. -/
theorem memStore_withTranslation :
    memStore env w (s.withTranslation satp tlb) addr data =
      (memStore env w s addr data).withTranslation satp tlb := by
  have hpmp : pmpRefusesStore w (s.withTranslation satp tlb).hs addr =
      pmpRefusesStore w s.hs addr := rfl
  simp only [memStore, hpmp]
  split
  · rfl
  · exact phyMemStore_withTranslation env (s.setMemStatus false) satp tlb w addr data

variable {s}

/-- MPRV is not in effect. -/
theorem mprvActive_machine (h : MachineAccess s) : mprvActive s.hs.csr.mstatus = false := by
  rw [mprvActive, h.mprv, Bool.false_and]

/-- Without translation an access is a physical one. -/
theorem virtMemFetch_machine (h : MachineAccess s) :
    virtMemFetch env w s addr = memFetch env w s addr := by
  simp only [virtMemFetch, h.privmode, mprvActive_machine h, Bool.and_false, Bool.not_false,
    ↓reduceIte]

/-- Without translation a store is a physical one. -/
theorem virtMemStore_machine (h : MachineAccess s) :
    virtMemStore env w s addr data = memStore env w s addr data := by
  simp only [virtMemStore, h.privmode, mprvActive_machine h, Bool.not_false, ↓reduceIte]

/-- In M-mode a fetch at a virtual address does not look at `satp`, … -/
theorem virtMemFetch_withTranslation (h : MachineAccess s) :
    virtMemFetch env w (s.withTranslation satp tlb) addr =
      mapTranslation satp tlb (virtMemFetch env w s addr) := by
  have h' : MachineAccess (s.withTranslation satp tlb) := ⟨h.privmode, h.mprv⟩
  rw [virtMemFetch_machine env w addr h, virtMemFetch_machine env w addr h',
    memFetch_withTranslation]

/-- … nor does a store. -/
theorem virtMemStore_withTranslation (h : MachineAccess s) :
    virtMemStore env w (s.withTranslation satp tlb) addr data =
      (virtMemStore env w s addr data).withTranslation satp tlb := by
  have h' : MachineAccess (s.withTranslation satp tlb) := ⟨h.privmode, h.mprv⟩
  rw [virtMemStore_machine env w addr data h, virtMemStore_machine env w addr data h',
    memStore_withTranslation]

variable (s)

/-- Neither does a trap, … -/
theorem createException_withTranslation (he : HartException) (tval : BitVec 64) :
    (s.withTranslation satp tlb).createException he tval =
      mapTranslation satp tlb (s.createException he tval) := by
  have h : TrapIgnores fun hs => { hs with tlb := tlb, csr := { hs.csr with satp := satp } } := by
    constructor <;> intros <;> rfl
  exact congrArg (fun r => (r.1, s.setHs r.2)) (createException_comm h s.hs he tval)

/-- … the test for a fault, … -/
theorem handleMemError_withTranslation (afault pfault : HartException) (tval : BitVec 64) :
    handleMemError afault pfault tval (s.withTranslation satp tlb) =
      (handleMemError afault pfault tval s).map (mapTranslation satp tlb) := by
  simp only [handleMemError, withTranslation_memStatus, withTranslation_pageFault,
    withTranslation_setMemStatus, withTranslation_setPageFault, createException_withTranslation]
  split
  · rfl
  · split <;> rfl

/-- … the end of `decode_exc`, … -/
theorem finish_mapTranslation (r : Flow × Sys δ) :
    finish (mapTranslation satp tlb r) = mapTranslation satp tlb (finish r) := by
  obtain ⟨f, t⟩ := r
  cases f with
  | ret he => rfl
  | brk pcChgd => cases pcChgd <;> rfl

variable {s}

/-- … a LOAD, … -/
theorem execLoad_withTranslation (h : MachineAccess s) (d : Decoded) :
    execLoad env d (s.withTranslation satp tlb) = mapTranslation satp tlb (execLoad env d s) := by
  have hs : MachineAccess (s.setMemStatus true) := ⟨h.privmode, h.mprv⟩
  simp only [execLoad, withTranslation_regs, withTranslation_setMemStatus,
    virtMemFetch_withTranslation env _ _ _ _ hs, mapTranslation, handleMemError_withTranslation]
  generalize virtMemFetch env _ (s.setMemStatus true) _ = r
  cases handleMemError _ _ _ r.2 <;> rfl

/-- … a STORE, … -/
theorem execStore_withTranslation (h : MachineAccess s) (d : Decoded) :
    execStore env d (s.withTranslation satp tlb) =
      mapTranslation satp tlb (execStore env d s) := by
  have hs : MachineAccess (s.setMemStatus false) := ⟨h.privmode, h.mprv⟩
  simp only [execStore, withTranslation_regs, withTranslation_setMemStatus,
    virtMemStore_withTranslation env _ _ _ _ _ hs]
  -- funct3 from 4 on stores nothing
  cases d.funct3.getLsbD 2 with
  | false =>
    simp only [Bool.false_eq_true, ↓reduceIte, handleMemError_withTranslation]
    generalize virtMemStore env _ (s.setMemStatus false) _ _ = t
    cases handleMemError _ _ _ t <;> rfl
  | true =>
    simp only [↓reduceIte, handleMemError_withTranslation]
    cases handleMemError _ _ _ (s.setMemStatus false) <;> rfl

/-- … or the store of an AMO. -/
theorem execAmoWrite_withTranslation (h : MachineAccess s) (d : Decoded) (funct5 : BitVec 5)
    (opAddr src usrc : BitVec 64) :
    execAmoWrite env d funct5 opAddr src usrc (s.withTranslation satp tlb) =
      mapTranslation satp tlb (execAmoWrite env d funct5 opAddr src usrc s) := by
  have hs : MachineAccess (s.setMemStatus false) := ⟨h.privmode, h.mprv⟩
  simp only [execAmoWrite, withTranslation_regs, withTranslation_setMemStatus,
    virtMemStore_withTranslation env _ _ _ _ _ hs, handleMemError_withTranslation]
  generalize virtMemStore env _ (s.setMemStatus false) _ _ = t
  cases handleMemError _ _ _ t <;> rfl

/-- The load of an LR or AMO in M-mode is refused; or a page fault has been left behind. -/
def AmoLoadFaults (s : Sys δ) (d : Decoded) : Prop :=
  (outOfRange env (s.hs.regs d.rs1) ||
    pmpRefusesFetch (amoWidth d) { s.hs with memStatus := true } (s.hs.regs d.rs1)) = true ∨
  s.hs.pageFault = true

/-- The flags that the load leaves. -/
theorem amoLoadFaults_iff (h : MachineAccess s) {d : Decoded} :
    AmoLoadFaults env s d ↔
      let r := virtMemFetch env (amoWidth d) (s.setMemStatus true) (s.hs.regs d.rs1)
      r.2.hs.memStatus = true ∨ r.2.hs.pageFault = true := by
  have hs : MachineAccess (s.setMemStatus true) := ⟨h.privmode, h.mprv⟩
  obtain ⟨hm, hp⟩ := memFetch_flags env (amoWidth d) (s.setMemStatus true) (s.hs.regs d.rs1)
  rw [virtMemFetch_machine env _ _ hs]
  dsimp only
  rw [hm, hp]
  rfl

/-- LR and AMO share the load into `rd`. -/
theorem execAmo_of_not_sc (s : Sys δ) {d : Decoded} (hsc : d.funct5 ≠ 0b00011) :
    execAmo env d s =
      let r := virtMemFetch env (amoWidth d) (s.setMemStatus true) (s.hs.regs d.rs1)
      match handleMemError .safault .spfault (s.hs.regs d.rs1) (r.2.setReg d.rd r.1) with
      | some t => trap t
      | none =>
        let u := (r.2.setReg d.rd r.1).setReg d.rd (amoSigned d ((r.2.setReg d.rd r.1).hs.regs d.rd))
        if d.funct5 = 0b00010 then execLrReserve env d u
        else execAmoWrite env d d.funct5 (s.hs.regs d.rs1) (amoSigned d (s.hs.regs d.rs2))
          (amoUnsigned d (s.hs.regs d.rs2)) u := if_neg hsc

/-- An AMO, or an LR whose load faults, does not see `satp`. -/
theorem execAmo_withTranslation (h : MachineAccess s) {d : Decoded} (hsc : d.funct5 ≠ 0b00011)
    (hlr : d.funct5 = 0b00010 → AmoLoadFaults env s d) :
    execAmo env d (s.withTranslation satp tlb) = mapTranslation satp tlb (execAmo env d s) := by
  have hs : MachineAccess (s.setMemStatus true) := ⟨h.privmode, h.mprv⟩
  have hframe := virtMemFetch_frame env (s.setMemStatus true) (amoWidth d) (s.hs.regs d.rs1)
  rw [amoLoadFaults_iff env h] at hlr
  simp only [execAmo_of_not_sc env _ hsc, withTranslation_regs, withTranslation_setMemStatus,
    virtMemFetch_withTranslation env _ _ _ _ hs, mapTranslation, withTranslation_setReg,
    handleMemError_withTranslation]
  generalize virtMemFetch env (amoWidth d) (s.setMemStatus true) (s.hs.regs d.rs1) = r
    at hframe hlr
  cases hm : handleMemError .safault .spfault (s.hs.regs d.rs1) (r.2.setReg d.rd r.1) with
  | some t => rfl
  | none =>
    obtain ⟨hm, hp⟩ := handleMemError_none hm
    -- an LR whose load has not faulted would walk the tables next
    have hnlr : d.funct5 ≠ 0b00010 := by
      intro hf
      rcases hlr hf with hf | hf
      · exact Bool.noConfusion (hm.symm.trans hf)
      · exact Bool.noConfusion (hp.symm.trans hf)
    simp only [Option.map_none, if_neg hnlr]
    have hmach : MachineAccess ((r.2.setReg d.rd r.1).setReg d.rd
        (amoSigned d ((r.2.setReg d.rd r.1).hs.regs d.rd))) :=
      ⟨(hframe.machineAccess hs).privmode, (hframe.machineAccess hs).mprv⟩
    exact execAmoWrite_withTranslation env satp tlb hmach d _ _ _ _

end Translation

/-! ## LR and SC -/

/-- Sv39 with its root table at address zero, where there is no memory. -/
def nullSv39 : BitVec 64 := 8#64 <<< 60

section Walk

variable (s : Sys δ) (satp : BitVec 64) (tlb : TLBStruct)

/-- A root table at address 0 lies in the lowest page, … -/
theorem pteAddrAt_zero_lt (va : BitVec 64) (i : Nat) : pteAddrAt 0 va i < 0x1000 := by
  have hmask : ((va >>> (9 * i + 12)) &&& 0b111111111) ≤ 0b111111111#64 := by
    rw [BitVec.le_def, BitVec.toNat_and]
    exact Nat.and_le_right
  unfold pteAddrAt
  generalize (va >>> (9 * i + 12)) &&& 0b111111111 = index at hmask
  bv_omega

/-- … where reading a PTE is refused. -/
theorem memFetch_nullTable (va : BitVec 64) (i : Nat) :
    memFetch env .u64 s (pteAddrAt 0 va i) = (0, s.setMemStatus true) := by
  have hrange : outOfRange env (pteAddrAt 0 va i) = true := by
    simp only [outOfRange, pteAddrAt_zero_lt, decide_true, Bool.true_or]
  simp only [memFetch, hrange, Bool.true_or, ↓reduceIte]

/-- A walk from the null table is refused. -/
theorem pageTableWalk_nullSv39 (va : BitVec 64) (isWrite : Bool) :
    pageTableWalk env (s.withTranslation nullSv39 tlb) va isWrite =
      (0, (s.withTranslation nullSv39 tlb).setMemStatus true) := by
  have hlevels : satpLevels (s.withTranslation nullSv39 tlb).hs.csr.satp = 3 := by
    change satpLevels nullSv39 = 3
    decide
  have hroot : satpRoot (s.withTranslation nullSv39 tlb).hs.csr.satp = 0 := by
    change satpRoot nullSv39 = 0
    decide
  simp only [pageTableWalk, hlevels, hroot, walkLoop, memFetch_nullTable]
  rfl

/-- Without a translation scheme the walk returns the address itself. -/
theorem pageTableWalk_withBare (va : BitVec 64) (isWrite : Bool) :
    pageTableWalk env (s.withTranslation 0 tlb) va isWrite =
      (va, (s.withTranslation 0 tlb).setMemStatus false) :=
  pageTableWalk_bare env (s := s.withTranslation 0 tlb) rfl va isWrite

/-- `HANDLE_MEM_ERROR` after an access fault. -/
theorem handleMemError_memStatus {afault pfault : HartException} {tval : BitVec 64} {s : Sys δ}
    (h : s.hs.memStatus = true) :
    handleMemError afault pfault tval s =
      some ((s.setMemStatus false).createException afault tval) := if_pos h

/-- The other flag is looked at second. -/
theorem handleMemError_pageFault {afault pfault : HartException} {tval : BitVec 64} {s : Sys δ}
    (hm : s.hs.memStatus = false) (hp : s.hs.pageFault = true) :
    handleMemError afault pfault tval s =
      some ((s.setPageFault false).createException pfault tval) := by
  simp only [handleMemError, hm, hp, Bool.false_eq_true, ↓reduceIte]

/-- With both flags clear there is nothing to handle. -/
theorem handleMemError_ok {afault pfault : HartException} {tval : BitVec 64} {s : Sys δ}
    (hm : s.hs.memStatus = false) (hp : s.hs.pageFault = false) :
    handleMemError afault pfault tval s = none := by
  simp only [handleMemError, hm, hp, Bool.false_eq_true, ↓reduceIte]

/-- LR reserves under one `satp`, and traps under another. -/
theorem execLrReserve_satp (d : Decoded) (hp : s.hs.pageFault = false) :
    (finish (execLrReserve env d (s.withTranslation 0 tlb))).1 = .noexc ∧
      (finish (execLrReserve env d (s.withTranslation nullSv39 tlb))).1 = .safault := by
  refine ⟨?_, ?_⟩
  · let u := ((s.setMemStatus true).setMemStatus false).withTranslation 0 tlb
    simp only [execLrReserve, withTranslation_setMemStatus, pageTableWalk_withBare]
    rw [handleMemError_ok (s := u) rfl hp]
    rfl
  · simp only [execLrReserve, withTranslation_setMemStatus, pageTableWalk_nullSv39]
    rw [handleMemError_memStatus rfl]
    exact createException_fst _ _ rfl

/-- What the claim compares: the exception, the registers, RAM and the reservations. -/
def observe (r : HartException × Sys δ) :
    HartException × (BitVec 5 → BitVec 64) × (BitVec 64 → BitVec 8) × (BitVec 16 → BitVec 64) :=
  (r.1, r.2.hs.regs, r.2.bus.mainMem, r.2.bus.reservations)

/-- What is observed of a trap. -/
theorem observe_trap {s : Sys δ} {he : HartException} {tval : BitVec 64} (h : he.interrupt = false) :
    observe (finish (trap (s.createException he tval))) =
      (he, s.hs.regs, s.bus.mainMem, s.bus.reservations) := by
  have hregs := (createException_recorded s.hs tval h).regs
  have hfst := createException_fst s tval h
  simp only [observe, finish, trap, hfst]
  rw [← hregs]
  rfl

/-- Nothing of the translation is observed. -/
theorem observe_mapTranslation (r : HartException × Sys δ) :
    observe (mapTranslation satp tlb r) = observe r := rfl

/-- The tables of `satp` keep an SC at `a` from anything but an access fault: there is no
    translation, or a PTE on the way is not granted, or a leaf passes the checks, has A and D
    as RAM keeps them, and leads back to `a` unless it may not be updated. -/
inductive WalkStays (a : BitVec 64) : Prop
  | bare (h : satpLevels s.hs.csr.satp = 0)
  | refused (x : BitVec 64)
    (hx : x ∈ tablePtes env a (pteGranted env s.hs s.hs.memStatus) (satpLevels s.hs.csr.satp)
      (satpRoot s.hs.csr.satp) s)
    (hno : pteGranted env s.hs s.hs.memStatus x = false)
  | leaf (l : Leaf) (hl : tableLeaf env a s = some l) (hpass : LeafPasses true s l)
    (hram : markedRam env true l.pteAddr s = s.bus.mainMem)
    (haddr : l.updateRefused s.hs = true ∨ l.address a = a)

/-- The SC at `a` traps with a store access fault whatever `satp` is: its
    reservation matches, the store is refused, and through no `satp` the walk of `a`
    ends in another way. -/
structure ScRefused (a : BitVec 64) (w : Width) : Prop where
  pageFault : s.hs.pageFault = false
  reserved : s.bus.reservations s.hs.hartid = a
  refused : (outOfRange env a || pmpRefusesStore w s.hs a) = true
  walks : ∀ satp tlb, WalkStays env (s.withTranslation satp tlb) a

variable {env s}

/-- The reads of a walk that are not granted. -/
theorem not_granted_iff {a x : BitVec 64} :
    (x, false) ∈ pteReads env a s ↔
      x ∈ tablePtes env a (pteGranted env s.hs s.hs.memStatus) (satpLevels s.hs.csr.satp)
        (satpRoot s.hs.csr.satp) s ∧ pteGranted env s.hs s.hs.memStatus x = false := by
  rw [pteReads, walkReads_eq, List.mem_map]
  constructor
  · rintro ⟨y, hy, he⟩
    obtain ⟨rfl, hno⟩ := Prod.mk.inj he
    exact ⟨hy, hno⟩
  · rintro ⟨hx, hno⟩
    exact ⟨x, hx, by rw [hno]⟩

/-- A walk that is not granted a read leaves RAM alone. -/
theorem pageTableWalk_refused_mainMem {a x : BitVec 64} (h : (x, false) ∈ pteReads env a s) :
    (pageTableWalk env s a true).2.bus.mainMem = s.bus.mainMem := by
  have hnone : (leafWalk env a s).1 = none := (walkPath_refused h).1
  exact pageTableWalk_none env a true (Prod.ext hnone rfl)

/-- How the walk of an SC may end: with RAM as it was, in an access fault or at `a`. -/
def StaysAt (env : Env δ) (s : Sys δ) (a : BitVec 64) : Prop :=
  let r := pageTableWalk env s a true
  r.2.bus.mainMem = s.bus.mainMem ∧
    (r.2.hs.memStatus = true ∨
      r.2.hs.memStatus = false ∧ r.2.hs.pageFault = false ∧ r.1 = a)

/-- A walk that stays by the tables ends in a fault or where it began, … -/
theorem WalkStays.staysAt {a : BitVec 64} (h : WalkStays env s a) (hp : s.hs.pageFault = false) :
    StaysAt env s a := by
  by_cases hgranted : ∃ x, (x, false) ∈ pteReads env a s
  · obtain ⟨x, hx⟩ := hgranted
    exact ⟨pageTableWalk_refused_mainMem hx, .inl (pageTableWalk_refused hx).2⟩
  · cases h with
    | bare hmode =>
      unfold StaysAt pageTableWalk
      rw [hmode]
      exact ⟨rfl, .inr ⟨rfl, hp, rfl⟩⟩
    | refused x hx hno => exact absurd ⟨x, not_granted_iff.mpr ⟨hx, hno⟩⟩ hgranted
    | leaf l hl hpass hram haddr =>
      -- the walk gets to the leaf
      have hfound : (leafWalk env a s).1 = some l := by
        refine walkPath_iff.mpr ⟨hl, fun x hx => ?_⟩
        by_contra hno
        exact hgranted ⟨x, not_granted_iff.mpr ⟨hx, Bool.eq_false_iff.mpr hno⟩⟩
      refine ⟨(pageTableWalk_marks hfound hpass).trans hram, ?_⟩
      cases hupdate : l.updateRefused s.hs with
      | true =>
        have hm := (@pageTableWalk_flags δ env a true s l hfound).2
        rw [leafPasses_iff.mp hpass, hupdate] at hm
        exact .inl hm
      | false =>
        have hback := haddr.resolve_left (by rw [hupdate]; exact Bool.false_ne_true)
        have htrans := (translatesBy_iff hfound hpass).mpr hupdate
        exact .inr ⟨htrans.memStatus, htrans.pageFault.trans hp, htrans.address.trans hback⟩

/-- … and only such a walk does. -/
theorem StaysAt.walkStays {a : BitVec 64} (h : StaysAt env s a) : WalkStays env s a := by
  by_cases hmode : satpLevels s.hs.csr.satp = 0
  · exact .bare hmode
  obtain ⟨hmem, hflags⟩ := h
  rcases hfound : (leafWalk env a s).1 with _ | l
  · -- without a leaf the walk has faulted
    have hwalk : leafWalk env a s = (none, (leafWalk env a s).2) := Prod.ext hfound rfl
    rw [pageTableWalk_noLeaf env a true hmode hwalk] at hflags
    have hm : (leafWalk env a s).2.hs.memStatus = true := by
      rcases hflags with hm | ⟨hm, hpf, -⟩
      · exact hm
      · rcases walkPath_none env a hwalk with hf | hf
        · exact Bool.noConfusion (hf.symm.trans hpf)
        · exact hf
    obtain ⟨x, hx⟩ := walkPath_not_granted (fun h0 => absurd h0 hmode) hwalk hm
    obtain ⟨hx, hno⟩ := not_granted_iff.mp hx
    exact .refused x hx hno
  · have hwalk : leafWalk env a s = (some l, (leafWalk env a s).2) := Prod.ext hfound rfl
    obtain ⟨hpf, hm⟩ := @pageTableWalk_flags δ env a true s l hfound
    have hpass : LeafPasses true s l := by
      rw [leafPasses_iff]
      by_contra hfault
      rw [Bool.not_eq_false] at hfault
      rw [hfault] at hpf hm
      rcases hflags with hm' | ⟨-, hpf', -⟩
      · exact Bool.noConfusion (hm'.symm.trans hm)
      · exact Bool.noConfusion (hpf'.symm.trans hpf)
    refine .leaf l (tablePath_of_walkPath env a hwalk) hpass
      ((pageTableWalk_marks hfound hpass).symm.trans hmem) ?_
    rw [leafPasses_iff.mp hpass] at hm
    rcases hflags with hm' | ⟨hm', -, haddr⟩
    · exact .inl (hm.symm.trans hm')
    · have hupdate : l.updateRefused s.hs = false := hm.symm.trans hm'
      exact .inr (((translatesBy_iff hfound hpass).mpr hupdate).address.symm.trans haddr)

/-- The tables decide how the walk of an SC ends. -/
theorem walkStays_iff {a : BitVec 64} (hp : s.hs.pageFault = false) :
    WalkStays env s a ↔ StaysAt env s a :=
  ⟨fun h => h.staysAt hp, StaysAt.walkStays⟩

end Walk

section Sc

variable {s : Sys δ}

/-- Why an SC in M-mode raises a store access fault: the walk is refused, or the
    store is. -/
def ScFaults (d : Decoded) (s : Sys δ) : Prop :=
  let r := pageTableWalk env s (s.hs.regs d.rs1) true
  r.2.hs.memStatus = true ∨ r.2.hs.memStatus = false ∧ r.2.hs.pageFault = false ∧
    s.bus.reservations s.hs.hartid = r.1 ∧
    (outOfRange env (s.hs.regs d.rs1) ||
      pmpRefusesStore (amoWidth d) s.hs (s.hs.regs d.rs1)) = true

/-- In M-mode an SC traps exactly as `ScFaults` says, and its trap changes RAM by its walk alone. -/
theorem execSc_machine (h : MachineAccess s) (d : Decoded) :
    ((finish (execSc env d s)).1 = .safault ↔ ScFaults env d s) ∧
    (ScFaults env d s → observe (finish (execSc env d s)) =
      (.safault, s.hs.regs, (pageTableWalk env s (s.hs.regs d.rs1) true).2.bus.mainMem,
        s.bus.reservations)) := by
  have hframe := pageTableWalk_frame env s (s.hs.regs d.rs1) true
  simp only [ScFaults, execSc]
  generalize pageTableWalk env s (s.hs.regs d.rs1) true = r at hframe
  -- the walk of SC ends in an access fault, in a page fault, or with an address
  cases hm : r.2.hs.memStatus with
  | true =>
    rw [handleMemError_memStatus hm]
    refine ⟨iff_of_true (createException_fst _ _ rfl) (.inl rfl), fun _ => ?_⟩
    rw [observe_trap rfl]
    exact congrArg₂ (fun x y => (_, x, _, y)) hframe.regs hframe.reservations
  | false =>
    cases hp : r.2.hs.pageFault with
    | true =>
      rw [handleMemError_pageFault hm hp]
      have hno : ¬ (false = true ∨ false = false ∧ true = false ∧
          s.bus.reservations s.hs.hartid = r.1 ∧ (outOfRange env (s.hs.regs d.rs1) ||
            pmpRefusesStore (amoWidth d) s.hs (s.hs.regs d.rs1)) = true) := by
        simp
      refine ⟨iff_of_false (fun h => ?_) hno, fun h => absurd h hno⟩
      have hexc : HartException.spfault.interrupt = false := rfl
      have hfst := createException_fst (r.2.setPageFault false) (s.hs.regs d.rs1) hexc
      exact HartException.noConfusion (hfst.symm.trans h)
    | false =>
      rw [handleMemError_ok hm hp]
      rw [hframe.reservations, hframe.hartid]
      have hmach : MachineAccess (r.2.setMemStatus true) :=
        ⟨(hframe.machineAccess h).privmode, (hframe.machineAccess h).mprv⟩
      have hpmp : pmpRefusesStore (amoWidth d) r.2.hs (s.hs.regs d.rs1) =
          pmpRefusesStore (amoWidth d) s.hs (s.hs.regs d.rs1) :=
        pmpRefusesStore_congr hframe.pmp hframe.privmode
      -- only an SC with a matching reservation gets to the store
      by_cases hres : s.bus.reservations s.hs.hartid = r.1
      · rw [if_pos hres, virtMemStore_machine env _ _ _ hmach]
        cases hrefused : outOfRange env (s.hs.regs d.rs1) ||
            pmpRefusesStore (amoWidth d) s.hs (s.hs.regs d.rs1) with
        | true =>
          rw [← hpmp] at hrefused
          rw [memStore_refused _ (s := r.2.setMemStatus true) hrefused,
            handleMemError_memStatus (s := (r.2.setMemStatus true).setMemStatus true) rfl]
          refine ⟨iff_of_true (createException_fst _ _ rfl) (.inr ⟨rfl, rfl, hres, rfl⟩), fun _ => ?_⟩
          rw [observe_trap rfl]
          exact congrArg₂ (fun x y => (_, x, _, y)) hframe.regs hframe.reservations
        | false =>
          rw [← hpmp] at hrefused
          rw [memStore_granted _ (s := r.2.setMemStatus true) hrefused]
          have hflags := phyMemStore_flags env (amoWidth d)
            ((r.2.setMemStatus true).setMemStatus false) (s.hs.regs d.rs1) (r.2.hs.regs d.rs2)
          have hno : ¬ (false = true ∨ false = false ∧ false = false ∧
              s.bus.reservations s.hs.hartid = r.1 ∧ false = true) := by
            simp
          rw [handleMemError_ok hflags.1 (hflags.2.trans hp)]
          exact ⟨iff_of_false HartException.noConfusion hno, fun h => absurd h hno⟩
      · rw [if_neg hres]
        have hno : ¬ (false = true ∨ false = false ∧ false = false ∧
            s.bus.reservations s.hs.hartid = r.1 ∧ (outOfRange env (s.hs.regs d.rs1) ||
              pmpRefusesStore (amoWidth d) s.hs (s.hs.regs d.rs1)) = true) := by
          simp [hres]
        exact ⟨iff_of_false HartException.noConfusion hno, fun h => absurd h hno⟩

end Sc

/-! ## The two-run property -/

/-- What the instruction does is the same for all `satp` and TLB contents. -/
def SatpBlind (s : Sys δ) : Prop :=
  ∀ satp tlb satp' tlb', observe (decodeExc env (s.withTranslation satp tlb)) =
    observe (decodeExc env (s.withTranslation satp' tlb'))

section Blind

variable {s : Sys δ} {d : Decoded}

/-- The execute stage of the instruction, under some `satp`. -/
theorem decodeExc_withTranslation (hd : Decodes s d) (satp : BitVec 64) (tlb : TLBStruct) :
    decodeExc env (s.withTranslation satp tlb) =
      finish (execute env d ((s.withInst d.inst s.hs.instLen).withTranslation satp tlb)) :=
  decodeExc_of_decodes env (s := s.withTranslation satp tlb) hd

/-- An execute stage that does not see `satp`. -/
theorem satpBlind_of_commutes (hd : Decodes s d)
    (h : ∀ satp tlb, execute env d ((s.withInst d.inst s.hs.instLen).withTranslation satp tlb) =
      mapTranslation satp tlb (execute env d (s.withInst d.inst s.hs.instLen))) :
    SatpBlind env s := by
  intro satp tlb satp' tlb'
  rw [decodeExc_withTranslation env hd, decodeExc_withTranslation env hd, h, h,
    finish_mapTranslation, finish_mapTranslation, observe_mapTranslation, observe_mapTranslation]

/-- The first access does not see the instruction word, … -/
theorem amoLoadFaults_withInst (inst : BitVec 32) (len : BitVec 8) :
    AmoLoadFaults env (s.withInst inst len) d ↔ AmoLoadFaults env s d := Iff.rfl

/-- The walk does not see the instruction either. -/
theorem walkStays_withInst (hp : s.hs.pageFault = false) (inst : BitVec 32) (len : BitVec 8)
    (a : BitVec 64) : WalkStays env (s.withInst inst len) a ↔ WalkStays env s a := by
  have hp' : (s.withInst inst len).hs.pageFault = false := hp
  rw [walkStays_iff hp', walkStays_iff hp, StaysAt, pageTableWalk_withInst env s inst len a true]
  exact Iff.rfl

/-- … nor does what an SC is refused. -/
theorem scRefused_withInst (inst : BitVec 32) (len : BitVec 8) (a : BitVec 64) (w : Width) :
    ScRefused env (s.withInst inst len) a w ↔ ScRefused env s a w := by
  refine ⟨fun h => ⟨h.pageFault, h.reserved, h.refused, fun satp tlb => ?_⟩,
    fun h => ⟨h.pageFault, h.reserved, h.refused, fun satp tlb => ?_⟩⟩
  · have hp : (s.withTranslation satp tlb).hs.pageFault = false := h.pageFault
    exact (walkStays_withInst env hp inst len a).mp (h.walks satp tlb)
  · have hp : (s.withTranslation satp tlb).hs.pageFault = false := h.pageFault
    exact (walkStays_withInst env hp inst len a).mpr (h.walks satp tlb)

/-- An LR whose load does not fault gets to its own walk, in the same state for all
    `satp`. -/
theorem execAmo_lr_withTranslation (h : MachineAccess s) (hlr : d.funct5 = 0b00010)
    (hload : ¬ AmoLoadFaults env s d) :
    ∃ u : Sys δ, u.hs.pageFault = false ∧ ∀ satp tlb,
      execAmo env d (s.withTranslation satp tlb) =
        execLrReserve env d (u.withTranslation satp tlb) := by
  have hs : MachineAccess (s.setMemStatus true) := ⟨h.privmode, h.mprv⟩
  have hsc : d.funct5 ≠ 0b00011 := by
    rw [hlr]
    decide
  rw [amoLoadFaults_iff env h] at hload
  simp only [execAmo_of_not_sc env _ hsc, withTranslation_regs, withTranslation_setMemStatus,
    virtMemFetch_withTranslation env _ _ _ _ hs, mapTranslation, withTranslation_setReg,
    handleMemError_withTranslation]
  generalize virtMemFetch env (amoWidth d) (s.setMemStatus true) (s.hs.regs d.rs1) = r at hload
  simp only [not_or, Bool.not_eq_true] at hload
  have hok : handleMemError .safault .spfault (s.hs.regs d.rs1) (r.2.setReg d.rd r.1) = none :=
    handleMemError_ok hload.1 hload.2
  -- the state behind the load is where LR walks the tables
  refine ⟨(r.2.setReg d.rd r.1).setReg d.rd
    (amoSigned d ((r.2.setReg d.rd r.1).hs.regs d.rd)), hload.2, fun satp tlb => ?_⟩
  rw [hok, if_pos hlr]
  rfl

/-- An LR whose load does not fault depends on `satp`. -/
theorem lr_not_blind (h : MachineAccess s) (hd : Decodes s d) (hlr : d.IsLr)
    (hload : ¬ AmoLoadFaults env s d) : ¬ SatpBlind env s := by
  intro hblind
  let u := s.withInst d.inst s.hs.instLen
  have hu : MachineAccess u := ⟨h.privmode, h.mprv⟩
  have hload' : ¬ AmoLoadFaults env u d := fun hl => hload ((amoLoadFaults_withInst env _ _).mp hl)
  obtain ⟨v, hp, hexec⟩ := execAmo_lr_withTranslation env hu hlr.2 hload'
  have hamo (satp : BitVec 64) (tlb : TLBStruct) : execute env d (u.withTranslation satp tlb) =
      execLrReserve env d (v.withTranslation satp tlb) := by
    rw [execute, hlr.1]
    exact hexec satp tlb
  -- without translation LR reserves, with a table at 0 its walk faults
  have hsame := congrArg Prod.fst (hblind 0 tlbClear nullSv39 tlbClear)
  rw [decodeExc_withTranslation env hd, decodeExc_withTranslation env hd] at hsame
  rw [hamo, hamo] at hsame
  obtain ⟨hbare, hnull⟩ := execLrReserve_satp env v tlbClear d hp
  exact HartException.noConfusion (hbare.symm.trans (hsame.trans hnull))

/-- The execute stage of an SC does not depend on `satp` only if it always faults. -/
theorem execSc_blind_iff (h : MachineAccess s) :
    (∀ satp tlb satp' tlb', observe (finish (execSc env d (s.withTranslation satp tlb))) =
      observe (finish (execSc env d (s.withTranslation satp' tlb')))) ↔
    ScRefused env s (s.hs.regs d.rs1) (amoWidth d) := by
  have hmach (satp : BitVec 64) (tlb : TLBStruct) : MachineAccess (s.withTranslation satp tlb) :=
    ⟨h.privmode, h.mprv⟩
  have hspec (satp : BitVec 64) (tlb : TLBStruct) := execSc_machine env (hmach satp tlb) d
  refine ⟨fun hblind => ?_, fun hr satp tlb satp' tlb' => ?_⟩
  · -- the null table faults, so all `satp` do
    have hnull : ScFaults env d (s.withTranslation nullSv39 tlbClear) := by
      unfold ScFaults
      rw [pageTableWalk_nullSv39]
      exact .inl rfl
    have hall (satp : BitVec 64) (tlb : TLBStruct) : ScFaults env d (s.withTranslation satp tlb) :=
      (hspec satp tlb).1.mp
        ((congrArg Prod.fst (hblind satp tlb nullSv39 tlbClear)).trans
          ((hspec nullSv39 tlbClear).1.mpr hnull))
    have hbare := hall 0 tlbClear
    have hmem := (hspec 0 tlbClear).2 hbare
    unfold ScFaults at hbare
    rw [pageTableWalk_withBare] at hbare hmem
    rcases hbare with hbare | ⟨-, hp, hres, hrefused⟩
    · cases hbare
    · have hpf : s.hs.pageFault = false := hp
      refine ⟨hpf, hres, hrefused, fun satp tlb => ?_⟩
      have hpf' : (s.withTranslation satp tlb).hs.pageFault = false := hpf
      refine (walkStays_iff hpf').mpr ⟨?_, ?_⟩
      · have hsame := (((hspec satp tlb).2 (hall satp tlb)).symm.trans
          (hblind satp tlb 0 tlbClear)).trans hmem
        exact congrArg (·.2.2.1) hsame
      · rcases hall satp tlb with hm | ⟨hm, hp, hres', -⟩
        · exact .inl hm
        · exact .inr ⟨hm, hp, hres'.symm.trans hres⟩
  · have hall (satp : BitVec 64) (tlb : TLBStruct) :
        observe (finish (execSc env d (s.withTranslation satp tlb))) =
          (.safault, s.hs.regs, s.bus.mainMem, s.bus.reservations) := by
      have hp : (s.withTranslation satp tlb).hs.pageFault = false := hr.pageFault
      obtain ⟨hmem, hwalk⟩ := (walkStays_iff hp).mp (hr.walks satp tlb)
      have hf : ScFaults env d (s.withTranslation satp tlb) := by
        rcases hwalk with hm | ⟨hm, hp, ha⟩
        · exact .inl hm
        · exact .inr ⟨hm, hp, hr.reserved.trans ha.symm, hr.refused⟩
      have hobs := (hspec satp tlb).2 hf
      rw [withTranslation_regs] at hobs
      rw [hobs, hmem]
      rfl
    rw [hall, hall]

/-- In M-mode with MPRV clear, loads, stores and AMOs are the same for all `satp`
    and TLB contents. So is an LR only if its load faults, and an SC only if it
    traps with a store access fault whatever `satp` is. -/
theorem machine_ignores_satp_iff (h : MachineAccess s) (hd : Decodes s d)
    (hop : d.opFun = .load ∨ d.opFun = .store ∨ d.opFun = .amo) :
    SatpBlind env s ↔ (d.IsLr → AmoLoadFaults env s d) ∧
      (d.IsSc → ScRefused env s (s.hs.regs d.rs1) (amoWidth d)) := by
  let u := s.withInst d.inst s.hs.instLen
  have hu : MachineAccess u := ⟨h.privmode, h.mprv⟩
  by_cases hamo : d.opFun = .amo
  · have hexec (satp : BitVec 64) (tlb : TLBStruct) :
        execute env d (u.withTranslation satp tlb) = execAmo env d (u.withTranslation satp tlb) := by
      rw [execute, hamo]
    -- SC and LR walk the tables themselves; the other AMOs do not
    by_cases hsc : d.funct5 = 0b00011
    · have hlr : ¬ d.IsLr := fun hlr => absurd (hsc.symm.trans hlr.2) (by decide)
      have hexec (satp : BitVec 64) (tlb : TLBStruct) :
          decodeExc env (s.withTranslation satp tlb) =
            finish (execSc env d (u.withTranslation satp tlb)) := by
        rw [decodeExc_withTranslation env hd]
        exact congrArg finish ((hexec satp tlb).trans (if_pos hsc))
      simp only [SatpBlind, hexec]
      rw [execSc_blind_iff env hu, scRefused_withInst]
      exact ⟨fun hr => ⟨fun hl => absurd hl hlr, fun _ => hr⟩, fun hr => hr.2 ⟨hamo, hsc⟩⟩
    · have hnsc : ¬ d.IsSc := fun hd => hsc hd.2
      refine ⟨fun hblind => ⟨fun hlr => ?_, fun hd => absurd hd hnsc⟩, fun hr => ?_⟩
      · by_contra hload
        exact lr_not_blind env h hd hlr hload hblind
      · have hload : d.funct5 = 0b00010 → AmoLoadFaults env u d := fun hlr =>
          (amoLoadFaults_withInst env _ _).mpr (hr.1 ⟨hamo, hlr⟩)
        refine satpBlind_of_commutes env hd fun satp tlb => ?_
        have hself : execute env d u = execAmo env d u := by rw [execute, hamo]
        rw [show s.withInst d.inst s.hs.instLen = u from rfl, hexec, hself]
        exact execAmo_withTranslation env satp tlb hu hsc hload
  · have hno : ¬ d.IsLr ∧ ¬ d.IsSc := ⟨fun hd => hamo hd.1, fun hd => hamo hd.1⟩
    refine iff_of_true (satpBlind_of_commutes env hd fun satp tlb => ?_)
      ⟨fun hd => absurd hd hno.1, fun hd => absurd hd hno.2⟩
    rcases hop with hop | hop | hop
    · simp only [execute, hop]
      exact execLoad_withTranslation env satp tlb hu d
    · simp only [execute, hop]
      exact execStore_withTranslation env satp tlb hu d
    · exact absurd hop hamo

end Blind

/-- M-mode firmware that reads a word of RAM with an LR. -/
private def lrProgram : List (BitVec 32) := [
  0x100422AF] -- lr.w x5, (x8)

private def lrState : Sys Unit := fetchedAfter Env.inert 3 (boot lrProgram)

/-- M-mode without MPRV, … -/
private theorem lrState_machine : MachineAccess lrState :=
  ⟨by decide +kernel, by decide +kernel⟩

/-- … at an LR. -/
private theorem lrState_decodes : Decodes lrState (decode32 0x100422AF) :=
  have hinst : lrState.hs.inst = 0x100422AF := by decide +kernel
  .inr ⟨by decide +kernel, congrArg decode32 hinst⟩

/-- `lr.w x5, (x8)` -/
theorem machine_ignores_satp_lr :
    SatpBlind Env.inert lrState ↔
      ((decode32 0x100422AF).IsLr → AmoLoadFaults Env.inert lrState (decode32 0x100422AF)) ∧
      ((decode32 0x100422AF).IsSc → ScRefused Env.inert lrState
        (lrState.hs.regs (decode32 0x100422AF).rs1) (amoWidth (decode32 0x100422AF))) :=
  machine_ignores_satp_iff Env.inert lrState_machine lrState_decodes (.inr (.inr rfl))

/-- The LR reserves the word under Bare, and faults under an unusable Sv39. -/
theorem machine_lr_sees_satp :
    ¬ ∀ s d, MachineAccess s → Decodes s d →
      (d.opFun = .load ∨ d.opFun = .store ∨ d.opFun = .amo) → SatpBlind Env.inert s := by
  intro h
  have hblind := h lrState _ lrState_machine lrState_decodes (.inr (.inr rfl))
  have hsame := congrArg Prod.fst (hblind 0 tlbClear nullSv39 tlbClear)
  have hne : (observe (decodeExc Env.inert (lrState.withTranslation 0 tlbClear))).1 ≠
      (observe (decodeExc Env.inert (lrState.withTranslation nullSv39 tlbClear))).1 := by
    decide +kernel
  exact hne hsame

end RvEmu
