import RvEmu.Spec.Frame
import RvEmu.Spec.Trap

/-!
# What an instruction can change

Most instructions change the integer registers, the pc and memory, but not the
part of the hart that decides what it may access: its mode, the PMP, and the
CSRs other than the counters and `mip`. This part is `HartState.control`; only
the cases of `SYSTEM` and the traps touch it.
-/

namespace RvEmu

variable {δ : Type}

/-- The part of a hart that only `SYSTEM` instructions and traps change. -/
def HartState.control (hs : HartState) : HartState :=
  { hs with
    regs := fun _ => 0, pc := 0, inst := 0, instbuf := 0, instLen := 0
    memStatus := false, pageFault := false, tlb := tlbClear, chkInt := false
    csr := { hs.csr with mip := 0, mcycle := 0, minstret := 0, cycle := 0, instret := 0 } }

/-- The control state has not changed. -/
def SameControl (s s' : Sys δ) : Prop := s'.hs.control = s.hs.control

namespace SameControl

variable {s s' s'' : Sys δ}

/-- A state has its own control state. -/
theorem refl (s : Sys δ) : SameControl s s := rfl

/-- The relation is transitive. -/
theorem trans (h : SameControl s s') (h' : SameControl s' s'') : SameControl s s'' :=
  Eq.trans h' h

/-- Whatever the control state determines is unchanged. -/
theorem proj {α : Type} (h : SameControl s s') (f : HartState → α) :
    f s'.hs.control = f s.hs.control := congrArg f h

/-- The control state is part of the hart. -/
theorem of_hs (h : SameControl s s') (hs : s''.hs = s'.hs) : SameControl s s'' :=
  (congrArg HartState.control hs).trans h

/-- The mode is part of the control state. -/
theorem privmode (h : SameControl s s') : s'.hs.privmode = s.hs.privmode := h.proj (·.privmode)

/-- The PMP registers and their table are. -/
theorem pmp (h : SameControl s s') : s'.hs.pmp = s.hs.pmp := h.proj (·.pmp)

/-- The number of the hart is. -/
theorem hartid (h : SameControl s s') : s'.hs.hartid = s.hs.hartid := h.proj (·.hartid)

/-- `satp` is. -/
theorem satp (h : SameControl s s') : s'.hs.csr.satp = s.hs.csr.satp := h.proj (·.csr.satp)

/-- `mstatus` is. -/
theorem mstatus (h : SameControl s s') : s'.hs.csr.mstatus = s.hs.csr.mstatus :=
  h.proj (·.csr.mstatus)

end SameControl

/-- What memory accesses change is not control state. -/
theorem MemFrame.sameControl {s s' : Sys δ} (h : MemFrame s s') : SameControl s s' :=
  (h.proj HartState.control :)

/-- Neither the control state nor the reservations have changed. -/
def Kept (s s' : Sys δ) : Prop :=
  (s'.hs.control, s'.bus.reservations) = (s.hs.control, s.bus.reservations)

namespace Kept

variable {s s' s'' : Sys δ}

/-- A state keeps what it has. -/
theorem refl (s : Sys δ) : Kept s s := rfl

/-- What is kept twice is kept. -/
theorem trans (h : Kept s s') (h' : Kept s' s'') : Kept s s'' := Eq.trans h' h

/-- The control state is kept. -/
theorem control (h : Kept s s') : SameControl s s' := congrArg Prod.fst h

/-- The reservations are kept. -/
theorem reservations (h : Kept s s') : s'.bus.reservations = s.bus.reservations :=
  congrArg Prod.snd h

end Kept

/-- A memory access keeps the control state and the reservations. -/
theorem MemFrame.kept {s s' : Sys δ} (h : MemFrame s s') : Kept s s' :=
  Prod.ext h.sameControl h.reservations

/-! ## Outcomes of the execute stage -/

/-- The execute stage ends in a trap taken in a state with `P`, or breaks out of
    the switch in a state with `Q`. -/
inductive Ends (P : HartException → BitVec 64 → Sys δ → Prop) (Q : Bool → Sys δ → Prop) :
    Flow × Sys δ → Prop
  | trap (t : Sys δ) (he : HartException) (tval : BitVec 64) (ht : P he tval t)
    (hexc : he.interrupt = false) : Ends P Q (trap (t.createException he tval))
  | brk (pcChgd : Bool) (t : Sys δ) (ht : Q pcChgd t) : Ends P Q (.brk pcChgd, t)

/-- Weakening the two postconditions of an execute stage. -/
theorem Ends.mono {P P' : HartException → BitVec 64 → Sys δ → Prop} {Q Q' : Bool → Sys δ → Prop}
    {r : Flow × Sys δ} (h : Ends P Q r) (hP : ∀ he tval t, P he tval t → P' he tval t)
    (hQ : ∀ b t, Q b t → Q' b t) : Ends P' Q' r := by
  cases h with
  | trap t he tval ht hexc => exact .trap t he tval (hP he tval t ht) hexc
  | brk pcChgd t ht => exact .brk pcChgd t (hQ pcChgd t ht)

/-- What holds behind the trap, and where the switch is left. -/
theorem Ends.state {P : HartException → BitVec 64 → Sys δ → Prop} {Q : Bool → Sys δ → Prop}
    {R : Sys δ → Prop} {r : Flow × Sys δ} (h : Ends P Q r)
    (hP : ∀ he tval t, P he tval t → R (t.createException he tval).2)
    (hQ : ∀ b t, Q b t → R t) : R r.2 := by
  cases h with
  | trap t he tval ht _ => exact hP he tval t ht
  | brk pcChgd t ht => exact hQ pcChgd t ht

/-- The same property for both ends. -/
abbrev Outcome (P : Sys δ → Prop) : Flow × Sys δ → Prop := Ends (fun _ _ => P) (fun _ => P)

/-- Weakening a postcondition that both ends share. -/
theorem Outcome.mono {P Q : Sys δ → Prop} {r : Flow × Sys δ} (h : Outcome P r)
    (hPQ : ∀ t, P t → Q t) : Outcome Q r :=
  Ends.mono h (fun _ _ => hPQ) (fun _ => hPQ)

/-- An instruction that keeps the reservations as well. -/
theorem Outcome.control {s : Sys δ} {r : Flow × Sys δ} (h : Outcome (Kept s) r) :
    Outcome (SameControl s) r := h.mono fun _ => Kept.control

/-- `HANDLE_MEM_ERROR` only clears a flag before it traps. -/
theorem handleMemError_cases {afault pfault : HartException} {tval : BitVec 64} {s : Sys δ}
    {t : HartException × Sys δ} (h : handleMemError afault pfault tval s = some t) :
    t = (s.setMemStatus false).createException afault tval ∨
    t = (s.setPageFault false).createException pfault tval := by
  unfold handleMemError at h
  split at h
  · exact .inl (Option.some.inj h).symm
  · split at h
    · exact .inr (Option.some.inj h).symm
    · cases h

/-- `HANDLE_MEM_ERROR` raises an exception only if a flag is set. -/
theorem handleMemError_some {afault pfault : HartException} {tval : BitVec 64} {s : Sys δ}
    {r : HartException × Sys δ} (h : handleMemError afault pfault tval s = some r) :
    ¬ (s.hs.memStatus = false ∧ s.hs.pageFault = false) := by
  rintro ⟨hm, hp⟩
  rw [handleMemError, hm, hp] at h
  cases h

/-- `HANDLE_MEM_ERROR` goes on only if neither flag is set. -/
theorem handleMemError_none {afault pfault : HartException} {tval : BitVec 64} {s : Sys δ}
    (h : handleMemError afault pfault tval s = none) :
    s.hs.memStatus = false ∧ s.hs.pageFault = false := by
  unfold handleMemError at h
  split at h
  · cases h
  · next hm =>
    split at h
    · cases h
    · next hp => exact ⟨Bool.eq_false_iff.mpr hm, Bool.eq_false_iff.mpr hp⟩

section Dispatch

variable (env : Env δ) {d : Decoded} {s : Sys δ}

/-- The switch at `LOAD`. -/
theorem execute_load (h : d.opFun = .load) : execute env d s = execLoad env d s := by
  rw [execute, h]

/-- The switch at `STORE`. -/
theorem execute_store (h : d.opFun = .store) : execute env d s = execStore env d s := by
  rw [execute, h]

/-- The switch at `AMO`. -/
theorem execute_amo (h : d.opFun = .amo) : execute env d s = execAmo env d s := by
  rw [execute, h]

/-- The switch at `SYSTEM`. -/
theorem execute_system (h : d.opFun = .system) : execute env d s = execSystem env d s := by
  rw [execute, h]

end Dispatch

section Execute

variable (env : Env δ) (d : Decoded) (s : Sys δ)

/-- The trap of `HANDLE_MEM_ERROR`. -/
theorem ends_memError {P : HartException → BitVec 64 → Sys δ → Prop} {Q : Bool → Sys δ → Prop}
    {afault pfault : HartException} {tval : BitVec 64} {t : Sys δ} {r : HartException × Sys δ}
    (h : handleMemError afault pfault tval t = some r)
    (hm : P afault tval (t.setMemStatus false)) (hf : P pfault tval (t.setPageFault false))
    (ha : afault.interrupt = false) (hp : pfault.interrupt = false) : Ends P Q (trap r) := by
  rcases handleMemError_cases h with rfl | rfl
  · exact .trap _ afault tval hm ha
  · exact .trap _ pfault tval hf hp

/-- An illegal instruction ends with a trap. -/
theorem illinst_outcome {s t : Sys δ} (hs : Kept s t) :
    Outcome (Kept s) (illinst t) := .trap t .illinst _ hs rfl

/-- A jump ends with a trap if its target is misaligned. -/
theorem jumped_outcome {s t : Sys δ} (hs : Kept s t) :
    Outcome (Kept s) (jumped t) := by
  unfold jumped
  split
  · exact .trap t .imisalign _ hs rfl
  · exact .brk true t hs

/-- An instruction that only writes `rd`. -/
theorem writeback_outcome (v : Option (BitVec 64)) :
    Outcome (Kept s) (writeback d s v) := by
  cases v with
  | some v => exact .brk false _ (.refl s)
  | none => exact .brk false _ (.refl s)

/-- `BRANCH` changes the pc alone. -/
theorem execBranch_outcome : Outcome (Kept s) (execBranch d s) := by
  unfold execBranch
  split
  · exact jumped_outcome (t := s.setPc _) (.refl s)
  · exact .brk false s (.refl s)

/-- A property that the memory operations and writes to the integer registers preserve. -/
structure MemClosed (env : Env δ) (P : Sys δ → Prop) : Prop where
  setMemStatus : ∀ {s : Sys δ} (b : Bool), P s → P (s.setMemStatus b)
  setPageFault : ∀ {s : Sys δ} (b : Bool), P s → P (s.setPageFault b)
  setReg : ∀ {s : Sys δ} (rd : BitVec 5) (v : BitVec 64), P s → P (s.setReg rd v)
  walk : ∀ {s : Sys δ} (va : BitVec 64) (isWrite : Bool), P s → P (pageTableWalk env s va isWrite).2
  fetch : ∀ {s : Sys δ} (w : Width) (va : BitVec 64), P s → P (virtMemFetch env w s va).2
  store : ∀ {s : Sys δ} (w : Width) (va data : BitVec 64), P s → P (virtMemStore env w s va data)

/-- A property that frames keep is closed under memory accesses. -/
theorem MemClosed.of_frame {P : Sys δ → Prop} (hframe : ∀ {s t : Sys δ}, MemFrame s t → P s → P t)
    (hreg : ∀ {s : Sys δ} (rd : BitVec 5) (v : BitVec 64), P s → P (s.setReg rd v)) :
    MemClosed env P where
  setMemStatus b h := hframe ((MemFrame.refl _).setMemStatus b) h
  setPageFault b h := hframe ((MemFrame.refl _).setPageFault b) h
  setReg := hreg
  walk va isWrite h := hframe (pageTableWalk_frame env _ va isWrite) h
  fetch w va h := hframe (virtMemFetch_frame env _ w va) h
  store w va data h := hframe (virtMemStore_frame env _ w va data) h

/-- The outcome of a memory instruction: past its tests, it leaves no flag behind. -/
abbrev MemOutcome (P : Sys δ → Prop) : Flow × Sys δ → Prop :=
  Ends (fun _ _ => P) (fun _ t => P t ∧ t.hs.memStatus = false ∧ t.hs.pageFault = false)

/-- Past `HANDLE_MEM_ERROR`. -/
theorem memOutcome_passed {P : Sys δ → Prop} {afault pfault : HartException}
    {tval : BitVec 64} {t u : Sys δ} (h : handleMemError afault pfault tval t = none) (hu : P u)
    (hflags : (u.hs.memStatus, u.hs.pageFault) = (t.hs.memStatus, t.hs.pageFault)) :
    MemOutcome P (.brk false, u) := by
  obtain ⟨hm, hp⟩ := handleMemError_none h
  exact .brk false u ⟨hu, (congrArg Prod.fst hflags).trans hm, (congrArg Prod.snd hflags).trans hp⟩

/-- The end of a memory instruction is one of the two ends. -/
theorem MemOutcome.outcome {P : Sys δ → Prop} {r : Flow × Sys δ} (h : MemOutcome P r) :
    Outcome P r :=
  Ends.mono h (fun _ _ _ ht => ht) fun _ _ ht => ht.1

section MemClosed

variable {P : Sys δ → Prop} (hP : MemClosed env P) {s}
include hP

/-- The fault exit of `HANDLE_MEM_ERROR`. -/
theorem MemClosed.memError {afault pfault : HartException} {tval : BitVec 64} {t : Sys δ}
    {r : HartException × Sys δ} (h : handleMemError afault pfault tval t = some r) (ht : P t)
    (ha : afault.interrupt = false) (hp : pfault.interrupt = false) : MemOutcome P (trap r) :=
  ends_memError h (hP.setMemStatus false ht) (hP.setPageFault false ht) ha hp

/-- `LOAD` ends with the property kept. -/
theorem MemClosed.execLoad (h : P s) : MemOutcome P (execLoad env d s) := by
  have hfetch := hP.fetch (accessWidth (d.funct3.setWidth 2)) (s.hs.regs d.rs1 + d.imm)
    (hP.setMemStatus true h)
  unfold RvEmu.execLoad
  dsimp only
  split
  · next t ht => exact hP.memError env ht hfetch rfl rfl
  · next hok => exact memOutcome_passed hok (hP.setReg d.rd _ hfetch) rfl

/-- `STORE` ends with the property kept. -/
theorem MemClosed.execStore (h : P s) : MemOutcome P (execStore env d s) := by
  have hstart := hP.setMemStatus false h
  have hstore := hP.store (accessWidth (d.funct3.setWidth 2)) (s.hs.regs d.rs1 + d.imm)
    (s.hs.regs d.rs2) hstart
  unfold RvEmu.execStore
  dsimp only
  -- funct3 from 4 on leaves out the store
  generalize hu : (if d.funct3.getLsbD 2 = true then s.setMemStatus false else _) = u
  have hs : P u := by
    rw [← hu]
    split
    · exact hstart
    · exact hstore
  split
  · next t ht => exact hP.memError env ht hs rfl rfl
  · next hok => exact memOutcome_passed hok hs rfl

/-- The store of an AMO ends with the property kept. -/
theorem MemClosed.execAmoWrite (h : P s) (funct5 : BitVec 5) (opAddr src usrc : BitVec 64) :
    MemOutcome P (execAmoWrite env d funct5 opAddr src usrc s) := by
  unfold RvEmu.execAmoWrite
  dsimp only
  generalize amoValue funct5 _ src _ usrc = v
  have hstore := hP.store (amoWidth d) opAddr v (hP.setMemStatus false h)
  split
  · next t ht => exact hP.memError env ht hstore rfl rfl
  · next hok => exact memOutcome_passed hok hstore rfl

/-! LR and SC write to the reservations, too. -/

variable (hbus : ∀ {s t : Sys δ}, P s → t.hs = s.hs → P t)
include hbus

/-- SC ends with the property kept. -/
theorem MemClosed.execSc (h : P s) : MemOutcome P (execSc env d s) := by
  have hwalk := hP.walk (s.hs.regs d.rs1) true h
  unfold RvEmu.execSc
  dsimp only
  generalize pageTableWalk env s (s.hs.regs d.rs1) true = r at hwalk
  split
  · next t ht => exact hP.memError env ht hwalk rfl rfl
  · next hok =>
    -- the reservation decides between the store and the failure code
    split
    · have hstore := hP.store (amoWidth d) (s.hs.regs d.rs1) (r.2.hs.regs d.rs2)
        (hP.setMemStatus true hwalk)
      split
      · next t ht => exact hP.memError env ht hstore rfl rfl
      · next hok' => exact memOutcome_passed hok' (hbus (hP.setReg d.rd 0 hstore) rfl) rfl
    · exact memOutcome_passed hok (hbus (hP.setReg d.rd 1 hwalk) rfl) rfl

/-- The reservation of an LR ends with the property kept. -/
theorem MemClosed.execLrReserve (h : P s) : MemOutcome P (execLrReserve env d s) := by
  have hwalk := hP.walk (s.hs.regs d.rs1) false (hP.setMemStatus true h)
  unfold RvEmu.execLrReserve
  dsimp only
  split
  · next t ht => exact hP.memError env ht hwalk rfl rfl
  · next hok => exact memOutcome_passed hok (hbus hwalk rfl) rfl

/-- The A extension ends with the property kept. -/
theorem MemClosed.execAmo (h : P s) : MemOutcome P (execAmo env d s) := by
  unfold RvEmu.execAmo
  dsimp only
  split
  · exact hP.execSc env d hbus h
  · -- the load goes to `rd`, and is sign-extended there
    have hload := hP.setReg d.rd (virtMemFetch env (amoWidth d) (s.setMemStatus true)
      (s.hs.regs d.rs1)).1 (hP.fetch (amoWidth d) (s.hs.regs d.rs1) (hP.setMemStatus true h))
    split
    · next t ht => exact hP.memError env ht hload rfl rfl
    · split
      · exact hP.execLrReserve env d hbus (hP.setReg d.rd _ hload)
      · exact hP.execAmoWrite env d (hP.setReg d.rd _ hload) _ _ _ _

end MemClosed

/-- Keeping the control state and the reservations is closed under memory accesses. -/
theorem Kept.memClosed : MemClosed env (Kept s) :=
  .of_frame env (fun ht h => h.trans ht.kept) fun _ _ h => h

/-- Keeping the control state is closed under memory accesses and reservations. -/
theorem SameControl.memClosed : MemClosed env (SameControl s) :=
  .of_frame env (fun ht h => h.trans ht.sameControl) fun _ _ h => h

/-- `LOAD` keeps the control state and the reservations. -/
theorem execLoad_outcome : Outcome (Kept s) (execLoad env d s) :=
  ((Kept.memClosed env s).execLoad env d (.refl s)).outcome

/-- `STORE` keeps the control state and the reservations. -/
theorem execStore_outcome : Outcome (Kept s) (execStore env d s) :=
  ((Kept.memClosed env s).execStore env d (.refl s)).outcome

/-- The store of an AMO keeps the control state and the reservations. -/
theorem execAmoWrite_outcome (funct5 : BitVec 5) (opAddr src usrc : BitVec 64) :
    Outcome (Kept s) (execAmoWrite env d funct5 opAddr src usrc s) :=
  ((Kept.memClosed env s).execAmoWrite env d (.refl s) funct5 opAddr src usrc).outcome

/-- The A extension keeps the control state. -/
theorem execAmo_outcome : Outcome (SameControl s) (execAmo env d s) :=
  ((SameControl.memClosed env s).execAmo env d SameControl.of_hs (.refl s)).outcome

/-- An instruction outside `SYSTEM` and `AMO` keeps the control state and the
    reservations, up to its trap. -/
theorem execute_kept (hsys : d.opFun ≠ .system) (hamo : d.opFun ≠ .amo) :
    Outcome (Kept s) (execute env d s) := by
  unfold execute
  split
  case h_13 h => exact absurd h hsys
  case h_14 h => exact absurd h hamo
  case h_7 => exact jumped_outcome (t := (s.setReg _ _).setPc _) (.refl s)
  case h_8 => exact jumped_outcome (t := (s.setPc _).setReg _ _) (.refl s)
  case h_9 => exact execBranch_outcome d s
  case h_10 => exact execLoad_outcome env d s
  case h_11 => exact execStore_outcome env d s
  case h_12 =>
    refine .brk false _ ?_
    split
    · exact .refl s
    · exact .refl s
  case h_15 => exact .brk false s (.refl s)
  all_goals exact writeback_outcome d s _

/-- An instruction outside `SYSTEM` keeps the control state, up to its trap. -/
theorem execute_outcome (hsys : d.opFun ≠ .system) :
    Outcome (SameControl s) (execute env d s) := by
  by_cases hamo : d.opFun = .amo
  · rw [execute_amo env hamo]
    exact execAmo_outcome env d s
  · exact (execute_kept env d s hsys hamo).control

end Execute

/-! ## SYSTEM -/

section System

variable (env : Env δ) (d : Decoded) (s : Sys δ)

/-- The CSR that `csrno` stands for: `sstatus`, `sie` and `sip` are aliases. -/
def csrAlias (csrno : BitVec 12) : BitVec 12 :=
  if csrno == 0x100 then 0x300 else if csrno == 0x104 then 0x304
  else if csrno == 0x144 then 0x344 else csrno

/-- A CSR instruction on `csrno` in the state `s` writes `v` to `ptr`. -/
structure CsrWrite (d : Decoded) (csrno : BitVec 12) (wvalue : BitVec 64) (s : Sys δ)
    (ptr : CsrPtr) (v : BitVec 64) : Prop where
  number : csrFromAddr (csrAlias csrno) = some ptr
  unlocked : ptr.locked s.hs = false
  needed : csrWriteNeeded d wvalue = true
  value : v = csrWritten (d.funct3.setWidth 2) (csrno == 0x144) (ptr.get s.hs) wvalue

/-- All that a CSR instruction does when it writes no CSR: the value goes to `rd`, the
    interrupts may have to be checked, and reading `time` asks the timer. -/
def CsrRead (s t : Sys δ) : Prop :=
  ∃ regs chkInt dev,
    t = ⟨{ s.hs with regs := regs, chkInt := chkInt }, { s.bus with dev := dev }⟩

namespace CsrRead

variable {s t : Sys δ}

/-- Nothing has been read yet. -/
theorem refl (s : Sys δ) : CsrRead s s := ⟨s.hs.regs, s.hs.chkInt, s.bus.dev, rfl⟩

/-- Reading a CSR into `rd`. -/
theorem setReg (h : CsrRead s t) (rd : BitVec 5) (v : BitVec 64) : CsrRead s (t.setReg rd v) := by
  obtain ⟨regs, chkInt, dev, rfl⟩ := h
  exact ⟨_, chkInt, dev, rfl⟩

/-- Asking for an interrupt check. -/
theorem setChkInt (h : CsrRead s t) : CsrRead s t.setChkInt := by
  obtain ⟨regs, chkInt, dev, rfl⟩ := h
  exact ⟨regs, true, dev, rfl⟩

/-- A CSR read keeps the control state and the reservations. -/
theorem kept (h : CsrRead s t) : Kept s t := by
  obtain ⟨regs, chkInt, dev, rfl⟩ := h
  exact Kept.refl s

end CsrRead

/-- A CSR instruction that is illegal, or writes no CSR. -/
abbrev CsrReads (s : Sys δ) : Flow × Sys δ → Prop :=
  Ends (fun he _ t => he = .illinst ∧ CsrRead s t) (fun _ t => CsrRead s t)

/-- An illegal CSR instruction has at most read. -/
theorem illinst_csrReads {s t : Sys δ} (h : CsrRead s t) : CsrReads s (illinst t) :=
  .trap t .illinst _ ⟨rfl, h⟩ rfl

/-- A CSR instruction that only reads keeps the control state. -/
theorem CsrReads.kept {s : Sys δ} {r : Flow × Sys δ} (h : CsrReads s r) : Outcome (Kept s) r :=
  Ends.mono h (fun _ _ _ ht => ht.2.kept) fun _ _ ht => ht.kept

/-- A CSR accessed through its pointer: nothing but the trap or the read, or a
    write of that CSR, with the fix-ups after it. -/
theorem execCsrPtr_ends (csrno : BitVec 12) (wvalue : BitVec 64) :
    CsrReads s (execCsrPtr d csrno wvalue s) ∨
    ∃ t hs, CsrRead s t ∧
      execCsrPtr d csrno wvalue s =
        (.brk false, t.setHs (csrMirror hs (csrAlias csrno) (csrno == 0x100) (csrno == 0x104))) ∧
      (hs = t.hs ∨ ∃ ptr v, hs = CsrPtr.set t.hs v ptr ∧ CsrWrite d csrno wvalue s ptr v) := by
  have halias : csrAlias csrno = if csrno == 0x100 then 0x300 else if csrno == 0x104 then 0x304
    else if csrno == 0x144 then 0x344 else csrno := rfl
  simp only [execCsrPtr, ← halias]
  split
  · exact .inl (illinst_csrReads (.refl s))
  · split
    · exact .inl (illinst_csrReads (.refl s))
    · next ptr hptr =>
      have hread : CsrRead s (if d.rd ≠ 0 then s.setReg d.rd (ptr.get s.hs) else s) := by
        split
        · exact (CsrRead.refl s).setReg d.rd _
        · exact .refl s
      have hlock : ptr.locked (if d.rd ≠ 0 then s.setReg d.rd (ptr.get s.hs) else s).hs =
          ptr.locked s.hs := by
        split <;> rfl
      generalize (if d.rd ≠ 0 then s.setReg d.rd (ptr.get s.hs) else s) = t at hread hlock
      split
      · exact .inl (.brk false t hread)
      · next hlocked =>
        split
        · next hneeded =>
          split
          · exact .inl (illinst_csrReads hread)
          · split
            · exact .inl (.brk false t hread)
            · have hchk : CsrRead s
                  (if csrIntRelated (csrAlias csrno) then t.setChkInt else t) := by
                split
                · exact hread.setChkInt
                · exact hread
              refine .inr ⟨_, _, hchk, rfl, .inr ⟨ptr, _, rfl, ?_⟩⟩
              exact ⟨hptr, hlock ▸ Bool.eq_false_iff.mpr hlocked, hneeded, rfl⟩
        · exact .inr ⟨t, t.hs, hread, rfl, .inl rfl⟩

/-- The same for the control state. -/
theorem execCsrPtr_effect (csrno : BitVec 12) (wvalue : BitVec 64) :
    Outcome (Kept s) (execCsrPtr d csrno wvalue s) ∨
    ∃ t hs, Kept s t ∧
      execCsrPtr d csrno wvalue s =
        (.brk false, t.setHs (csrMirror hs (csrAlias csrno) (csrno == 0x100) (csrno == 0x104))) ∧
      (hs = t.hs ∨ ∃ ptr v, hs = CsrPtr.set t.hs v ptr ∧ CsrWrite d csrno wvalue s ptr v) := by
  rcases execCsrPtr_ends d s csrno wvalue with h | ⟨t, hs, ht, h⟩
  · exact .inl h.kept
  · exact .inr ⟨t, hs, ht.kept, h⟩

/-- The same without the conditions of the fix-ups. -/
theorem execCsrPtr_cases (csrno : BitVec 12) (wvalue : BitVec 64) :
    Outcome (Kept s) (execCsrPtr d csrno wvalue s) ∨
    ∃ t hs sstatus sie, Kept s t ∧
      execCsrPtr d csrno wvalue s =
        (.brk false, t.setHs (csrMirror hs (csrAlias csrno) sstatus sie)) ∧
      (hs = t.hs ∨ ∃ ptr v, hs = CsrPtr.set t.hs v ptr ∧ CsrWrite d csrno wvalue s ptr v) := by
  rcases execCsrPtr_effect d s csrno wvalue with h | ⟨t, hs, ht, h, hhs⟩
  · exact .inl h
  · exact .inr ⟨t, hs, _, _, ht, h, hhs⟩

/-- The CSR number of a CSR instruction. -/
def Decoded.csrno (d : Decoded) : BitVec 12 := d.imm.setWidth 12

/-- The operand of a CSR instruction. -/
def Decoded.csrOperand (d : Decoded) (hs : HartState) : BitVec 64 :=
  if d.funct3.getLsbD 2 then d.rs1.setWidth 64 else hs.regs d.rs1

/-- A CSR instruction: one that only reads, an access to `pmpcfg`, which comes after the
    end of the instruction, or one through a pointer, which needs the privilege of the CSR. -/
theorem execCsr_ends :
    CsrReads s (execCsr env d s) ∨
    (d.csrno.extractLsb' 8 2 ≤ s.hs.privmode ∧ (0x3A0 ≤ d.csrno ∧ d.csrno < 0x3B0) ∧
      execCsr env d s = trap (pmpcfgRw env (retire false s) d.csrno d.rd (d.csrOperand s.hs)
        (d.funct3.setWidth 2))) ∨
    (d.csrno.extractLsb' 8 2 ≤ s.hs.privmode ∧
      execCsr env d s = execCsrPtr d d.csrno (d.csrOperand s.hs) s) := by
  have hcsrno : d.imm.setWidth 12 = d.csrno := rfl
  have hread := CsrRead.refl s
  simp only [execCsr, hcsrno]
  split
  · exact .inl (illinst_csrReads hread)
  · next hpriv =>
    split
    · exact .inl (.brk false _ ⟨_, s.hs.chkInt, _, rfl⟩)
    · split
      · exact .inl (.brk false _ (hread.setReg d.rd 0))
      · split
        · exact .inl (.brk false _ (hread.setReg d.rd 5))
        · split
          · next hnum => exact .inr (.inl ⟨BitVec.not_lt.mp hpriv, hnum, rfl⟩)
          · exact .inr (.inr ⟨BitVec.not_lt.mp hpriv, rfl⟩)

/-- The same for the control state. -/
theorem execCsr_cases :
    Outcome (Kept s) (execCsr env d s) ∨
    (d.csrno.extractLsb' 8 2 ≤ s.hs.privmode ∧ (0x3A0 ≤ d.csrno ∧ d.csrno < 0x3B0) ∧
      ∃ t, Kept s t ∧ execCsr env d s =
        trap (pmpcfgRw env t d.csrno d.rd (d.csrOperand s.hs) (d.funct3.setWidth 2))) ∨
    (d.csrno.extractLsb' 8 2 ≤ s.hs.privmode ∧
      execCsr env d s = execCsrPtr d d.csrno (d.csrOperand s.hs) s) := by
  rcases execCsr_ends env d s with h | ⟨hpriv, hnum, h⟩ | h
  · exact .inl h.kept
  · exact .inr (.inl ⟨hpriv, hnum, retire false s, Kept.refl s, h⟩)
  · exact .inr (.inr h)

/-- What WFI, and what SFENCE.VMA does. -/
def FenceStep (s t : Sys δ) : Prop := t = s.setChkInt ∨ t = (s.setTlb tlbClear).setInstbuf 0

/-- A `SYSTEM` instruction: one that traps, WFI or SFENCE.VMA, a return, or a CSR
    instruction. -/
theorem execSystem_ends :
    Ends (fun he _ t => (he = .ofEcall s.hs.privmode ∨ he = .bpoint ∨ he = .illinst) ∧ t = s)
      (fun b t => b = false ∧ FenceStep s t) (execSystem env d s) ∨
    (d.inst = instMret ∧ d.cebreak = false ∧ execSystem env d s = (.brk true, execMret s)) ∨
    (d.inst = instSret ∧ d.cebreak = false ∧ s.hs.csr.mstatus.getLsbD 22 = false ∧
      execSystem env d s = (.brk true, execSret s)) ∨
    (d.cebreak = false ∧ execSystem env d s = execCsr env d s) := by
  have hillinst : Ends (fun he _ t => (he = .ofEcall s.hs.privmode ∨ he = .bpoint ∨
      he = .illinst) ∧ t = s) (fun b t => b = false ∧ FenceStep s t) (illinst s) :=
    .trap s .illinst _ ⟨.inr (.inr rfl), rfl⟩ rfl
  unfold execSystem
  split
  · refine .inl (.trap s _ _ ⟨.inl rfl, rfl⟩ ?_)
    generalize s.hs.privmode = p
    revert p
    decide
  · split
    · exact .inl (.trap s .bpoint _ ⟨.inr (.inl rfl), rfl⟩ rfl)
    · next hbreak =>
      have hcebreak : d.cebreak = false := Bool.eq_false_iff.mpr fun h => hbreak (.inr h)
      split
      · next hmret => exact .inr (.inl ⟨hmret, hcebreak, rfl⟩)
      · split
        · next hsret =>
          split
          · exact .inl hillinst
          · next htsr =>
            exact .inr (.inr (.inl ⟨hsret, hcebreak, Bool.eq_false_iff.mpr htsr, rfl⟩))
        · split
          · split
            · exact .inl hillinst
            · exact .inl (.brk false _ ⟨rfl, .inl rfl⟩)
          · split
            · split
              · exact .inl hillinst
              · exact .inl (.brk false _ ⟨rfl, .inr rfl⟩)
            · exact .inr (.inr (.inr ⟨hcebreak, rfl⟩))

/-- The same for the control state. -/
theorem execSystem_cases :
    Outcome (Kept s) (execSystem env d s) ∨
    (d.inst = instMret ∧ d.cebreak = false ∧ execSystem env d s = (.brk true, execMret s)) ∨
    (d.inst = instSret ∧ d.cebreak = false ∧ s.hs.csr.mstatus.getLsbD 22 = false ∧
      execSystem env d s = (.brk true, execSret s)) ∨
    (d.cebreak = false ∧ execSystem env d s = execCsr env d s) := by
  refine (execSystem_ends env d s).imp_left fun h => h.mono ?_ ?_
  · rintro he tval t ⟨-, rfl⟩
    exact .refl t
  · rintro b t ⟨-, rfl | rfl⟩
    · exact Kept.refl s
    · exact Kept.refl s

end System

/-- The fix-ups change only CSRs. -/
theorem csrMirror_frame (hs : HartState) (imm : BitVec 12) (sstatus sie : Bool) :
    csrMirror hs imm sstatus sie = { hs with csr := (csrMirror hs imm sstatus sie).csr } := by
  unfold csrMirror
  by_cases himm : imm = 0x300
  · cases sstatus <;> cases sie <;> simp only [if_pos himm] <;> rfl
  · cases sstatus <;> cases sie <;> simp only [if_neg himm] <;> rfl

/-- What CSR instructions leave alone, apart from the pc: the instruction, the flags and
    the TLB. -/
def HartState.offCsr (hs : HartState) : BitVec 32 × BitVec 16 × (BitVec 8 × Bool × Bool) × TLBStruct :=
  (hs.inst, hs.instbuf, (hs.instLen, hs.memStatus, hs.pageFault), hs.tlb)

/-- What CSR instructions leave alone, with memory; reading `time` asks the timer. -/
def Sys.offCsr (s : Sys δ) := (s.hs.offCsr, s.bus.mainMem)

/-- The state has been left alone, up to a trap. -/
abbrev OffCsr (s t : Sys δ) : Prop :=
  t.offCsr = s.offCsr ∨
    ∃ (u : Sys δ) (he : HartException) (tval : BitVec 64),
      u.offCsr = s.offCsr ∧ t = (u.createException he tval).2

/-- The fix-ups after a CSR access stay within the CSRs. -/
theorem csrMirror_offCsr (hs : HartState) (imm : BitVec 12) (sstatus sie : Bool) :
    (csrMirror hs imm sstatus sie).offCsr = hs.offCsr := by
  rw [csrMirror_frame]
  rfl

/-- A write through the pointer stays within the CSRs. -/
theorem CsrPtr.set_offCsr (hs : HartState) (v : BitVec 64) (ptr : CsrPtr) :
    (CsrPtr.set hs v ptr).offCsr = hs.offCsr := by
  cases ptr <;> rfl

/-- A CSR read keeps what is outside the CSRs. -/
theorem CsrRead.offCsr {s t : Sys δ} (h : CsrRead s t) : t.offCsr = s.offCsr := by
  obtain ⟨regs, chkInt, dev, rfl⟩ := h
  rfl

/-- A CSR instruction that only reads keeps what is outside the CSRs. -/
theorem CsrReads.offCsr {s : Sys δ} {r : Flow × Sys δ} (h : CsrReads s r) : OffCsr s r.2 := by
  cases h with
  | trap t he tval ht hexc => exact .inr ⟨t, he, tval, ht.2.offCsr, rfl⟩
  | brk b t ht => exact .inl ht.offCsr

/-- A CSR instruction past the aliases keeps what is outside the CSRs. -/
theorem execCsrPtr_offCsr (d : Decoded) (s : Sys δ) (csrno : BitVec 12) (wvalue : BitVec 64) :
    OffCsr s (execCsrPtr d csrno wvalue s).2 := by
  rcases execCsrPtr_ends d s csrno wvalue with h | ⟨t, hs, ht, h, hhs⟩
  · exact h.offCsr
  · obtain ⟨hoff, hmem⟩ := Prod.mk.inj ht.offCsr
    have hset : hs.offCsr = t.hs.offCsr := by
      rcases hhs with rfl | ⟨ptr, v, rfl, -⟩
      · rfl
      · exact CsrPtr.set_offCsr t.hs v ptr
    rw [h]
    exact .inl (Prod.ext (((csrMirror_offCsr hs _ _ _).trans hset).trans hoff) hmem)

/-- A CSR instruction keeps what is outside the CSRs. -/
theorem execCsr_offCsr (env : Env δ) (d : Decoded) (s : Sys δ) : OffCsr s (execCsr env d s).2 := by
  rcases execCsr_ends env d s with h | ⟨-, -, h⟩ | ⟨-, h⟩
  · exact h.offCsr
  · rw [h]
    unfold pmpcfgRw
    split
    · exact .inr ⟨retire false s, .illinst, _, rfl, rfl⟩
    · exact .inl rfl
  · rw [h]
    exact execCsrPtr_offCsr d s _ _

/-! ## The instruction word -/

/-- The instruction fetched in `s` is decoded as `d`. -/
def Decodes (s : Sys δ) (d : Decoded) : Prop :=
  s.hs.instLen = 16 ∧ decode16 s.hs.inst = some d ∨
  s.hs.instLen = 32 ∧ decode32 s.hs.inst = d

/-- `decode_exc` executes what it decodes. -/
theorem decodeExc_of_decodes (env : Env δ) {s : Sys δ} {d : Decoded} (h : Decodes s d) :
    decodeExc env s = finish (execute env d (s.withInst d.inst s.hs.instLen)) := by
  have hrun : runDecoded env d s = finish (execute env d (s.withInst d.inst s.hs.instLen)) := rfl
  rw [← hrun, decodeExc]
  rcases h with ⟨hlen, hd⟩ | ⟨hlen, rfl⟩
  · rw [if_pos hlen, hd]
  · have hne : ¬ s.hs.instLen = 16 := by
      rw [hlen]
      decide
    rw [if_neg hne, if_pos hlen]

/-- `decode_exc` on a 32-bit instruction. -/
theorem decodeExc_withInst32 (env : Env δ) (s : Sys δ) (inst : BitVec 32) :
    decodeExc env (s.withInst inst 32) =
      finish (execute env (decode32 inst) (s.withInst inst 32)) := by
  rw [decodeExc_of_decodes env (.inr ⟨rfl, rfl⟩), decode32_inst]
  rfl

/-- `decode_exc` rejects the instruction, or decodes and executes it. -/
theorem decodeExc_cases (env : Env δ) (s : Sys δ) :
    (∃ t tval, Kept s t ∧ t.bus = s.bus ∧ decodeExc env s = t.createException .illinst tval) ∨
    ∃ d, Decodes s d ∧
      decodeExc env s = finish (execute env d (s.withInst d.inst s.hs.instLen)) := by
  unfold decodeExc
  split
  · next hlen =>
    split
    · exact .inl ⟨s, _, .refl s, rfl, rfl⟩
    · next d hd => exact .inr ⟨d, .inl ⟨hlen, hd⟩, rfl⟩
  · split
    · next hlen => exact .inr ⟨_, .inr ⟨hlen, rfl⟩, rfl⟩
    · refine .inl ⟨s.setHs { s.hs with instLen := 0 }, _, ?_, rfl, rfl⟩
      exact Kept.refl s

/-! ## The configuration of memory accesses -/

/-- What only CSR instructions change: the control state without the mode and the
    CSRs that a trap writes. -/
def HartState.settings (hs : HartState) : HartState :=
  { hs.control with
    privmode := 0
    csr := { hs.control.csr with
      mstatus := 0, mepc := 0, sepc := 0, mcause := 0, scause := 0, mtval := 0, stval := 0 } }

/-- The settings are part of the control state. -/
theorem SameControl.settings {s t : Sys δ} (h : SameControl s t) :
    t.hs.settings = s.hs.settings :=
  (h.proj HartState.settings :)

/-- An exception keeps the settings. -/
theorem createException_settings (hs : HartState) (he : HartException) (tval : BitVec 64) :
    (createException hs he tval).2.settings = hs.settings := by
  rcases createException_cases hs he tval with h | ⟨-, -, h⟩ | ⟨-, h⟩ <;> rw [h] <;> rfl

/-- So does what follows the execute stage. -/
theorem finish_settings (r : Flow × Sys δ) : (finish r).2.hs.settings = r.2.hs.settings :=
  finish_proj HartState.settings (fun _ _ _ _ => rfl) r

/-- An instruction that keeps the control state keeps the settings. -/
theorem Outcome.settings {s : Sys δ} {r : Flow × Sys δ} (h : Outcome (SameControl s) r) :
    (finish r).2.hs.settings = s.hs.settings := by
  have hstate : r.2.hs.settings = s.hs.settings :=
    h.state (R := fun t => t.hs.settings = s.hs.settings)
      (fun he tval t ht => (createException_settings t.hs he tval).trans ht.settings)
      fun _ _ ht => ht.settings
  exact (finish_settings r).trans hstate

/-- The PMP and `satp`. -/
def HartState.config (hs : HartState) : PmpState × BitVec 64 := (hs.pmp, hs.csr.satp)

/-- The configuration is part of the settings. -/
theorem config_of_settings {hs hs' : HartState} (h : hs'.settings = hs.settings) :
    hs'.config = hs.config :=
  (congrArg HartState.config h :)

/-- The configuration is part of the control state. -/
theorem SameControl.config {s t : Sys δ} (h : SameControl s t) : t.hs.config = s.hs.config :=
  config_of_settings h.settings

/-- An exception keeps the configuration. -/
theorem createException_config (hs : HartState) (he : HartException) (tval : BitVec 64) :
    (createException hs he tval).2.config = hs.config :=
  config_of_settings (createException_settings hs he tval)

/-- The fix-ups after a CSR access keep the configuration. -/
theorem csrMirror_config (hs : HartState) (imm : BitVec 12) (sstatus sie : Bool) :
    (csrMirror hs imm sstatus sie).config = hs.config := by
  unfold csrMirror
  by_cases himm : imm = 0x300
  · cases sstatus <;> cases sie <;> simp only [if_pos himm] <;> rfl
  · cases sstatus <;> cases sie <;> simp only [if_neg himm] <;> rfl

/-- So does what follows the execute stage. -/
theorem finish_config (r : Flow × Sys δ) : (finish r).2.hs.config = r.2.hs.config :=
  config_of_settings (finish_settings r)

/-- An instruction that keeps the control state keeps the configuration. -/
theorem Outcome.config {s : Sys δ} {r : Flow × Sys δ} (h : Outcome (SameControl s) r) :
    (finish r).2.hs.config = s.hs.config :=
  config_of_settings h.settings

/-- An instruction keeps the configuration, unless it accesses `pmpcfg` or writes
    another CSR. -/
theorem decodeExc_config (env : Env δ) (s : Sys δ) :
    (decodeExc env s).2.hs.config = s.hs.config ∨
    ∃ d t, Decodes s d ∧ d.opFun = .system ∧ d.cebreak = false ∧ SameControl s t ∧
      d.csrno.extractLsb' 8 2 ≤ s.hs.privmode ∧
      ((0x3A0 ≤ d.csrno ∧ d.csrno < 0x3B0) ∧ decodeExc env s =
          pmpcfgRw env t d.csrno d.rd (d.csrOperand s.hs) (d.funct3.setWidth 2) ∨
      ∃ ptr v, CsrWrite d d.csrno (d.csrOperand s.hs) s ptr v ∧
        (decodeExc env s).2.hs.config = (CsrPtr.set t.hs v ptr).config) := by
  rcases decodeExc_cases env s with ⟨t, tval, ht, -, h⟩ | ⟨d, hd, h⟩
  · rw [h]
    exact .inl ((createException_config t.hs .illinst tval).trans ht.control.config)
  · rw [h]
    let u := s.withInst d.inst s.hs.instLen
    have hu : u.hs.config = s.hs.config := rfl
    by_cases hsys : d.opFun = .system
    · rw [execute_system env hsys]
      rcases execSystem_cases env d u with hout | ⟨-, -, hm⟩ | ⟨-, -, -, hs⟩ | ⟨hc, hcsr⟩
      · exact .inl (hout.control.config.trans hu)
      · rw [hm]
        exact .inl rfl
      · rw [hs]
        exact .inl rfl
      · rw [hcsr]
        rcases execCsr_cases env d u with hout | ⟨hpriv, hnum, t, ht, hp⟩ | ⟨hpriv, hptr⟩
        · exact .inl (hout.control.config.trans hu)
        · rw [hp]
          exact .inr ⟨d, t, hd, hsys, hc, ht.control, hpriv, .inl ⟨hnum, rfl⟩⟩
        · rw [hptr]
          rcases execCsrPtr_cases d u d.csrno (d.csrOperand u.hs) with
            hout | ⟨t, hs, sstatus, sie, ht, hw, hhs⟩
          · exact .inl (hout.control.config.trans hu)
          · rw [hw, finish_config]
            have hmirror := csrMirror_config hs (csrAlias d.csrno) sstatus sie
            rcases hhs with rfl | ⟨ptr, v, rfl, hwrite⟩
            · exact .inl ((hmirror.trans ht.control.config).trans hu)
            · refine .inr ⟨d, t, hd, hsys, hc, ht.control, hpriv, .inr ⟨ptr, v, ?_, hmirror⟩⟩
              exact ⟨hwrite.number, hwrite.unlocked, hwrite.needed, hwrite.value⟩
    · exact .inl ((execute_outcome env d u hsys).config.trans hu)

/-- MISC-ALU has no system instruction. -/
theorem decodeMiscAlu_opFun (inst : BitVec 32) (d : Decoded) :
    (decodeMiscAlu inst d).opFun ≠ .system := by
  unfold decodeMiscAlu
  dsimp only
  split
  · exact InstOp32.noConfusion
  · exact InstOp32.noConfusion
  · exact InstOp32.noConfusion
  · split
    · exact InstOp32.noConfusion
    · split <;> exact InstOp32.noConfusion

/-- The only system instruction of the compressed jumps is C.EBREAK. -/
theorem decodeJalr16_system {inst : BitVec 32} {d : Decoded}
    (h : (decodeJalr16 inst d).opFun = .system) : (decodeJalr16 inst d).cebreak = true := by
  unfold decodeJalr16 at h ⊢
  split
  · rfl
  · next hne =>
    rw [if_neg hne] at h
    dsimp only at h
    split at h <;> split at h <;> cases h

/-- The only 16-bit `SYSTEM` instruction is C.EBREAK. -/
theorem decode16_system {inst : BitVec 32} {d : Decoded} (h : decode16 inst = some d)
    (hsys : d.opFun = .system) : d.cebreak = true := by
  unfold decode16 at h
  dsimp only at h
  cases hop : InstOp16.ofInst inst <;> rw [hop] at h
  case res1 => cases h
  case lui =>
    dsimp only at h
    split at h <;> obtain rfl := Option.some.inj h <;> cases hsys
  case miscAlu =>
    obtain rfl := Option.some.inj h
    exact absurd hsys (decodeMiscAlu_opFun inst _)
  case jalr =>
    obtain rfl := Option.some.inj h
    exact decodeJalr16_system hsys
  all_goals
    obtain rfl := Option.some.inj h
    cases hsys

/-- A CSR instruction is 32 bits long. -/
theorem Decodes.len32 {s : Sys δ} {d : Decoded} (hd : Decodes s d) (hsys : d.opFun = .system)
    (hc : d.cebreak = false) : s.hs.instLen = 32 ∧ decode32 s.hs.inst = d := by
  rcases hd with ⟨-, hd⟩ | hd
  · rw [decode16_system hd hsys] at hc
    cases hc
  · exact hd

end RvEmu
