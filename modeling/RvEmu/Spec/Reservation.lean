import RvEmu.Spec.Access

/-!
# Reservations

Harts that take turns on a shared memory, one instruction at a time, without
address translation. An SC succeeds if the hart still holds the reservation of
its LR. Another hart's LR of the same address takes the reservation away, but
its stores and AMOs do not, nor does an SC to an overlapping address; the word
is safe as long as none of these writes to it while it is reserved.
-/

namespace RvEmu

variable {δ : Type}

/-! ## The instructions of the A extension -/

/-- `funct5` of an AMO. -/
def Decoded.funct5 (d : Decoded) : BitVec 5 := d.funct7.extractLsb' 2 5

/-- The instruction is an LR. -/
def Decoded.IsLr (d : Decoded) : Prop := d.opFun = .amo ∧ d.funct5 = 0b00010

/-- The instruction is an SC. -/
def Decoded.IsSc (d : Decoded) : Prop := d.opFun = .amo ∧ d.funct5 = 0b00011

/-- The reservations after hart `i` has reserved `a`. -/
def reserve (env : Env δ) (res : BitVec 16 → BitVec 64) (i : BitVec 16) (a : BitVec 64) :
    BitVec 16 → BitVec 64 :=
  Function.update
    (fun j => if j < env.machHartCount ∧ i ≠ j ∧ res j = a then 0 else res j) i a

/-- An SC is executed by `execSc`. -/
theorem execute_sc (env : Env δ) {d : Decoded} {s : Sys δ} (h : d.IsSc) :
    execute env d s = execSc env d s := by
  rw [execute_amo env h.1]
  exact if_pos h.2

section Execute

variable (env : Env δ) (d : Decoded) {s : Sys δ}

/-- The store of an SC, after its walk. -/
def scStored (s : Sys δ) : Sys δ :=
  let t := (pageTableWalk env s (s.hs.regs d.rs1) true).2
  virtMemStore env (amoWidth d) (t.setMemStatus true) (s.hs.regs d.rs1) (t.hs.regs d.rs2)

/-- SC has the address of its walk reserved, and its store is not refused. -/
structure ScStores (s : Sys δ) : Prop where
  reserved : s.bus.reservations s.hs.hartid = (pageTableWalk env s (s.hs.regs d.rs1) true).1
  memStatus : (scStored env d s).hs.memStatus = false
  pageFault : (scStored env d s).hs.pageFault = false

/-- SC gives up the reservation, and stores if it was for its address. -/
theorem execSc_ends :
    Ends (fun _ _ => Kept s) (fun _ t =>
      t.bus.reservations = Function.update s.bus.reservations s.hs.hartid 0 ∧
      (ScStores env d s ∨ t.hs.regs d.rd = 1))
      (execSc env d s) := by
  have hwalk := pageTableWalk_frame env s (s.hs.regs d.rs1) true
  unfold execSc
  dsimp only
  split
  · next r hr => exact ends_memError hr hwalk.kept hwalk.kept rfl rfl
  · split
    · next hres =>
      rw [hwalk.reservations, hwalk.hartid] at hres
      generalize hu : virtMemStore env (amoWidth d) _ _ _ = u
      have hframe : MemFrame s u := by
        rw [← hu]
        exact hwalk.trans (virtMemStore_frame env _ _ _ _).of_setMemStatus
      have hstored : scStored env d s = u := hu
      split
      · next r hr => exact ends_memError hr hframe.kept hframe.kept rfl rfl
      · next hok =>
        obtain ⟨hstatus, hfault⟩ := handleMemError_none hok
        rw [← hstored] at hstatus hfault
        refine .brk false _ ⟨?_, .inl ⟨hres, hstatus, hfault⟩⟩
        change Function.update u.bus.reservations u.hs.hartid 0 = _
        rw [hframe.reservations, hframe.hartid]
    · refine .brk false _ ⟨?_, .inr (Function.update_self ..)⟩
      rw [← hwalk.reservations, ← hwalk.hartid]
      rfl

/-- Without address translation, an SC stores to the address in `rs1`, which is not zero. -/
theorem ScStores.bare {env : Env δ} {d : Decoded} (h : ScStores env d s) (hbare : Bare s) :
    s.bus.reservations s.hs.hartid = s.hs.regs d.rs1 ∧ s.hs.regs d.rs1 ≠ 0 := by
  obtain ⟨hres, hstatus, hfault⟩ := h
  rw [pageTableWalk_bare env hbare] at hres
  refine ⟨hres, fun h0 => ?_⟩
  rw [scStored, pageTableWalk_bare env hbare, h0] at hstatus hfault
  -- a store to address 0 fails, so the reservation that matched was not the cleared one
  rcases virtMemStore_bare_zero env (s := (s.setMemStatus false).setMemStatus true) hbare
    (amoWidth d) _ with hf | hf
  · exact Bool.noConfusion (hstatus.symm.trans hf)
  · exact Bool.noConfusion (hfault.symm.trans hf)

/-- LR reserves what its walk gives for the address that is in `rs1` after the load. -/
theorem execLrReserve_ends :
    Ends (fun _ _ => Kept s) (fun _ t =>
      t.bus.reservations = reserve env s.bus.reservations s.hs.hartid
        (pageTableWalk env (s.setMemStatus true) (s.hs.regs d.rs1) false).1)
      (execLrReserve env d s) := by
  have hwalk := pageTableWalk_frame env (s.setMemStatus true) (s.hs.regs d.rs1) false
  have hframe := hwalk.of_setMemStatus
  unfold execLrReserve
  dsimp only
  split
  · next r hr => exact ends_memError hr hframe.kept hframe.kept rfl rfl
  · refine .brk false _ ?_
    rw [← hframe.reservations, ← hframe.hartid]
    rfl

/-- What LR reserves: what a walk gives, in a state with the `satp` of `s`, for the address
    in `rs1`, unless the load has overwritten it. -/
def LrAddress (s : Sys δ) (a : BitVec 64) : Prop :=
  ∃ u : Sys δ, u.hs.csr.satp = s.hs.csr.satp ∧
    (d.rd ≠ d.rs1 → u.hs.regs d.rs1 = s.hs.regs d.rs1) ∧
    a = (pageTableWalk env u (u.hs.regs d.rs1) false).1

/-- Without translation an LR reserves what is in `rs1`, unless it has overwritten it. -/
theorem LrAddress.bare {env : Env δ} {d : Decoded} {a : BitVec 64} (h : LrAddress env d s a)
    (hbare : Bare s) (hne : d.rd ≠ d.rs1) : a = s.hs.regs d.rs1 := by
  obtain ⟨u, hsatp, hregs, rfl⟩ := h
  have hu : Bare u := hsatp.trans hbare
  rw [pageTableWalk_bare env hu]
  exact hregs hne

/-- LR: a load, then the reservation. -/
theorem execAmo_lr (hlr : d.funct5 = 0b00010) :
    Ends (fun _ _ => Kept s) (fun _ t =>
      ∃ a, LrAddress env d s a ∧
        t.bus.reservations = reserve env s.bus.reservations s.hs.hartid a)
      (execAmo env d s) := by
  have hsc : ¬ d.funct7.extractLsb' 2 5 = 0b00011 := by
    rw [show d.funct7.extractLsb' 2 5 = 0b00010 from hlr]
    decide
  have hframe :=
    (virtMemFetch_frame env (s.setMemStatus true) (amoWidth d) (s.hs.regs d.rs1)).of_setMemStatus
  unfold execAmo
  dsimp only
  rw [if_neg hsc]
  generalize virtMemFetch env (amoWidth d) (s.setMemStatus true) (s.hs.regs d.rs1) = r at hframe
  split
  · next t ht => exact ends_memError ht hframe.kept hframe.kept rfl rfl
  · rw [if_pos (show d.funct7.extractLsb' 2 5 = 0b00010 from hlr)]
    generalize hv : amoSigned d ((r.2.setReg d.rd r.1).hs.regs d.rd) = v
    let u := (r.2.setReg d.rd r.1).setReg d.rd v
    have hres : u.bus.reservations = s.bus.reservations := hframe.reservations
    have hid : u.hs.hartid = s.hs.hartid := hframe.hartid
    refine (execLrReserve_ends env d).mono (fun _ _ t ht => ?_) fun _ t ht => ?_
    · exact Kept.trans hframe.kept ht
    -- the reserved address is read after the load has written `rd`
    · refine ⟨_, ⟨u.setMemStatus true, hframe.satp, fun hne => ?_, rfl⟩, ?_⟩
      · have hrs1 : u.hs.regs d.rs1 = r.2.hs.regs d.rs1 :=
          (Function.update_of_ne hne.symm _ _).trans (Function.update_of_ne hne.symm _ _)
        exact hrs1.trans (congrFun hframe.regs d.rs1)
      · rw [ht, hres, hid]
        rfl

/-- The AMOs proper keep the reservations. -/
theorem execAmo_kept (hsc : d.funct5 ≠ 0b00011) (hlr : d.funct5 ≠ 0b00010) :
    Outcome (Kept s) (execAmo env d s) := by
  have hframe :=
    (virtMemFetch_frame env (s.setMemStatus true) (amoWidth d) (s.hs.regs d.rs1)).of_setMemStatus
  unfold execAmo
  dsimp only
  rw [if_neg (show ¬ d.funct7.extractLsb' 2 5 = 0b00011 from hsc)]
  generalize virtMemFetch env (amoWidth d) (s.setMemStatus true) (s.hs.regs d.rs1) = r at hframe
  split
  · next t ht => exact ends_memError ht hframe.kept hframe.kept rfl rfl
  · rw [if_neg (show ¬ d.funct7.extractLsb' 2 5 = 0b00010 from hlr)]
    exact (execAmoWrite_outcome env d _ _ _ _ _).mono fun t ht => Kept.trans hframe.kept ht

end Execute

/-- How an instruction ends, for the properties of its two ways to end. -/
theorem finish_of_ends {P : HartException → BitVec 64 → Sys δ → Prop} {Q : Bool → Sys δ → Prop}
    {r : Flow × Sys δ} (h : Ends P Q r) :
    (∃ t he tval, P he tval t ∧ he.interrupt = false ∧ finish r = t.createException he tval) ∨
    ∃ b t, Q b t ∧ finish r = (.noexc, retire b t) := by
  cases h with
  | trap t he tval ht hexc => exact .inl ⟨t, he, tval, ht, hexc, rfl⟩
  | brk b t ht => exact .inr ⟨b, t, ht, rfl⟩

/-- The end of an instruction leaves the shared state alone, … -/
@[simp] theorem retire_bus (b : Bool) (s : Sys δ) : (retire b s).bus = s.bus := by
  cases b <;> rfl

/-- … and the registers. -/
@[simp] theorem retire_regs (b : Bool) (s : Sys δ) : (retire b s).hs.regs = s.hs.regs := by
  cases b <;> rfl

/-- An instruction other than LR and SC keeps the reservations. -/
theorem Outcome.reservations {s : Sys δ} {r : Flow × Sys δ} (h : Outcome (Kept s) r) :
    (finish r).2.bus.reservations = s.bus.reservations := by
  rcases finish_of_ends h with ⟨t, he, tval, ht, -, hf⟩ | ⟨b, t, ht, hf⟩ <;> rw [hf]
  · exact ht.reservations
  · rw [retire_bus]
    exact ht.reservations

/-- So does a `SYSTEM` instruction. -/
theorem execSystem_reservations (env : Env δ) (d : Decoded) (s : Sys δ) :
    (finish (execSystem env d s)).2.bus.reservations = s.bus.reservations := by
  -- no case of `SYSTEM` touches the reservations
  rcases execSystem_cases env d s with hout | ⟨-, -, hm⟩ | ⟨-, -, -, hs⟩ | ⟨-, hcsr⟩
  · exact hout.reservations
  · rw [hm]
    rfl
  · rw [hs]
    rfl
  · rw [hcsr]
    rcases execCsr_cases env d s with hout | ⟨-, -, t, ht, hp⟩ | ⟨-, hptr⟩
    · exact hout.reservations
    · rw [hp]
      unfold pmpcfgRw
      split
      · exact ht.reservations
      · exact ht.reservations
    · rw [hptr]
      rcases execCsrPtr_cases d s d.csrno (d.csrOperand s.hs) with hout | ⟨t, hs, a, b, ht, hw, -⟩
      · exact hout.reservations
      · rw [hw]
        exact ht.reservations

section Instructions

variable (env : Env δ) {s : Sys δ} {d : Decoded}

/-- SC as an instruction: it traps, or gives up the reservation. -/
theorem decodeExc_sc_reservations (hd : Decodes s d) (hsc : d.IsSc) :
    ((decodeExc env s).1 ≠ .noexc ∧ (decodeExc env s).2.bus.reservations = s.bus.reservations) ∨
    ((decodeExc env s).2.bus.reservations = Function.update s.bus.reservations s.hs.hartid 0 ∧
      (ScStores env d (s.withInst d.inst s.hs.instLen) ∨ (decodeExc env s).2.hs.regs d.rd = 1)) := by
  let u := s.withInst d.inst s.hs.instLen
  rw [decodeExc_of_decodes env hd, execute_sc env hsc]
  rcases finish_of_ends (execSc_ends env d (s := u)) with
    ⟨t, x, tval, ht, hx, hf⟩ | ⟨b, t, ht, hf⟩ <;> rw [hf]
  · exact .inl ⟨createException_raises t tval hx, ht.reservations⟩
  · rw [retire_bus, retire_regs]
    exact .inr ht

/-- LR as an instruction: it traps, or reserves an address. -/
theorem decodeExc_lr_reservations (hd : Decodes s d) (hlr : d.IsLr) :
    ((decodeExc env s).1 ≠ .noexc ∧ (decodeExc env s).2.bus.reservations = s.bus.reservations) ∨
    ((decodeExc env s).1 = .noexc ∧ ∃ a, LrAddress env d (s.withInst d.inst s.hs.instLen) a ∧
      (decodeExc env s).2.bus.reservations = reserve env s.bus.reservations s.hs.hartid a) := by
  let u := s.withInst d.inst s.hs.instLen
  rw [decodeExc_of_decodes env hd, execute_amo env hlr.1]
  rcases finish_of_ends (execAmo_lr env d (s := u) hlr.2) with
    ⟨t, x, tval, ht, hx, hf⟩ | ⟨b, t, ht, hf⟩ <;> rw [hf]
  · exact .inl ⟨createException_raises t tval hx, ht.reservations⟩
  · rw [retire_bus]
    exact .inr ⟨rfl, ht⟩

/-- The other instructions keep the reservations. -/
theorem execute_reservations (u : Sys δ) (hsc : ¬ d.IsSc) (hlr : ¬ d.IsLr) :
    (finish (execute env d u)).2.bus.reservations = u.bus.reservations := by
  by_cases hsys : d.opFun = .system
  · rw [execute_system env hsys]
    exact execSystem_reservations env d u
  · by_cases hamo : d.opFun = .amo
    · rw [execute_amo env hamo]
      exact (execAmo_kept env d (fun h => hsc ⟨hamo, h⟩) fun h => hlr ⟨hamo, h⟩).reservations
    · exact (execute_kept env d u hsys hamo).reservations

variable (s) in
/-- What an instruction does to the reservations. -/
theorem decodeExc_reservations :
    (decodeExc env s).2.bus.reservations = s.bus.reservations ∨
    (∃ d, Decodes s d ∧ d.IsSc ∧ (decodeExc env s).2.bus.reservations =
      Function.update s.bus.reservations s.hs.hartid 0) ∨
    ∃ d a, Decodes s d ∧ d.IsLr ∧ (decodeExc env s).1 = .noexc ∧
      LrAddress env d (s.withInst d.inst s.hs.instLen) a ∧
      (decodeExc env s).2.bus.reservations = reserve env s.bus.reservations s.hs.hartid a := by
  rcases decodeExc_cases env s with ⟨t, tval, ht, -, he⟩ | ⟨d, hd, he⟩
  · rw [he]
    exact .inl ht.reservations
  · by_cases hsc : d.IsSc
    · rcases decodeExc_sc_reservations env hd hsc with ⟨-, hr⟩ | ⟨hr, -⟩
      · exact .inl hr
      · exact .inr (.inl ⟨d, hd, hsc, hr⟩)
    · by_cases hlr : d.IsLr
      · rcases decodeExc_lr_reservations env hd hlr with ⟨-, hr⟩ | ⟨hexc, a, ha, hr⟩
        · exact .inl hr
        · exact .inr (.inr ⟨d, a, hd, hlr, hexc, ha, hr⟩)
      · rw [he, execute_reservations env _ hsc hlr]
        exact .inl rfl

end Instructions

/-! ## Events -/

/-- Two ranges of bytes have one in common. -/
def Overlap (a : BitVec 64) (n : Nat) (b : BitVec 64) (m : Nat) : Prop :=
  ∃ x, InRange x a n ∧ InRange x b m

/-- The address and width that a STORE, AMO or SC writes. -/
def Decoded.writes (d : Decoded) (hs : HartState) : Option (BitVec 64 × Width) :=
  match d.opFun with
  | .store =>
    if d.funct3.getLsbD 2 then none
    else some (hs.regs d.rs1 + d.imm, accessWidth (d.funct3.setWidth 2))
  | .amo => if d.funct5 = 0b00010 then none else some (hs.regs d.rs1, amoWidth d)
  | _ => none

/-- The instruction is an LR of `a`, and completes. -/
def LrOf (env : Env δ) (s : Sys δ) (a : BitVec 64) : Prop :=
  ∃ d, Decodes s d ∧ d.IsLr ∧ s.hs.regs d.rs1 = a ∧ (decodeExc env s).1 = .noexc

/-- The instruction is an SC to `a` that returns 0. -/
def ScSucceeds (env : Env δ) (s : Sys δ) (a : BitVec 64) (w : Width) : Prop :=
  ∃ d, Decodes s d ∧ d.IsSc ∧ d.writes s.hs = some (a, w) ∧ (decodeExc env s).1 = .noexc ∧
    (decodeExc env s).2.hs.regs d.rd = 0

/-- The instruction is a store or an AMO to `a`, and completes. -/
def Stores (env : Env δ) (s : Sys δ) (a : BitVec 64) (w : Width) : Prop :=
  ∃ d, Decodes s d ∧ ¬ d.IsSc ∧ d.writes s.hs = some (a, w) ∧ (decodeExc env s).1 = .noexc

/-- The instruction writes to the word of width `w` at `a`, as a store, an AMO or
    an SC. -/
def WritesWord (env : Env δ) (s : Sys δ) (a : BitVec 64) (w : Width) : Prop :=
  ∃ b v, (Stores env s b v ∨ ScSucceeds env s b v) ∧ Overlap b v.bytes a w.bytes

/-- An instruction word has one decoding. -/
theorem Decodes.unique {s : Sys δ} {d e : Decoded} (hd : Decodes s d) (he : Decodes s e) :
    d = e := by
  rcases hd with ⟨hl, hd⟩ | ⟨hl, hd⟩ <;> rcases he with ⟨hl', he⟩ | ⟨hl', he⟩
  · exact Option.some.inj (hd.symm.trans he)
  · rw [hl] at hl'
    exact absurd hl' (by decide)
  · rw [hl] at hl'
    exact absurd hl' (by decide)
  · exact hd.symm.trans he

/-- The address of an SC is in `rs1`. -/
theorem Decoded.writes_sc {d : Decoded} {hs : HartState} {a : BitVec 64} {w : Width}
    (hsc : d.IsSc) (hw : d.writes hs = some (a, w)) : hs.regs d.rs1 = a := by
  have hlr : ¬ d.funct5 = 0b00010 := by
    rw [hsc.2]
    decide
  simp only [Decoded.writes, hsc.1, if_neg hlr, Option.some.injEq, Prod.mk.injEq] at hw
  exact hw.1

/-- An SC that succeeds has stored. -/
theorem ScSucceeds.stores {env : Env δ} {s : Sys δ} {a : BitVec 64} {w : Width}
    (h : ScSucceeds env s a w) : ∃ d, Decodes s d ∧ d.IsSc ∧ s.hs.regs d.rs1 = a ∧
      ScStores env d (s.withInst d.inst s.hs.instLen) := by
  obtain ⟨d, hd, hsc, hw, hexc, hrd⟩ := h
  refine ⟨d, hd, hsc, Decoded.writes_sc hsc hw, ?_⟩
  -- SC reports success as 0 in `rd`, failure as 1
  rcases decodeExc_sc_reservations env hd hsc with ⟨htrap, -⟩ | ⟨-, hstores | hfail⟩
  · exact absurd hexc htrap
  · exact hstores
  · exact absurd (hrd.symm.trans hfail) (by decide)

/-- SC compares the reservation with the result of its own walk. -/
theorem ScSucceeds.walk {env : Env δ} {s : Sys δ} {a : BitVec 64} {w : Width}
    (h : ScSucceeds env s a w) :
    s.bus.reservations s.hs.hartid = (pageTableWalk env s a true).1 := by
  obtain ⟨d, -, -, ha, hstores⟩ := h.stores
  have hwalk := hstores.reserved
  rw [withInst_regs, ha, pageTableWalk_withInst] at hwalk
  exact hwalk

/-- An SC succeeds only under a reservation of its address, which is not zero. -/
theorem ScSucceeds.reserved {env : Env δ} {s : Sys δ} {a : BitVec 64} {w : Width}
    (h : ScSucceeds env s a w) (hbare : Bare s) :
    s.bus.reservations s.hs.hartid = a ∧ a ≠ 0 := by
  obtain ⟨d, -, -, ha, hstores⟩ := h.stores
  have hstored := hstores.bare hbare
  rw [withInst_regs, ha] at hstored
  exact hstored

/-! ## Words in memory -/

/-- A byte of RAM is as before an instruction that traps, and after one that does not
    unless the instruction writes to it. -/
abbrev ByteEnds (s : Sys δ) (x : BitVec 64) (writes : Sys δ → Prop) : Flow × Sys δ → Prop :=
  Ends (fun _ _ t => t.bus.mainMem x = s.bus.mainMem x)
    (fun _ t => t.bus.mainMem x = s.bus.mainMem x ∨ writes t)

section Bytes

variable (env : Env δ) (d : Decoded) {s : Sys δ} (x : BitVec 64)

/-- What follows a store: its trap, or the rest of the instruction, which leaves RAM as
    it is. -/
theorem byteEnds_store {s u : Sys δ} (h : Bare u) (hfault : u.hs.pageFault = false)
    (hu : u.bus.mainMem = s.bus.mainMem) {w : Width} {addr data : BitVec 64} {writes : Sys δ → Prop}
    (k : Sys δ → Sys δ) (hk : ∀ t, (k t).bus.mainMem = t.bus.mainMem)
    (hwrites : InRange x addr w.bytes → ∀ t, writes (k t)) :
    ByteEnds s x writes
      (match handleMemError .safault .spfault addr (virtMemStore env w u addr data) with
      | some t => trap t
      | none => (.brk false, k (virtMemStore env w u addr data))) := by
  split
  · next r hr =>
    -- a store that sets a flag has stored nothing
    have hsame : (virtMemStore env w u addr data).bus.mainMem = u.bus.mainMem := by
      rcases virtMemStore_bare_refused env h w addr data hfault with hsame | ⟨hm, hp⟩
      · exact hsame
      · unfold handleMemError at hr
        rw [hm, hp] at hr
        cases hr
    have hx := congrFun (hsame.trans hu) x
    exact ends_memError hr hx hx rfl rfl
  · refine .brk false _ ?_
    by_cases hx : InRange x addr w.bytes
    · exact .inr (hwrites hx _)
    · refine .inl ?_
      rw [hk, virtMemStore_bare_mainMem env h w addr data hx, hu]

/-- A STORE writes the bytes of its operand, … -/
theorem execStore_bytes (h : Bare s) (hfault : s.hs.pageFault = false) :
    ByteEnds s x (fun _ => d.funct3.getLsbD 2 = false ∧
      InRange x (s.hs.regs d.rs1 + d.imm) (accessWidth (d.funct3.setWidth 2)).bytes)
      (execStore env d s) := by
  unfold execStore
  dsimp only
  -- funct3 from 4 on stores nothing
  cases hwide : d.funct3.getLsbD 2 with
  | true =>
    simp only [↓reduceIte]
    split
    · next r hr => exact ends_memError hr rfl rfl rfl rfl
    · exact .brk false _ (.inl rfl)
  | false =>
    simp only [Bool.false_eq_true, ↓reduceIte]
    exact byteEnds_store env x (u := s.setMemStatus false) h hfault rfl id (fun _ => rfl)
      fun hx _ => ⟨trivial, hx⟩

/-- … an SC those of its word if it succeeds, … -/
theorem execSc_bytes (h : Bare s) :
    ByteEnds s x (fun t => InRange x (s.hs.regs d.rs1) (amoWidth d).bytes ∧ t.hs.regs d.rd = 0)
      (execSc env d s) := by
  simp only [execSc, pageTableWalk_bare env h]
  split
  · next r hr => exact ends_memError hr rfl rfl rfl rfl
  · next hok =>
    split
    · exact byteEnds_store env x (u := (s.setMemStatus false).setMemStatus true) h
        (handleMemError_none hok).2 rfl (fun t => (t.setReg d.rd 0).setReservation t.hs.hartid 0)
        (fun _ => rfl) fun hx _ => ⟨hx, Function.update_self ..⟩
    · exact .brk false _ (.inl rfl)

/-- LR only walks the page tables after its load. -/
theorem execLrReserve_bytes {s u : Sys δ} (h : Bare u) (hu : u.bus.mainMem x = s.bus.mainMem x)
    {writes : Sys δ → Prop} : ByteEnds s x writes (execLrReserve env d u) := by
  simp only [execLrReserve, pageTableWalk_bare env (s := u.setMemStatus true) h]
  split
  · next t ht => exact ends_memError ht hu hu rfl rfl
  · exact .brk false _ (.inl hu)

/-- … and an AMO those of its word. -/
theorem execAmo_bytes (h : Bare s) (hsc : d.funct5 ≠ 0b00011) :
    ByteEnds s x (fun _ => d.funct5 ≠ 0b00010 ∧ InRange x (s.hs.regs d.rs1) (amoWidth d).bytes)
      (execAmo env d s) := by
  have hframe :=
    (virtMemFetch_frame env (s.setMemStatus true) (amoWidth d) (s.hs.regs d.rs1)).of_setMemStatus
  have hmem := virtMemFetch_bare_mainMem env (s := s.setMemStatus true) h (amoWidth d)
    (s.hs.regs d.rs1)
  unfold execAmo
  dsimp only
  rw [if_neg (show ¬ d.funct7.extractLsb' 2 5 = 0b00011 from hsc)]
  generalize virtMemFetch env (amoWidth d) (s.setMemStatus true) (s.hs.regs d.rs1) = r at hframe hmem
  have hx := congrFun hmem x
  -- a load that faults ends the AMO, and LR only reserves
  split
  · next t ht => exact ends_memError ht hx hx rfl rfl
  · next hok =>
    generalize amoSigned d ((r.2.setReg d.rd r.1).hs.regs d.rd) = v
    let u := (r.2.setReg d.rd r.1).setReg d.rd v
    have hbare : Bare u := hframe.satp.trans h
    split
    · exact execLrReserve_bytes env d x hbare hx
    · next hlr =>
      exact byteEnds_store env x (u := u.setMemStatus false) hbare (handleMemError_none hok).2 hmem
        id (fun _ => rfl) fun hx _ => ⟨hlr, hx⟩

/-- `SYSTEM` leaves RAM as it is. -/
theorem execSystem_mainMem : (execSystem env d s).2.bus.mainMem = s.bus.mainMem := by
  -- a CSR instruction at most traps, which keeps memory too
  have hcsr : (execCsr env d s).2.bus.mainMem = s.bus.mainMem := by
    rcases execCsr_offCsr env d s with h | ⟨u, he, tval, hu, h⟩
    · exact congrArg (·.2) h
    · rw [h]
      exact congrArg (·.2) hu
  unfold execSystem
  split
  · rfl
  · split
    · rfl
    · split
      · rfl
      · split
        · split <;> rfl
        · split
          · split <;> rfl
          · split
            · split <;> rfl
            · exact hcsr

/-- A jump writes nothing. -/
theorem jumped_bytes {s t : Sys δ} (ht : t.bus.mainMem x = s.bus.mainMem x) :
    ByteEnds s x (fun _ => False) (jumped t) := by
  unfold jumped
  split
  · exact .trap t .imisalign _ ht rfl
  · exact .brk true t (.inl ht)

/-- The other instructions leave RAM alone. -/
theorem execute_bytes (h : Bare s) (hsys : d.opFun ≠ .system) (hstore : d.opFun ≠ .store)
    (hamo : d.opFun ≠ .amo) : ByteEnds s x (fun _ => False) (execute env d s) := by
  -- everything but a load ends in a register or in the pc
  have hwriteback (v : Option (BitVec 64)) : ByteEnds s x (fun _ => False) (writeback d s v) := by
    cases v <;> exact .brk false _ (.inl rfl)
  unfold execute
  split
  case h_7 => exact jumped_bytes x rfl
  case h_8 => exact jumped_bytes x rfl
  case h_9 =>
    unfold execBranch
    split
    · exact jumped_bytes x rfl
    · exact .brk false s (.inl rfl)
  case h_10 =>
    have hmem := virtMemFetch_bare_mainMem env (s := s.setMemStatus true) h
      (accessWidth (d.funct3.setWidth 2)) (s.hs.regs d.rs1 + d.imm)
    have hx := congrFun hmem x
    unfold execLoad
    dsimp only
    split
    · next t ht => exact ends_memError ht hx hx rfl rfl
    · exact .brk false _ (.inl hx)
  case h_11 h => exact absurd h hstore
  case h_12 =>
    refine .brk false _ (.inl ?_)
    split <;> rfl
  case h_13 h => exact absurd h hsys
  case h_14 h => exact absurd h hamo
  case h_15 => exact .brk false s (.inl rfl)
  all_goals exact hwriteback _

/-- The end of `decode_exc` leaves the shared state alone. -/
@[simp] theorem finish_bus (r : Flow × Sys δ) : (finish r).2.bus = r.2.bus := by
  obtain ⟨f, t⟩ := r
  cases f with
  | ret he => rfl
  | brk pcChgd => exact retire_bus pcChgd t

/-- An instruction that changes a byte has written to it, and completes. -/
theorem ByteEnds.written {s : Sys δ} {x : BitVec 64} {writes : Sys δ → Prop} {r : Flow × Sys δ}
    (h : ByteEnds s x writes r) (hx : r.2.bus.mainMem x ≠ s.bus.mainMem x) :
    (finish r).1 = .noexc ∧ ∃ t, writes t ∧ (finish r).2.hs.regs = t.hs.regs := by
  cases h with
  | trap t he tval ht hexc => exact absurd ht hx
  | brk b t ht => exact ⟨rfl, t, ht.resolve_left hx, retire_regs b t⟩

/-- Stores, AMOs and the SCs that return 0 are all that changes RAM. -/
theorem writesByte_of_changed (h : Bare s) (hfault : s.hs.pageFault = false)
    (hx : (decodeExc env s).2.bus.mainMem x ≠ s.bus.mainMem x) :
    ∃ b w, (Stores env s b w ∨ ScSucceeds env s b w) ∧ InRange x b w.bytes := by
  rcases decodeExc_cases env s with ⟨t, tval, -, hbus, he⟩ | ⟨d, hd, he⟩ <;> rw [he] at hx
  · exact absurd (congrArg (Bus.mainMem · x) hbus) hx
  · let u := s.withInst d.inst s.hs.instLen
    rw [finish_bus] at hx
    -- an instruction that changes RAM is a store or an AMO
    have hop : d.opFun = .store ∨ d.opFun = .amo := by
      by_cases hsys : d.opFun = .system
      · rw [execute_system env hsys, execSystem_mainMem] at hx
        exact absurd rfl hx
      · by_contra hne
        obtain ⟨hstore, hamo⟩ := not_or.mp hne
        obtain ⟨-, t, hf, -⟩ := (execute_bytes env d (s := u) x h hsys hstore hamo).written hx
        exact hf
    rcases hop with hop | hop
    · rw [execute_store env hop] at hx he
      obtain ⟨hexc, t, ⟨hwide, hin⟩, -⟩ := (execStore_bytes env d (s := u) x h hfault).written hx
      refine ⟨_, _, .inl ⟨d, hd, fun hsc => ?_, ?_, (congrArg Prod.fst he).trans hexc⟩, hin⟩
      · exact InstOp32.noConfusion (hop.symm.trans hsc.1)
      · simp only [Decoded.writes, hop, hwide, Bool.false_eq_true, ↓reduceIte]
        rfl
    · by_cases hsc : d.funct5 = 0b00011
      · rw [execute_sc env ⟨hop, hsc⟩] at hx he
        obtain ⟨hexc, t, ⟨hin, hrd⟩, hregs⟩ := (execSc_bytes env d (s := u) x h).written hx
        refine ⟨_, _, .inr ⟨d, hd, ⟨hop, hsc⟩, ?_, (congrArg Prod.fst he).trans hexc, ?_⟩, hin⟩
        · have hlr : d.funct5 ≠ 0b00010 := by
            rw [hsc]
            decide
          simp only [Decoded.writes, hop, if_neg hlr]
          rfl
        · rw [he, hregs]
          exact hrd
      · rw [execute_amo env hop] at hx he
        obtain ⟨hexc, t, ⟨hlr, hin⟩, -⟩ := (execAmo_bytes env d (s := u) x h hsc).written hx
        refine ⟨_, _, .inl ⟨d, hd, fun h => hsc h.2, ?_, (congrArg Prod.fst he).trans hexc⟩, hin⟩
        simp only [Decoded.writes, hop, if_neg hlr]
        rfl

/-- A word is as before unless it has been written. -/
theorem writesWord_of_changed (h : Bare s) (hfault : s.hs.pageFault = false) {a : BitVec 64}
    {w : Width} (hin : InRange x a w.bytes)
    (hx : (decodeExc env s).2.bus.mainMem x ≠ s.bus.mainMem x) : WritesWord env s a w := by
  obtain ⟨b, v, hw, hb⟩ := writesByte_of_changed env x h hfault hx
  exact ⟨b, v, hw, x, hb, hin⟩

end Bytes

/-! ## Interleavings -/

/-- The shared state after a run, given by the harts that took its steps, the
    latest first. -/
def busAfter (env : Env δ) (b : Bus δ) : List HartState → Bus δ
  | [] => b
  | hs :: earlier => (decodeExc env ⟨hs, busAfter env b earlier⟩).2.bus

/-- Every step of a run starts in a state with `P`. -/
def EachStep (env : Env δ) (b : Bus δ) (P : Sys δ → Prop) : List HartState → Prop
  | [] => True
  | hs :: earlier => P ⟨hs, busAfter env b earlier⟩ ∧ EachStep env b P earlier

/-- One of the harts executes an instruction, without address translation. -/
structure BareStep (env : Env δ) (s : Sys δ) : Prop where
  bare : Bare s
  hartid : s.hs.hartid < env.machHartCount

/-- Hart `h` has executed an LR of `a`, and since the latest one no other hart has
    written to the word at `a`. -/
def UndisturbedSince (env : Env δ) (b : Bus δ) (h : BitVec 16) (a : BitVec 64) (w : Width) :
    List HartState → Prop
  | [] => False
  | hs :: earlier =>
    (hs.hartid = h ∧ LrOf env ⟨hs, busAfter env b earlier⟩ a) ∨
    (UndisturbedSince env b h a w earlier ∧
      (hs.hartid ≠ h → ¬ WritesWord env ⟨hs, busAfter env b earlier⟩ a w))

/-- The step respects the word of width `w` at `a` while hart `h` has reserved it:
    an LR by `h` that completes does not overwrite its own address register; and no
    other hart stores to the word, or succeeds with an SC to another address in it. -/
structure Respects (env : Env δ) (h : BitVec 16) (a : BitVec 64) (w : Width) (s : Sys δ) :
    Prop where
  lr : s.hs.hartid = h → (decodeExc env s).1 = .noexc → ∀ d, Decodes s d → d.IsLr → d.rd ≠ d.rs1
  store : s.hs.hartid ≠ h → s.bus.reservations h = a →
    ∀ b v, Stores env s b v → ¬ Overlap b v.bytes a w.bytes
  sc : s.hs.hartid ≠ h → s.bus.reservations h = a →
    ∀ b v, ScSucceeds env s b v → Overlap b v.bytes a w.bytes → b = a

/-- No two harts have the same address reserved. -/
def Exclusive (env : Env δ) (res : BitVec 16 → BitVec 64) : Prop :=
  ∀ i j, i < env.machHartCount → j < env.machHartCount → i ≠ j → res i ≠ 0 → res i ≠ res j

/-- A reservation that is dropped is in nobody's way. -/
theorem Exclusive.release {env : Env δ} {res : BitVec 16 → BitVec 64} (h : Exclusive env res)
    (k : BitVec 16) : Exclusive env (Function.update res k 0) := by
  intro i j hi hj hij h0
  by_cases hik : i = k
  · subst hik
    exact absurd (Function.update_self ..) h0
  · rw [Function.update_of_ne hik] at h0 ⊢
    by_cases hjk : j = k
    · subst hjk
      rwa [Function.update_self]
    · rw [Function.update_of_ne hjk]
      exact h i j hi hj hij h0

/-- The hart holds what it has reserved. -/
theorem reserve_self (env : Env δ) (res : BitVec 16 → BitVec 64) (k : BitVec 16)
    (a : BitVec 64) : reserve env res k a k = a := Function.update_self ..

/-- Reserving `a` takes it away from the other harts. -/
theorem reserve_of_ne (env : Env δ) (res : BitVec 16 → BitVec 64) {k i : BitVec 16}
    (a : BitVec 64) (hik : i ≠ k) :
    reserve env res k a i = if i < env.machHartCount ∧ res i = a then 0 else res i := by
  have hki : k ≠ i := hik.symm
  simp only [reserve, Function.update_of_ne hik, ne_eq, hki, not_false_eq_true, true_and]

/-- A new reservation is taken away from the others, so that it is exclusive. -/
theorem Exclusive.reserve {env : Env δ} {res : BitVec 16 → BitVec 64} (h : Exclusive env res)
    (k : BitVec 16) (a : BitVec 64) : Exclusive env (reserve env res k a) := by
  intro i j hi hj hij h0
  -- the pair of harts is compared before and after; either may be `k`
  by_cases hik : i = k
  · subst hik
    rw [reserve_self] at h0 ⊢
    rw [reserve_of_ne env res a hij.symm]
    split
    · exact h0
    · next hj' => exact fun he => hj' ⟨hj, he.symm⟩
  · rw [reserve_of_ne env res a hik] at h0 ⊢
    split at h0
    · exact absurd rfl h0
    · next hi' =>
      rw [if_neg hi']
      by_cases hjk : j = k
      · subst hjk
        rw [reserve_self]
        exact fun he => hi' ⟨hi, he⟩
      · rw [reserve_of_ne env res a hjk]
        split
        · exact h0
        · exact h i j hi hj hij h0

/-- One instruction keeps the reservations exclusive, … -/
theorem exclusive_step {env : Env δ} {s : Sys δ} (h : Exclusive env s.bus.reservations) :
    Exclusive env (decodeExc env s).2.bus.reservations := by
  rcases decodeExc_reservations env s with hr | ⟨d, -, -, hr⟩ | ⟨d, a, -, -, -, -, hr⟩ <;>
    rw [hr]
  · exact h
  · exact h.release _
  · exact h.reserve _ a

/-- A reservation comes from an LR of its address. -/
theorem reserved_step {env : Env δ} {s : Sys δ} (hbare : Bare s) {h : BitVec 16} {a : BitVec 64}
    (ha : a ≠ 0) (hlr : s.hs.hartid = h → (decodeExc env s).1 = .noexc →
      ∀ d, Decodes s d → d.IsLr → d.rd ≠ d.rs1)
    (hres : (decodeExc env s).2.bus.reservations h = a) :
    s.bus.reservations h = a ∨ (s.hs.hartid = h ∧ LrOf env s a) := by
  -- nothing, a reset by SC, or a reservation by LR
  rcases decodeExc_reservations env s with hr | ⟨d, -, -, hr⟩ | ⟨d, b, hd, hl, hexc, hb, hr⟩ <;>
    rw [hr] at hres
  · exact .inl hres
  · by_cases hh : h = s.hs.hartid
    · rw [hh, Function.update_self] at hres
      exact absurd hres.symm ha
    · rw [Function.update_of_ne hh] at hres
      exact .inl hres
  · by_cases hh : h = s.hs.hartid
    · rw [hh, reserve_self] at hres
      have hrs1 := hb.bare hbare (hlr hh.symm hexc d hd hl)
      exact .inr ⟨hh.symm, d, hd, hl, hrs1.symm.trans hres, hexc⟩
    · rw [reserve_of_ne env _ b hh] at hres
      split at hres
      · exact absurd hres.symm ha
      · exact .inl hres

/-- … and so does a run. -/
theorem exclusive_run {env : Env δ} {b : Bus δ} (hb : ∀ i, b.reservations i = 0)
    {run : List HartState} (hrun : EachStep env b (BareStep env) run) :
    Exclusive env (busAfter env b run).reservations := by
  induction run with
  | nil => exact fun i _ _ _ _ h0 => absurd (hb i) h0
  | cons hs earlier ih => exact exclusive_step (ih hrun.2)

/-- As long as hart `h` has `a` reserved, its word is undisturbed since the LR. -/
theorem undisturbed_of_reserved {env : Env δ} {b : Bus δ} (hb : ∀ i, b.reservations i = 0)
    {h : BitVec 16} (hh : h < env.machHartCount) {a : BitVec 64} (ha : a ≠ 0) {w : Width}
    {run : List HartState} (hrun : EachStep env b (BareStep env) run)
    (hsafe : EachStep env b (Respects env h a w) run)
    (hres : (busAfter env b run).reservations h = a) : UndisturbedSince env b h a w run := by
  induction run with
  | nil => exact absurd ((hb h).symm.trans hres) (Ne.symm ha)
  | cons hs earlier ih =>
    obtain ⟨hstep, hrun⟩ := hrun
    obtain ⟨hresp, hsafe⟩ := hsafe
    rcases reserved_step hstep.bare ha hresp.lr hres with hold | hlr
    · refine .inr ⟨ih hrun hsafe hold, ?_⟩
      rintro hne ⟨c, v, hst | hsc, hover⟩
      · exact hresp.store hne hold c v hst hover
      · -- an SC to the same address needs the reservation that `h` has
        obtain rfl := hresp.sc hne hold c v hsc hover
        have hother := (hsc.reserved hstep.bare).1
        exact exclusive_run hb hrun h hs.hartid hh hstep.hartid hne.symm (hold ▸ ha)
          (hold.trans hother.symm)
    · exact .inl hlr

/-- An SC that returns 0 finds its word as its LR found it, in every interleaving
    whose steps respect the word. -/
theorem sc_atomic (env : Env δ) (b : Bus δ) (hb : ∀ i, b.reservations i = 0)
    (run : List HartState) (sc : HartState) (a : BitVec 64) (w : Width)
    (hrun : EachStep env b (BareStep env) (sc :: run))
    (hsafe : EachStep env b (Respects env sc.hartid a w) run)
    (hsc : ScSucceeds env ⟨sc, busAfter env b run⟩ a w) :
    UndisturbedSince env b sc.hartid a w run := by
  obtain ⟨hres, ha⟩ := hsc.reserved hrun.1.bare
  exact undisturbed_of_reserved hb hrun.1.hartid ha hrun.2 hsafe hres

/-- A machine with two harts. -/
private def twoHarts : Env Unit := { Env.inert with machHartCount := 2 }

/-- Hart `i` in M-mode with `inst` fetched and x10 = 0x80000000. -/
private def hartAt (i : BitVec 16) (inst : BitVec 32) : HartState :=
  { resetState i with
    inst := inst, instLen := 32, regs := fun r => if r = 10 then 0x80000000 else 0 }

private def lrInst : BitVec 32 := 0x100522AF -- lr.w x5, (x10)

private def scInst : BitVec 32 := 0x1875232F -- sc.w x6, x7, (x10)

private def swInst : BitVec 32 := 0x00752023 -- sw x7, 0(x10)

private def swNextInst : BitVec 32 := 0x00752223 -- sw x7, 4(x10)

/-- LR and SC by one hart, and between them a store of the other to the word behind. -/
theorem sc_atomic_neighbour :
    UndisturbedSince twoHarts Bus.inert 0 0x80000000 .u32
      [hartAt 1 swNextInst, hartAt 0 lrInst] := by
  refine sc_atomic twoHarts Bus.inert (fun _ => rfl) [hartAt 1 swNextInst, hartAt 0 lrInst]
    (hartAt 0 scInst) _ .u32 ?_ ?_ ?_
  · exact ⟨⟨rfl, by decide⟩, ⟨rfl, by decide⟩, ⟨rfl, by decide⟩, trivial⟩
  · refine ⟨⟨fun hid => absurd hid (by decide), fun _ _ b v hst => ?_, fun _ _ b v hsc => ?_⟩,
      ⟨fun _ _ d hd _ => ?_, fun hne => absurd rfl hne, fun hne => absurd rfl hne⟩, trivial⟩
    · obtain ⟨d, hd, -, hw, -⟩ := hst
      obtain rfl := hd.unique (.inr ⟨rfl, rfl⟩)
      have hwrites : some (b, v) = some ((0x80000004 : BitVec 64), Width.u32) :=
        hw.symm.trans (by decide +kernel)
      cases hwrites
      rintro ⟨x, hx, hx'⟩
      simp only [InRange, Width.bytes] at hx hx'
      bv_omega
    · obtain ⟨d, hd, hsc, -⟩ := hsc
      obtain rfl := hd.unique (.inr ⟨rfl, rfl⟩)
      exact absurd hsc.1 (by decide)
    · obtain rfl := hd.unique (.inr ⟨rfl, rfl⟩)
      decide
  · exact ⟨_, .inr ⟨rfl, rfl⟩, ⟨by decide, by decide⟩, by decide +kernel, by decide +kernel,
      by decide +kernel⟩

/-- The store of hart 1 between the LR and the SC of hart 0 goes unnoticed. -/
theorem sc_misses_store :
    ¬ ∀ (run : List HartState) (sc : HartState) (a : BitVec 64) (w : Width),
      EachStep twoHarts Bus.inert (BareStep twoHarts) (sc :: run) →
      ScSucceeds twoHarts ⟨sc, busAfter twoHarts Bus.inert run⟩ a w →
      UndisturbedSince twoHarts Bus.inert sc.hartid a w run := by
  intro h
  have hund := h [hartAt 1 swInst, hartAt 0 lrInst] (hartAt 0 scInst) 0x80000000 .u32
    ⟨⟨rfl, by decide⟩, ⟨rfl, by decide⟩, ⟨rfl, by decide⟩, trivial⟩
    ⟨_, .inr ⟨rfl, rfl⟩, ⟨by decide, by decide⟩, by decide +kernel, by decide +kernel,
      by decide +kernel⟩
  have hstore : Stores twoHarts ⟨hartAt 1 swInst, busAfter twoHarts Bus.inert [hartAt 0 lrInst]⟩
      0x80000000 .u32 :=
    ⟨_, .inr ⟨rfl, rfl⟩, fun hsc => absurd hsc.1 (by decide), by decide +kernel, by decide +kernel⟩
  rcases hund with ⟨hid, -⟩ | ⟨-, hno⟩
  · exact absurd hid (by decide)
  · exact hno (by decide) ⟨_, _, .inl hstore, 0x80000000, by decide, by decide⟩

end RvEmu
