import RvEmu.Spec.Reservation
import RvEmu.Spec.Run

/-!
# Precise traps

What a trap leaves alone and what it records. The faults of fetches, loads and
stores are precise.
-/

namespace RvEmu

variable {δ : Type}

/-! ## What a trap records -/

/-- `mepc` or `sepc`, of the mode that a trap was taken to. -/
def HartState.xepc (hs : HartState) : BitVec 64 :=
  if hs.privmode = 3 then hs.csr.mepc else hs.csr.sepc

/-- `mtval` or `stval`. -/
def HartState.xtval (hs : HartState) : BitVec 64 :=
  if hs.privmode = 3 then hs.csr.mtval else hs.csr.stval

/-- `mcause` or `scause`. -/
def HartState.xcause (hs : HartState) : BitVec 64 :=
  if hs.privmode = 3 then hs.csr.mcause else hs.csr.scause

/-- The CSRs other than the trap CSRs and `mstatus`. -/
def CsrState.untrapped (c : CsrState) : CsrState :=
  { c with
    mstatus := 0, mepc := 0, sepc := 0, mcause := 0, scause := 0, mtval := 0, stval := 0 }

/-- An exception is recorded in the mode it is taken to, and changes nothing but
    the trap CSRs, `mstatus`, the mode, the pc and `instbuf`. -/
structure Recorded (t u : HartState) (he : HartException) (tval : BitVec 64) : Prop where
  xepc : u.xepc = t.pc
  xtval : u.xtval = tval
  xcause : u.xcause = he.toBits
  regs : u.regs = t.regs
  csr : u.csr.untrapped = t.csr.untrapped
  pmp : u.pmp = t.pmp

theorem createException_recorded (t : HartState) {he : HartException} (tval : BitVec 64)
    (h : he.interrupt = false) : Recorded t (createException t he tval).2 he tval := by
  have hfst : (createException t he tval).1 = he :=
    createException_fst (⟨t, Bus.inert⟩ : Sys Unit) tval h
  rcases createException_cases t he tval with hc | ⟨-, -, hc⟩ | ⟨-, hc⟩
  · rw [hc] at hfst
    have hno : he = .noexc := hfst.symm
    rw [hno] at h
    exact absurd h (by decide)
  · rw [hc]
    exact ⟨rfl, rfl, rfl, rfl, rfl, rfl⟩
  · rw [hc]
    exact ⟨rfl, rfl, rfl, rfl, rfl, rfl⟩

/-! ## Fetches, loads and stores -/

/-- An access fault or a page fault. -/
def HartException.memFault : HartException → Bool
  | iafault | lafault | safault | ipfault | lpfault | spfault => true
  | _ => false

/-- The trap taken from `s` leaves the integer registers and `minstret` alone, and
    records the pc of the instruction, `tval` and the exception returned. -/
structure FaultPrecise (s : Sys δ) (r : HartException × Sys δ) (tval : BitVec 64) : Prop where
  regs : r.2.hs.regs = s.hs.regs
  minstret : r.2.hs.csr.minstret = s.hs.csr.minstret
  xepc : r.2.hs.xepc = s.hs.pc
  xtval : r.2.hs.xtval = tval
  xcause : r.2.hs.xcause = r.1.toBits

/-- The registers, the pc and the counter of retired instructions. -/
def HartState.progress (hs : HartState) : (BitVec 5 → BitVec 64) × BitVec 64 × BitVec 64 :=
  (hs.regs, hs.pc, hs.csr.minstret)

/-- An exception raised before the instruction has made any progress. -/
theorem faultPrecise_createException {s t : Sys δ} {he : HartException} {tval : BitVec 64}
    (h : t.hs.progress = s.hs.progress) (hexc : he.interrupt = false) :
    FaultPrecise s (t.createException he tval) tval := by
  have hfst := createException_fst t tval hexc
  have hrec := createException_recorded t.hs tval hexc
  obtain ⟨hregs, hpc, hret⟩ : t.hs.regs = s.hs.regs ∧ t.hs.pc = s.hs.pc ∧
      t.hs.csr.minstret = s.hs.csr.minstret := by
    simpa only [HartState.progress, Prod.mk.injEq] using h
  have hcsr : (createException t.hs he tval).2.csr.minstret = t.hs.csr.minstret :=
    (congrArg CsrState.minstret hrec.csr :)
  refine ⟨hrec.regs.trans hregs, hcsr.trans hret, hrec.xepc.trans hpc, hrec.xtval, ?_⟩
  rw [hfst]
  exact hrec.xcause

theorem MemFrame.progress {s t : Sys δ} (h : MemFrame s t) : t.hs.progress = s.hs.progress :=
  (h.proj HartState.progress :)

section Faults

variable (env : Env δ) (d : Decoded) (s : Sys δ)

theorem fetchInst_progress : (fetchInst env s).hs.progress = s.hs.progress := by
  unfold fetchInst
  dsimp only
  split
  · exact (virtMemFetch_frame env (s.setMemStatus false) .u32 s.hs.pc).progress
  · rfl

/-- The exceptions of `fetch` other than its memory faults. -/
theorem fetchLength_fst (u : Sys δ) : (fetchLength u).1.memFault = false := by
  rcases fetchLength_cases u with ⟨he, tval, hkind, h⟩ | ⟨len, instbuf, inst, h⟩ <;> rw [h]
  · rcases hkind with rfl | rfl <;> rw [createException_fst _ _ rfl] <;> rfl
  · rfl

theorem fetch_faultPrecise (h : (fetch env s).1.memFault = true) :
    ((fetch env s).1 = .iafault ∨ (fetch env s).1 = .ipfault) ∧
      FaultPrecise s (fetch env s) s.hs.pc := by
  have hprog := fetchInst_progress env s
  have hpc : (fetchInst env s).hs.pc = s.hs.pc := congrArg (·.2.1) hprog
  simp only [fetch, hpc] at h ⊢
  split at h
  · next t ht =>
    refine ⟨handleMemError_fst rfl rfl ht, ?_⟩
    rcases handleMemError_cases ht with rfl | rfl
    · exact faultPrecise_createException hprog rfl
    · exact faultPrecise_createException hprog rfl
  · rw [fetchLength_fst] at h
    cases h

/-- A LOAD traps as `lafault` or `lpfault`, with its address, before it has made any
    progress. -/
theorem execLoad_ends :
    Ends (fun he tval t => t.hs.progress = s.hs.progress ∧ tval = s.hs.regs d.rs1 + d.imm ∧
      (he = .lafault ∨ he = .lpfault)) (fun _ _ => True) (execLoad env d s) := by
  have hfetch := (virtMemFetch_frame env (s.setMemStatus true)
    (accessWidth (d.funct3.setWidth 2)) (s.hs.regs d.rs1 + d.imm)).progress
  unfold execLoad
  dsimp only
  split
  · next t ht => exact ends_memError ht ⟨hfetch, rfl, .inl rfl⟩ ⟨hfetch, rfl, .inr rfl⟩ rfl rfl
  · exact .brk false _ trivial

/-- A STORE traps as `safault` or `spfault`, with its address, before it has made any
    progress. -/
theorem execStore_ends :
    Ends (fun he tval t => t.hs.progress = s.hs.progress ∧ tval = s.hs.regs d.rs1 + d.imm ∧
      (he = .safault ∨ he = .spfault)) (fun _ _ => True) (execStore env d s) := by
  have hstore := (virtMemStore_frame env (s.setMemStatus false)
    (accessWidth (d.funct3.setWidth 2)) (s.hs.regs d.rs1 + d.imm) (s.hs.regs d.rs2)).progress
  unfold execStore
  dsimp only
  -- funct3 from 4 on leaves out the store
  generalize hu : (if d.funct3.getLsbD 2 = true then s.setMemStatus false else _) = u
  have hprog : u.hs.progress = s.hs.progress := by
    rw [← hu]
    split
    · rfl
    · exact hstore
  split
  · next t ht => exact ends_memError ht ⟨hprog, rfl, .inl rfl⟩ ⟨hprog, rfl, .inr rfl⟩ rfl rfl
  · exact .brk false _ trivial

/-- What an instruction raises, if its execute stage raises only such exceptions. -/
theorem decodeExc_faultPrecise {d : Decoded} (hd : Decodes s d) (kind : HartException → Prop)
    {tval : BitVec 64}
    (hends : Ends (fun he v t => t.hs.progress = s.hs.progress ∧ v = tval ∧ kind he)
      (fun _ _ => True) (execute env d (s.withInst d.inst s.hs.instLen)))
    (h : (decodeExc env s).1.memFault = true) :
    kind (decodeExc env s).1 ∧ FaultPrecise s (decodeExc env s) tval := by
  rw [decodeExc_of_decodes env hd] at h ⊢
  rcases finish_of_ends hends with ⟨t, x, v, ⟨hprog, rfl, hkind⟩, hx, hf⟩ | ⟨b, t, -, hf⟩
  · rw [hf]
    refine ⟨?_, faultPrecise_createException hprog hx⟩
    rw [createException_fst t v hx]
    exact hkind
  · rw [hf] at h
    cases h

/-- The faults of fetches, loads and stores are precise: registers and `minstret`
    are unchanged, and the trap records the pc of the instruction, the address of
    the access and its kind. -/
theorem mem_faults_precise :
    ((fetch env s).1.memFault = true →
      ((fetch env s).1 = .iafault ∨ (fetch env s).1 = .ipfault) ∧
        FaultPrecise s (fetch env s) s.hs.pc) ∧
    ∀ d, Decodes s d → (decodeExc env s).1.memFault = true →
      (d.opFun = .load → ((decodeExc env s).1 = .lafault ∨ (decodeExc env s).1 = .lpfault) ∧
        FaultPrecise s (decodeExc env s) (s.hs.regs d.rs1 + d.imm)) ∧
      (d.opFun = .store → ((decodeExc env s).1 = .safault ∨ (decodeExc env s).1 = .spfault) ∧
        FaultPrecise s (decodeExc env s) (s.hs.regs d.rs1 + d.imm)) := by
  -- the two kinds differ in their exceptions and in the function they execute
  refine ⟨fetch_faultPrecise env s, fun d hd hexc => ⟨fun hop => ?_, fun hop => ?_⟩⟩
  · let u := s.withInst d.inst s.hs.instLen
    refine decodeExc_faultPrecise env s hd (fun he => he = .lafault ∨ he = .lpfault) ?_ hexc
    rw [execute_load env hop]
    exact execLoad_ends env d u
  · let u := s.withInst d.inst s.hs.instLen
    refine decodeExc_faultPrecise env s hd (fun he => he = .safault ∨ he = .spfault) ?_ hexc
    rw [execute_store env hop]
    exact execStore_ends env d u

end Faults

/-- A hart about to load from address zero. -/
private def nullLoad : Sys Unit :=
  ⟨{ hartInit Env.inert 0 with inst := 0x00002283, instLen := 32 }, Bus.inert⟩ -- lw x5, 0(x0)

theorem mem_faults_precise_null :
    (decodeExc Env.inert nullLoad).1 = .lafault ∧
      FaultPrecise nullLoad (decodeExc Env.inert nullLoad) 0 := by
  have hd : Decodes nullLoad (decode32 0x00002283) := .inr ⟨rfl, rfl⟩
  have hload := ((mem_faults_precise Env.inert nullLoad).2 _ hd (by decide +kernel)).1 (by decide)
  exact ⟨by decide +kernel, hload.2⟩

end RvEmu
