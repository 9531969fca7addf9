import RvEmu.Spec.Run
import RvEmu.Spec.Reservation

/-!
# The instruction buffer across a cycle

A cycle leaves `instbuf` empty, or it has just fetched a word whose first halfword is a
compressed instruction, kept the other one, and stepped over the instruction without a
jump or a trap.
-/

namespace RvEmu

variable {δ : Type}

/-! ## Traps -/

/-- A trap drops the buffer, … -/
theorem createException_instbuf (hs : HartState) (he : HartException) (tval : BitVec 64) :
    (createException hs he tval).2.instbuf = 0 := by
  rcases createException_cases hs he tval with h | ⟨-, -, h⟩ | ⟨-, h⟩ <;> rw [h] <;> rfl

/-- … and so do an interrupt that is taken … -/
theorem trySetint_instbuf {hs : HartState} {l : List (Nat × HartException)}
    (h : (trySetint hs l).1 = true) : (trySetint hs l).2.instbuf = 0 := by
  induction l generalizing hs with
  | nil => cases h
  | cons x rest ih =>
    simp only [trySetint] at h ⊢
    -- a pending interrupt that is masked lets the rest of the list be tried
    split at h
    · next hbit =>
      rw [if_pos hbit]
      split at h
      · next htaken =>
        rw [if_pos htaken]
        exact createException_instbuf hs x.2 0
      · next hmasked =>
        rw [if_neg hmasked]
        exact ih h
    · next hbit =>
      rw [if_neg hbit]
      exact ih h

/-- … and the check that takes it. -/
theorem setupPendingInt_instbuf {hs : HartState} (h : (setupPendingInt hs).1 = true) :
    (setupPendingInt hs).2.instbuf = 0 := by
  simp only [setupPendingInt] at h ⊢
  generalize hr : (if (hs.csr.mstatus &&& 0b1000 ≠ 0 ∨ hs.privmode < 0b11) ∧ hs.csr.mip ≠ 0 then
    trySetint hs _ else (false, hs)) = r at h ⊢
  -- `r` is what the first of the two lists has led to
  have hfirst : r.1 = true → r.2.instbuf = 0 := by
    intro hr1
    subst hr
    split at hr1
    · next hc =>
      rw [if_pos hc]
      exact trySetint_instbuf hr1
    · cases hr1
  split at h
  · next hr1 =>
    rw [if_pos hr1]
    exact hfirst hr1
  · next hr1 =>
    rw [if_neg hr1]
    split at h
    · next hc =>
      rw [if_pos hc]
      exact trySetint_instbuf h
    · exact absurd h hr1

/-! ## The execute stage -/

/-- What the next fetch depends on beside memory: the pc, the buffer and the mode. -/
def HartState.front (hs : HartState) : BitVec 64 × BitVec 16 × BitVec 8 × BitVec 2 :=
  (hs.pc, hs.instbuf, hs.instLen, hs.privmode)

/-- What decides about the next fetch. -/
theorem front_eq {hs hs' : HartState} (h : hs'.front = hs.front) :
    hs'.pc = hs.pc ∧ hs'.instbuf = hs.instbuf ∧ hs'.instLen = hs.instLen ∧
      hs'.privmode = hs.privmode := by
  simpa only [HartState.front, Prod.mk.injEq] using h

/-- An access to memory keeps it, … -/
theorem MemFrame.front {s t : Sys δ} (h : MemFrame s t) : t.hs.front = s.hs.front :=
  (h.proj HartState.front :)

/-- Breaking out of the switch, an instruction has left the front alone and no page
    fault behind, dropped the buffer, or jumped. -/
inductive FrontStep (s : Sys δ) : Bool → Sys δ → Prop
  | same (b : Bool) (t : Sys δ) (h : t.hs.front = s.hs.front)
    (hfault : s.hs.pageFault = false → t.hs.pageFault = false) : FrontStep s b t
  | dropped (b : Bool) (t : Sys δ) (h : t.hs.instbuf = 0) : FrontStep s b t
  | jumped (t : Sys δ) (h : t.hs.instbuf = s.hs.instbuf) : FrontStep s true t

/-- The outcome of an instruction outside `SYSTEM`. -/
abbrev FrontOutcome (s : Sys δ) : Flow × Sys δ → Prop := Ends (fun _ _ _ => True) (FrontStep s)

section Execute

variable (env : Env δ) (d : Decoded) (s : Sys δ)

/-- … a jump drops the buffer, … -/
theorem jumped_front {s t : Sys δ} (h : t.hs.instbuf = s.hs.instbuf) : FrontOutcome s (jumped t) := by
  unfold jumped
  split
  · exact .trap t .imisalign _ trivial rfl
  · exact .brk true t (.jumped t h)

/-- … a result for `rd` keeps it, … -/
theorem writeback_front (v : Option (BitVec 64)) : FrontOutcome s (writeback d s v) := by
  cases v with
  | some v => exact .brk false _ (.same false _ rfl id)
  | none => exact .brk false _ (.same false s rfl id)

/-- The memory operations leave the front alone. -/
theorem front_memClosed : MemClosed env fun t => t.hs.front = s.hs.front :=
  .of_frame env (fun ht h => ht.front.trans h) fun _ _ h => h

/-- … and so does an instruction that accesses memory. -/
theorem MemOutcome.front {r : Flow × Sys δ} (h : MemOutcome (fun t => t.hs.front = s.hs.front) r) :
    FrontOutcome s r :=
  Ends.mono h (fun _ _ _ _ => trivial) fun b t ht => .same b t ht.1 fun _ => ht.2.2

/-- An instruction other than a `SYSTEM` one keeps the front, jumps, or traps. -/
theorem execute_front (hsys : d.opFun ≠ .system) : FrontOutcome s (execute env d s) := by
  have hmem := front_memClosed env s
  unfold execute
  split
  case h_7 => exact jumped_front rfl
  case h_8 => exact jumped_front rfl
  case h_9 =>
    unfold execBranch
    split
    · exact jumped_front rfl
    · exact .brk false s (.same false s rfl id)
  case h_10 => exact (hmem.execLoad env d rfl).front
  case h_11 => exact (hmem.execStore env d rfl).front
  case h_12 =>
    refine .brk false _ ?_
    split
    · exact .dropped false _ rfl -- FENCE.I
    · exact .same false s rfl id
  case h_13 h => exact absurd h hsys
  case h_14 =>
    exact (hmem.execAmo env d (fun ht hu => (congrArg HartState.front hu).trans ht) rfl).front
  case h_15 => exact .brk false s (.same false s rfl id)
  all_goals exact writeback_front d s _

end Execute

/-! ## SYSTEM -/

section System

variable (env : Env δ) (d : Decoded) {s : Sys δ}

/-- A CSR instruction fills no buffer, … -/
theorem execCsr_instbuf (h : s.hs.instbuf = 0) : (execCsr env d s).2.hs.instbuf = 0 := by
  rcases execCsr_offCsr env d s with hsame | ⟨u, he, tval, -, hexc⟩
  · exact (congrArg (·.1.2.1) hsame).trans h
  · rw [hexc]
    exact createException_instbuf u.hs he tval

/-- `SYSTEM` never fills the buffer. -/
theorem execSystem_instbuf (h : s.hs.instbuf = 0) : (execSystem env d s).2.hs.instbuf = 0 := by
  rcases execSystem_ends env d s with hends | ⟨-, -, he⟩ | ⟨-, -, -, he⟩ | ⟨-, he⟩
  · refine hends.state (R := fun t => t.hs.instbuf = 0) (fun he tval t _ => ?_) ?_
    · exact createException_instbuf t.hs he tval
    · rintro b t ⟨-, rfl | rfl⟩
      · exact h
      · rfl
  all_goals rw [he]
  · exact h
  · exact h
  · exact execCsr_instbuf env d h

/-- C.EBREAK traps. -/
theorem execSystem_cebreak (h : d.cebreak = true) : (execSystem env d s).2.hs.instbuf = 0 := by
  unfold execSystem
  split
  · exact createException_instbuf s.hs _ _
  · rw [if_pos (.inr h)]
    exact createException_instbuf s.hs .bpoint _

end System

/-! ## Instructions -/

/-- The instruction steps over itself and keeps the buffer. -/
structure StepsOver (s t : Sys δ) : Prop where
  pc : t.hs.pc = s.hs.pc + s.hs.instBytes
  instbuf : t.hs.instbuf = s.hs.instbuf
  privmode : t.hs.privmode = s.hs.privmode
  pageFault : s.hs.pageFault = false → t.hs.pageFault = false

section Decode

variable (env : Env δ) {s : Sys δ}

/-- … nor does the end of `decode_exc`. -/
theorem finish_instbuf {r : Flow × Sys δ} (h : r.2.hs.instbuf = 0) :
    (finish r).2.hs.instbuf = 0 := by
  obtain ⟨f, u⟩ := r
  cases f with
  | ret he => exact h
  | brk pcChgd =>
    cases pcChgd with
    | true => rfl
    | false => exact h

/-- So the instruction is stepped over, or the buffer is empty. -/
theorem FrontOutcome.stepsOver {r : Flow × Sys δ} (h : FrontOutcome s r) :
    (finish r).2.hs.instbuf = 0 ∨ StepsOver s (finish r).2 := by
  rcases finish_of_ends h with ⟨t, he, tval, -, -, hf⟩ | ⟨b, t, hstep, hf⟩ <;> rw [hf]
  · exact .inl (createException_instbuf t.hs he tval)
  -- a jump drops the buffer, any other instruction steps over itself
  · cases b with
    | true => exact .inl rfl
    | false =>
      cases hstep with
      | same _ _ hfront hfault =>
        obtain ⟨hpc, hbuf, hlen, hpriv⟩ := front_eq hfront
        refine .inr ⟨?_, hbuf, hpriv, hfault⟩
        change t.hs.pc + t.hs.instBytes = _
        rw [hpc, HartState.instBytes, hlen, HartState.instBytes]
      | dropped _ _ hbuf => exact .inl hbuf

/-- A compressed instruction drops the buffer or steps over itself. -/
theorem decodeExc_stepsOver (hlen : s.hs.instLen = 16) :
    (decodeExc env s).2.hs.instbuf = 0 ∨ StepsOver s (decodeExc env s).2 := by
  unfold decodeExc
  rw [if_pos hlen]
  split
  · exact .inl (createException_instbuf s.hs .illinst _)
  · next d hd =>
    let u := s.withInst d.inst s.hs.instLen
    have hrun : runDecoded env d s = finish (execute env d u) := rfl
    rw [hrun]
    -- of the compressed instructions only C.EBREAK is executed as `SYSTEM`
    by_cases hsys : d.opFun = .system
    · have hbuf : (execute env d u).2.hs.instbuf = 0 := by
        rw [execute_system env hsys]
        exact execSystem_cebreak env d (decode16_system hd hsys)
      exact .inl (finish_instbuf hbuf)
    · exact (execute_front env d u hsys).stepsOver.imp_right fun h =>
        ⟨h.pc, h.instbuf, h.privmode, h.pageFault⟩

/-- An instruction never fills the buffer. -/
theorem decodeExc_instbuf (h : s.hs.instbuf = 0) : (decodeExc env s).2.hs.instbuf = 0 := by
  rcases decodeExc_cases env s with ⟨t, tval, -, -, hexc⟩ | ⟨d, -, hexc⟩ <;> rw [hexc]
  · exact createException_instbuf t.hs .illinst tval
  · let u := s.withInst d.inst s.hs.instLen
    by_cases hsys : d.opFun = .system
    · refine finish_instbuf ?_
      rw [execute_system env hsys]
      exact execSystem_instbuf env d h
    · rcases (execute_front env d u hsys).stepsOver with hbuf | hover
      · exact hbuf
      · exact hover.instbuf.trans h

end Decode

/-! ## Fetching -/

/-- The state in which a cycle fetches. -/
def fetchStart (s : Sys δ) : Sys δ := (s.setReg 0 0).setMemStatus false

/-- The word that a cycle fetches from memory. -/
def fetchedWord (env : Env δ) (s : Sys δ) : BitVec 64 × Sys δ :=
  virtMemFetch env .u32 (fetchStart s) s.hs.pc

/-- The cycle fetches a word from memory and keeps its second halfword. -/
structure Fills (env : Env δ) (s m : Sys δ) : Prop where
  fetched : (fetchedWord env s).2.hs.memStatus = false ∧ (fetchedWord env s).2.hs.pageFault = false
  bus : m.bus = (fetchedWord env s).2.bus
  instbuf : m.hs.instbuf = ((fetchedWord env s).1 >>> 16).setWidth 16
  pc : m.hs.pc = s.hs.pc
  instLen : m.hs.instLen = 16
  privmode : m.hs.privmode = s.hs.privmode
  pageFault : m.hs.pageFault = false

section Fetch

variable {env : Env δ} {s m : Sys δ}

/-- The arithmetic shift does not matter to the upper halfword. -/
theorem sshiftRight_setWidth (x : BitVec 64) :
    ((x.setWidth 32).sshiftRight 16).setWidth 16 = (x >>> 16).setWidth 16 := by
  apply BitVec.eq_of_getLsbD_eq
  intro i hi
  have h32 : 16 + i < 32 := by omega
  have hle : ¬ 32 ≤ i := by omega
  simp only [BitVec.getLsbD_setWidth, BitVec.getLsbD_sshiftRight, BitVec.getLsbD_ushiftRight, hi, h32,
    hle, decide_true, decide_false, Bool.true_and, Bool.not_false, ↓reduceIte]

/-- The halfword from the buffer does not fill it again. -/
theorem signExtend_high {x : BitVec 16} (h : x.signExtend 32 &&& 0x30000 ≠ 0x30000) :
    ((x.signExtend 32).sshiftRight 16).setWidth 16 = 0 := by
  -- a negative parcel has its upper half set, which the hypothesis excludes
  cases hmsb : x.msb with
  | true =>
    refine absurd ?_ h
    apply BitVec.eq_of_getLsbD_eq
    intro i hi
    rw [BitVec.getLsbD_and]
    by_cases hbit : (0x30000 : BitVec 32).getLsbD i = true
    · have hhigh : ∀ j < 32, (0x30000 : BitVec 32).getLsbD j = true → 16 ≤ j := by decide
      have hge : ¬ i < 16 := by
        have := hhigh i hi hbit
        omega
      rw [hbit, BitVec.getLsbD_signExtend, if_neg hge, hmsb, decide_eq_true hi]
      rfl
    · rw [Bool.eq_false_iff.mpr hbit, Bool.and_false]
  | false =>
    rw [BitVec.signExtend_eq_setWidth_of_msb_false hmsb]
    apply BitVec.eq_of_getLsbD_eq
    intro i hi
    have h32 : 16 + i < 32 := by omega
    simp [BitVec.getLsbD_sshiftRight, h32]

/-- The length test fills the buffer from a compressed instruction only. -/
theorem fetchLength_instbuf {u : Sys δ} (hbuf : u.hs.instbuf = 0) :
    (fetchLength u).2.hs.instbuf = 0 ∨
    ((fetchLength u).2.hs.instLen = 16 ∧ u.hs.inst &&& 0x30000 ≠ 0x30000 ∧
      (fetchLength u).2.hs.instbuf = (u.hs.inst.sshiftRight 16).setWidth 16 ∧
      (fetchLength u).1 = .noexc ∧ (fetchLength u).2.bus = u.bus ∧
      (fetchLength u).2.hs.pc = u.hs.pc ∧ (fetchLength u).2.hs.privmode = u.hs.privmode ∧
      (fetchLength u).2.hs.pageFault = u.hs.pageFault) := by
  unfold fetchLength
  dsimp only
  split
  · exact .inl (createException_instbuf _ .illinst _)
  · split
    · by_cases hrvc : u.hs.inst &&& 0x30000 ≠ 0x30000
      · refine .inr ⟨rfl, hrvc, ?_, rfl, rfl, rfl, rfl, rfl⟩
        exact if_pos hrvc
      · refine .inl ?_
        exact (if_neg hrvc).trans hbuf
    · split
      · exact .inl hbuf
      · exact .inl (createException_instbuf _ .imisalign _)

/-- A fetch empties the buffer, or fills it from memory. -/
theorem fetch_fills (env : Env δ) (s : Sys δ) :
    (fetch env (s.setReg 0 0)).2.hs.instbuf = 0 ∨
    (s.hs.instbuf = 0 ∧ (fetch env (s.setReg 0 0)).1 = .noexc ∧
      Fills env s (fetch env (s.setReg 0 0)).2) := by
  have hframe := virtMemFetch_frame env (fetchStart s) .u32 s.hs.pc
  simp only [fetch]
  split
  · next t ht =>
    rcases handleMemError_cases ht with rfl | rfl
    · exact .inl (createException_instbuf _ .iafault _)
    · exact .inl (createException_instbuf _ .ipfault _)
  · next hok =>
    have hflags := handleMemError_none hok
    -- the buffer is filled only from a word that comes from memory
    by_cases hbuf : s.hs.instbuf = 0
    · have hinst : fetchInst env (s.setReg 0 0) = (fetchedWord env s).2.setHs
          { (fetchedWord env s).2.hs with inst := (fetchedWord env s).1.setWidth 32 } := if_pos hbuf
      rw [hinst] at hflags ⊢
      have hempty : (fetchedWord env s).2.hs.instbuf = 0 := (hframe.proj (·.instbuf)).trans hbuf
      rcases fetchLength_instbuf (u := (fetchedWord env s).2.setHs
          { (fetchedWord env s).2.hs with inst := (fetchedWord env s).1.setWidth 32 }) hempty with
        hnone | ⟨hlen, -, hfill, hexc, hbus, hpc, hpriv, hfault⟩
      · exact .inl hnone
      · refine .inr ⟨hbuf, hexc, ⟨hflags, hbus, ?_, ?_, hlen, ?_, hfault.trans hflags.2⟩⟩
        · rw [hfill]
          exact sshiftRight_setWidth _
        · exact hpc.trans (hframe.proj (·.pc))
        · exact hpriv.trans hframe.privmode
    · have hinst : fetchInst env (s.setReg 0 0) = (fetchStart s).setHs
          { (fetchStart s).hs with inst := s.hs.instbuf.signExtend 32, instbuf := 0 } := if_neg hbuf
      rw [hinst]
      rcases fetchLength_instbuf (u := (fetchStart s).setHs
          { (fetchStart s).hs with inst := s.hs.instbuf.signExtend 32, instbuf := 0 }) rfl with
        -- a buffered parcel leaves zero behind, the sign of a parcel that is no long word
        hnone | ⟨-, hrvc, hfill, -⟩
      · exact .inl hnone
      · rw [hfill]
        exact .inl (signExtend_high hrvc)

end Fetch

/-! ## Cycles -/

section Cycle

variable (env : Env δ) (s : Sys δ)

/-- The end of a cycle drops the buffer or leaves the front alone. -/
theorem cycleEnd_instbuf :
    (cycleEnd s).hs.instbuf = 0 ∨
    ((cycleEnd s).hs.front = s.hs.front ∧ (cycleEnd s).hs.pageFault = s.hs.pageFault ∧
      (cycleEnd s).bus = s.bus) := by
  by_cases hint : TakesInterrupt s
  · obtain ⟨hchk, htaken⟩ := hint
    have hend : cycleEnd s = s.setHs (setupPendingInt { s.hs.tick with chkInt := false }).2 :=
      if_pos hchk
    rw [hend]
    exact .inl (setupPendingInt_instbuf htaken)
  · obtain ⟨instbuf, chkInt, hbuf, hend⟩ := cycleEnd_of_not_taken hint
    rw [hend]
    -- interrupts that are masked may drop the buffer too
    rcases hbuf with rfl | rfl
    · exact .inr ⟨rfl, rfl, rfl⟩
    · exact .inl rfl

/-- What is left in the buffer after a cycle. -/
structure Buffers (env : Env δ) (s t : Sys δ) : Prop where
  empty : s.hs.instbuf = 0
  fills : Fills env s (fetch env (s.setReg 0 0)).2
  instbuf : t.hs.instbuf = ((fetchedWord env s).1 >>> 16).setWidth 16
  pc : t.hs.pc = s.hs.pc + 2
  privmode : t.hs.privmode = s.hs.privmode
  pageFault : t.hs.pageFault = false

/-- A cycle leaves the buffer empty, or it has filled it from memory and stepped over a
    compressed instruction. -/
theorem cycle_buffers (hgo : (cycle env s).1 = true) :
    (cycle env s).2.hs.instbuf = 0 ∨ Buffers env s (cycle env s).2 := by
  rcases cycle_cases env s with h | ⟨hf, h⟩ | ⟨hexc, h⟩ <;> rw [h] at hgo ⊢
  · cases hgo
  · rcases cycleEnd_instbuf (decodeExc env (fetch env (s.setReg 0 0)).2).2 with
      hend | ⟨hend, hfault, -⟩
    · exact .inl hend
    · obtain ⟨hpc, hbuf, -, hpriv⟩ := front_eq hend
      rcases fetch_fills env s with hnone | ⟨hempty, -, hfills⟩
      · exact .inl (hbuf.trans (decodeExc_instbuf env hnone))
      -- the buffer survives only the instructions that step over themselves
      · rcases decodeExc_stepsOver env hfills.instLen with hdrop | hover
        · exact .inl (hbuf.trans hdrop)
        · refine .inr ⟨hempty, hfills, ?_, ?_, ?_, ?_⟩
          · exact (hbuf.trans hover.instbuf).trans hfills.instbuf
          · refine (hpc.trans hover.pc).trans ?_
            rw [hfills.pc, HartState.instBytes, hfills.instLen]
            rfl
          · exact (hpriv.trans hover.privmode).trans hfills.privmode
          · exact hfault.trans (hover.pageFault hfills.pageFault)
  -- a fetch that traps fills nothing
  · rcases fetch_fills env s with hnone | ⟨-, hok, -⟩
    · rcases cycleEnd_instbuf (fetch env (s.setReg 0 0)).2 with hend | ⟨hend, -⟩
      · exact .inl hend
      · exact .inl ((front_eq hend).2.1.trans hnone)
    · exact absurd hok hexc

end Cycle

end RvEmu
