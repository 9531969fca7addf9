import RvEmu.Spec.Run
import RvEmu.Spec.TlbRun

/-!
# The TLB across a cycle

Whatever a hart does in a cycle is a sequence of the steps that runs since the last
`tlb_clear` are made of: lookups, walks, `SFENCE.VMA`, and what leaves the TLB alone.
-/

namespace RvEmu

variable {δ : Type}

/-- A sequence of steps. -/
def TlbSteps (env : Env δ) : Sys δ → Sys δ → Prop := Relation.ReflTransGen (TlbStep env)

namespace TlbSteps

variable {env : Env δ} {s t u : Sys δ}

/-- One step. -/
theorem of_step (h : TlbStep env s t) : TlbSteps env s t := .single h

/-- Whatever leaves the TLB alone is a step. -/
theorem of_tlb (h : t.hs.tlb = s.hs.tlb) : TlbSteps env s t := of_step (.other s t h)

/-- Steps compose. -/
theorem trans (h : TlbSteps env s t) (h' : TlbSteps env t u) : TlbSteps env s u :=
  Relation.ReflTransGen.trans h h'

/-- After anything that leaves the TLB alone. -/
theorem after {r : Sys δ} (h : TlbSteps env s t) (hs : s.hs.tlb = r.hs.tlb) :
    TlbSteps env r t := (of_tlb hs).trans h

/-- Before anything that leaves the TLB alone. -/
theorem before (h : TlbSteps env s t) (ht : u.hs.tlb = t.hs.tlb) : TlbSteps env s u :=
  h.trans (of_tlb ht)

end TlbSteps

/-! ## Memory accesses -/

section Access

variable (env : Env δ) (s : Sys δ) (w : Width) (addr data : BitVec 64)

/-- A translation looks the address up, and may walk. -/
theorem translate_tlbSteps (perms : BitVec 8) (isWrite : Bool) :
    TlbSteps env s (translate env s addr perms isWrite).2 := by
  have hfind : TlbSteps env s (tlbFind env s addr perms).2 := .of_step (.find s addr perms)
  have hwalk := hfind.trans (.of_step (.walk _ addr isWrite))
  simp only [translate]
  split
  · split
    · exact hwalk
    · exact hwalk.before rfl
  · exact hfind

/-- A load below the MPRV test. -/
theorem virtMemFetchAt_tlbSteps : TlbSteps env s (virtMemFetchAt env w s addr).2 := by
  have htrans := translate_tlbSteps env s addr (if s.hs.memStatus then 0b001 else 0b100) false
  unfold virtMemFetchAt
  split
  · next s' h =>
    rw [h] at htrans
    exact htrans
  · next phyAddr s' h =>
    rw [h] at htrans
    exact htrans.trans (.of_tlb (memFetch_tlb env s' w phyAddr))

/-- A load; the steps under MPRV are taken in the mode of MPP. -/
theorem virtMemFetch_tlbSteps : TlbSteps env s (virtMemFetch env w s addr).2 := by
  unfold virtMemFetch
  split
  · split
    · exact .of_tlb (memFetch_tlb env s w addr)
    · have hat := virtMemFetchAt_tlbSteps env (s.setPrivmode (mstatusMpp s.hs.csr.mstatus)) w addr
      exact TlbSteps.before (hat.after (r := s) rfl) rfl
  · exact virtMemFetchAt_tlbSteps env s w addr

/-- A store below the MPRV test. -/
theorem virtMemStoreAt_tlbSteps : TlbSteps env s (virtMemStoreAt env w s addr data) := by
  have htrans := translate_tlbSteps env s addr 0b010 true
  unfold virtMemStoreAt
  split
  · next s' h =>
    rw [h] at htrans
    exact htrans
  · next phyAddr s' h =>
    rw [h] at htrans
    exact htrans.trans (.of_tlb (memStore_tlb env s' w phyAddr data))

/-- A store; the steps under MPRV are taken in the mode of MPP. -/
theorem virtMemStore_tlbSteps : TlbSteps env s (virtMemStore env w s addr data) := by
  unfold virtMemStore
  split
  · split
    · exact .of_tlb (memStore_tlb env s w addr data)
    · have hat := virtMemStoreAt_tlbSteps env (s.setPrivmode (mstatusMpp s.hs.csr.mstatus)) w addr
        data
      exact TlbSteps.before (hat.after (r := s) rfl) rfl
  · exact virtMemStoreAt_tlbSteps env s w addr data

end Access

/-! ## Traps -/

/-- An exception leaves the TLB alone. -/
theorem createException_tlb (hs : HartState) (he : HartException) (tval : BitVec 64) :
    (createException hs he tval).2.tlb = hs.tlb := by
  rcases createException_cases hs he tval with h | ⟨-, -, h⟩ | ⟨-, h⟩ <;> rw [h] <;> rfl

/-- `HANDLE_MEM_ERROR` leaves the TLB alone. -/
theorem handleMemError_tlb {afault pfault : HartException} {tval : BitVec 64} {s : Sys δ}
    {t : HartException × Sys δ} (h : handleMemError afault pfault tval s = some t) :
    t.2.hs.tlb = s.hs.tlb := by
  rcases handleMemError_cases h with rfl | rfl
  · exact createException_tlb (s.setMemStatus false).hs afault tval
  · exact createException_tlb (s.setPageFault false).hs pfault tval

/-- The end of a jump leaves the TLB alone. -/
theorem jumped_tlb (s : Sys δ) : (jumped s).2.hs.tlb = s.hs.tlb := by
  unfold jumped
  split
  · exact createException_tlb s.hs .imisalign _
  · rfl

/-- The interrupt check leaves the TLB alone. -/
theorem cycleEnd_tlb (s : Sys δ) : (cycleEnd s).hs.tlb = s.hs.tlb :=
  cycleEnd_preserves (fun t he tval h => (createException_tlb t he tval).trans h) rfl id

/-! ## Instructions -/

section Execute

variable (env : Env δ) (d : Decoded) (s : Sys δ)

/-- Having been reached by steps is closed under memory accesses. -/
theorem TlbSteps.memClosed : MemClosed env (TlbSteps env s) where
  setMemStatus _ h := h.before rfl
  setPageFault _ h := h.before rfl
  setReg _ _ h := h.before rfl
  walk va isWrite h := h.trans (.of_step (.walk _ va isWrite))
  fetch w va h := h.trans (virtMemFetch_tlbSteps env _ w va)
  store w va data h := h.trans (virtMemStore_tlbSteps env _ w va data)

/-- A trap leaves the TLB alone. -/
theorem Outcome.tlbSteps {r : Flow × Sys δ} (h : Outcome (TlbSteps env s) r) :
    TlbSteps env s r.2 :=
  h.state (fun he tval t ht => ht.before (createException_tlb t.hs he tval)) fun _ _ ht => ht

/-- The CSR instructions leave the TLB alone, writes of `satp` included. -/
theorem execCsr_tlb : (execCsr env d s).2.hs.tlb = s.hs.tlb := by
  rcases execCsr_offCsr env d s with h | ⟨u, he, tval, hu, h⟩
  · exact congrArg (·.1.2.2.2) h
  · rw [h]
    exact (createException_tlb u.hs he tval).trans (congrArg (·.1.2.2.2) hu)

/-- Of `SYSTEM` only SFENCE.VMA touches the TLB. -/
theorem execSystem_tlbSteps : TlbSteps env s (execSystem env d s).2 := by
  rcases execSystem_ends env d s with h | ⟨-, -, h⟩ | ⟨-, -, -, h⟩ | ⟨-, h⟩
  · refine h.state ?_ ?_
    · rintro he tval t ⟨-, rfl⟩
      exact .of_tlb (createException_tlb t.hs he tval)
    · rintro b t ⟨-, rfl | rfl⟩
      · exact .of_tlb rfl
      · exact .of_step (.clear s _ rfl) -- SFENCE.VMA
  all_goals rw [h]
  · exact .of_tlb rfl
  · exact .of_tlb rfl
  · exact .of_tlb (execCsr_tlb env d s)

/-- The execute stage takes steps. -/
theorem execute_tlbSteps : TlbSteps env s (execute env d s).2 := by
  have hwriteback (v : Option (BitVec 64)) : TlbSteps env s (writeback d s v).2 := by
    cases v <;> exact .of_tlb rfl
  have hstart : TlbSteps env s s := .of_tlb rfl
  have hmem := TlbSteps.memClosed env s
  have hbus {t u : Sys δ} (ht : TlbSteps env s t) (hu : u.hs = t.hs) : TlbSteps env s u :=
    ht.before (congrArg (·.tlb) hu)
  unfold execute
  split
  case h_7 => exact .of_tlb (jumped_tlb _)
  case h_8 => exact .of_tlb (jumped_tlb _)
  case h_9 =>
    unfold execBranch
    split
    · exact .of_tlb (jumped_tlb _)
    · exact .of_tlb rfl
  case h_10 => exact (hmem.execLoad env d hstart).outcome.tlbSteps
  case h_11 => exact (hmem.execStore env d hstart).outcome.tlbSteps
  case h_12 =>
    refine .of_tlb ?_
    dsimp only
    split <;> rfl
  case h_13 => exact execSystem_tlbSteps env d s
  case h_14 => exact (hmem.execAmo env d hbus hstart).outcome.tlbSteps
  case h_15 => exact .of_tlb rfl
  all_goals exact hwriteback _

end Execute

/-! ## Cycles -/

section Cycle

variable (env : Env δ) (s : Sys δ)

/-- What follows the execute stage leaves the TLB alone. -/
theorem finish_tlb (r : Flow × Sys δ) : (finish r).2.hs.tlb = r.2.hs.tlb :=
  finish_proj (·.tlb) (fun _ _ _ _ => rfl) r

/-- `decode_exc` takes steps. -/
theorem decodeExc_tlbSteps : TlbSteps env s (decodeExc env s).2 := by
  have hrun (d : Decoded) : TlbSteps env s (runDecoded env d s).2 :=
    ((execute_tlbSteps env d (s.withInst d.inst s.hs.instLen)).after (r := s) rfl).before
      (finish_tlb _)
  unfold decodeExc
  split
  · split
    · exact .of_tlb (createException_tlb s.hs .illinst _)
    · next d hd => exact hrun d
  · split
    · exact hrun _
    · exact .of_tlb (createException_tlb _ .illinst _)

/-- The length stage of `fetch` leaves the TLB alone. -/
theorem fetchLength_tlb (u : Sys δ) : (fetchLength u).2.hs.tlb = u.hs.tlb := by
  rcases fetchLength_cases u with ⟨he, tval, -, h⟩ | ⟨len, instbuf, inst, h⟩ <;> rw [h]
  · exact createException_tlb { u.hs with instLen := 0 } he tval
  · rfl

/-- The TLB of a `fetch` is that of its access. -/
theorem fetch_tlb : (fetch env s).2.hs.tlb = (fetchInst env s).hs.tlb := by
  simp only [fetch]
  split
  · next t ht => exact handleMemError_tlb ht
  · exact fetchLength_tlb _

/-- `fetch` takes steps. -/
theorem fetch_tlbSteps : TlbSteps env s (fetch env s).2 := by
  have hinst : TlbSteps env s (fetchInst env s) := by
    unfold fetchInst
    dsimp only
    split
    · exact ((virtMemFetch_tlbSteps env (s.setMemStatus false) .u32 s.hs.pc).after
        (r := s) rfl).before rfl
    · exact .of_tlb rfl
  exact hinst.before (fetch_tlb env s)

/-- A cycle takes steps. -/
theorem cycle_tlbSteps : TlbSteps env s (cycle env s).2 := by
  have hfetch : TlbSteps env s (fetch env (s.setReg 0 0)).2 :=
    (fetch_tlbSteps env (s.setReg 0 0)).after rfl
  rcases cycle_cases env s with h | ⟨-, h⟩ | ⟨-, h⟩ <;> rw [h]
  · exact hfetch
  · exact (hfetch.trans (decodeExc_tlbSteps env _)).before (cycleEnd_tlb _)
  · exact hfetch.before (cycleEnd_tlb _)

/-- What happens to a hart is a sequence of these steps. -/
theorem HartStep.tlbSteps {t : Sys δ} (h : HartStep env s t) : TlbSteps env s t := by
  cases h with
  | cycle _ => exact cycle_tlbSteps env s
  | others bus mip chkInt => exact .of_tlb rfl

/-- Every state of a hart is reached by such steps from one with an empty TLB. -/
theorem Reachable.tlbSteps (h : Reachable env s) :
    ∃ s₀, s₀.hs.tlb = tlbClear ∧ TlbSteps env s₀ s := by
  obtain ⟨hartid, bus, hrun⟩ := h
  refine ⟨⟨hartInit env hartid, bus⟩, rfl, ?_⟩
  exact holds_of_run (fun _ _ hstep ht => ht.trans (hstep.tlbSteps env _)) hrun (.of_tlb rfl)

/-- What holds with an empty TLB, and is preserved by these steps, holds in every state. -/
theorem Reachable.tlbInvariant {P : Sys δ → Prop} (hclear : ∀ t, t.hs.tlb = tlbClear → P t)
    (hstep : ∀ t u, TlbStep env t u → P t → P u) (h : Reachable env s) : P s := by
  obtain ⟨s₀, hempty, hrun⟩ := h.tlbSteps
  exact holds_of_run hstep hrun (hclear s₀ hempty)

end Cycle

end RvEmu
