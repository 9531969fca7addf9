import RvEmu.Spec.SieMirror
import RvEmu.Spec.TrapEntry

/-!
# Pending interrupts

`setup_pending_int` tries the pending interrupts one after another until
`create_exception` accepts one. A refused attempt only drops `instbuf`, which
`create_exception` does not read, so that the attempts amount to a search for the
first interrupt that is acceptable in the state at the start.
-/

namespace RvEmu

open Isa (StdInt)

variable {δ : Type}

/-! ## Acceptable interrupts -/

/-- The interrupt is pending, and `create_exception` would take it. -/
def HartState.acceptable (hs : HartState) (i : StdInt) : Bool :=
  hs.csr.mip.getLsbD i.cause && (createException hs i.exc 0).1 != .noexc

/-- The order of the attempts. -/
def intOrder : List StdInt := [.mext, .msoft, .mtime, .sext, .ssoft, .stime]

/-- The first acceptable interrupt in this order. -/
def HartState.firstAcceptable (hs : HartState) : Option StdInt := intOrder.find? hs.acceptable

/-- `TRY_SETINT` under its bit of `mip`. -/
def attempt (i : StdInt) : Nat × HartException := (i.cause, i.exc)

/-- The states are the same, but `instbuf` may have been dropped. -/
def Dropped (hs hs' : HartState) : Prop := hs' = hs ∨ hs' = { hs with instbuf := 0 }

/-- An exception does not see whether the buffer has been dropped, … -/
theorem Dropped.createException {hs hs' : HartState} (h : Dropped hs hs') (he : HartException)
    (tval : BitVec 64) : createException hs' he tval = createException hs he tval := by
  rcases h with rfl | rfl <;> rfl

/-- … nor does the choice of interrupts. -/
theorem Dropped.acceptable {hs hs' : HartState} (h : Dropped hs hs') :
    hs'.acceptable = hs.acceptable := by
  rcases h with rfl | rfl <;> rfl

/-- It may be dropped twice. -/
theorem Dropped.trans {hs hs' hs'' : HartState} (h : Dropped hs hs') (h' : Dropped hs' hs'') :
    Dropped hs hs'' := by
  rcases h with rfl | rfl <;> rcases h' with rfl | rfl
  · exact .inl rfl
  · exact .inr rfl
  · exact .inr rfl
  · exact .inr rfl

/-- The attempts find the first acceptable interrupt. -/
theorem trySetint_of_find_some {hs : HartState} {is : List StdInt} {i : StdInt}
    (h : is.find? hs.acceptable = some i) :
    trySetint hs (is.map attempt) = (true, (createException hs i.exc 0).2) := by
  induction is generalizing hs with
  | nil => cases h
  | cons j rest ih =>
    simp only [List.map_cons, trySetint, attempt]
    by_cases hbit : hs.csr.mip.getLsbD j.cause = true
    · rw [if_pos hbit]
      by_cases hexc : (createException hs j.exc 0).1 = .noexc
      · -- refused: the rest is tried in the same state
        have hdrop : Dropped hs (createException hs j.exc 0).2 :=
          .inr (createException_refused (StdInt.exc_ne_noexc j) hexc)
        have hacc : hs.acceptable j = false := by
          rw [HartState.acceptable, hexc, Bool.and_eq_false_iff]
          exact .inr rfl
        rw [List.find?_cons_of_neg (Bool.eq_false_iff.mp hacc)] at h
        rw [if_neg fun hne => hne hexc]
        refine (ih (hdrop.acceptable ▸ h)).trans ?_
        rw [hdrop.createException]
      · have hacc : hs.acceptable j = true := by
          rw [HartState.acceptable, hbit, Bool.true_and]
          exact bne_iff_ne.mpr hexc
        rw [List.find?_cons_of_pos hacc] at h
        obtain rfl := Option.some.inj h
        rw [if_pos hexc]
    · have hacc : hs.acceptable j = false := by
        rw [HartState.acceptable, Bool.eq_false_iff.mpr hbit, Bool.false_and]
      rw [List.find?_cons_of_neg (Bool.eq_false_iff.mp hacc)] at h
      rw [if_neg hbit]
      exact ih h

/-- Without one, nothing is taken. -/
theorem trySetint_of_find_none {hs : HartState} {is : List StdInt}
    (h : ∀ i ∈ is, hs.acceptable i = false) :
    (trySetint hs (is.map attempt)).1 = false ∧
      Dropped hs (trySetint hs (is.map attempt)).2 := by
  induction is generalizing hs with
  | nil => exact ⟨rfl, .inl rfl⟩
  | cons j rest ih =>
    have hrest : ∀ i ∈ rest, hs.acceptable i = false := fun i hi => h i (List.mem_cons_of_mem _ hi)
    have hj := h j List.mem_cons_self
    simp only [List.map_cons, trySetint, attempt]
    by_cases hbit : hs.csr.mip.getLsbD j.cause = true
    · have hexc : (createException hs j.exc 0).1 = .noexc := by
        rw [HartState.acceptable, hbit, Bool.true_and, bne_eq_false_iff_eq] at hj
        exact hj
      have hdrop : Dropped hs (createException hs j.exc 0).2 :=
        .inr (createException_refused (StdInt.exc_ne_noexc j) hexc)
      rw [if_pos hbit, if_neg fun hne => hne hexc]
      obtain ⟨hno, hsame⟩ := ih (hdrop.acceptable ▸ hrest)
      exact ⟨hno, hdrop.trans hsame⟩
    · rw [if_neg hbit]
      exact ih hrest

/-! ## The two blocks -/

/-- The first block, `// handle mip`. -/
def mipBlock (hs : HartState) : Bool × HartState :=
  if (hs.csr.mstatus &&& 0b1000 ≠ 0 ∨ hs.privmode < 0b11) ∧ hs.csr.mip ≠ 0 then
    trySetint hs [(11, .mextint), (3, .msoftint), (7, .mtimeint),
      (9, .sextint), (1, .ssoftint), (5, .stimeint)]
  else (false, hs)

/-- The second block, `// handle sip`. -/
def sipBlock (hs : HartState) : Bool × HartState :=
  if hs.csr.mstatus &&& 0b10 ≠ 0 ∧ hs.csr.mip ≠ 0 then
    trySetint hs [(9, .sextint), (1, .ssoftint), (5, .stimeint)]
  else (false, hs)

/-- The first block decides if it takes an interrupt, … -/
theorem setupPendingInt_of_mipBlock {hs : HartState} (h : (mipBlock hs).1 = true) :
    setupPendingInt hs = mipBlock hs := by
  unfold setupPendingInt
  exact if_pos h

/-- … and else the second one. -/
theorem setupPendingInt_of_sipBlock {hs : HartState} (h : (mipBlock hs).1 = false) :
    setupPendingInt hs = sipBlock (mipBlock hs).2 := by
  have hne : ¬ (mipBlock hs).1 = true := Bool.eq_false_iff.mp h
  unfold setupPendingInt sipBlock
  refine (if_neg hne).trans ?_
  by_cases hsip : (mipBlock hs).2.csr.mstatus &&& 0b10 ≠ 0 ∧ (mipBlock hs).2.csr.mip ≠ 0
  · rw [if_pos hsip]
    exact if_pos hsip
  · rw [if_neg hsip]
    exact (if_neg hsip).trans (Prod.ext h rfl)

/-- `setup_pending_int` is the first block, and the second one where that takes nothing. -/
theorem setupPendingInt_blocks (hs : HartState) :
    setupPendingInt hs = if (mipBlock hs).1 then mipBlock hs else sipBlock (mipBlock hs).2 := by
  cases hmip : (mipBlock hs).1 with
  | true => exact setupPendingInt_of_mipBlock hmip
  | false => exact setupPendingInt_of_sipBlock hmip

/-- A disabled interrupt is not taken. -/
theorem createException_of_disabled {hs : HartState} {he : HartException} (tval : BitVec 64)
    (h : intDisabled hs he = true) : (createException hs he tval).1 = .noexc := by
  have hdis : intDisabled { hs with instbuf := 0 } he = true := h
  unfold createException
  rw [if_pos hdis]

/-- In M-mode with MIE clear nothing is acceptable. -/
theorem acceptable_of_machine {hs : HartState} (hpriv : hs.privmode = 3)
    (hmie : hs.csr.mstatusMie = false) (i : StdInt) : hs.acceptable i = false := by
  have hdis : intDisabled hs i.exc = true := by
    rw [intDisabled_exc, hpriv, hmie]
    rfl
  rw [HartState.acceptable, createException_of_disabled 0 hdis, Bool.and_eq_false_iff]
  exact .inr rfl

/-- Where the first block is skipped, nothing is acceptable. -/
theorem acceptable_of_guard {hs : HartState}
    (h : ¬ ((hs.csr.mstatus &&& 0b1000 ≠ 0 ∨ hs.privmode < 0b11) ∧ hs.csr.mip ≠ 0)) (i : StdInt) :
    hs.acceptable i = false := by
  rcases not_and_or.mp h with hmode | hmip
  · obtain ⟨hmie, hpriv⟩ := not_or.mp hmode
    have hmie' : hs.csr.mstatusMie = false :=
      (BitVec.and_one_shiftLeft_eq_zero hs.csr.mstatus 3).mp (not_not.mp hmie)
    have hpriv' : hs.privmode = 3 := by
      have hlt := hs.privmode.isLt
      bv_omega
    exact acceptable_of_machine hpriv' hmie' i
  · have hbit : hs.csr.mip.getLsbD i.cause = false := by
      rw [not_not.mp hmip]
      exact BitVec.getLsbD_zero
    rw [HartState.acceptable, hbit, Bool.false_and]

/-- The first block takes the first acceptable interrupt. -/
theorem mipBlock_of_some {hs : HartState} {i : StdInt} (h : hs.firstAcceptable = some i) :
    mipBlock hs = (true, (createException hs i.exc 0).2) := by
  have hacc := List.find?_some h
  have hguard : (hs.csr.mstatus &&& 0b1000 ≠ 0 ∨ hs.privmode < 0b11) ∧ hs.csr.mip ≠ 0 := by
    by_contra hno
    rw [acceptable_of_guard hno i] at hacc
    cases hacc
  unfold mipBlock
  rw [if_pos hguard]
  exact trySetint_of_find_some h

/-- Without an acceptable interrupt the first block takes none. -/
theorem mipBlock_of_none {hs : HartState} (h : hs.firstAcceptable = none) :
    (mipBlock hs).1 = false ∧ Dropped hs (mipBlock hs).2 := by
  have hno : ∀ i ∈ intOrder, hs.acceptable i = false := fun i hi =>
    Bool.eq_false_iff.mpr (List.find?_eq_none.mp h i hi)
  unfold mipBlock
  split
  · exact trySetint_of_find_none hno
  · exact ⟨rfl, .inl rfl⟩

/-- The second block takes nothing in a state where nothing is acceptable. -/
theorem sipBlock_of_none {hs : HartState} (h : hs.firstAcceptable = none) :
    (sipBlock hs).1 = false ∧ Dropped hs (sipBlock hs).2 := by
  have hno : ∀ i ∈ [StdInt.sext, .ssoft, .stime], hs.acceptable i = false := by
    intro i hi
    have hmem : i ∈ intOrder := by
      revert hi i
      decide
    exact Bool.eq_false_iff.mpr (List.find?_eq_none.mp h i hmem)
  unfold sipBlock
  split
  · exact trySetint_of_find_none hno
  · exact ⟨rfl, .inl rfl⟩

/-- The first acceptable interrupt does not depend on the buffer. -/
theorem Dropped.firstAcceptable {hs hs' : HartState} (h : Dropped hs hs') :
    hs'.firstAcceptable = hs.firstAcceptable := by
  rw [HartState.firstAcceptable, h.acceptable]
  rfl

/-- `setup_pending_int` takes the first acceptable interrupt, by one trap, and
    takes none if there is none, where it at most drops `instbuf`; what the
    first of its blocks refuses, the second refuses too. -/
theorem setupPendingInt_first (hs : HartState) :
    ((setupPendingInt hs).1 = true ↔ ∃ i, hs.acceptable i = true) ∧
    (∀ i, hs.firstAcceptable = some i →
      setupPendingInt hs = (true, (createException hs i.exc 0).2)) ∧
    ((setupPendingInt hs).1 = false → Dropped hs (setupPendingInt hs).2) ∧
    setupPendingInt hs = (if (mipBlock hs).1 then mipBlock hs else sipBlock (mipBlock hs).2) ∧
    ((mipBlock hs).1 = false → (sipBlock (mipBlock hs).2).1 = false) := by
  have hmem : ∀ i : StdInt, i ∈ intOrder := by
    intro i
    cases i <;> decide
  cases hf : hs.firstAcceptable with
  | some i =>
    have hmip := mipBlock_of_some hf
    have htaken : setupPendingInt hs = (true, (createException hs i.exc 0).2) := by
      rw [setupPendingInt_of_mipBlock (by rw [hmip]), hmip]
    refine ⟨?_, ?_, ?_, setupPendingInt_blocks hs, ?_⟩
    · rw [htaken]
      exact iff_of_true rfl ⟨i, List.find?_some hf⟩
    · intro j hj
      rw [htaken, Option.some.inj hj]
    · intro hno
      rw [htaken] at hno
      cases hno
    · intro hno
      rw [hmip] at hno
      cases hno
  | none =>
    obtain ⟨hmip, hsame⟩ := mipBlock_of_none hf
    obtain ⟨hsip, hsame'⟩ := sipBlock_of_none (hsame.firstAcceptable.trans hf)
    have hrefused := setupPendingInt_of_sipBlock hmip
    refine ⟨?_, ?_, ?_, setupPendingInt_blocks hs, ?_⟩
    · rw [hrefused, hsip]
      refine iff_of_false Bool.false_ne_true ?_
      rintro ⟨i, hi⟩
      exact List.find?_eq_none.mp hf i (hmem i) hi
    · intro i hi
      cases hi
    · intro _
      rw [hrefused]
      exact hsame.trans hsame'
    · exact fun _ => hsip

/-- A hart at reset with interrupts enabled and three of them pending. -/
private def pendingHart : HartState :=
  let hs := resetState 0
  { hs with csr := { hs.csr with mip := 0x2A0, mstatus := 0x8, mtvec := 0x80000000 } }

/-- Of the timer interrupts and the supervisor's external one, the machine timer
    is first. -/
theorem setupPendingInt_first_mtime :
    setupPendingInt pendingHart = (true, (createException pendingHart .mtimeint 0).2) :=
  (setupPendingInt_first pendingHart).2.1 .mtime (by decide +kernel)

/-! ## Interrupts on top of one another -/

/-- The modes entered by up to `n` calls of `setup_pending_int` in a row, which
    end at the first that takes nothing. -/
def interruptsTaken : Nat → HartState → List (BitVec 2)
  | 0, _ => []
  | n + 1, hs =>
    let r := setupPendingInt hs
    if r.1 then r.2.privmode :: interruptsTaken n r.2 else []

/-- The state after `n` calls. -/
def afterCalls (n : Nat) (hs : HartState) : HartState := (fun h => (setupPendingInt h).2)^[n] hs

/-- A call that takes an interrupt enters the trap of an acceptable one. -/
theorem entered_of_taken {hs : HartState} (h : (setupPendingInt hs).1 = true) :
    ∃ i, hs.acceptable i = true ∧
      (setupPendingInt hs).2 = (createException hs i.exc 0).2 ∧
      Entered hs (setupPendingInt hs).2 (hs.trapLevel i.exc.isaCause) i.exc 0 := by
  have hfirst := setupPendingInt_first hs
  cases hf : hs.firstAcceptable with
  | none =>
    obtain ⟨i, hi⟩ := hfirst.1.mp h
    have hmem : i ∈ intOrder := by cases i <;> decide
    exact absurd hi (List.find?_eq_none.mp hf i hmem)
  | some i =>
    have hacc := List.find?_some hf
    have htaken := congrArg Prod.snd (hfirst.2.1 i hf)
    have hexc : (createException hs i.exc 0).1 ≠ .noexc := by
      rw [HartState.acceptable, Bool.and_eq_true] at hacc
      exact bne_iff_ne.mp hacc.2
    refine ⟨i, hacc, htaken, ?_⟩
    rw [htaken]
    exact createException_entered hexc

/-- Nothing interrupts an M-level handler that has just started. -/
theorem interruptsTaken_machine {hs : HartState} (hpriv : hs.privmode = 3)
    (hmie : hs.csr.mstatusMie = false) (n : Nat) : interruptsTaken n hs = [] := by
  cases n with
  | zero => rfl
  | succ n =>
    have hno : ¬ (setupPendingInt hs).1 = true := by
      rw [(setupPendingInt_first hs).1]
      rintro ⟨i, hi⟩
      rw [acceptable_of_machine hpriv hmie i] at hi
      cases hi
    exact if_neg hno

/-- `sie` has no bit of M-mode. -/
theorem sie_machine_bit {hs : HartState} (h : hs.SieSupervisor) {i : StdInt}
    (hi : i.supervisor = false) : hs.csr.sie.getLsbD i.cause = false := by
  have hmask : machineInts.getLsbD i.cause = true := by
    cases i <;> first | rfl | cases hi
  have hbit := congrArg (fun x : BitVec 64 => x.getLsbD i.cause) h
  rw [BitVec.getLsbD_and, hmask, Bool.and_true] at hbit
  exact hbit.trans BitVec.getLsbD_zero

/-- An S-level handler that has just started can only be interrupted in M-mode:
    SIE masks the supervisor's interrupts, and `sie` has no others. -/
theorem trapLevel_of_supervisor {hs : HartState} (hpriv : hs.privmode = 1)
    (hsie : hs.csr.mstatusSie = false) (hmask : hs.SieSupervisor) {i : StdInt}
    (h : hs.acceptable i = true) : hs.trapLevel i.exc.isaCause = .machine := by
  have htarget : trapTarget hs i.exc 0 ≠ none := by
    rw [HartState.acceptable, Bool.and_eq_true, bne_iff_ne] at h
    simp only [trapTarget, if_neg h.2]
    exact Option.some_ne_none _
  rw [createException_intTarget] at htarget
  refine trapLevel_of_delegated false ?_
  rw [delegatedToS_exc, Bool.and_eq_false_iff, decide_eq_false_iff_not, ← Bool.not_eq_true,
    ← not_and_or]
  intro hdel
  apply htarget
  cases hi : i.supervisor with
  | true => exact if_pos (.inr ⟨hpriv, hsie, rfl⟩)
  | false =>
    have hbit := sie_machine_bit hmask hi
    rw [if_pos hdel, hbit]
    split <;> rfl

/-- In S-mode with SIE clear only a machine software interrupt can follow. -/
theorem interruptsTaken_supervisor {hs : HartState} (hpriv : hs.privmode = 1)
    (hsie : hs.csr.mstatusSie = false) (hmask : hs.SieSupervisor) (n : Nat) :
    (interruptsTaken n hs).Sublist [3] := by
  cases n with
  | zero => exact List.nil_sublist _
  | succ n =>
    simp only [interruptsTaken]
    split
    · next htaken =>
      obtain ⟨i, hacc, -, hent⟩ := entered_of_taken htaken
      rw [trapLevel_of_supervisor hpriv hsie hmask hacc] at hent
      have hmie := congrArg Isa.TrapCsrs.ie hent.own
      rw [interruptsTaken_machine hent.mode hmie n, hent.mode]
      exact List.Sublist.refl _
    · exact List.nil_sublist _

/-- At most an S-level interrupt and then an M-level one are taken in a row. -/
theorem interruptsTaken_sublist {hs : HartState} (hmask : hs.SieSupervisor) (n : Nat) :
    (interruptsTaken n hs).Sublist [1, 3] := by
  cases n with
  | zero => exact List.nil_sublist _
  | succ n =>
    simp only [interruptsTaken]
    split
    · next htaken =>
      obtain ⟨i, -, hstate, hent⟩ := entered_of_taken htaken
      have hie := congrArg Isa.TrapCsrs.ie hent.own
      have hmode := hent.mode
      cases hlevel : hs.trapLevel i.exc.isaCause with
      | machine =>
        rw [hlevel] at hie hmode
        rw [interruptsTaken_machine hmode hie n, hmode]
        exact .cons _ (.refl _)
      | supervisor =>
        rw [hlevel] at hie hmode
        have hkept : (setupPendingInt hs).2.SieSupervisor := by
          rw [hstate, HartState.SieSupervisor, (createException_kept hs i.exc 0).sie]
          exact hmask
        rw [hmode]
        exact (interruptsTaken_supervisor hmode hie hkept n).cons_cons 1
    · exact List.nil_sublist _

/-- A call that takes nothing comes at the end of what the calls have taken. -/
theorem not_taken_afterCalls {hs : HartState} {n : Nat} (h : (interruptsTaken n hs).length < n) :
    (setupPendingInt (afterCalls (interruptsTaken n hs).length hs)).1 = false := by
  induction n generalizing hs with
  | zero => exact absurd h (Nat.not_lt_zero _)
  | succ n ih =>
    simp only [interruptsTaken] at h ⊢
    cases htaken : (setupPendingInt hs).1 with
    | false => exact htaken
    | true =>
      rw [htaken] at h
      exact ih (Nat.lt_of_succ_lt_succ h)

/-- Interrupt entry does not cascade: in every state that can be reached, and
    whatever `mip`, `mie`, `mideleg` and `mstatus` are made there, calls of
    `setup_pending_int` in a row take at most an S-level interrupt and an
    M-level one after it, and then one takes nothing. -/
theorem interrupts_not_cascade (env : Env δ) (s : Sys δ) (h : Reachable env s)
    (mip mie mideleg mstatus : BitVec 64) :
    let hs := { s.hs with csr := { s.hs.csr with
      mip := mip, mie := mie, mideleg := mideleg, mstatus := mstatus } }
    (∀ n, (interruptsTaken n hs).Sublist [1, 3]) ∧
    ∃ n ≤ 2, (setupPendingInt (afterCalls n hs)).1 = false := by
  intro hs
  have hmask : hs.SieSupervisor := sieSupervisor_of_reachable h
  have hsub := interruptsTaken_sublist hmask
  have hlen : (interruptsTaken 3 hs).length ≤ 2 := (hsub 3).length_le
  exact ⟨hsub, _, hlen, not_taken_afterCalls (Nat.lt_succ_of_le hlen)⟩

/-- At the start of a run, with both timer interrupts pending. -/
theorem interrupts_not_cascade_boot :
    (interruptsTaken 5 { hartInit Env.inert 0 with csr := { (hartInit Env.inert 0).csr with
      mip := 0xA0, mie := 0xA0, mideleg := 0x20, mstatus := 0x8 } }).Sublist [1, 3] :=
  (interrupts_not_cascade Env.inert (boot []) ⟨0, programBus [], .refl⟩ 0xA0 0xA0 0x20 0x8).1 5

end RvEmu
