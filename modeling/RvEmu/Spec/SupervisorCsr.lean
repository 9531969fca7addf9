import RvEmu.Spec.CsrAccess

/-!
# The supervisor's CSR views

`sstatus`, `sie` and `sip` are aliases of `mstatus`, `mie` and `mip`. The
emulator hands out the machine-level register itself, so that the hidden bits
are readable and mostly writable; this file says exactly when an access neither
shows nor changes them.
-/

namespace RvEmu

open Isa (SView CsrOp)

variable {δ : Type}

/-- The machine-level register behind a view. -/
def Isa.SView.machine (v : SView) (c : CsrState) : BitVec 64 :=
  match v with
  | .sstatus => c.mstatus | .sie => c.mie | .sip => c.mip

/-- What a CSR instruction on `v` must do, if it completes: show no hidden bit
    in `rd`, and change none in any register. -/
def ViewRestricted (v : SView) (rd : BitVec 5) (c : CsrState) (r : HartException × Sys δ) : Prop :=
  r.1 = .noexc →
    (rd ≠ 0 → r.2.hs.regs rd &&& v.hidden = 0) ∧
    ∀ v' : SView, v'.machine r.2.hs.csr &&& v'.hidden = v'.machine c &&& v'.hidden

/-- When writing `operand` to `v` by `op` keeps the hidden bits of `old`. Writes
    to `sip` clear them unless they set bits. -/
def KeepsHidden (v : SView) (op : CsrOp) (old operand : BitVec 64) : Prop :=
  match v, op with
  | .sip, .csrrs | .sip, .csrrsi => True
  | .sip, _ => old &&& v.hidden = 0
  | _, .csrrw | _, .csrrwi => operand &&& v.hidden = old &&& v.hidden
  | _, .csrrs | _, .csrrsi => operand &&& v.hidden &&& ~~~old = 0
  | _, .csrrc | _, .csrrci => operand &&& v.hidden &&& old = 0

/-- The fix-ups change no hidden bit. -/
theorem csrMirror_hidden (hs : HartState) (imm : BitVec 12) (sstatus sie : Bool) (v : SView) :
    v.machine (csrMirror hs imm sstatus sie).csr &&& v.hidden = v.machine hs.csr &&& v.hidden := by
  -- the fields that are hardwired in `mstatus` are visible ones
  have hfields (x : BitVec 64) :
      ((x &&& ~~~0b10101#64 &&& ~~~(0b1111#64 <<< 32)) ||| (0b1010#64 <<< 32)) &&&
        SView.sstatus.hidden = x &&& SView.sstatus.hidden := by
    rw [BitVec.and_assoc]
    exact BitVec.and_or_and_eq_and x (by decide) (by decide)
  unfold csrMirror
  cases v with
  | sstatus =>
    by_cases himm : imm = 0x300
    · cases sstatus <;> cases sie <;> simp only [if_pos himm] <;> exact hfields hs.csr.mstatus
    · cases sstatus <;> cases sie <;> simp only [if_neg himm] <;> rfl
  | sie | sip =>
    by_cases himm : imm = 0x300
    · cases sstatus <;> cases sie <;> simp only [if_pos himm] <;> rfl
    · cases sstatus <;> cases sie <;> simp only [if_neg himm] <;> rfl

/-- The machine-level register as a CSR pointer. -/
def Isa.SView.ptr : SView → CsrPtr
  | .sstatus => .mstatus | .sie => .mie | .sip => .mip

/-- Writing behind one view. -/
theorem SView.machine_set (v v' : SView) (hs : HartState) (x : BitVec 64) :
    v'.machine (v.ptr.set hs x).csr = if v' = v then x else v'.machine hs.csr := by
  cases v <;> cases v' <;> rfl

/-- The number of the machine-level register. -/
def Isa.SView.machineAddr : SView → BitVec 12
  | .sstatus => 0x300 | .sie => 0x304 | .sip => 0x344

/-- An access to a view, from the alias translation on. -/
theorem execCsrPtr_view (d : Decoded) (v : SView) (operand : BitVec 64) (s : Sys δ) :
    execCsrPtr d v.addr operand s =
      let s := if d.rd ≠ 0 then s.setReg d.rd (v.machine s.hs.csr) else s
      let hs := if csrWriteNeeded d operand then
          v.ptr.set { s.hs with chkInt := true }
            (csrWritten (d.funct3.setWidth 2) (v == .sip) (v.machine s.hs.csr) operand)
        else s.hs
      (.brk false, s.setHs (csrMirror hs v.machineAddr (v == .sstatus) (v == .sie))) := by
  -- the number selects the same branch in every test
  cases v <;> by_cases hrd : d.rd ≠ 0 <;> cases hw : csrWriteNeeded d operand <;>
    simp only [execCsrPtr, hw, hrd, ne_eq, not_false_eq_true, ↓reduceIte] <;> rfl

theorem execCsrPtr_view_regs {d : Decoded} (hrd : d.rd ≠ 0) (v : SView) (operand : BitVec 64)
    (s : Sys δ) :
    (execCsrPtr d v.addr operand s).2.hs.regs d.rd = v.machine s.hs.csr := by
  rw [execCsrPtr_view, if_pos hrd]
  refine (congrArg (·.regs d.rd) (csrMirror_frame _ _ _ _)).trans ?_
  split
  · cases v <;> exact Function.update_self ..
  · exact Function.update_self ..

theorem execCsrPtr_view_hidden (d : Decoded) (v v' : SView) (operand : BitVec 64) (s : Sys δ) :
    v'.machine (execCsrPtr d v.addr operand s).2.hs.csr &&& v'.hidden =
      (if v' = v ∧ csrWriteNeeded d operand = true then
        csrWritten (d.funct3.setWidth 2) (v == .sip) (v.machine s.hs.csr) operand
      else v'.machine s.hs.csr) &&& v'.hidden := by
  rw [execCsrPtr_view]
  refine (csrMirror_hidden _ _ _ _ v').trans ?_
  -- a read goes to a register
  have hread : (if d.rd ≠ 0 then s.setReg d.rd (v.machine s.hs.csr) else s).hs.csr = s.hs.csr := by
    split <;> rfl
  rw [hread]
  cases csrWriteNeeded d operand with
  | false =>
    rw [if_neg Bool.false_ne_true, hread, if_neg fun h => Bool.false_ne_true h.2]
  | true =>
    rw [if_pos rfl, SView.machine_set]
    simp only [hread, and_true]

/-! ## CSR instructions -/

/-- The encoding of a CSR instruction on a view. -/
def csrInst (v : SView) (op : CsrOp) (rd rs1 : BitVec 5) : BitVec 32 :=
  Isa.encI v.addr rs1 op.funct3 rd 0b1110011

theorem decode32_csrInst (v : SView) (op : CsrOp) (rd rs1 : BitVec 5) :
    decode32 (csrInst v op rd rs1) =
      ⟨csrInst v op rd rs1, .system, rd, rs1, 0, op.funct3, 0, v.addr.signExtend 64, false⟩ :=
  decode32_csrWord v.addr op rd rs1

theorem execSystem_csrInst (env : Env δ) (s : Sys δ) (v : SView) (op : CsrOp)
    (rd rs1 : BitVec 5) :
    execSystem env (decode32 (csrInst v op rd rs1)) s =
      execCsr env (decode32 (csrInst v op rd rs1)) s :=
  execSystem_csrWord env s (by cases v <;> decide) op rd rs1

/-- The CSR stage: illegal in U-mode, otherwise an access to the alias. -/
theorem execCsr_csrInst (env : Env δ) (s : Sys δ) (v : SView) (op : CsrOp) (rd rs1 : BitVec 5) :
    execCsr env (decode32 (csrInst v op rd rs1)) s =
      if s.hs.privmode = 0 then illinst s
      else execCsrPtr (decode32 (csrInst v op rd rs1)) v.addr (op.operand s.hs.regs rs1) s := by
  have himm : (v.addr.signExtend 64).setWidth 12 = v.addr := by
    rw [BitVec.setWidth_signExtend_of_le _ (by decide), BitVec.signExtend_eq]
  have hoperand : (if op.funct3.getLsbD 2 then rs1.setWidth 64 else s.hs.regs rs1) =
      op.operand s.hs.regs rs1 := by
    cases op <;> rfl
  have hpriv : (1#2 > s.hs.privmode) ↔ s.hs.privmode = 0 := by
    generalize s.hs.privmode = p
    revert p
    decide
  have hlevel : v.addr.extractLsb' 8 2 = 1#2 := by
    cases v <;> rfl
  rw [decode32_csrInst]
  simp only [execCsr, himm, hoperand, hlevel, hpriv]
  by_cases h0 : s.hs.privmode = 0
  · rw [if_pos h0, if_pos h0]
  · rw [if_neg h0, if_neg h0]
    -- none of the CSRs that are handled before the pointer is looked up
    cases v <;> rfl

theorem decodeExc_csrInst (env : Env δ) {s : Sys δ} {v : SView} {op : CsrOp} {rd rs1 : BitVec 5}
    (hinst : s.hs.inst = csrInst v op rd rs1) (hlen : s.hs.instLen = 32) :
    decodeExc env s =
      if s.hs.privmode = 0 then s.createException .illinst (s.hs.inst.signExtend 64)
      else
        let r := execCsrPtr (decode32 (csrInst v op rd rs1)) v.addr (op.operand s.hs.regs rs1) s
        (.noexc, retire false r.2) := by
  have hexec : execute env (decode32 (csrInst v op rd rs1)) s =
      execSystem env (decode32 (csrInst v op rd rs1)) s := by
    rw [decode32_csrInst]
    rfl
  rw [decodeExc_of_len32 env hlen, hinst, hexec, execSystem_csrInst, execCsr_csrInst]
  -- the CSRs of a view need S-mode
  by_cases h0 : s.hs.privmode = 0
  · rw [if_pos h0, if_pos h0, illinst, hinst]
    rfl
  · rw [if_neg h0, if_neg h0, execCsrPtr_view]

/-- A write to `sstatus` or `sie` keeps the hidden bits exactly when
    `KeepsHidden` says so. -/
theorem csrWritten_hidden_iff {v : SView} (hv : v ≠ .sip) (op : CsrOp)
    (old operand : BitVec 64) :
    csrWritten (op.funct3.setWidth 2) false old operand &&& v.hidden = old &&& v.hidden ↔
      KeepsHidden v op old operand := by
  have hset := BitVec.or_and_eq_and_iff old operand v.hidden
  have hclear := BitVec.and_not_and_eq_and_iff old operand v.hidden
  cases v with
  | sip => exact absurd rfl hv
  | sstatus | sie =>
    cases op with
    | csrrw | csrrwi => exact Iff.rfl
    | csrrs | csrrsi => exact hset
    | csrrc | csrrci => exact hclear

/-- The same for `sip`, where the machine-level bits of the operand are blocked. -/
theorem csrWritten_hidden_iff_sip (op : CsrOp) (old operand : BitVec 64) :
    csrWritten (op.funct3.setWidth 2) true old operand &&& SView.sip.hidden =
      old &&& SView.sip.hidden ↔ KeepsHidden .sip op old operand := by
  have hmask : SView.sip.hidden = machineInts := by decide
  have hblock : operand &&& ~~~machineInts &&& machineInts = 0 := BitVec.and_not_and_self _ _
  have hkeep : 0 = old &&& machineInts ↔ old &&& machineInts = 0 := eq_comm
  -- a write clears the machine-level bits, a set keeps them, a clear clears them
  cases op with
  | csrrw | csrrwi =>
    change operand &&& ~~~machineInts &&& SView.sip.hidden = _ ↔ old &&& SView.sip.hidden = 0
    rw [hmask, hblock, hkeep]
  | csrrs | csrrsi =>
    change (old ||| (operand &&& ~~~machineInts)) &&& SView.sip.hidden = _ ↔ True
    rw [hmask, BitVec.or_and_eq_and_iff, hblock]
    simp
  | csrrc | csrrci =>
    change old &&& ~~~(operand ||| machineInts) &&& SView.sip.hidden = _ ↔
      old &&& SView.sip.hidden = 0
    have hcleared : old &&& ~~~(operand ||| machineInts) &&& machineInts = 0 := by
      rw [BitVec.not_or, ← BitVec.and_assoc]
      exact BitVec.and_not_and_self _ _
    rw [hmask, hcleared, hkeep]

/-- What a view shows in `rd`. -/
theorem execCsrPtr_shows_iff (d : Decoded) (v : SView) (operand : BitVec 64) (s : Sys δ) :
    (d.rd ≠ 0 → (execCsrPtr d v.addr operand s).2.hs.regs d.rd &&& v.hidden = 0) ↔
      (d.rd = 0 ∨ v.machine s.hs.csr &&& v.hidden = 0) := by
  by_cases h0 : d.rd = 0
  · exact iff_of_true (fun hne => absurd h0 hne) (.inl h0)
  · have hregs := execCsrPtr_view_regs (d := d) h0 v operand s
    rw [hregs]
    exact ⟨fun h => .inr (h h0), fun h _ => h.resolve_left h0⟩

/-- What a view changes behind itself. -/
theorem execCsrPtr_keeps_iff {d : Decoded} {op : CsrOp} (hfunct3 : d.funct3 = op.funct3)
    (v : SView) (operand : BitVec 64) (s : Sys δ) :
    (∀ v' : SView, v'.machine (execCsrPtr d v.addr operand s).2.hs.csr &&& v'.hidden =
        v'.machine s.hs.csr &&& v'.hidden) ↔
      (op.writes operand d.rs1 → KeepsHidden v op (v.machine s.hs.csr) operand) := by
  have hwritten : csrWritten (d.funct3.setWidth 2) (v == .sip) (v.machine s.hs.csr) operand &&&
      v.hidden = v.machine s.hs.csr &&& v.hidden ↔
      KeepsHidden v op (v.machine s.hs.csr) operand := by
    rw [hfunct3]
    by_cases hv : v = .sip
    · subst hv
      exact csrWritten_hidden_iff_sip op _ operand
    · rw [beq_false_of_ne hv]
      exact csrWritten_hidden_iff hv op _ operand
  constructor
  · intro h hw
    have hv := h v
    rwa [execCsrPtr_view_hidden, if_pos ⟨rfl, (csrWriteNeeded_iff hfunct3 operand).mpr hw⟩,
      hwritten] at hv
  · intro h v'
    rw [execCsrPtr_view_hidden]
    -- the other views stand for other CSRs, or share their hidden bits
    split
    · next hv =>
      obtain ⟨rfl, hw⟩ := hv
      exact hwritten.mpr (h ((csrWriteNeeded_iff hfunct3 operand).mp hw))
    · rfl

/-- An instruction on a view neither shows nor changes the hidden bits, just
    when it is illegal, or the bits are clear where they are read and
    `KeepsHidden` holds where it writes. -/
theorem viewRestricted_iff (env : Env δ) (s : Sys δ) (v : SView) (op : CsrOp)
    (rd rs1 : BitVec 5) (hinst : s.hs.inst = csrInst v op rd rs1) (hlen : s.hs.instLen = 32) :
    ViewRestricted v rd s.hs.csr (decodeExc env s) ↔
      s.hs.privmode = 0 ∨
      ((rd = 0 ∨ v.machine s.hs.csr &&& v.hidden = 0) ∧
        (op.writes (op.operand s.hs.regs rs1) rs1 →
          KeepsHidden v op (v.machine s.hs.csr) (op.operand s.hs.regs rs1))) := by
  let operand := op.operand s.hs.regs rs1
  let d := decode32 (csrInst v op rd rs1)
  have hd : d = ⟨_, _, rd, rs1, _, op.funct3, _, _, _⟩ := decode32_csrInst v op rd rs1
  have hrd : d.rd = rd := by rw [hd]
  have hrs1 : d.rs1 = rs1 := by rw [hd]
  have hfunct3 : d.funct3 = op.funct3 := by rw [hd]
  rw [decodeExc_csrInst env hinst hlen]
  by_cases h0 : s.hs.privmode = 0
  · rw [if_pos h0]
    exact iff_of_true (fun h => absurd h (createException_raises s _ rfl)) (.inl h0)
  · rw [if_neg h0]
    -- each half of the condition answers for one half of the property
    have hread := execCsrPtr_shows_iff d v operand s
    have hkeep := execCsrPtr_keeps_iff hfunct3 v operand s
    rw [hrd] at hread
    rw [hrs1] at hkeep
    rw [← hread, ← hkeep]
    exact ⟨fun h => .inr (h rfl), fun h _ => h.resolve_left h0⟩

/-- A hart in S-mode about to execute `inst`, with x5 = 2. -/
private def supervisorMachine (inst : BitVec 32) : Sys Unit :=
  ⟨{ resetState 0 with
      inst := inst, instLen := 32, privmode := 1, regs := fun r => if r = 5 then 2 else 0
      csr := { (resetState 0).csr with mie := 0, mip := 0 } }, Bus.inert⟩

/-- `csrrs x6, sie, x5` enables the supervisor software interrupt only. -/
theorem viewRestricted_csrrs_sie :
    ViewRestricted .sie 6 (supervisorMachine (csrInst .sie .csrrs 6 5)).hs.csr
      (decodeExc Env.inert (supervisorMachine (csrInst .sie .csrrs 6 5))) :=
  (viewRestricted_iff Env.inert _ .sie .csrrs 6 5 rfl rfl).mpr
    (.inr ⟨.inr rfl, fun _ => rfl⟩)

/-- `csrrs x6, sstatus, x0` shows S-mode the whole of `mstatus`. -/
theorem sstatus_read_shows_hidden :
    ¬ ∀ (s : Sys Unit) (v : SView) (op : CsrOp) (rd rs1 : BitVec 5),
      s.hs.inst = csrInst v op rd rs1 → s.hs.instLen = 32 →
      ViewRestricted v rd s.hs.csr (decodeExc Env.inert s) := by
  intro h
  have hread := h (supervisorMachine (csrInst .sstatus .csrrs 6 0)) .sstatus .csrrs 6 0 rfl rfl
  have hshown : (decodeExc Env.inert (supervisorMachine (csrInst .sstatus .csrrs 6 0))).2.hs.regs 6
      &&& SView.sstatus.hidden ≠ 0 := by decide +kernel
  exact hshown ((hread (by decide +kernel)).1 (by decide))

end RvEmu
