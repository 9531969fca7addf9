import RvEmu.Isa.Rv64a
import RvEmu.Spec.MachineSatp
import RvEmu.Spec.MulDiv

/-!
# Atomic memory operations

In M-mode an AMO stores what the ISA manual says and leaves the old value in `rd`, for every
choice of registers: the source is read before the load, and the old value is taken from
`rd` before anything else is written.
-/

namespace RvEmu

open Isa

variable {δ : Type}

/-! ## Values -/

/-- A word survives its sign extension, … -/
theorem setWidth_signExtend_word (x : BitVec 32) : (x.signExtend 64).setWidth 32 = x := by
  rw [BitVec.setWidth_signExtend_of_le _ (by decide), BitVec.signExtend_eq]

/-- … and its zero extension. -/
theorem setWidth_setWidth_word (x : BitVec 32) : (x.setWidth 64).setWidth 32 = x := by
  rw [BitVec.setWidth_setWidth_of_le _ (by decide), BitVec.setWidth_eq]

/-- Signed words compare as they do extended, … -/
theorem slt_signExtend_word (x y : BitVec 32) :
    (x.signExtend 64).slt (y.signExtend 64) = decide (x.toInt < y.toInt) := by
  rw [BitVec.slt_eq_decide, BitVec.toInt_signExtend_of_le (by decide),
    BitVec.toInt_signExtend_of_le (by decide)]

/-- … and so do unsigned ones. -/
theorem ult_setWidth_word (x y : BitVec 32) :
    (x.setWidth 64).ult (y.setWidth 64) = decide (x.toNat < y.toNat) := by
  rw [BitVec.ult_eq_decide, BitVec.toNat_setWidth_of_le (by decide),
    BitVec.toNat_setWidth_of_le (by decide)]

/-- A word instruction computes at 64 bits, on both extensions of its operands. -/
theorem amoValue_word (op : AmoOp) (old src : BitVec 32) :
    (amoValue op.funct5 (old.signExtend 64) (src.signExtend 64) (old.setWidth 64)
      (src.setWidth 64)).setWidth 32 = op.eval old src := by
  cases op with
  | swap => exact setWidth_signExtend_word src
  | add =>
    show (old.signExtend 64 + src.signExtend 64).setWidth 32 = old + src
    rw [BitVec.setWidth_add _ _ (by decide), setWidth_signExtend_word, setWidth_signExtend_word]
  | xor =>
    show (old.signExtend 64 ^^^ src.signExtend 64).setWidth 32 = old ^^^ src
    rw [BitVec.setWidth_xor, setWidth_signExtend_word, setWidth_signExtend_word]
  | and =>
    show (old.signExtend 64 &&& src.signExtend 64).setWidth 32 = old &&& src
    rw [BitVec.setWidth_and, setWidth_signExtend_word, setWidth_signExtend_word]
  | or =>
    show (old.signExtend 64 ||| src.signExtend 64).setWidth 32 = old ||| src
    rw [BitVec.setWidth_or, setWidth_signExtend_word, setWidth_signExtend_word]
  -- the comparisons agree with those of the low halves under the extension that they take
  | min =>
    show (if (old.signExtend 64).slt (src.signExtend 64) then old.signExtend 64
      else src.signExtend 64).setWidth 32 = if old.toInt < src.toInt then old else src
    rw [apply_ite (BitVec.setWidth 32), slt_signExtend_word, setWidth_signExtend_word,
      setWidth_signExtend_word]
    simp only [decide_eq_true_eq]
  | max =>
    show (if (src.signExtend 64).slt (old.signExtend 64) then old.signExtend 64
      else src.signExtend 64).setWidth 32 = if src.toInt < old.toInt then old else src
    rw [apply_ite (BitVec.setWidth 32), slt_signExtend_word, setWidth_signExtend_word,
      setWidth_signExtend_word]
    simp only [decide_eq_true_eq]
  | minu =>
    show (if (old.setWidth 64).ult (src.setWidth 64) then old.setWidth 64
      else src.setWidth 64).setWidth 32 = if old.toNat < src.toNat then old else src
    rw [apply_ite (BitVec.setWidth 32), ult_setWidth_word, setWidth_setWidth_word,
      setWidth_setWidth_word]
    simp only [decide_eq_true_eq]
  | maxu =>
    show (if (src.setWidth 64).ult (old.setWidth 64) then old.setWidth 64
      else src.setWidth 64).setWidth 32 = if src.toNat < old.toNat then old else src
    rw [apply_ite (BitVec.setWidth 32), ult_setWidth_word, setWidth_setWidth_word,
      setWidth_setWidth_word]
    simp only [decide_eq_true_eq]

/-- The value of an AMO on doublewords. -/
theorem amoValue_double (op : AmoOp) (old src : BitVec 64) :
    amoValue op.funct5 old src old src = op.eval old src := by
  cases op with
  | min => exact if_congr (by rw [BitVec.slt_eq_decide, decide_eq_true_eq]) rfl rfl
  | max => exact if_congr (by rw [BitVec.slt_eq_decide, decide_eq_true_eq]) rfl rfl
  | minu => exact if_congr (by rw [BitVec.ult_eq_decide, decide_eq_true_eq]) rfl rfl
  | maxu => exact if_congr (by rw [BitVec.ult_eq_decide, decide_eq_true_eq]) rfl rfl
  | _ => rfl

/-- A store reads only as many bits as it writes. -/
theorem storeLe_congr {n : Nat} (mem : BitVec 64 → BitVec 8) (a : BitVec 64) {v v' : BitVec 64}
    (h : v.setWidth (8 * n) = v'.setWidth (8 * n)) : storeLe mem a v n = storeLe mem a v' n := by
  funext b
  unfold storeLe
  split
  · next hlt =>
    apply BitVec.eq_of_getLsbD_eq
    intro i hi
    have hbit := congrArg (·.getLsbD (8 * (b - a).toNat + i)) h
    have hin : 8 * (b - a).toNat + i < 8 * n := by omega
    simpa only [BitVec.getLsbD_setWidth, BitVec.getLsbD_ushiftRight, hin, hi, decide_true,
      Bool.true_and] using hbit
  · rfl

/-! ## The instruction -/

/-- All bytes of the operand are in RAM. -/
def OperandInRam (env : Env δ) (w : Width) (a : BitVec 64) : Prop :=
  ∀ k < w.bytes, 0x80000000 ≤ a + BitVec.ofNat 64 k ∧
    a + BitVec.ofNat 64 k < 0x80000000 + env.machMemSize

/-- PMP permits to read and to write the operand. -/
structure OperandPermitted (w : Width) (hs : HartState) (a : BitVec 64) : Prop where
  read : pmpRefusesFetch w { hs with memStatus := true } a = false
  write : pmpRefusesStore w hs a = false

/-- The width of the operand. -/
def operandWidth (word : Bool) : Width := if word then .u32 else .u64

/-- The operand in memory, zero-extended. -/
def operand (word : Bool) (s : Sys δ) (a : BitVec 64) : BitVec 64 :=
  loadLe s.bus.mainMem a (operandWidth word).bytes

/-- `decode_exc` performs the operation: RAM changes by the store of the new value, and the
    registers by the old value in `rd`. -/
structure AmoPerformed (env : Env δ) (op : AmoOp) (word : Bool) (aqrl : BitVec 2)
    (rd rs1 rs2 : BitVec 5) (s : Sys δ) : Prop where
  exc : (decodeExc env (s.withInst (op.encode word aqrl rd rs1 rs2) 32)).1 = .noexc
  mainMem : (decodeExc env (s.withInst (op.encode word aqrl rd rs1 rs2) 32)).2.bus.mainMem =
    storeLe s.bus.mainMem (s.hs.regs rs1)
      (op.stored word (operand word s (s.hs.regs rs1)) (s.hs.regs rs2)) (operandWidth word).bytes
  regs : (decodeExc env (s.withInst (op.encode word aqrl rd rs1 rs2) 32)).2.hs.regs =
    Function.update s.hs.regs rd (AmoOp.result word (operand word s (s.hs.regs rs1)))

section Execute

variable {env : Env δ} {w : Width} {u : Sys δ} {a : BitVec 64}

/-- An operand in RAM starts there. -/
theorem OperandInRam.first (h : OperandInRam env w a) :
    0x80000000 ≤ a ∧ outOfRange env a = false := by
  have hbytes : 0 < w.bytes := by cases w <;> decide
  obtain ⟨hlow, hhigh⟩ := h 0 hbytes
  rw [BitVec.ofNat_eq_ofNat, BitVec.add_zero] at hlow hhigh
  refine ⟨hlow, Bool.or_eq_false_iff.mpr ⟨decide_eq_false ?_, decide_eq_false ?_⟩⟩
  · bv_omega
  · bv_omega

/-- The load of the operand. -/
theorem virtMemFetch_operand (h : MachineAccess u) (hram : OperandInRam env w a)
    (hpmp : OperandPermitted w u.hs a) :
    virtMemFetch env w (u.setMemStatus true) a =
      (loadLe u.bus.mainMem a w.bytes, u.setMemStatus false) := by
  obtain ⟨hlow, hrange⟩ := hram.first
  have hload : MachineAccess (u.setMemStatus true) := ⟨h.privmode, h.mprv⟩
  rw [virtMemFetch_machine env w a hload,
    memFetch_granted (Bool.or_eq_false_iff.mpr ⟨hrange, hpmp.read⟩), phyMemFetch_ram hlow]
  rfl

/-- The store of the new value. -/
theorem virtMemStore_operand (h : MachineAccess u) (hram : OperandInRam env w a)
    (hpmp : OperandPermitted w u.hs a) (data : BitVec 64) :
    virtMemStore env w (u.setMemStatus false) a data =
      { u.setMemStatus false with
        bus := { u.bus with mainMem := storeLe u.bus.mainMem a data w.bytes } } := by
  obtain ⟨hlow, hrange⟩ := hram.first
  have hstore : MachineAccess (u.setMemStatus false) := ⟨h.privmode, h.mprv⟩
  have hok : (outOfRange env a || pmpRefusesStore w (u.setMemStatus false).hs a) = false :=
    Bool.or_eq_false_iff.mpr ⟨hrange, hpmp.write⟩
  rw [virtMemStore_machine env w a data hstore, memStore_granted data hok, phyMemStore_ram data hlow]
  rfl

end Execute

/-- The decoding of an AMO. -/
theorem decode32_amo (op : AmoOp) (word : Bool) (aqrl : BitVec 2) (rd rs1 rs2 : BitVec 5) :
    decode32 (op.encode word aqrl rd rs1 rs2) =
      ⟨op.encode word aqrl rd rs1 rs2, .amo, rd, rs1, rs2, if word then 0b010 else 0b011,
        op.funct5 ++ aqrl, 0, false⟩ :=
  decode32_encR _ _ _ _ _ _ rfl

/-- The value that is stored, from the operand that has come to `rd` sign-extended. -/
theorem storeLe_amoValue {d : Decoded} {op : AmoOp} {word : Bool}
    (hfunct3 : d.funct3 = if word then 0b010 else 0b011) (mem : BitVec 64 → BitVec 8)
    (a old src : BitVec 64) :
    storeLe mem a (amoValue op.funct5 (amoSigned d (amoSigned d old)) (amoSigned d src)
        (amoUnsigned d (amoSigned d old)) (amoUnsigned d src)) (operandWidth word).bytes =
      storeLe mem a (op.stored word old src) (operandWidth word).bytes := by
  cases word with
  | true =>
    have hthree : d.funct3 = 0b010 := hfunct3
    have hsext : sext32 (sext32 old) = (old.setWidth 32).signExtend 64 := by
      rw [sext32, sext32, setWidth_signExtend_word]
    have hzext : ((sext32 old).setWidth 32).setWidth 64 = (old.setWidth 32).setWidth 64 := by
      rw [sext32, setWidth_signExtend_word]
    refine storeLe_congr mem a ?_
    simp only [amoSigned, amoUnsigned, hthree, ↓reduceIte, hsext, hzext]
    exact (amoValue_word op _ _).trans (setWidth_setWidth_word _).symm
  | false =>
    have hthree : ¬ d.funct3 = 0b010 := by
      rw [hfunct3]
      decide
    simp only [amoSigned, amoUnsigned, hthree, ↓reduceIte, amoValue_double]
    rfl

/-- The modification, with the old value in `rd`. -/
theorem execAmoWrite_performed {env : Env δ} {d : Decoded} {funct5 : BitVec 5} {u : Sys δ}
    {a src usrc : BitVec 64} (h : MachineAccess u) (hfault : u.hs.pageFault = false)
    (hram : OperandInRam env (amoWidth d) a) (hpmp : OperandPermitted (amoWidth d) u.hs a) :
    ∃ t, execAmoWrite env d funct5 a src usrc u = (.brk false, t) ∧
      t.bus.mainMem = storeLe u.bus.mainMem a
        (amoValue funct5 (amoSigned d (u.hs.regs d.rd)) src (amoUnsigned d (u.hs.regs d.rd)) usrc)
        (amoWidth d).bytes ∧
      t.hs.regs = u.hs.regs := by
  unfold execAmoWrite
  dsimp only
  rw [virtMemStore_operand h hram hpmp]
  simp only [handleMemError, Sys.setMemStatus, hfault, Bool.false_eq_true, ↓reduceIte]
  exact ⟨_, rfl, rfl, rfl⟩

/-- An AMO whose operand is in RAM is performed. -/
theorem execAmo_performed {env : Env δ} {d : Decoded} {op : AmoOp} {word : Bool} {u : Sys δ}
    (hfunct5 : d.funct7.extractLsb' 2 5 = op.funct5)
    (hfunct3 : d.funct3 = if word then 0b010 else 0b011) (h : MachineAccess u)
    (hfault : u.hs.pageFault = false)
    (hram : OperandInRam env (operandWidth word) (u.hs.regs d.rs1))
    (hpmp : OperandPermitted (operandWidth word) u.hs (u.hs.regs d.rs1)) :
    ∃ t, execAmo env d u = (.brk false, t) ∧
      t.bus.mainMem = storeLe u.bus.mainMem (u.hs.regs d.rs1)
        (op.stored word (operand word u (u.hs.regs d.rs1)) (u.hs.regs d.rs2))
        (operandWidth word).bytes ∧
      t.hs.regs = Function.update u.hs.regs d.rd
        (AmoOp.result word (operand word u (u.hs.regs d.rs1))) := by
  have hwidth : amoWidth d = operandWidth word := by
    rw [amoWidth, hfunct3]
    cases word <;> rfl
  have hresult : ∀ x, amoSigned d x = AmoOp.result word x := by
    intro x
    rw [amoSigned, hfunct3]
    cases word <;> rfl
  have hsc : ¬ op.funct5 = 0b00011 := by cases op <;> decide
  have hlr : ¬ op.funct5 = 0b00010 := by cases op <;> decide
  have hloaded : ∀ v, handleMemError .safault .spfault (u.hs.regs d.rs1)
      ((u.setMemStatus false).setReg d.rd v) = none := by
    intro v
    simp only [handleMemError, Sys.setReg, Sys.setMemStatus, hfault, Bool.false_eq_true,
      ↓reduceIte]
  -- neither SC nor LR, and the load succeeds
  unfold execAmo
  dsimp only
  rw [hfunct5, if_neg hsc, hwidth, virtMemFetch_operand h hram hpmp]
  simp only [hloaded, if_neg hlr]
  -- the old value replaces what has been loaded into `rd`
  generalize ht : Sys.setReg _ d.rd _ = t
  have hregs : t.hs.regs = Function.update u.hs.regs d.rd
      (amoSigned d (operand word u (u.hs.regs d.rs1))) := by
    rw [← ht]
    simp only [Sys.setReg, Sys.setMemStatus, Function.update_self, Function.update_idem]
    rfl
  have hbus : t.bus = u.bus := by
    rw [← ht]
    rfl
  have hpmp' : OperandPermitted (operandWidth word) t.hs (u.hs.regs d.rs1) := by
    rw [← ht]
    exact ⟨hpmp.read, hpmp.write⟩
  have hmachine : MachineAccess t := by
    rw [← ht]
    exact ⟨h.privmode, h.mprv⟩
  have hfault' : t.hs.pageFault = false := by
    rw [← ht]
    exact hfault
  rw [← hwidth] at hram hpmp'
  obtain ⟨t', hexec, hmem, hkept⟩ := @execAmoWrite_performed δ env d op.funct5 t _
    (amoSigned d (u.hs.regs d.rs2)) (amoUnsigned d (u.hs.regs d.rs2)) hmachine hfault' hram hpmp'
  refine ⟨t', hexec, ?_, ?_⟩
  · rw [hmem, hregs, Function.update_self, hbus, hwidth, storeLe_amoValue hfunct3]
  · rw [hkept, hregs, hresult]

/-- In M-mode every AMO on RAM is performed as the manual has it, whatever registers it
    names. -/
theorem amo_performed {env : Env δ} {s : Sys δ} (op : AmoOp) (word : Bool) (aqrl : BitVec 2)
    (rd rs1 rs2 : BitVec 5) (h : MachineAccess s) (hfault : s.hs.pageFault = false)
    (hram : OperandInRam env (operandWidth word) (s.hs.regs rs1))
    (hpmp : OperandPermitted (operandWidth word) s.hs (s.hs.regs rs1)) :
    AmoPerformed env op word aqrl rd rs1 rs2 s := by
  have hfunct5 : (op.funct5 ++ aqrl).extractLsb' 2 5 = op.funct5 := by
    revert aqrl
    cases op <;> decide
  have hdecode := decode32_amo op word aqrl rd rs1 rs2
  obtain ⟨t, hexec, hmem, hregs⟩ := @execAmo_performed δ env
    (decode32 (op.encode word aqrl rd rs1 rs2)) op word
    (s.withInst (op.encode word aqrl rd rs1 rs2) 32) (by rw [hdecode]; exact hfunct5)
    (by rw [hdecode]) ⟨h.privmode, h.mprv⟩ hfault (by rw [hdecode]; exact hram)
    (by rw [hdecode]; exact ⟨hpmp.read, hpmp.write⟩)
  have hrun : decodeExc env (s.withInst (op.encode word aqrl rd rs1 rs2) 32) =
      (.noexc, retire false t) := by
    have hexecute : execute env (decode32 (op.encode word aqrl rd rs1 rs2))
        (s.withInst (op.encode word aqrl rd rs1 rs2) 32) = (.brk false, t) := by
      rw [← hexec, hdecode]
      rfl
    rw [decodeExc_withInst32, hexecute]
    rfl
  rw [hdecode] at hmem hregs
  refine ⟨?_, ?_, ?_⟩
  · rw [hrun]
  · rw [hrun]
    exact hmem
  · rw [hrun]
    exact hregs

/-- M-mode with an address in RAM in every register. -/
private def atOperand : Sys Unit :=
  ⟨{ resetState 0 with regs := fun _ => 0x80001000 }, Bus.inert⟩

/-- `amoadd.w x6, x6, (x6)` -/
theorem amo_performed_add : AmoPerformed Env.inert .add true 0 6 6 6 atOperand :=
  amo_performed .add true 0 6 6 6 ⟨rfl, by decide⟩ rfl (by unfold OperandInRam; decide)
    ⟨by decide +kernel, by decide +kernel⟩

end RvEmu
