import RvEmu.Spec.Decode
import RvEmu.Spec.Trap

/-!
# The integer instructions

Executing a decoded integer instruction has the effect the ISA manual gives:
first the value computations one by one, then the execute stage, then whole
instructions from their encoding.
-/

namespace RvEmu

open Isa

variable {δ : Type}

/-! ## Computed values -/

/-- The shift amount of a 64-bit shift. -/
theorem shamt_toNat (x : BitVec 64) : (x &&& 0b111111).toNat = (x.setWidth 6).toNat :=
  BitVec.toNat_and_lowMask x 6 (by decide)

/-- The shift amount of a 32-bit shift, from a 32-bit operand. -/
theorem shamtW_toNat (x : BitVec 32) : (x &&& 0b11111).toNat = (x.setWidth 5).toNat :=
  BitVec.toNat_and_lowMask x 5 (by decide)

/-- The shift amount of a 32-bit shift, from a 64-bit operand. -/
theorem shamtW_toNat_of_64 (x : BitVec 64) : (x &&& 0b11111).toNat = (x.setWidth 5).toNat :=
  BitVec.toNat_and_lowMask x 5 (by decide)

section Values

variable {d : Decoded} (a b : BitVec 64)

/-- The values are those of the ISA: of ADDI and its kind, … -/
theorem opImmValue_immOp {op : ImmOp} (h : d.funct3 = op.funct3) :
    opImmValue d a = op.alu.eval a d.imm := by
  cases op <;> simp only [opImmValue, h, ImmOp.funct3, ImmOp.alu, AluOp.eval] <;> rfl

/-- … of the shifts by an immediate, … -/
theorem opImmValue_shiftOp {op : ShiftOp} {shamt : BitVec 6} (h : d.funct3 = op.funct3)
    (hshamt : d.imm.setWidth 6 = shamt) (h30 : d.inst.getLsbD 30 = op.funct7.getLsbD 5) :
    opImmValue d a = op.alu.eval a (shamt.setWidth 64) := by
  have hs : (shamt.setWidth 64).setWidth 6 = shamt := by
    rw [BitVec.setWidth_setWidth_of_le shamt (by decide), BitVec.setWidth_eq]
  cases op <;> simp only [opImmValue, h, h30, ShiftOp.funct3, ShiftOp.funct7, ShiftOp.alu,
    AluOp.eval, shamt_toNat, hshamt, hs] <;> rfl

/-- … of ADDIW, … -/
theorem opImm32Value_addiw (h : d.funct3 = 0b000) :
    opImm32Value d a = (a.setWidth 32 + d.imm.setWidth 32).signExtend 64 := by
  simp only [opImm32Value, h]
  rw [sext32, BitVec.setWidth_add _ _ (by decide)]
  rfl

/-- … of the 32-bit shifts by an immediate, … -/
theorem opImm32Value_shiftOp {op : ShiftOp} {shamt : BitVec 5} (h : d.funct3 = op.funct3)
    (hshamt : d.imm.setWidth 5 = shamt) (h30 : d.inst.getLsbD 30 = op.funct7.getLsbD 5) :
    opImm32Value d a = (op.aluW.eval (a.setWidth 32) (shamt.setWidth 32)).signExtend 64 := by
  have hs : (shamt.setWidth 32).setWidth 5 = shamt := by
    rw [BitVec.setWidth_setWidth_of_le shamt (by decide), BitVec.setWidth_eq]
  cases op <;> simp only [opImm32Value, h, h30, ShiftOp.funct3, ShiftOp.funct7, ShiftOp.aluW,
    AluOpW.eval, shamtW_toNat_of_64, hshamt, hs] <;> rfl

/-- … of ADD and its kind … -/
theorem opBaseValue_aluOp {op : AluOp} (h : d.funct3 = op.funct3)
    (h30 : d.inst.getLsbD 30 = op.funct7.getLsbD 5) : opBaseValue d a b = op.eval a b := by
  cases op <;> simp only [opBaseValue, h, h30, AluOp.funct3, AluOp.funct7, AluOp.eval,
    shamt_toNat] <;> rfl

/-- … and of the 32-bit forms. -/
theorem op32BaseValue_aluOpW {op : AluOpW} (h : d.funct3 = op.funct3)
    (h30 : d.inst.getLsbD 30 = op.funct7.getLsbD 5) :
    op32BaseValue d a b = (op.eval (a.setWidth 32) (b.setWidth 32)).signExtend 64 := by
  have hb : (b.setWidth 32).setWidth 5 = b.setWidth 5 :=
    BitVec.setWidth_setWidth_of_le b (by decide)
  cases op <;> simp only [op32BaseValue, h, h30, AluOpW.funct3, AluOpW.funct7, AluOpW.eval,
    shamtW_toNat, shamtW_toNat_of_64, hb] <;> rfl

/-- So are the conditions of the branches. -/
theorem branchTaken_branchOp (op : BranchOp) : branchTaken op.funct3 a b = op.taken a b := by
  have hsle : b.sle a = !a.slt b := BitVec.sle_eq_not_slt
  have hule : b.ule a = !a.ult b := BitVec.ule_eq_not_ult b a
  cases op <;> simp only [branchTaken, BranchOp.funct3, BranchOp.taken, hsle, hule] <;> rfl

end Values

/-! ## The execute stage -/

/-- The write of an effect on the registers of the emulator, x0 included. -/
def Isa.Effect.writeReg (e : Effect) (s : Sys δ) : Sys δ :=
  match e.write with
  | some (rd, v) => s.setReg rd v
  | none => s

/-- An effect on the state of the emulator, which checks the alignment of a
    jump target. -/
def Isa.Effect.apply (e : Effect) (s : Sys δ) : Flow × Sys δ :=
  match e.target with
  | some target => jumped ((e.writeReg s).setPc target)
  | none => (.brk false, e.writeReg s)

/-- A decoded integer instruction is executed as the manual says. -/
theorem execute_of_is (env : Env δ) {d : Decoded} {i : Instr} {s : Sys δ} {e : Effect}
    (hd : d.Is i) (he : i.effect s.hs.regs s.hs.pc s.hs.instBytes = some e) :
    execute env d s = e.apply s := by
  cases i with
  | lui rd imm =>
    obtain ⟨hop, rfl, himm⟩ := hd
    obtain rfl := Option.some.inj he
    rw [execute, hop, himm]
    rfl
  | auipc rd imm =>
    obtain ⟨hop, rfl, himm⟩ := hd
    obtain rfl := Option.some.inj he
    rw [execute, hop, himm]
    simp only [writeback, Effect.apply, Effect.writeReg, BitVec.add_comm]
  | jal rd offset =>
    obtain ⟨hop, rfl, himm⟩ := hd
    obtain rfl := Option.some.inj he
    rw [execute, hop]
    simp only [execJal, himm, Effect.apply, Effect.writeReg]
    rfl
  | jalr rd rs1 imm =>
    obtain ⟨hop, rfl, rfl, himm⟩ := hd
    obtain rfl := Option.some.inj he
    rw [execute, hop]
    simp only [execJalr, himm, Effect.apply, Effect.writeReg]
    rfl
  | branch op rs1 rs2 offset =>
    obtain ⟨hop, rfl, rfl, hfunct3, himm⟩ := hd
    obtain rfl := Option.some.inj he
    rw [execute, hop]
    simp only [execBranch, hfunct3, branchTaken_branchOp, himm, Effect.apply, Effect.writeReg]
    split <;> rfl
  | opImm op rd rs1 imm =>
    obtain ⟨hop, rfl, rfl, hfunct3, himm⟩ := hd
    obtain rfl := Option.some.inj he
    rw [execute, hop]
    simp only [opImmValue_immOp _ hfunct3, himm]
    rfl
  | shiftImm op rd rs1 shamt =>
    obtain ⟨hop, rfl, rfl, hfunct3, himm, h30⟩ := hd
    obtain rfl := Option.some.inj he
    rw [execute, hop]
    simp only [opImmValue_shiftOp _ hfunct3 himm h30]
    rfl
  | addiw rd rs1 imm =>
    obtain ⟨hop, rfl, rfl, hfunct3, himm⟩ := hd
    obtain rfl := Option.some.inj he
    rw [execute, hop]
    have hw : (imm.signExtend 64).setWidth 32 = imm.signExtend 32 :=
      BitVec.setWidth_signExtend_of_le imm (by decide)
    simp only [opImm32Value_addiw _ hfunct3, himm, hw]
    rfl
  | shiftImmW op rd rs1 shamt =>
    obtain ⟨hop, rfl, rfl, hfunct3, himm, h30⟩ := hd
    obtain rfl := Option.some.inj he
    rw [execute, hop]
    simp only [opImm32Value_shiftOp _ hfunct3 himm h30]
    rfl
  | opReg op rd rs1 rs2 =>
    obtain ⟨hop, rfl, rfl, rfl, hfunct3, hfunct7, h30⟩ := hd
    obtain rfl := Option.some.inj he
    rw [execute, hop]
    have hv := opBaseValue_aluOp (s.hs.regs d.rs1) (s.hs.regs d.rs2) hfunct3 h30
    rcases hfunct7 with h | h <;> simp only [opValue, h, hv] <;> rfl
  | opRegW op rd rs1 rs2 =>
    obtain ⟨hop, rfl, rfl, rfl, hfunct3, hfunct7, h30⟩ := hd
    obtain rfl := Option.some.inj he
    rw [execute, hop]
    have hv := op32BaseValue_aluOpW (s.hs.regs d.rs1) (s.hs.regs d.rs2) hfunct3 h30
    rcases hfunct7 with h | h <;> simp only [op32Value, h, hv] <;> rfl
  -- loads, stores and EBREAK have no effect on registers alone
  | load op rd rs1 imm => cases he
  | store op rs1 rs2 imm => cases he
  | ebreak => cases he

/-! ## Whole instructions -/

/-- The architectural registers: `regs[0]` stands for x0, which reads as zero. -/
def HartState.xregs (hs : HartState) : Regs := fun r => if r = 0 then 0 else hs.regs r

/-- `x0` reads as zero, … -/
@[simp] theorem HartState.xregs_zero (hs : HartState) : hs.xregs 0 = 0 := rfl

/-- … and another register as its cell, … -/
theorem HartState.xregs_of_ne (hs : HartState) {r : BitVec 5} (h : r ≠ 0) :
    hs.xregs r = hs.regs r := if_neg h

/-- … which is all while the cell of `x0` holds zero. -/
theorem HartState.xregs_eq_regs {hs : HartState} (h : hs.regs 0 = 0) : hs.xregs = hs.regs := by
  funext r
  by_cases hr : r = 0
  · rw [hr, xregs_zero, h]
  · exact hs.xregs_of_ne hr

/-- Offsets are even. -/
theorem offset_even {n : Nat} (offset : BitVec n) :
    ((offset ++ 0#1).signExtend 64).getLsbD 0 = false := by
  rw [BitVec.getLsbD_signExtend, if_pos (Nat.zero_lt_succ n), BitVec.getLsbD_append]
  rfl

/-- From an even pc, jumps and branches go to an even one. -/
theorem effect_target_even {i : Instr} {x : Regs} {pc len target : BitVec 64} {e : Effect}
    (hpc : pc.getLsbD 0 = false) (he : i.effect x pc len = some e)
    (ht : e.target = some target) : target.getLsbD 0 = false := by
  cases i <;> simp only [Instr.effect, Option.some.injEq, reduceCtorEq] at he
  all_goals
    subst he
    simp only [reduceCtorEq, Option.some.injEq] at ht
  case jal rd offset =>
    rw [← ht, BitVec.getLsbD_zero_add (by decide), hpc, offset_even]
    rfl
  -- JALR clears bit 0 of its target; the offsets of the others are even
  case jalr rd rs1 imm =>
    rw [← ht]
    simp
  case branch op rs1 rs2 offset =>
    split at ht
    · rw [← Option.some.inj ht, BitVec.getLsbD_zero_add (by decide), hpc, offset_even]
      rfl
    · cases ht

/-- The write of a result, as the ISA sees it. -/
theorem writeReg_xregs (e : Effect) (s : Sys δ) :
    (e.writeReg s).hs.xregs = e.regs s.hs.xregs := by
  obtain ⟨write, target⟩ := e
  cases write with
  | none => rfl
  | some w =>
    obtain ⟨rd, v⟩ := w
    funext r
    simp only [Effect.writeReg, Effect.regs]
    -- `regs[0]` may hold anything until the next cycle, and reads as zero
    by_cases hrd : rd = 0
    · rw [if_pos hrd]
      by_cases hr : r = 0
      · rw [hr, HartState.xregs_zero, HartState.xregs_zero]
      · have hne : r ≠ rd := fun h => hr (h.trans hrd)
        rw [HartState.xregs_of_ne _ hr, HartState.xregs_of_ne _ hr]
        exact Function.update_of_ne hne _ _
    · rw [if_neg hrd]
      by_cases hr : r = 0
      · have hne : r ≠ rd := fun h => hrd (h.symm.trans hr)
        rw [Function.update_of_ne hne, hr, HartState.xregs_zero, HartState.xregs_zero]
      · rw [HartState.xregs_of_ne _ hr, Function.update_apply, HartState.xregs_of_ne _ hr]
        exact Function.update_apply _ _ _ _

/-- A write changes nothing but the registers. -/
theorem writeReg_frame (e : Effect) (s : Sys δ) :
    e.writeReg s = { s with hs := { s.hs with regs := (e.writeReg s).hs.regs } } := by
  unfold Effect.writeReg
  split <;> rfl

/-- `s'` is `s` with one more instruction retired: the registers, the pc and
    the instruction buffer may differ. -/
def RetiredFrom (s s' : Sys δ) : Prop :=
  s' = { s with hs := { s.hs with
    regs := s'.hs.regs
    pc := s'.hs.pc
    instbuf := s'.hs.instbuf
    csr := { s.hs.csr with minstret := s.hs.csr.minstret + 1 } } }

/-- Applying an effect with an even target, and retiring the instruction. -/
theorem retire_apply {e : Effect} {s : Sys δ}
    (heven : ∀ t, e.target = some t → t.getLsbD 0 = false) :
    ∃ pcChgd s', e.apply s = (.brk pcChgd, s') ∧
      (retire pcChgd s').hs.xregs = e.regs s.hs.xregs ∧
      (retire pcChgd s').hs.pc = e.pc s.hs.pc s.hs.instBytes ∧
      RetiredFrom s (retire pcChgd s') := by
  have hregs := writeReg_xregs e s
  have hframe := writeReg_frame e s
  -- a taken jump has set the pc, and no target is odd
  cases ht : e.target with
  | some target =>
    have hodd : (((e.writeReg s).setPc target).hs.pc).getLsbD 0 = false := heven target ht
    refine ⟨true, (e.writeReg s).setPc target, ?_, hregs, ?_, ?_⟩
    · simp only [Effect.apply, ht, jumped, hodd]
      rfl
    · simp only [Effect.pc, ht]
      rfl
    · rw [hframe]
      rfl
  | none =>
    refine ⟨false, e.writeReg s, ?_, hregs, ?_, ?_⟩
    · simp only [Effect.apply, ht]
    · rw [hframe, Effect.pc, ht]
      rfl
    · rw [hframe]
      rfl

/-- Every integer instruction, decoded from its encoding and executed, has the
    effect the ISA manual gives it, and no other. -/
theorem decodeExc_rv64i (env : Env δ) (i : Instr) (s : Sys δ) (e : Effect)
    (hinst : s.hs.inst = i.encode) (hlen : s.hs.instLen = 32) (hx0 : s.hs.regs 0 = 0)
    (heven : s.hs.pc.getLsbD 0 = false) (he : i.effect s.hs.xregs s.hs.pc 4 = some e) :
    (decodeExc env s).1 = .noexc ∧
    (decodeExc env s).2.hs.xregs = e.regs s.hs.xregs ∧
    (decodeExc env s).2.hs.pc = e.pc s.hs.pc 4 ∧
    RetiredFrom s (decodeExc env s).2 := by
  have hbytes : s.hs.instBytes = 4 := HartState.instBytes_of_len32 hlen
  have he' : i.effect s.hs.regs s.hs.pc s.hs.instBytes = some e := by
    rw [hbytes, ← HartState.xregs_eq_regs hx0, he]
  have hexec : execute env (decode32 s.hs.inst) s = e.apply s := by
    rw [hinst]
    exact execute_of_is env (decode32_is i) he'
  obtain ⟨pcChgd, s', happly, hregs, hpc, hframe⟩ :=
    retire_apply (s := s) fun t ht => effect_target_even heven he ht
  rw [decodeExc_of_len32 env hlen, hexec, happly]
  rw [hbytes] at hpc
  exact ⟨rfl, hregs, hpc, hframe⟩

/-- The machine about to execute `sub x5, x5, x6` with x5 = 7 and x6 = 9. -/
private def subMachine : Sys Unit :=
  ⟨{ resetState 0 with
      inst := (Instr.opReg .sub 5 5 6).encode
      instLen := 32
      pc := 0x80000000
      regs := fun r => if r = 5 then 7 else if r = 6 then 9 else 0 }, Bus.inert⟩

/-- `sub x5, x5, x6` -/
theorem decodeExc_rv64i_sub :
    (decodeExc Env.inert subMachine).2.hs.xregs 5 = -2 ∧
    (decodeExc Env.inert subMachine).2.hs.pc = 0x80000004 := by
  have h := decodeExc_rv64i Env.inert (.opReg .sub 5 5 6) subMachine ⟨some (5, -2), none⟩
    rfl rfl rfl (by decide) (by decide)
  refine ⟨?_, ?_⟩
  · rw [h.2.1]
    rfl
  · rw [h.2.2.1]
    rfl

end RvEmu
