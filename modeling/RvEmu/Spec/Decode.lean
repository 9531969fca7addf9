import RvEmu.Isa.Rv64i
import RvEmu.Native.Cycle
import RvEmu.ForStd.BitVec
import Mathlib.Tactic.IntervalCases

/-!
# What the decoder decodes to

`Decoded.Is` says that a decoded form stands for an instruction of the manual.
It constrains just the fields that the execute stage reads for that
instruction, so it serves the 32-bit and the 16-bit decoder alike.
-/

namespace RvEmu

open Isa

variable {δ : Type}

/-- `d` agrees with `i` on all that the execute stage reads. -/
def Decoded.Is (d : Decoded) : Instr → Prop
  | .lui rd imm => d.opFun = .lui ∧ d.rd = rd ∧ d.imm = (imm ++ 0#12).signExtend 64
  | .auipc rd imm => d.opFun = .auipc ∧ d.rd = rd ∧ d.imm = (imm ++ 0#12).signExtend 64
  | .jal rd offset => d.opFun = .jal ∧ d.rd = rd ∧ d.imm = (offset ++ 0#1).signExtend 64
  | .jalr rd rs1 imm =>
    d.opFun = .jalr ∧ d.rd = rd ∧ d.rs1 = rs1 ∧ d.imm = imm.signExtend 64
  | .branch op rs1 rs2 offset =>
    d.opFun = .branch ∧ d.rs1 = rs1 ∧ d.rs2 = rs2 ∧ d.funct3 = op.funct3 ∧
      d.imm = (offset ++ 0#1).signExtend 64
  | .opImm op rd rs1 imm =>
    d.opFun = .opImm ∧ d.rd = rd ∧ d.rs1 = rs1 ∧ d.funct3 = op.funct3 ∧
      d.imm = imm.signExtend 64
  | .shiftImm op rd rs1 shamt =>
    d.opFun = .opImm ∧ d.rd = rd ∧ d.rs1 = rs1 ∧ d.funct3 = op.funct3 ∧
      d.imm.setWidth 6 = shamt ∧ d.inst.getLsbD 30 = op.funct7.getLsbD 5
  | .addiw rd rs1 imm =>
    d.opFun = .opImm32 ∧ d.rd = rd ∧ d.rs1 = rs1 ∧ d.funct3 = 0b000 ∧ d.imm = imm.signExtend 64
  | .shiftImmW op rd rs1 shamt =>
    d.opFun = .opImm32 ∧ d.rd = rd ∧ d.rs1 = rs1 ∧ d.funct3 = op.funct3 ∧
      d.imm.setWidth 5 = shamt ∧ d.inst.getLsbD 30 = op.funct7.getLsbD 5
  | .opReg op rd rs1 rs2 =>
    d.opFun = .op ∧ d.rd = rd ∧ d.rs1 = rs1 ∧ d.rs2 = rs2 ∧ d.funct3 = op.funct3 ∧
      (d.funct7 = 0b0000000 ∨ d.funct7 = 0b0100000) ∧
      d.inst.getLsbD 30 = op.funct7.getLsbD 5
  | .opRegW op rd rs1 rs2 =>
    d.opFun = .op32 ∧ d.rd = rd ∧ d.rs1 = rs1 ∧ d.rs2 = rs2 ∧ d.funct3 = op.funct3 ∧
      (d.funct7 = 0b0000000 ∨ d.funct7 = 0b0100000) ∧
      d.inst.getLsbD 30 = op.funct7.getLsbD 5
  | .load op rd rs1 imm =>
    d.opFun = .load ∧ d.rd = rd ∧ d.rs1 = rs1 ∧ d.funct3 = op.funct3 ∧ d.imm = imm.signExtend 64
  | .store op rs1 rs2 imm =>
    d.opFun = .store ∧ d.rs1 = rs1 ∧ d.rs2 = rs2 ∧ d.funct3 = op.funct3 ∧
      d.imm = imm.signExtend 64
  | .ebreak => d.opFun = .system ∧ d.inst ≠ instEcall ∧ (d.inst = instEbreak ∨ d.cebreak = true)

/-! ## The 32-bit decoder -/

/-- The I format immediate. -/
theorem immI_encI (imm : BitVec 12) (rs1 rd : BitVec 5) (funct3 : BitVec 3) (op : BitVec 7) :
    ((encI imm rs1 funct3 rd op).sshiftRight 20).signExtend 64 = imm.signExtend 64 := by
  apply BitVec.eq_of_getLsbD_eq
  intro i hi
  rw [encI_eq_encR]
  simp only [BitVec.getLsbD_signExtend, BitVec.getLsbD_sshiftRight, BitVec.msb_eq_getLsbD_last,
    encR_getLsbD, BitVec.getLsbD_extractLsb']
  grind

/-- The immediate of an S-type instruction. -/
theorem immS_encS (imm : BitVec 12) (rs2 rs1 : BitVec 5) (funct3 : BitVec 3) (op : BitVec 7) :
    immS (encS imm rs2 rs1 funct3 op) = imm.signExtend 64 := by
  apply BitVec.eq_of_getLsbD_eq
  intro i hi
  simp only [immS, encS, encR_rd]
  simp only [BitVec.getLsbD_or, BitVec.getLsbD_and, BitVec.getLsbD_signExtend,
    BitVec.getLsbD_sshiftRight, BitVec.msb_eq_getLsbD_last, encR_getLsbD,
    BitVec.getLsbD_extractLsb', BitVec.getLsbD_setWidth]
  interval_cases i <;> simp

/-- Bit by bit: bit 0 goes to place 11. -/
theorem moveBit0To11_getLsbD (imm : BitVec 64) {i : Nat} (hi : i < 64) :
    (moveBit0To11 imm).getLsbD i =
      if i = 0 then false else if i = 11 then imm.getLsbD 0 else imm.getLsbD i := by
  have hbit : imm &&& 1 = 0 ↔ imm.getLsbD 0 = false := BitVec.and_one_shiftLeft_eq_zero imm 0
  simp only [moveBit0To11, ne_eq, hbit]
  cases imm.getLsbD 0 <;> simp <;> interval_cases i <;> simp

/-- The immediate of a B-type instruction. -/
theorem immB_encB (offset : BitVec 12) (rs2 rs1 : BitVec 5) (funct3 : BitVec 3)
    (op : BitVec 7) :
    immB (encB offset rs2 rs1 funct3 op) = (offset ++ 0#1).signExtend 64 := by
  apply BitVec.eq_of_getLsbD_eq
  intro i hi
  rw [immB, moveBit0To11_getLsbD _ hi]
  simp only [immS, encB, encR_rd]
  simp only [BitVec.getLsbD_or, BitVec.getLsbD_and, BitVec.getLsbD_signExtend,
    BitVec.getLsbD_sshiftRight, BitVec.msb_eq_getLsbD_last, encR_getLsbD,
    BitVec.getLsbD_extractLsb', BitVec.getLsbD_setWidth, BitVec.getLsbD_append]
  interval_cases i <;> simp

/-- The immediate of a U-type instruction. -/
theorem immU_encU (imm : BitVec 20) (rd : BitVec 5) (op : BitVec 7) :
    immU (encU imm rd op) = (imm ++ 0#12).signExtend 64 := by
  apply BitVec.eq_of_getLsbD_eq
  intro i hi
  simp only [immU, encU_eq_encR]
  simp only [BitVec.getLsbD_and, BitVec.getLsbD_signExtend, BitVec.msb_eq_getLsbD_last,
    encR_getLsbD, BitVec.getLsbD_extractLsb', BitVec.getLsbD_append]
  interval_cases i <;> simp

/-- The immediate of a J-type instruction. -/
theorem immJ_encJ (offset : BitVec 20) (rd : BitVec 5) (op : BitVec 7) :
    immJ (encJ offset rd op) = (offset ++ 0#1).signExtend 64 := by
  apply BitVec.eq_of_getLsbD_eq
  intro i hi
  rw [immJ, moveBit0To11_getLsbD _ hi]
  simp only [encJ, encU_eq_encR]
  simp only [BitVec.getLsbD_or, BitVec.getLsbD_and, BitVec.getLsbD_not, BitVec.getLsbD_signExtend,
    BitVec.getLsbD_sshiftRight, BitVec.getLsbD_shiftLeft, BitVec.msb_eq_getLsbD_last,
    encR_getLsbD, BitVec.getLsbD_extractLsb', BitVec.getLsbD_append]
  interval_cases i <;> simp

/-- Bit 30 of an R format word is bit 5 of `funct7`. -/
theorem encR_bit30 (funct7 : BitVec 7) (rs2 rs1 rd : BitVec 5) (funct3 : BitVec 3)
    (op : BitVec 7) : (encR funct7 rs2 rs1 funct3 rd op).getLsbD 30 = funct7.getLsbD 5 := by
  rw [encR_getLsbD]
  rfl

/-- Bit 30 of an I format word is bit 10 of the immediate. -/
theorem encI_bit30 (imm : BitVec 12) (rs1 rd : BitVec 5) (funct3 : BitVec 3)
    (op : BitVec 7) : (encI imm rs1 funct3 rd op).getLsbD 30 = imm.getLsbD 10 := by
  rw [encI_eq_encR, encR_bit30, BitVec.getLsbD_extractLsb']
  rfl

section Formats

variable (rs2 rs1 rd : BitVec 5) (funct3 : BitVec 3) (op : BitVec 7)

/-- Decoding an R-type instruction. -/
theorem decode32_encR (funct7 : BitVec 7)
    (h : instTypeLookup32 (InstOp32.ofBits (op.extractLsb' 2 5)) = .r) :
    decode32 (encR funct7 rs2 rs1 funct3 rd op) =
      ⟨encR funct7 rs2 rs1 funct3 rd op, InstOp32.ofBits (op.extractLsb' 2 5), rd, rs1, rs2,
        funct3, funct7, 0, false⟩ := by
  simp only [decode32, encR_op, encR_rd, encR_rs1, encR_rs2, encR_funct3, encR_funct7, h]
  rfl

/-- Decoding an I-type instruction. -/
theorem decode32_encI (imm : BitVec 12)
    (h : instTypeLookup32 (InstOp32.ofBits (op.extractLsb' 2 5)) = .i) :
    decode32 (encI imm rs1 funct3 rd op) =
      ⟨encI imm rs1 funct3 rd op, InstOp32.ofBits (op.extractLsb' 2 5), rd, rs1, 0, funct3, 0,
        imm.signExtend 64, false⟩ := by
  simp only [decode32, encI_op, encI_rd, encI_rs1, encI_funct3, h, immI_encI]
  rfl

/-- Decoding an S-type instruction. -/
theorem decode32_encS (imm : BitVec 12)
    (h : instTypeLookup32 (InstOp32.ofBits (op.extractLsb' 2 5)) = .s) :
    decode32 (encS imm rs2 rs1 funct3 op) =
      ⟨encS imm rs2 rs1 funct3 op, InstOp32.ofBits (op.extractLsb' 2 5), imm.extractLsb' 0 5,
        rs1, rs2, funct3, 0, imm.signExtend 64, false⟩ := by
  have himm := immS_encS imm rs2 rs1 funct3 op
  rw [encS] at himm
  simp only [decode32, encS, encR_op, encR_rd, encR_rs1, encR_rs2, encR_funct3, h, himm]
  rfl

/-- Decoding a B-type instruction. -/
theorem decode32_encB (offset : BitVec 12)
    (h : instTypeLookup32 (InstOp32.ofBits (op.extractLsb' 2 5)) = .b) :
    decode32 (encB offset rs2 rs1 funct3 op) =
      ⟨encB offset rs2 rs1 funct3 op, InstOp32.ofBits (op.extractLsb' 2 5),
        offset.extractLsb' 0 4 ++ offset.extractLsb' 10 1, rs1, rs2, funct3, 0,
        (offset ++ 0#1).signExtend 64, false⟩ := by
  have himm := immB_encB offset rs2 rs1 funct3 op
  rw [encB] at himm
  simp only [decode32, encB, encR_op, encR_rd, encR_rs1, encR_rs2, encR_funct3, h, himm]
  rfl

/-- Decoding a U-type instruction. -/
theorem decode32_encU (imm : BitVec 20)
    (h : instTypeLookup32 (InstOp32.ofBits (op.extractLsb' 2 5)) = .u) :
    (decode32 (encU imm rd op)).opFun = InstOp32.ofBits (op.extractLsb' 2 5) ∧
    (decode32 (encU imm rd op)).rd = rd ∧
    (decode32 (encU imm rd op)).imm = (imm ++ 0#12).signExtend 64 := by
  simp only [decode32, encU_op, encU_rd, h, immU_encU, and_self]

/-- Decoding a J-type instruction. -/
theorem decode32_encJ (offset : BitVec 20)
    (h : instTypeLookup32 (InstOp32.ofBits (op.extractLsb' 2 5)) = .j) :
    (decode32 (encJ offset rd op)).opFun = InstOp32.ofBits (op.extractLsb' 2 5) ∧
    (decode32 (encJ offset rd op)).rd = rd ∧
    (decode32 (encJ offset rd op)).imm = (offset ++ 0#1).signExtend 64 := by
  have himm := immJ_encJ offset rd op
  rw [encJ] at himm
  simp only [decode32, encJ, encU_op, encU_rd, h, himm, and_self]

end Formats

/-- Every instruction survives encoding and decoding. -/
theorem decode32_is (i : Instr) : (decode32 i.encode).Is i := by
  cases i with
  | lui rd imm => exact decode32_encU rd _ imm rfl
  | auipc rd imm => exact decode32_encU rd _ imm rfl
  | jal rd offset => exact decode32_encJ rd _ offset rfl
  | jalr rd rs1 imm =>
    rw [Instr.encode, decode32_encI _ _ _ _ _ rfl]
    exact ⟨rfl, rfl, rfl, rfl⟩
  | branch op rs1 rs2 offset =>
    rw [Instr.encode, decode32_encB _ _ _ _ _ rfl]
    exact ⟨rfl, rfl, rfl, rfl, rfl⟩
  | opImm op rd rs1 imm =>
    rw [Instr.encode, decode32_encI _ _ _ _ _ rfl]
    exact ⟨rfl, rfl, rfl, rfl, rfl⟩
  -- the shift amount is the low part of the immediate, and bit 30 its bit 10
  | shiftImm op rd rs1 shamt =>
    rw [Instr.encode, decode32_encI _ _ _ _ _ rfl]
    refine ⟨rfl, rfl, rfl, rfl, BitVec.setWidth_signExtend_append _ _ (by decide), ?_⟩
    rw [encI_bit30]
    change BitVec.getLsbD (op.funct7.extractLsb' 1 6 ++ shamt) 10 = _
    rw [BitVec.getLsbD_append]
    cases op <;> rfl
  | addiw rd rs1 imm =>
    rw [Instr.encode, decode32_encI _ _ _ _ _ rfl]
    exact ⟨rfl, rfl, rfl, rfl, rfl⟩
  | shiftImmW op rd rs1 shamt =>
    rw [Instr.encode, decode32_encI _ _ _ _ _ rfl]
    refine ⟨rfl, rfl, rfl, rfl, BitVec.setWidth_signExtend_append _ _ (by decide), ?_⟩
    rw [encI_bit30]
    change BitVec.getLsbD (op.funct7 ++ shamt) 10 = _
    rw [BitVec.getLsbD_append]
    cases op <;> rfl
  | opReg op rd rs1 rs2 =>
    rw [Instr.encode, decode32_encR _ _ _ _ _ _ rfl]
    refine ⟨rfl, rfl, rfl, rfl, rfl, ?_, encR_bit30 ..⟩
    cases op <;> simp [AluOp.funct7]
  | opRegW op rd rs1 rs2 =>
    rw [Instr.encode, decode32_encR _ _ _ _ _ _ rfl]
    refine ⟨rfl, rfl, rfl, rfl, rfl, ?_, encR_bit30 ..⟩
    cases op <;> simp [AluOpW.funct7]
  | load op rd rs1 imm =>
    rw [Instr.encode, decode32_encI _ _ _ _ _ rfl]
    exact ⟨rfl, rfl, rfl, rfl, rfl⟩
  | store op rs1 rs2 imm =>
    rw [Instr.encode, decode32_encS _ _ _ _ _ rfl]
    exact ⟨rfl, rfl, rfl, rfl, rfl⟩
  | ebreak => exact ⟨rfl, by decide, .inl rfl⟩

/-- A 32-bit instruction has four bytes. -/
theorem HartState.instBytes_of_len32 {hs : HartState} (h : hs.instLen = 32) :
    hs.instBytes = 4 := by
  rw [instBytes, h]
  rfl

/-- A compressed instruction has two bytes. -/
theorem HartState.instBytes_of_len16 {hs : HartState} (h : hs.instLen = 16) :
    hs.instBytes = 2 := by
  rw [instBytes, h]
  rfl

end RvEmu
