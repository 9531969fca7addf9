import Mathlib.Logic.Function.Basic

/-!
# The RV64I base instructions

Abstract syntax, 32-bit encoding and meaning of the integer instructions, as
the unprivileged ISA manual gives them and without reference to the emulator.
Loads, stores and EBREAK are here for their encodings, which the compressed
instructions expand to; their meaning needs a memory and is not given.
-/

namespace RvEmu.Isa

/-! ## Abstract syntax -/

/-- The conditions of the branches. -/
inductive BranchOp where
  | beq | bne | blt | bge | bltu | bgeu
  deriving DecidableEq, Repr

/-- The OP-IMM instructions with a 12-bit immediate. -/
inductive ImmOp where
  | addi | slti | sltiu | xori | ori | andi
  deriving DecidableEq, Repr

/-- The shifts by an immediate amount. -/
inductive ShiftOp where
  | slli | srli | srai
  deriving DecidableEq, Repr

/-- The OP instructions. -/
inductive AluOp where
  | add | sub | sll | slt | sltu | xor | srl | sra | or | and
  deriving DecidableEq, Repr

/-- The OP-32 instructions. -/
inductive AluOpW where
  | addw | subw | sllw | srlw | sraw
  deriving DecidableEq, Repr

inductive LoadOp where
  | lb | lh | lw | ld | lbu | lhu | lwu
  deriving DecidableEq, Repr

inductive StoreOp where
  | sb | sh | sw | sd
  deriving DecidableEq, Repr

/-- An instruction. A jump or branch carries its offset without the lowest bit,
    which is always zero. -/
inductive Instr where
  | lui (rd : BitVec 5) (imm : BitVec 20)
  | auipc (rd : BitVec 5) (imm : BitVec 20)
  | jal (rd : BitVec 5) (offset : BitVec 20)
  | jalr (rd rs1 : BitVec 5) (imm : BitVec 12)
  | branch (op : BranchOp) (rs1 rs2 : BitVec 5) (offset : BitVec 12)
  | opImm (op : ImmOp) (rd rs1 : BitVec 5) (imm : BitVec 12)
  | shiftImm (op : ShiftOp) (rd rs1 : BitVec 5) (shamt : BitVec 6)
  | addiw (rd rs1 : BitVec 5) (imm : BitVec 12)
  | shiftImmW (op : ShiftOp) (rd rs1 : BitVec 5) (shamt : BitVec 5)
  | opReg (op : AluOp) (rd rs1 rs2 : BitVec 5)
  | opRegW (op : AluOpW) (rd rs1 rs2 : BitVec 5)
  | load (op : LoadOp) (rd rs1 : BitVec 5) (imm : BitVec 12)
  | store (op : StoreOp) (rs1 rs2 : BitVec 5) (imm : BitVec 12)
  | ebreak
  deriving DecidableEq, Repr

/-! ## Encoding -/

/-- The R format. -/
def encR (funct7 : BitVec 7) (rs2 rs1 : BitVec 5) (funct3 : BitVec 3) (rd : BitVec 5)
    (opcode : BitVec 7) : BitVec 32 :=
  funct7 ++ rs2 ++ rs1 ++ funct3 ++ rd ++ opcode

/-- The I format. -/
def encI (imm : BitVec 12) (rs1 : BitVec 5) (funct3 : BitVec 3) (rd : BitVec 5)
    (opcode : BitVec 7) : BitVec 32 :=
  imm ++ rs1 ++ funct3 ++ rd ++ opcode

/-- The S format. -/
def encS (imm : BitVec 12) (rs2 rs1 : BitVec 5) (funct3 : BitVec 3) (opcode : BitVec 7) :
    BitVec 32 :=
  encR (imm.extractLsb' 5 7) rs2 rs1 funct3 (imm.extractLsb' 0 5) opcode

/-- The B format, of the offset without its lowest bit. -/
def encB (offset : BitVec 12) (rs2 rs1 : BitVec 5) (funct3 : BitVec 3) (opcode : BitVec 7) :
    BitVec 32 :=
  encR (offset.extractLsb' 11 1 ++ offset.extractLsb' 4 6) rs2 rs1 funct3
    (offset.extractLsb' 0 4 ++ offset.extractLsb' 10 1) opcode

/-- The U format. -/
def encU (imm : BitVec 20) (rd : BitVec 5) (opcode : BitVec 7) : BitVec 32 :=
  imm ++ rd ++ opcode

/-- The J format, of the offset without its lowest bit. -/
def encJ (offset : BitVec 20) (rd : BitVec 5) (opcode : BitVec 7) : BitVec 32 :=
  encU (offset.extractLsb' 19 1 ++ offset.extractLsb' 0 10 ++ offset.extractLsb' 10 1 ++
    offset.extractLsb' 11 8) rd opcode

section Formats

variable (funct7 : BitVec 7) (rs2 rs1 rd : BitVec 5) (funct3 : BitVec 3) (opcode : BitVec 7)

/-- The bits of an R format word, field by field. -/
theorem encR_getLsbD (i : Nat) :
    (encR funct7 rs2 rs1 funct3 rd opcode).getLsbD i =
      if i < 7 then opcode.getLsbD i else if i < 12 then rd.getLsbD (i - 7)
      else if i < 15 then funct3.getLsbD (i - 12) else if i < 20 then rs1.getLsbD (i - 15)
      else if i < 25 then rs2.getLsbD (i - 20) else funct7.getLsbD (i - 25) := by
  change BitVec.getLsbD (funct7 ++ rs2 ++ rs1 ++ funct3 ++ rd ++ opcode) i = _
  simp only [BitVec.getLsbD_append]
  grind

/-- The I format is the R format with the immediate across two fields. -/
theorem encI_eq_encR (imm : BitVec 12) :
    encI imm rs1 funct3 rd opcode =
      encR (imm.extractLsb' 5 7) (imm.extractLsb' 0 5) rs1 funct3 rd opcode := by
  apply BitVec.eq_of_getLsbD_eq
  intro i hi
  change BitVec.getLsbD (imm ++ rs1 ++ funct3 ++ rd ++ opcode) i = _
  simp only [BitVec.getLsbD_append, encR_getLsbD, BitVec.getLsbD_extractLsb']
  grind

/-- The U format is the R format with the immediate across four fields. -/
theorem encU_eq_encR (imm : BitVec 20) :
    encU imm rd opcode =
      encR (imm.extractLsb' 13 7) (imm.extractLsb' 8 5) (imm.extractLsb' 3 5)
        (imm.extractLsb' 0 3) rd opcode := by
  apply BitVec.eq_of_getLsbD_eq
  intro i hi
  change BitVec.getLsbD (imm ++ rd ++ opcode) i = _
  simp only [BitVec.getLsbD_append, encR_getLsbD, BitVec.getLsbD_extractLsb']
  grind

/-- The fields of an R-type word: the opcode, … -/
@[simp] theorem encR_op : (encR funct7 rs2 rs1 funct3 rd opcode).extractLsb' 2 5 =
    opcode.extractLsb' 2 5 := by
  apply BitVec.eq_of_getLsbD_eq
  intro i hi
  simp only [BitVec.getLsbD_extractLsb', encR_getLsbD]
  grind

/-- … `rd`, … -/
@[simp] theorem encR_rd : (encR funct7 rs2 rs1 funct3 rd opcode).extractLsb' 7 5 = rd := by
  apply BitVec.eq_of_getLsbD_eq
  intro i hi
  simp only [BitVec.getLsbD_extractLsb', encR_getLsbD]
  grind

/-- … `funct3`, … -/
@[simp] theorem encR_funct3 :
    (encR funct7 rs2 rs1 funct3 rd opcode).extractLsb' 12 3 = funct3 := by
  apply BitVec.eq_of_getLsbD_eq
  intro i hi
  simp only [BitVec.getLsbD_extractLsb', encR_getLsbD]
  grind

/-- … `rs1`, … -/
@[simp] theorem encR_rs1 : (encR funct7 rs2 rs1 funct3 rd opcode).extractLsb' 15 5 = rs1 := by
  apply BitVec.eq_of_getLsbD_eq
  intro i hi
  simp only [BitVec.getLsbD_extractLsb', encR_getLsbD]
  grind

/-- … `rs2` … -/
@[simp] theorem encR_rs2 : (encR funct7 rs2 rs1 funct3 rd opcode).extractLsb' 20 5 = rs2 := by
  apply BitVec.eq_of_getLsbD_eq
  intro i hi
  simp only [BitVec.getLsbD_extractLsb', encR_getLsbD]
  grind

/-- … and `funct7`. -/
@[simp] theorem encR_funct7 :
    (encR funct7 rs2 rs1 funct3 rd opcode).extractLsb' 25 7 = funct7 := by
  apply BitVec.eq_of_getLsbD_eq
  intro i hi
  simp only [BitVec.getLsbD_extractLsb', encR_getLsbD]
  grind

/-- Those of an I-type word: the opcode, … -/
@[simp] theorem encI_op (imm : BitVec 12) :
    (encI imm rs1 funct3 rd opcode).extractLsb' 2 5 = opcode.extractLsb' 2 5 := by
  rw [encI_eq_encR, encR_op]

/-- … `rd`, … -/
@[simp] theorem encI_rd (imm : BitVec 12) :
    (encI imm rs1 funct3 rd opcode).extractLsb' 7 5 = rd := by
  rw [encI_eq_encR, encR_rd]

/-- … `funct3` … -/
@[simp] theorem encI_funct3 (imm : BitVec 12) :
    (encI imm rs1 funct3 rd opcode).extractLsb' 12 3 = funct3 := by
  rw [encI_eq_encR, encR_funct3]

/-- … and `rs1`. -/
@[simp] theorem encI_rs1 (imm : BitVec 12) :
    (encI imm rs1 funct3 rd opcode).extractLsb' 15 5 = rs1 := by
  rw [encI_eq_encR, encR_rs1]

/-- Those of a U-type word: the opcode … -/
@[simp] theorem encU_op (imm : BitVec 20) :
    (encU imm rd opcode).extractLsb' 2 5 = opcode.extractLsb' 2 5 := by
  rw [encU_eq_encR, encR_op]

/-- … and `rd`. -/
@[simp] theorem encU_rd (imm : BitVec 20) : (encU imm rd opcode).extractLsb' 7 5 = rd := by
  rw [encU_eq_encR, encR_rd]

end Formats

def BranchOp.funct3 : BranchOp → BitVec 3
  | .beq => 0b000 | .bne => 0b001 | .blt => 0b100
  | .bge => 0b101 | .bltu => 0b110 | .bgeu => 0b111

def ImmOp.funct3 : ImmOp → BitVec 3
  | .addi => 0b000 | .slti => 0b010 | .sltiu => 0b011
  | .xori => 0b100 | .ori => 0b110 | .andi => 0b111

def ShiftOp.funct3 : ShiftOp → BitVec 3
  | .slli => 0b001 | .srli => 0b101 | .srai => 0b101

/-- The arithmetic shifts are marked in `funct7`. -/
def ShiftOp.funct7 : ShiftOp → BitVec 7
  | .slli => 0b0000000 | .srli => 0b0000000 | .srai => 0b0100000

def AluOp.funct3 : AluOp → BitVec 3
  | .add => 0b000 | .sub => 0b000 | .sll => 0b001 | .slt => 0b010 | .sltu => 0b011
  | .xor => 0b100 | .srl => 0b101 | .sra => 0b101 | .or => 0b110 | .and => 0b111

def AluOp.funct7 : AluOp → BitVec 7
  | .sub | .sra => 0b0100000
  | .add | .sll | .slt | .sltu | .xor | .srl | .or | .and => 0b0000000

def AluOpW.funct3 : AluOpW → BitVec 3
  | .addw => 0b000 | .subw => 0b000 | .sllw => 0b001 | .srlw => 0b101 | .sraw => 0b101

def AluOpW.funct7 : AluOpW → BitVec 7
  | .subw | .sraw => 0b0100000
  | .addw | .sllw | .srlw => 0b0000000

def LoadOp.funct3 : LoadOp → BitVec 3
  | .lb => 0b000 | .lh => 0b001 | .lw => 0b010 | .ld => 0b011
  | .lbu => 0b100 | .lhu => 0b101 | .lwu => 0b110

def StoreOp.funct3 : StoreOp → BitVec 3
  | .sb => 0b000 | .sh => 0b001 | .sw => 0b010 | .sd => 0b011

/-- The 32-bit encoding of an instruction. -/
def Instr.encode : Instr → BitVec 32
  | .lui rd imm => encU imm rd 0b0110111
  | .auipc rd imm => encU imm rd 0b0010111
  | .jal rd offset => encJ offset rd 0b1101111
  | .jalr rd rs1 imm => encI imm rs1 0b000 rd 0b1100111
  | .branch op rs1 rs2 offset => encB offset rs2 rs1 op.funct3 0b1100011
  | .opImm op rd rs1 imm => encI imm rs1 op.funct3 rd 0b0010011
  | .shiftImm op rd rs1 shamt =>
    encI (op.funct7.extractLsb' 1 6 ++ shamt) rs1 op.funct3 rd 0b0010011
  | .addiw rd rs1 imm => encI imm rs1 0b000 rd 0b0011011
  | .shiftImmW op rd rs1 shamt => encI (op.funct7 ++ shamt) rs1 op.funct3 rd 0b0011011
  | .opReg op rd rs1 rs2 => encR op.funct7 rs2 rs1 op.funct3 rd 0b0110011
  | .opRegW op rd rs1 rs2 => encR op.funct7 rs2 rs1 op.funct3 rd 0b0111011
  | .load op rd rs1 imm => encI imm rs1 op.funct3 rd 0b0000011
  | .store op rs1 rs2 imm => encS imm rs2 rs1 op.funct3 0b0100011
  | .ebreak => encI 1 0 0b000 0 0b1110011

/-! ## Meaning -/

/-- 1 if the comparison holds, otherwise 0. -/
def flag (b : Bool) : BitVec 64 := if b then 1 else 0

/-- A shift takes its amount from the low 6 bits of the second operand. -/
def AluOp.eval (op : AluOp) (a b : BitVec 64) : BitVec 64 :=
  match op with
  | .add => a + b
  | .sub => a - b
  | .sll => a <<< (b.setWidth 6).toNat
  | .slt => flag (a.slt b)
  | .sltu => flag (a.ult b)
  | .xor => a ^^^ b
  | .srl => a >>> (b.setWidth 6).toNat
  | .sra => a.sshiftRight (b.setWidth 6).toNat
  | .or => a ||| b
  | .and => a &&& b

/-- The word operations; a shift takes its amount from the low 5 bits. -/
def AluOpW.eval (op : AluOpW) (a b : BitVec 32) : BitVec 32 :=
  match op with
  | .addw => a + b
  | .subw => a - b
  | .sllw => a <<< (b.setWidth 5).toNat
  | .srlw => a >>> (b.setWidth 5).toNat
  | .sraw => a.sshiftRight (b.setWidth 5).toNat

def ImmOp.alu : ImmOp → AluOp
  | .addi => .add | .slti => .slt | .sltiu => .sltu | .xori => .xor | .ori => .or | .andi => .and

def ShiftOp.alu : ShiftOp → AluOp
  | .slli => .sll | .srli => .srl | .srai => .sra

def ShiftOp.aluW : ShiftOp → AluOpW
  | .slli => .sllw | .srli => .srlw | .srai => .sraw

/-- Whether a branch is taken. -/
def BranchOp.taken (op : BranchOp) (a b : BitVec 64) : Bool :=
  match op with
  | .beq => a == b
  | .bne => !(a == b)
  | .blt => a.slt b
  | .bge => !a.slt b
  | .bltu => a.ult b
  | .bgeu => !a.ult b

/-- What an instruction computes, for an instruction length of `len` bytes: the
    register it writes, if any, with the value, and the target of a jump it
    takes, if any. -/
structure Effect where
  write : Option (BitVec 5 × BitVec 64)
  target : Option (BitVec 64)
  deriving DecidableEq

/-- The registers as an instruction reads them, x0 being zero. -/
abbrev Regs := BitVec 5 → BitVec 64

/-- The meaning of an instruction, `none` for those that need a memory. -/
def Instr.effect (x : Regs) (pc len : BitVec 64) : Instr → Option Effect
  | .lui rd imm => some ⟨some (rd, (imm ++ 0#12).signExtend 64), none⟩
  | .auipc rd imm => some ⟨some (rd, pc + (imm ++ 0#12).signExtend 64), none⟩
  | .jal rd offset =>
    some ⟨some (rd, pc + len), some (pc + (offset ++ 0#1).signExtend 64)⟩
  | .jalr rd rs1 imm =>
    some ⟨some (rd, pc + len), some ((x rs1 + imm.signExtend 64) &&& ~~~1#64)⟩
  | .branch op rs1 rs2 offset =>
    some ⟨none, if op.taken (x rs1) (x rs2) then some (pc + (offset ++ 0#1).signExtend 64)
      else none⟩
  | .opImm op rd rs1 imm => some ⟨some (rd, op.alu.eval (x rs1) (imm.signExtend 64)), none⟩
  | .shiftImm op rd rs1 shamt => some ⟨some (rd, op.alu.eval (x rs1) (shamt.setWidth 64)), none⟩
  | .addiw rd rs1 imm =>
    some ⟨some (rd, ((x rs1).setWidth 32 + imm.signExtend 32).signExtend 64), none⟩
  | .shiftImmW op rd rs1 shamt =>
    some ⟨some (rd, (op.aluW.eval ((x rs1).setWidth 32) (shamt.setWidth 32)).signExtend 64), none⟩
  | .opReg op rd rs1 rs2 => some ⟨some (rd, op.eval (x rs1) (x rs2)), none⟩
  | .opRegW op rd rs1 rs2 =>
    some ⟨some (rd, (op.eval ((x rs1).setWidth 32) ((x rs2).setWidth 32)).signExtend 64), none⟩
  | .load .. | .store .. | .ebreak => none

/-- The registers after an effect; writes to x0 are discarded. -/
def Effect.regs (e : Effect) (x : Regs) : Regs :=
  match e.write with
  | some (rd, v) => if rd = 0 then x else Function.update x rd v
  | none => x

/-- The pc after an effect. -/
def Effect.pc (e : Effect) (pc len : BitVec 64) : BitVec 64 := e.target.getD (pc + len)

end RvEmu.Isa
