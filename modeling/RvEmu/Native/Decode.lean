import RvEmu.Native.State

/-!
# Instruction decode

The decode stage of `decode_exc` (`cpu.cpp`), for 16-bit and for 32-bit
instructions. Register numbers and the `funct` fields are cut out of the word
at their width; immediates are assembled with the shifts and masks of the
source, on `int32_t` and then `int64_t` values.
-/

namespace RvEmu

/-- `inst_op_32` -/
inductive InstOp32 where
  | load | loadFp | cst0 | miscMem | opImm | auipc | opImm32 | l1
  | store | storeFp | cst1 | amo | op | lui | op32 | l2
  | madd | msub | nmsub | nmadd | opFp | res1 | cst2 | l3
  | branch | jalr | res2 | jal | system | res3 | cst3 | l4
  deriving DecidableEq, Repr

/-- The cast of a 5-bit number to `inst_op_32`. -/
def InstOp32.ofBits (b : BitVec 5) : InstOp32 :=
  match b with
  | 0 => .load | 1 => .loadFp | 2 => .cst0 | 3 => .miscMem
  | 4 => .opImm | 5 => .auipc | 6 => .opImm32 | 7 => .l1
  | 8 => .store | 9 => .storeFp | 10 => .cst1 | 11 => .amo
  | 12 => .op | 13 => .lui | 14 => .op32 | 15 => .l2
  | 16 => .madd | 17 => .msub | 18 => .nmsub | 19 => .nmadd
  | 20 => .opFp | 21 => .res1 | 22 => .cst2 | 23 => .l3
  | 24 => .branch | 25 => .jalr | 26 => .res2 | 27 => .jal
  | 28 => .system | 29 => .res3 | 30 => .cst3 | _ => .l4

/-- `inst_type` -/
inductive InstType where
  | r | r4 | i | s | b | u | j | diff
  deriving DecidableEq, Repr

/-- `inst_type_lookup_32` -/
def instTypeLookup32 : InstOp32 → InstType
  | .load => .i | .miscMem => .i | .opImm => .i | .auipc => .u | .opImm32 => .i
  | .store => .s | .amo => .r | .op => .r | .lui => .u | .op32 => .r
  | .madd => .r4 | .msub => .r4 | .nmsub => .r4 | .nmadd => .r4 | .opFp => .r
  | .branch => .b | .jalr => .i | .jal => .j | .system => .i
  | _ => .diff

/-- The local variables of `decode_exc` after decoding, and `hs.inst`, whose bit
    30 the 16-bit decoder sets for the execute stage. -/
structure Decoded where
  inst : BitVec 32
  opFun : InstOp32
  rd : BitVec 5
  rs1 : BitVec 5
  rs2 : BitVec 5
  funct3 : BitVec 3
  funct7 : BitVec 7
  imm : BitVec 64
  cebreak : Bool

/-- The initial values of the local variables. -/
def Decoded.init (inst : BitVec 32) : Decoded := ⟨inst, .l4, 0, 0, 0, 0, 0, 0, false⟩

/-! ## 32-bit instructions -/

/-- `imm` of the S format: bits 31:25 shifted down, with `rd` below them. -/
def immS (inst : BitVec 32) : BitVec 64 :=
  let imm := (inst &&& (0b1111111#32 <<< 25)).signExtend 64
  (imm.sshiftRight 20) ||| (inst.extractLsb' 7 5).setWidth 64

/-- Bit 0 moved to bit 11, as the B and J formats need. -/
def moveBit0To11 (imm : BitVec 64) : BitVec 64 :=
  let imm := if imm &&& 1 ≠ 0 then imm ||| (0b1#64 <<< 11) else imm &&& ~~~(0b1#64 <<< 11)
  imm &&& ~~~0b1#64

/-- `imm` of the B format. -/
def immB (inst : BitVec 32) : BitVec 64 := moveBit0To11 (immS inst)

/-- `imm` of the U format. -/
def immU (inst : BitVec 32) : BitVec 64 := (inst &&& ~~~0b111111111111#32).signExtend 64

/-- `imm` of the J format. -/
def immJ (inst : BitVec 32) : BitVec 64 :=
  let imm := ((inst &&& ~~~0b111111111111#32).sshiftRight 20).signExtend 64
  let imm := imm &&& ~~~(0b11111111#64 <<< 12) -- mask out [19:12]
  let imm := imm ||| (inst &&& (0b11111111#32 <<< 12)).signExtend 64 -- copy in [19:12]
  moveBit0To11 imm

/-- The decoding of a 32-bit instruction. -/
def decode32 (inst : BitVec 32) : Decoded :=
  let opFun := InstOp32.ofBits (inst.extractLsb' 2 5)
  let d := { Decoded.init inst with
    opFun := opFun
    rd := inst.extractLsb' 7 5
    rs1 := inst.extractLsb' 15 5
    funct3 := inst.extractLsb' 12 3 }
  let rs2 := inst.extractLsb' 20 5
  match instTypeLookup32 opFun with
  | .r4 => { d with rs2 := rs2 }
  | .r => { d with rs2 := rs2, funct7 := inst.extractLsb' 25 7 }
  | .i => { d with imm := (inst.sshiftRight 20).signExtend 64 }
  | .s => { d with rs2 := rs2, imm := immS inst }
  | .b => { d with rs2 := rs2, imm := immB inst }
  | .u => { d with imm := immU inst }
  | .j => { d with imm := immJ inst }
  | .diff => d

/-! ## 16-bit instructions -/

/-- `inst_op_16`, indexed by `inst[1:0|15:13]`. -/
inductive InstOp16 where
  | addi4spn | fld | lw | ld | res1 | fsd | sw | sd
  | addi | addiw | li | lui | miscAlu | j | beqz | bnez
  | slli | fldsp | lwsp | ldsp | jalr | fsdsp | swsp | sdsp
  | other
  deriving DecidableEq, Repr

/-- The cast `(inst_op_16)(((inst & 0b11) << 3) + ((inst & 0xE000) >> 13))`;
    `other` stands for the values without an enumerator. -/
def InstOp16.ofInst (inst : BitVec 32) : InstOp16 :=
  match inst.extractLsb' 0 2 ++ inst.extractLsb' 13 3 with
  | 0 => .addi4spn | 1 => .fld | 2 => .lw | 3 => .ld
  | 4 => .res1 | 5 => .fsd | 6 => .sw | 7 => .sd
  | 8 => .addi | 9 => .addiw | 10 => .li | 11 => .lui
  | 12 => .miscAlu | 13 => .j | 14 => .beqz | 15 => .bnez
  | 16 => .slli | 17 => .fldsp | 18 => .lwsp | 19 => .ldsp
  | 20 => .jalr | 21 => .fsdsp | 22 => .swsp | 23 => .sdsp
  | _ => .other

/-- `(inst >> n) & mask`, converted to `int64_t`. -/
def shrMask (inst : BitVec 32) (n : Nat) (mask : BitVec 32) : BitVec 64 :=
  (inst.sshiftRight n &&& mask).signExtend 64

/-- `(inst << n) & mask`, converted to `int64_t`. -/
def shlMask (inst : BitVec 32) (n : Nat) (mask : BitVec 32) : BitVec 64 :=
  ((inst <<< n) &&& mask).signExtend 64

/-- `(int64_t)(imm << n) >> n` -/
def signExtendImm (imm : BitVec 64) (n : Nat) : BitVec 64 := (imm <<< n).sshiftRight n

/-- `REG16TO32` of a 3-bit register number. -/
def reg16To32 (r : BitVec 3) : BitVec 5 := r.setWidth 5 + 8

/-- The 6-bit immediate of the CI and CB forms, not yet sign-extended. -/
def imm6 (inst : BitVec 32) : BitVec 64 := shrMask inst 7 0b100000 + shrMask inst 2 0b11111

/-- The `MISC_ALU` group of the 16-bit decoder. -/
def decodeMiscAlu (inst : BitVec 32) (d : Decoded) : Decoded :=
  let d := { d with rs2 := reg16To32 (inst.extractLsb' 2 3), rd := d.rs1, imm := imm6 inst }
  match inst.extractLsb' 10 2 with
  | 0b00 => { d with opFun := .opImm, funct3 := 0b101, inst := inst &&& ~~~(0b1#32 <<< 30) }
  | 0b01 => { d with opFun := .opImm, funct3 := 0b101, inst := inst ||| (0b1#32 <<< 30) }
  | 0b10 => { d with opFun := .opImm, funct3 := 0b111, imm := signExtendImm d.imm 58 }
  | _ =>
    if inst.getLsbD 12 then
      -- C.SUBW, otherwise C.ADDW
      let inst := if !inst.getLsbD 5 then inst ||| (1#32 <<< 30) else inst
      { d with opFun := .op32, funct3 := 0b000, inst := inst }
    else
      let d := { d with opFun := .op }
      match inst.extractLsb' 5 2 with
      | 0b00 => { d with funct3 := 0b000, inst := inst ||| (0b1#32 <<< 30) } -- C.SUB
      | 0b01 => { d with funct3 := 0b100 } -- C.XOR
      | 0b10 => { d with funct3 := 0b110 } -- C.OR
      | _ => { d with funct3 := 0b111 } -- C.AND

/-- The `JALR` group of the 16-bit decoder. -/
def decodeJalr16 (inst : BitVec 32) (d : Decoded) : Decoded :=
  if inst = 0x9002 then { d with opFun := .system, cebreak := true } -- C.EBREAK
  else
    let rs1 := inst.extractLsb' 7 5
    let rs2 := inst.extractLsb' 2 5
    let d := { d with rs1 := rs1, rs2 := rs2 }
    if inst.getLsbD 12 then
      if rs2 ≠ 0 then { d with opFun := .op, funct3 := 0b000, rd := rs1 } -- C.ADD
      else { d with opFun := .jalr, rd := 1, imm := 0 } -- C.JALR
    else
      if rs2 ≠ 0 then { d with opFun := .op, funct3 := 0b000, rd := rs1, rs1 := 0 } -- C.MV
      else { d with opFun := .jalr, rd := 0, imm := 0 } -- C.JR

/-- The decoding of a 16-bit instruction; `none` for the reserved quadrant 0 row
    that raises ILLINST at once. -/
def decode16 (inst : BitVec 32) : Option Decoded :=
  let d := { Decoded.init inst with
    rd := reg16To32 (inst.extractLsb' 2 3)
    rs1 := reg16To32 (inst.extractLsb' 7 3) }
  let rdFull := inst.extractLsb' 7 5
  match InstOp16.ofInst inst with
  | .addi4spn => some { d with
      opFun := .opImm, funct3 := 0b000, rs1 := 2
      imm := shrMask inst 1 0b1111000000 + shrMask inst 7 0b110000 +
        shrMask inst 2 0b1000 + shrMask inst 4 0b100 }
  | .lw => some { d with
      opFun := .load, funct3 := 0b010
      imm := shlMask inst 1 0b1000000 + shrMask inst 7 0b111000 + shrMask inst 4 0b100 }
  | .ld => some { d with
      opFun := .load, funct3 := 0b011
      imm := shlMask inst 1 0b11000000 + shrMask inst 7 0b111000 }
  | .res1 => none
  | .sw => some { d with
      opFun := .store, funct3 := 0b010, rs2 := d.rd
      imm := shlMask inst 1 0b1000000 + shrMask inst 7 0b111000 + shrMask inst 4 0b100 }
  | .sd => some { d with
      opFun := .store, funct3 := 0b011, rs2 := d.rd
      imm := shlMask inst 1 0b11000000 + shrMask inst 7 0b111000 }
  | .addi => some { d with
      opFun := .opImm, funct3 := 0b000, rd := rdFull, rs1 := rdFull
      imm := signExtendImm (imm6 inst) 58 }
  | .addiw => some { d with
      opFun := .opImm32, funct3 := 0b000, rd := rdFull, rs1 := rdFull
      imm := signExtendImm (imm6 inst) 58 }
  | .li => some { d with
      opFun := .opImm, funct3 := 0b000, rd := rdFull, rs1 := 0
      imm := signExtendImm (imm6 inst) 58 }
  | .lui =>
    if rdFull = 2 then some { d with -- C.ADDI16SP
      opFun := .opImm, funct3 := 0b000, rs1 := 2, rd := 2
      imm := signExtendImm (shrMask inst 3 0b1000000000 + shlMask inst 4 0b110000000 +
        shlMask inst 1 0b1000000 + shlMask inst 3 0b100000 + shrMask inst 2 0b10000) 54 }
    else some { d with -- C.LUI
      opFun := .lui, rd := rdFull
      imm := signExtendImm (shlMask inst 5 0x20000 + shlMask inst 10 0x1F000) 46 }
  | .miscAlu => some (decodeMiscAlu inst d)
  | .j => some { d with
      opFun := .jal, rd := 0, rs1 := rdFull
      imm := signExtendImm (shrMask inst 1 0xB40 + shrMask inst 2 0xE + shrMask inst 7 0x10 +
        shlMask inst 1 0x80 + shlMask inst 2 0x400 + shlMask inst 3 0x20) 52 }
  | .beqz | .bnez => some { d with
      opFun := .branch, funct3 := (inst.extractLsb' 13 1).setWidth 3, rs2 := 0
      imm := signExtendImm (shrMask inst 4 0b100000000 + shlMask inst 1 0b11000000 +
        shlMask inst 3 0b100000 + shrMask inst 7 0b11000 + shrMask inst 2 0b110) 55 }
  | .slli => some { d with
      opFun := .opImm, funct3 := 0b001, rs1 := rdFull, rd := rdFull, imm := imm6 inst }
  | .lwsp => some { d with
      opFun := .load, funct3 := 0b010, rd := rdFull, rs1 := 2
      imm := shlMask inst 4 0b11000000 + shrMask inst 7 0b100000 + shrMask inst 2 0b11100 }
  | .ldsp => some { d with
      opFun := .load, funct3 := 0b011, rd := rdFull, rs1 := 2
      imm := shlMask inst 4 0b111000000 + shrMask inst 7 0b100000 + shrMask inst 2 0b11000 }
  | .jalr => some (decodeJalr16 inst d)
  | .swsp => some { d with
      opFun := .store, funct3 := 0b010, rs2 := inst.extractLsb' 2 5, rs1 := 2
      imm := shrMask inst 1 0b11000000 + shrMask inst 7 0b111100 }
  | .sdsp => some { d with
      opFun := .store, funct3 := 0b011, rs2 := inst.extractLsb' 2 5, rs1 := 2
      imm := shrMask inst 1 0b111000000 + shrMask inst 7 0b111000 }
  | .fld | .fsd | .fldsp | .fsdsp | .other => some d -- TODO in the source

end RvEmu
