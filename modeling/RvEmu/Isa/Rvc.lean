import RvEmu.Isa.Rv64i

/-!
# The compressed instructions

The expansion of the RV64C integer instructions into base instructions, by
quadrant, in the layout of the tables of the ISA manual. An immediate is put
together from the most significant bit down.
-/

namespace RvEmu.Isa

/-- A 3-bit register number stands for x8 to x15. -/
def rvcReg (r : BitVec 3) : BitVec 5 := 0b01#2 ++ r

section Fields

variable (c : BitVec 16)

/-- `rd` or `rs1` of the full width, bits 11:7. -/
def rvcRd : BitVec 5 := c.extractLsb' 7 5

/-- `rs2` of the full width, bits 6:2. -/
def rvcRs2 : BitVec 5 := c.extractLsb' 2 5

/-- `rd'` or `rs1'`, bits 9:7. -/
def rvcRs1' : BitVec 5 := rvcReg (c.extractLsb' 7 3)

/-- `rd'` or `rs2'`, bits 4:2. -/
def rvcRs2' : BitVec 5 := rvcReg (c.extractLsb' 2 3)

/-- The immediate of the CI format, `imm[5]` and `imm[4:0]`. -/
def immCI : BitVec 6 := c.extractLsb' 12 1 ++ c.extractLsb' 2 5

/-- C.ADDI16SP: `nzimm[9]` and `nzimm[4|6|8:7|5]`. -/
def immAddi16sp : BitVec 10 :=
  c.extractLsb' 12 1 ++ c.extractLsb' 3 2 ++ c.extractLsb' 5 1 ++ c.extractLsb' 2 1 ++
    c.extractLsb' 6 1 ++ 0#4

/-- C.ADDI4SPN: `nzuimm[5:4|9:6|2|3]`. -/
def immAddi4spn : BitVec 10 :=
  c.extractLsb' 7 4 ++ c.extractLsb' 11 2 ++ c.extractLsb' 5 1 ++ c.extractLsb' 6 1 ++ 0#2

/-- C.LW and C.SW: `uimm[5:3]` and `uimm[2|6]`. -/
def immCLW : BitVec 7 := c.extractLsb' 5 1 ++ c.extractLsb' 10 3 ++ c.extractLsb' 6 1 ++ 0#2

/-- C.LD and C.SD: `uimm[5:3]` and `uimm[7:6]`. -/
def immCLD : BitVec 8 := c.extractLsb' 5 2 ++ c.extractLsb' 10 3 ++ 0#3

/-- C.LWSP: `uimm[5]` and `uimm[4:2|7:6]`. -/
def immLwsp : BitVec 8 := c.extractLsb' 2 2 ++ c.extractLsb' 12 1 ++ c.extractLsb' 4 3 ++ 0#2

/-- C.LDSP: `uimm[5]` and `uimm[4:3|8:6]`. -/
def immLdsp : BitVec 9 := c.extractLsb' 2 3 ++ c.extractLsb' 12 1 ++ c.extractLsb' 5 2 ++ 0#3

/-- C.SWSP: `uimm[5:2|7:6]`. -/
def immSwsp : BitVec 8 := c.extractLsb' 7 2 ++ c.extractLsb' 9 4 ++ 0#2

/-- C.SDSP: `uimm[5:3|8:6]`. -/
def immSdsp : BitVec 9 := c.extractLsb' 7 3 ++ c.extractLsb' 10 3 ++ 0#3

/-- C.J: `offset[11|4|9:8|10|6|7|3:1|5]`, without the lowest bit. -/
def offsetCJ : BitVec 11 :=
  c.extractLsb' 12 1 ++ c.extractLsb' 8 1 ++ c.extractLsb' 9 2 ++ c.extractLsb' 6 1 ++
    c.extractLsb' 7 1 ++ c.extractLsb' 2 1 ++ c.extractLsb' 11 1 ++ c.extractLsb' 3 3

/-- C.BEQZ and C.BNEZ: `offset[8|4:3]` and `offset[7:6|2:1|5]`, without the
    lowest bit. -/
def offsetCB : BitVec 8 :=
  c.extractLsb' 12 1 ++ c.extractLsb' 5 2 ++ c.extractLsb' 2 1 ++ c.extractLsb' 10 2 ++
    c.extractLsb' 3 2

end Fields

/-- Quadrant 0. -/
def expandQ0 (c : BitVec 16) : Option Instr :=
  match c.extractLsb' 13 3 with
  | 0b000 => -- C.ADDI4SPN
    if immAddi4spn c = 0 then none
    else some (.opImm .addi (rvcRs2' c) 2 ((immAddi4spn c).setWidth 12))
  | 0b010 => some (.load .lw (rvcRs2' c) (rvcRs1' c) ((immCLW c).setWidth 12))
  | 0b011 => some (.load .ld (rvcRs2' c) (rvcRs1' c) ((immCLD c).setWidth 12))
  | 0b110 => some (.store .sw (rvcRs1' c) (rvcRs2' c) ((immCLW c).setWidth 12))
  | 0b111 => some (.store .sd (rvcRs1' c) (rvcRs2' c) ((immCLD c).setWidth 12))
  | _ => none

/-- The CB and CA formats of quadrant 1. -/
def expandMiscAlu (c : BitVec 16) : Option Instr :=
  match c.extractLsb' 10 2 with
  | 0b00 => some (.shiftImm .srli (rvcRs1' c) (rvcRs1' c) (immCI c))
  | 0b01 => some (.shiftImm .srai (rvcRs1' c) (rvcRs1' c) (immCI c))
  | 0b10 => some (.opImm .andi (rvcRs1' c) (rvcRs1' c) ((immCI c).signExtend 12))
  | 0b11 =>
    match c.getLsbD 12, c.extractLsb' 5 2 with
    | false, 0b00 => some (.opReg .sub (rvcRs1' c) (rvcRs1' c) (rvcRs2' c))
    | false, 0b01 => some (.opReg .xor (rvcRs1' c) (rvcRs1' c) (rvcRs2' c))
    | false, 0b10 => some (.opReg .or (rvcRs1' c) (rvcRs1' c) (rvcRs2' c))
    | false, 0b11 => some (.opReg .and (rvcRs1' c) (rvcRs1' c) (rvcRs2' c))
    | true, 0b00 => some (.opRegW .subw (rvcRs1' c) (rvcRs1' c) (rvcRs2' c))
    | true, 0b01 => some (.opRegW .addw (rvcRs1' c) (rvcRs1' c) (rvcRs2' c))
    | _, _ => none
  | _ => none

/-- Quadrant 1. -/
def expandQ1 (c : BitVec 16) : Option Instr :=
  match c.extractLsb' 13 3 with
  | 0b000 => some (.opImm .addi (rvcRd c) (rvcRd c) ((immCI c).signExtend 12)) -- C.NOP, C.ADDI
  | 0b001 => -- C.ADDIW
    if rvcRd c = 0 then none
    else some (.addiw (rvcRd c) (rvcRd c) ((immCI c).signExtend 12))
  | 0b010 => some (.opImm .addi (rvcRd c) 0 ((immCI c).signExtend 12)) -- C.LI
  | 0b011 =>
    if immCI c = 0 then none
    else if rvcRd c = 2 then some (.opImm .addi 2 2 ((immAddi16sp c).signExtend 12)) -- C.ADDI16SP
    else some (.lui (rvcRd c) ((immCI c).signExtend 20)) -- C.LUI
  | 0b100 => expandMiscAlu c
  | 0b101 => some (.jal 0 ((offsetCJ c).signExtend 20)) -- C.J
  | 0b110 => some (.branch .beq (rvcRs1' c) 0 ((offsetCB c).signExtend 12)) -- C.BEQZ
  | 0b111 => some (.branch .bne (rvcRs1' c) 0 ((offsetCB c).signExtend 12)) -- C.BNEZ
  | _ => none

/-- The CR format of quadrant 2. -/
def expandCR (c : BitVec 16) : Option Instr :=
  match c.getLsbD 12 with
  | false =>
    if rvcRs2 c ≠ 0 then some (.opReg .add (rvcRd c) 0 (rvcRs2 c)) -- C.MV
    else if rvcRd c ≠ 0 then some (.jalr 0 (rvcRd c) 0) -- C.JR
    else none
  | true =>
    if rvcRs2 c ≠ 0 then some (.opReg .add (rvcRd c) (rvcRd c) (rvcRs2 c)) -- C.ADD
    else if rvcRd c ≠ 0 then some (.jalr 1 (rvcRd c) 0) -- C.JALR
    else some .ebreak -- C.EBREAK

/-- Quadrant 2. -/
def expandQ2 (c : BitVec 16) : Option Instr :=
  match c.extractLsb' 13 3 with
  | 0b000 => some (.shiftImm .slli (rvcRd c) (rvcRd c) (immCI c)) -- C.SLLI
  | 0b010 =>
    if rvcRd c = 0 then none else some (.load .lw (rvcRd c) 2 ((immLwsp c).setWidth 12)) -- C.LWSP
  | 0b011 =>
    if rvcRd c = 0 then none else some (.load .ld (rvcRd c) 2 ((immLdsp c).setWidth 12)) -- C.LDSP
  | 0b100 => expandCR c
  | 0b110 => some (.store .sw 2 (rvcRs2 c) ((immSwsp c).setWidth 12)) -- C.SWSP
  | 0b111 => some (.store .sd 2 (rvcRs2 c) ((immSdsp c).setWidth 12)) -- C.SDSP
  | _ => none

/-- The base instruction a parcel expands to; `none` for a reserved or floating
    point encoding, and for the first half of a longer instruction. -/
def rvcExpand (c : BitVec 16) : Option Instr :=
  match c.extractLsb' 0 2 with
  | 0b00 => expandQ0 c
  | 0b01 => expandQ1 c
  | 0b10 => expandQ2 c
  | _ => none

end RvEmu.Isa
