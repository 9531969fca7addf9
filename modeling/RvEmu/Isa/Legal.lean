import RvEmu.Isa.Rvc

/-!
# Legal encodings

Which words and parcels are instructions of RV64IMAC with Zicsr and Zifencei, or MRET,
SRET, WFI or SFENCE.VMA, by the opcode tables of the ISA manual. Hints are
instructions, and so is a FENCE or FENCE.I with any other fields, and a CSR instruction with
any CSR number.
-/

namespace RvEmu.Isa

/-- The legal fields `funct3`, `funct7` and `rs2` of an opcode, bits 6:2. -/
def legalFields (opcode : BitVec 5) (funct3 : BitVec 3) (funct7 : BitVec 7) (rs2 : BitVec 5) :
    Bool :=
  match opcode with
  | 0b00000 => funct3 != 0b111 -- LOAD
  | 0b00011 => funct3 == 0b000 || funct3 == 0b001 -- MISC-MEM
  | 0b00100 => -- OP-IMM
    match funct3 with
    | 0b001 => funct7.extractLsb' 1 6 == 0b000000
    | 0b101 => funct7.extractLsb' 1 6 == 0b000000 || funct7.extractLsb' 1 6 == 0b010000
    | _ => true
  | 0b00101 => true -- AUIPC
  | 0b00110 => -- OP-IMM-32
    match funct3 with
    | 0b000 => true
    | 0b001 => funct7 == 0b0000000
    | 0b101 => funct7 == 0b0000000 || funct7 == 0b0100000
    | _ => false
  | 0b01000 => funct3 < 0b100 -- STORE
  | 0b01011 => -- AMO
    (funct3 == 0b010 || funct3 == 0b011) &&
      match funct7.extractLsb' 2 5 with
      | 0b00010 => rs2 == 0 -- LR
      | 0b00000 | 0b00001 | 0b00011 | 0b00100 | 0b01000 | 0b01100 => true
      | 0b10000 | 0b10100 | 0b11000 | 0b11100 => true
      | _ => false
  | 0b01100 => -- OP
    match funct7 with
    | 0b0000000 | 0b0000001 => true
    | 0b0100000 => funct3 == 0b000 || funct3 == 0b101
    | _ => false
  | 0b01101 => true -- LUI
  | 0b01110 => -- OP-32
    match funct7 with
    | 0b0000000 => funct3 == 0b000 || funct3 == 0b001 || funct3 == 0b101
    | 0b0000001 => funct3 == 0b000 || 0b100 ≤ funct3
    | 0b0100000 => funct3 == 0b000 || funct3 == 0b101
    | _ => false
  | 0b11000 => funct3 != 0b010 && funct3 != 0b011 -- BRANCH
  | 0b11001 => funct3 == 0b000 -- JALR
  | 0b11011 => true -- JAL
  | 0b11100 => funct3 != 0b000 && funct3 != 0b100 -- CSR instructions
  | _ => false

/-- The SYSTEM instructions that access no CSR. -/
def systemWord (w : BitVec 32) : Bool :=
  w == 0x00000073 || -- ECALL
  w == 0x00100073 || -- EBREAK
  w == 0x30200073 || -- MRET
  w == 0x10200073 || -- SRET
  w == 0x10500073 || -- WFI
  (w &&& 0xFE007FFF == 0x12000073) -- SFENCE.VMA

/-- The legal 32-bit words. -/
def legalWord (w : BitVec 32) : Bool :=
  w.extractLsb' 0 2 == 0b11 &&
    (systemWord w ||
      legalFields (w.extractLsb' 2 5) (w.extractLsb' 12 3) (w.extractLsb' 25 7)
        (w.extractLsb' 20 5))

/-- The word, or its lower parcel if that is not the start of a 32-bit word, is no
    instruction. -/
def Illegal (w : BitVec 32) : Prop :=
  if w.extractLsb' 0 2 = 0b11 then legalWord w = false
  else rvcExpand (w.extractLsb' 0 16) = none

instance (w : BitVec 32) : Decidable (Illegal w) :=
  inferInstanceAs (Decidable (if w.extractLsb' 0 2 = 0b11 then legalWord w = false
    else rvcExpand (w.extractLsb' 0 16) = none))

/-! ## The base -/

section Formats

variable (funct7 : BitVec 7) (rs2 rs1 rd : BitVec 5) (funct3 : BitVec 3) (opcode : BitVec 7)

theorem encR_length : (encR funct7 rs2 rs1 funct3 rd opcode).extractLsb' 0 2 =
    opcode.extractLsb' 0 2 := by
  apply BitVec.eq_of_getLsbD_eq
  intro i hi
  simp only [BitVec.getLsbD_extractLsb', encR_getLsbD]
  grind

/-- An R format word is legal if its fields are. -/
theorem legalWord_encR (hlen : opcode.extractLsb' 0 2 = 0b11)
    (h : legalFields (opcode.extractLsb' 2 5) funct3 funct7 rs2 = true) :
    legalWord (encR funct7 rs2 rs1 funct3 rd opcode) = true := by
  unfold legalWord
  rw [encR_length, hlen, encR_op, encR_funct3, encR_funct7, encR_rs2, h, Bool.or_true]
  rfl

/-- The fields of an I format word are checked up to its immediate. -/
theorem legalWord_encI (imm : BitVec 12) (hlen : opcode.extractLsb' 0 2 = 0b11)
    (h : legalFields (opcode.extractLsb' 2 5) funct3 (imm.extractLsb' 5 7)
      (imm.extractLsb' 0 5) = true) :
    legalWord (encI imm rs1 funct3 rd opcode) = true := by
  rw [encI_eq_encR]
  exact legalWord_encR _ _ _ _ _ _ hlen h

end Formats

/-- The upper bits of a 64-bit shift immediate. -/
theorem shiftImm_funct (funct : BitVec 6) (shamt : BitVec 6) :
    ((funct ++ shamt).extractLsb' 5 7).extractLsb' 1 6 = funct := by
  apply BitVec.eq_of_getLsbD_eq
  intro i hi
  simp only [BitVec.getLsbD_extractLsb', BitVec.getLsbD_append]
  grind

/-- The upper bits of a 32-bit shift immediate. -/
theorem shiftImmW_funct (funct : BitVec 7) (shamt : BitVec 5) :
    (funct ++ shamt).extractLsb' 5 7 = funct := by
  apply BitVec.eq_of_getLsbD_eq
  intro i hi
  simp only [BitVec.getLsbD_extractLsb', BitVec.getLsbD_append]
  grind

/-- The instructions of the base are legal. -/
theorem legalWord_encode (i : Instr) : legalWord i.encode = true := by
  cases i with
  | lui rd imm =>
    rw [Instr.encode, encU_eq_encR]
    exact legalWord_encR _ _ _ _ _ _ rfl rfl
  | auipc rd imm =>
    rw [Instr.encode, encU_eq_encR]
    exact legalWord_encR _ _ _ _ _ _ rfl rfl
  | jal rd offset =>
    rw [Instr.encode, encJ, encU_eq_encR]
    exact legalWord_encR _ _ _ _ _ _ rfl rfl
  | jalr rd rs1 imm => exact legalWord_encI _ _ _ _ _ rfl rfl
  | branch op rs1 rs2 offset =>
    refine legalWord_encR _ _ _ _ _ _ rfl ?_
    cases op <;> rfl
  | opImm op rd rs1 imm =>
    refine legalWord_encI _ _ _ _ _ rfl ?_
    cases op <;> rfl
  | shiftImm op rd rs1 shamt =>
    refine legalWord_encI _ _ _ _ _ rfl ?_
    show legalFields 0b00100 op.funct3 _ _ = true
    cases op with
    | slli => exact beq_iff_eq.mpr (shiftImm_funct _ shamt)
    | srli => exact Bool.or_eq_true_iff.mpr (.inl (beq_iff_eq.mpr (shiftImm_funct _ shamt)))
    | srai => exact Bool.or_eq_true_iff.mpr (.inr (beq_iff_eq.mpr (shiftImm_funct _ shamt)))
  | addiw rd rs1 imm => exact legalWord_encI _ _ _ _ _ rfl rfl
  | shiftImmW op rd rs1 shamt =>
    refine legalWord_encI _ _ _ _ _ rfl ?_
    rw [shiftImmW_funct]
    cases op <;> rfl
  | opReg op rd rs1 rs2 =>
    refine legalWord_encR _ _ _ _ _ _ rfl ?_
    cases op <;> rfl
  | opRegW op rd rs1 rs2 =>
    refine legalWord_encR _ _ _ _ _ _ rfl ?_
    cases op <;> rfl
  | load op rd rs1 imm =>
    refine legalWord_encI _ _ _ _ _ rfl ?_
    cases op <;> rfl
  | store op rs1 rs2 imm =>
    refine legalWord_encR _ _ _ _ _ _ rfl ?_
    cases op <;> rfl
  | ebreak => rfl

end RvEmu.Isa
