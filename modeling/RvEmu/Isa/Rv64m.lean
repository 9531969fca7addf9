import RvEmu.Isa.Rv64i

/-!
# The M extension

Encoding and meaning of multiplication and division, as the unprivileged ISA
manual gives them and without reference to the emulator.
-/

namespace RvEmu.Isa

/-! ## Multiplication -/

inductive MulOp where
  | mul | mulh | mulhsu | mulhu | mulw
  deriving DecidableEq, Repr

def MulOp.funct3 : MulOp → BitVec 3
  | .mul => 0b000 | .mulh => 0b001 | .mulhsu => 0b010 | .mulhu => 0b011 | .mulw => 0b000

/-- The opcode OP, and OP-32 for the word instruction. -/
def MulOp.opcode : MulOp → BitVec 7
  | .mulw => 0b0111011
  | .mul | .mulh | .mulhsu | .mulhu => 0b0110011

def MulOp.encode (op : MulOp) (rd rs1 rs2 : BitVec 5) : BitVec 32 :=
  encR 0b0000001 rs2 rs1 op.funct3 rd op.opcode

/-- The high part of a product: its floor after division by `2^64`. -/
def high (product : Int) : Int := product / 0x10000000000000000

/-- `v` is the part of the mathematical product that the instruction is to give: the low
    64 bits, the high 64 bits read with the sign of the product, or the low 32 bits of the
    product of the low halves, sign-extended. -/
def MulOp.Exact (op : MulOp) (a b v : BitVec 64) : Prop :=
  match op with
  | .mul => v = BitVec.ofInt 64 (a.toInt * b.toInt)
  | .mulh => v.toInt = high (a.toInt * b.toInt)
  | .mulhsu => v.toInt = high (a.toInt * b.toNat)
  | .mulhu => (v.toNat : Int) = high (a.toNat * b.toNat)
  | .mulw =>
    v = (BitVec.ofInt 32 ((a.setWidth 32).toInt * (b.setWidth 32).toInt)).signExtend 64

/-! ## Division -/

inductive DivOp where
  | div | divu | rem | remu
  deriving DecidableEq, Repr

def DivOp.funct3 : DivOp → BitVec 3
  | .div => 0b100 | .divu => 0b101 | .rem => 0b110 | .remu => 0b111

/-- The encoding, of the word instruction if `word` is set. -/
def DivOp.encode (op : DivOp) (word : Bool) (rd rs1 rs2 : BitVec 5) : BitVec 32 :=
  encR 0b0000001 rs2 rs1 op.funct3 rd (if word then 0b0111011 else 0b0110011)

/-- The operands of the signed division that overflows. -/
def DivOverflow {w : Nat} (a b : BitVec w) : Prop := a = BitVec.intMin w ∧ b = -1

instance {w : Nat} (a b : BitVec w) : Decidable (DivOverflow a b) :=
  inferInstanceAs (Decidable (_ ∧ _))

/-- Quotients round towards zero, and a remainder has the sign of the dividend. Division by
    zero gives all ones as the quotient and the dividend as the remainder; signed overflow
    gives the dividend as the quotient and zero as the remainder. -/
def DivOp.eval {w : Nat} (op : DivOp) (a b : BitVec w) : BitVec w :=
  match op with
  | .div =>
    if b = 0 then BitVec.allOnes w
    else if DivOverflow a b then a
    else BitVec.ofInt w (a.toInt.tdiv b.toInt)
  | .divu => if b = 0 then BitVec.allOnes w else BitVec.ofNat w (a.toNat / b.toNat)
  | .rem =>
    if b = 0 then a
    else if DivOverflow a b then 0
    else BitVec.ofInt w (a.toInt.tmod b.toInt)
  | .remu => if b = 0 then a else BitVec.ofNat w (a.toNat % b.toNat)

/-- The value of a division: a word instruction divides the low halves and sign-extends. -/
def DivOp.value (op : DivOp) (word : Bool) (a b : BitVec 64) : BitVec 64 :=
  if word then (op.eval (a.setWidth 32) (b.setWidth 32)).signExtend 64 else op.eval a b

end RvEmu.Isa
