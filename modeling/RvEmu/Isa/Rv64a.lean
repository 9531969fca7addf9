import RvEmu.Isa.Rv64i

/-!
# The atomic memory operations

Encoding and meaning of the read-modify-write instructions of the A extension, as the
unprivileged ISA manual gives them and without reference to the emulator.
-/

namespace RvEmu.Isa

inductive AmoOp where
  | swap | add | xor | and | or | min | max | minu | maxu
  deriving DecidableEq, Repr

namespace AmoOp

def funct5 : AmoOp → BitVec 5
  | .swap => 0b00001 | .add => 0b00000 | .xor => 0b00100 | .and => 0b01100 | .or => 0b01000
  | .min => 0b10000 | .max => 0b10100 | .minu => 0b11000 | .maxu => 0b11100

/-- The encoding with the ordering bits `aq` and `rl`, of the word instruction if `word` is
    set. -/
def encode (op : AmoOp) (word : Bool) (aqrl : BitVec 2) (rd rs1 rs2 : BitVec 5) : BitVec 32 :=
  encR (op.funct5 ++ aqrl) rs2 rs1 (if word then 0b010 else 0b011) rd 0b0101111

/-- The value to store, from the old one in memory and the source. -/
def eval {w : Nat} (op : AmoOp) (old src : BitVec w) : BitVec w :=
  match op with
  | .swap => src
  | .add => old + src
  | .xor => old ^^^ src
  | .and => old &&& src
  | .or => old ||| src
  | .min => if old.toInt < src.toInt then old else src
  | .max => if src.toInt < old.toInt then old else src
  | .minu => if old.toNat < src.toNat then old else src
  | .maxu => if src.toNat < old.toNat then old else src

/-- The stored value at the width of the instruction: a word instruction operates on the low
    halves. -/
def stored (op : AmoOp) (word : Bool) (old src : BitVec 64) : BitVec 64 :=
  if word then (op.eval (old.setWidth 32) (src.setWidth 32)).setWidth 64 else op.eval old src

/-- What `rd` gets: the old value, sign-extended by a word instruction. -/
def result (word : Bool) (old : BitVec 64) : BitVec 64 :=
  if word then (old.setWidth 32).signExtend 64 else old

end AmoOp

end RvEmu.Isa
