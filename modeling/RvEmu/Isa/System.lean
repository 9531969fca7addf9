import RvEmu.Isa.Rv64i
import RvEmu.Isa.Privileged

/-!
# Privileged instructions

The instructions whose legality depends on the mode and on the virtualisation
bits TSR, TW and TVM of `mstatus`.
-/

namespace RvEmu.Isa

/-- MRET, SRET, WFI, SFENCE.VMA and the CSR instructions on `satp`. -/
inductive PrivInst where
  | mret
  | sret
  | wfi
  | sfenceVma (rs1 rs2 : BitVec 5)
  | satp (op : CsrOp) (rd rs1 : BitVec 5)
  deriving DecidableEq, Repr

namespace PrivInst

def encode : PrivInst → BitVec 32
  | mret => 0x30200073
  | sret => 0x10200073
  | wfi => 0x10500073
  | sfenceVma rs1 rs2 => encR 0b0001001 rs2 rs1 0b000 0 0b1110011
  | satp op rd rs1 => encI 0x180 rs1 op.funct3 rd 0b1110011

/-- Whether the instruction is illegal, from the mode and the three bits. -/
def illegal (i : PrivInst) (privmode : BitVec 2) (tsr tw tvm : Bool) : Bool :=
  match i with
  | mret => privmode < 3
  | sret => privmode == 0 || (privmode == 1 && tsr)
  | wfi => privmode < 3 && tw
  | sfenceVma _ _ | satp _ _ _ => privmode == 0 || (privmode == 1 && tvm)

end PrivInst

end RvEmu.Isa
