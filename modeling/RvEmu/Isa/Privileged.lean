import Mathlib.Logic.Function.Basic

/-!
# The privileged architecture

What the RISC-V privileged specification says about interrupts and about the
supervisor's view of machine-level CSRs, stated without reference to the
emulator.
-/

namespace RvEmu.Isa

/-- The standard interrupts. -/
inductive StdInt where
  | ssoft | msoft | stime | mtime | sext | mext
  deriving DecidableEq, Repr

/-- The cause number, which is also the bit of `mip`, `mie` and `mideleg`. -/
def StdInt.cause : StdInt → Nat
  | .ssoft => 1 | .msoft => 3 | .stime => 5 | .mtime => 7 | .sext => 9 | .mext => 11

/-- The interrupts of the supervisor level. -/
def StdInt.supervisor : StdInt → Bool
  | .ssoft | .stime | .sext => true
  | .msoft | .mtime | .mext => false

/-- The mode in which a pending and enabled interrupt is taken, if it is taken:
    M-mode unless it is delegated, and only where the target mode is above the
    current one or is the current one with its global enable set. -/
def intTargetMode (delegated supervisor : Bool) (privmode : BitVec 2) (mie sie : Bool) :
    Option (BitVec 2) :=
  if delegated then
    if supervisor && (privmode == 0 || (privmode == 1 && sie)) then some 1 else none
  else if privmode < 3 || mie then some 3 else none

/-- The CSR instructions. -/
inductive CsrOp where
  | csrrw | csrrs | csrrc | csrrwi | csrrsi | csrrci
  deriving DecidableEq, Repr

def CsrOp.funct3 : CsrOp → BitVec 3
  | .csrrw => 0b001 | .csrrs => 0b010 | .csrrc => 0b011
  | .csrrwi => 0b101 | .csrrsi => 0b110 | .csrrci => 0b111

/-- The value of the CSR after an instruction with the operand `w`; set and clear
    instructions do not write if their rs1 field is zero. -/
def CsrOp.result (op : CsrOp) (old w : BitVec 64) (rs1 : BitVec 5) : BitVec 64 :=
  match op with
  | .csrrw | .csrrwi => w
  | .csrrs | .csrrsi => if rs1 = 0 then old else old ||| w
  | .csrrc | .csrrci => if rs1 = 0 then old else old &&& ~~~w

/-- The CSRs that are restricted views of machine-level ones. -/
inductive SView where
  | sstatus | sie | sip
  deriving DecidableEq, Repr

def SView.addr : SView → BitVec 12
  | .sstatus => 0x100 | .sie => 0x104 | .sip => 0x144

/-- The bits of the machine-level CSR that the view leaves out: MIE, MPIE, MPP,
    MPRV, TVM, TW and TSR of `mstatus`; the machine-level software, timer and
    external interrupts of `mie` and `mip`. -/
def SView.hidden : SView → BitVec 64
  | .sstatus =>
    (1#64 <<< 3) ||| (1#64 <<< 7) ||| (0b11#64 <<< 11) ||| (1#64 <<< 17) ||| (1#64 <<< 20) |||
      (1#64 <<< 21) ||| (1#64 <<< 22)
  | .sie | .sip => (1#64 <<< 3) ||| (1#64 <<< 7) ||| (1#64 <<< 11)

end RvEmu.Isa
