import Mathlib.Logic.Function.Basic

/-!
# Trap entry in the privileged architecture

The CSRs that a trap to one privilege level uses, and what entering the trap
does to them.
-/

namespace RvEmu.Isa

/-- The levels that traps are taken to. -/
inductive TrapLevel where
  | supervisor | machine
  deriving DecidableEq, Repr

def TrapLevel.mode : TrapLevel → BitVec 2
  | .supervisor => 1 | .machine => 3

def TrapLevel.other : TrapLevel → TrapLevel
  | .supervisor => .machine | .machine => .supervisor

theorem TrapLevel.mode_injective : Function.Injective TrapLevel.mode := by
  intro a b h
  cases a <;> cases b <;> first | rfl | exact absurd h (by decide)

/-- The cause of a trap: the interrupt bit and the exception code of `xcause`. -/
structure Cause where
  interrupt : Bool
  code : Nat
  deriving DecidableEq, Repr

/-- The value of `xcause`. -/
def Cause.bits (c : Cause) : BitVec 64 :=
  BitVec.ofBool c.interrupt ++ BitVec.ofNat 63 c.code

/-- Traps go to M-mode unless they are delegated, and a delegated trap is taken
    in S-mode when it arises in U- or S-mode. -/
def trapLevel (delegated : Bool) (privmode : BitVec 2) : TrapLevel :=
  if delegated && privmode ≤ 1 then .supervisor else .machine

/-- The trap CSRs of one level: `xtvec`, `xscratch`, `xepc`, `xcause`, `xtval`
    and the fields xIE, xPIE and xPP of `mstatus`. -/
@[ext] structure TrapCsrs where
  tvec : BitVec 64
  scratch : BitVec 64
  epc : BitVec 64
  cause : BitVec 64
  tval : BitVec 64
  ie : Bool
  pie : Bool
  pp : BitVec 2
  deriving DecidableEq

namespace TrapCsrs

/-- A trap from `privmode` at `pc`. -/
def enter (t : TrapCsrs) (pc : BitVec 64) (privmode : BitVec 2) (c : Cause) (tval : BitVec 64) :
    TrapCsrs :=
  { t with epc := pc, cause := c.bits, tval := tval, ie := false, pie := t.ie, pp := privmode }

/-- BASE of `xtvec`, with two zero bits below it. -/
def base (t : TrapCsrs) : BitVec 64 := t.tvec &&& ~~~0b11#64

/-- MODE of `xtvec` is Vectored; 0 is Direct and the other values are reserved. -/
def vectored (t : TrapCsrs) : Bool := t.tvec &&& 0b11#64 == 1

/-- MODE is one of the two that are defined. -/
def ModeDefined (t : TrapCsrs) : Prop := t.tvec &&& 0b11#64 = 0 ∨ t.tvec &&& 0b11#64 = 1

instance instDecidableModeDefined (t : TrapCsrs) : Decidable t.ModeDefined :=
  inferInstanceAs (Decidable (_ ∨ _))

/-- Where the handler starts: only interrupts are vectored. -/
def handler (t : TrapCsrs) (c : Cause) : BitVec 64 :=
  if c.interrupt && t.vectored then t.base + 4 * BitVec.ofNat 64 c.code else t.base

end TrapCsrs

end RvEmu.Isa
