import RvEmu.Native.State

/-!
# Traps

`create_exception` and `setup_pending_int` (`hartexc.cpp`).
-/

namespace RvEmu

/-- `xtvec` base, plus `4 * cause` in vectored mode. -/
def trapVector (tvec cause : BitVec 64) : BitVec 64 :=
  let pc := tvec &&& ~~~1#64
  if tvec &&& 0b11 = 1 then pc + 4 * cause else pc

/-- The S-mode branch of `create_exception`. -/
def trapToS (hs : HartState) (he : HartException) (cause tval : BitVec 64) : HartState :=
  let mstatus := (hs.csr.mstatus &&& ~~~(0b11#64 <<< 8)) ||| (hs.privmode.setWidth 64 <<< 8) -- SPP
  let mstatus := (mstatus &&& ~~~(0b1#64 <<< 5)) |||
    ((mstatus &&& (0b1#64 <<< 1)) <<< (5 - 1)) -- move SIE to SPIE
  let mstatus := mstatus &&& ~~~(0b1#64 <<< 1) -- clear SIE
  { hs with
    privmode := 0b01
    pc := trapVector hs.csr.stvec cause
    csr := { hs.csr with
      mstatus := mstatus, scause := he.toBits, sepc := hs.pc, stval := tval } }

/-- The M-mode branch of `create_exception`. -/
def trapToM (hs : HartState) (he : HartException) (cause tval : BitVec 64) : HartState :=
  let mstatus := (hs.csr.mstatus &&& ~~~(0b11#64 <<< 11)) ||| (hs.privmode.setWidth 64 <<< 11) -- MPP
  let mstatus := (mstatus &&& ~~~(0b1#64 <<< 7)) |||
    ((mstatus &&& (0b1#64 <<< 3)) <<< (7 - 3)) -- move MIE to MPIE
  let mstatus := mstatus &&& ~~~(0b1#64 <<< 3) -- clear MIE
  { hs with
    privmode := 0b11
    pc := trapVector hs.csr.mtvec cause
    csr := { hs.csr with
      mstatus := mstatus, mcause := he.toBits, mepc := hs.pc, mtval := tval } }

/-- `(uint64_t)he & (0b1LL << 63)` -/
def HartException.interrupt (he : HartException) : Bool := he.toBits.getLsbD 63

/-- `(uint64_t)he & ~(0b1LL << 63)` -/
def HartException.cause (he : HartException) : BitVec 64 := he.toBits &&& ~~~(0b1#64 <<< 63)

/-- `0b1LL << cause` -/
def HartException.intMask (he : HartException) : BitVec 64 := 0b1#64 <<< he.cause.toNat

/-- The two tests of `create_exception` for an interrupt that the current mode
    has disabled. -/
def intDisabled (hs : HartState) (he : HartException) : Bool :=
  (he.interrupt && hs.privmode == 0b11 && hs.csr.mstatus &&& (0b1#64 <<< 3) == 0) ||
  -- M-mode interrupts cannot be disabled in S-mode
  (he.interrupt && hs.privmode == 0b01 && hs.csr.mstatus &&& (0b1#64 <<< 1) == 0 &&
    he.cause != 3 && he.cause != 7 && he.cause != 11)

/-- The delegation test of `create_exception`. -/
def delegatedToS (hs : HartState) (he : HartException) : Bool :=
  (if he.interrupt then hs.csr.mideleg else hs.csr.medeleg) &&& he.intMask != 0 &&
  hs.privmode ≤ 0x1

/-- `create_exception`: the exception it created, or `NOEXC` if it is masked. -/
def createException (hs : HartState) (he : HartException) (tval : BitVec 64) :
    HartException × HartState :=
  let hs := { hs with instbuf := 0 }
  if intDisabled hs he then (.noexc, hs)
  else if delegatedToS hs he then
    if he.interrupt && hs.csr.sie &&& he.intMask == 0 then (.noexc, hs)
    else (he, trapToS hs he he.cause tval)
  else if he.interrupt && hs.csr.mie &&& he.intMask == 0 then (.noexc, hs)
  else (he, trapToM hs he he.cause tval)

/-- A sequence of `TRY_SETINT`s, each guarded by its bit of `mip`. -/
def trySetint (hs : HartState) : List (Nat × HartException) → Bool × HartState
  | [] => (false, hs)
  | (bit, x) :: rest =>
    if hs.csr.mip.getLsbD bit then
      let r := createException hs x 0
      if r.1 ≠ .noexc then (true, r.2) else trySetint r.2 rest
    else trySetint hs rest

/-- `setup_pending_int`: whether an interrupt was taken. -/
def setupPendingInt (hs : HartState) : Bool × HartState :=
  let r :=
    if (hs.csr.mstatus &&& 0b1000 ≠ 0 ∨ hs.privmode < 0b11) ∧ hs.csr.mip ≠ 0 then -- handle mip
      trySetint hs [(11, .mextint), (3, .msoftint), (7, .mtimeint),
        (9, .sextint), (1, .ssoftint), (5, .stimeint)]
    else (false, hs)
  if r.1 then r
  else if r.2.csr.mstatus &&& 0b10 ≠ 0 ∧ r.2.csr.mip ≠ 0 then -- handle sip
    trySetint r.2 [(9, .sextint), (1, .ssoftint), (5, .stimeint)]
  else r

/-- `create_exception` on the hart of a machine. -/
def Sys.createException {δ : Type} (s : Sys δ) (he : HartException) (tval : BitVec 64) :
    HartException × Sys δ :=
  let r := RvEmu.createException s.hs he tval
  (r.1, s.setHs r.2)

end RvEmu
