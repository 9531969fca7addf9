import RvEmu.Native.State

/-!
# The timer and the software interrupts

`aclint.cpp`: the MTIMER and MSWI registers, their memory-mapped accesses and the polls of
`hw_perhart_update`. The handlers use the byte offset of an access as an index; each index
is a cell of its own here, also behind the arrays.

`readtime` is the host's clock, whose answer each function takes as `now`. A pointer that a
read handler returns is dereferenced at once.
-/

namespace RvEmu

/-- The globals of `aclint.cpp`, and `mip` and `hartid` of the elements of `hartlist`, where
    `hart_init` gives each hart its index as `hartid`. -/
structure AclintState (machHartCount : BitVec 16) where
  timeStart : BitVec 64
  mtimerRegs : Nat → BitVec 64
  mswiRegs : Nat → BitVec 32
  mip : Nat → BitVec 64
  hartid : Nat → BitVec 16
  hartid_eq : ∀ i < machHartCount.toNat, hartid i = BitVec.ofNat 16 i

variable {machHartCount : BitVec 16}

/-- The index of a hart that exists is its `hartid`. -/
theorem AclintState.hartid_toNat (s : AclintState machHartCount) {i : Nat}
    (hi : i < machHartCount.toNat) : (s.hartid i).toNat = i := by
  have hcount := machHartCount.isLt
  rw [s.hartid_eq i hi, BitVec.toNat_ofNat, Nat.mod_eq_of_lt (by omega)]

/-- `aclint_mtimer_reset` -/
def aclintMtimerReset (now : BitVec 64) (s : AclintState machHartCount) :
    AclintState machHartCount :=
  { s with timeStart := now }

/-- `aclint_mtimer_init`: the registers at their maximum do not trigger until requested. -/
def aclintMtimerInit (now : BitVec 64) (s : AclintState machHartCount) :
    AclintState machHartCount :=
  { aclintMtimerReset now s with
    mtimerRegs := fun i => if i < machHartCount.toNat then -1 else s.mtimerRegs i }

/-- `aclint_mtime_get`: nanoseconds to the ticks of a 10 MHz clock -/
def aclintMtimeGet (now : BitVec 64) (s : AclintState machHartCount) : BitVec 64 :=
  (now - s.timeStart) / 100

/-- `aclint_mtimer_chk`, on `hartlist[i]` -/
def aclintMtimerChk (now : BitVec 64) (i : Nat) (s : AclintState machHartCount) :
    AclintState machHartCount :=
  { s with
    mip := Function.update s.mip i
      (if s.mtimerRegs (s.hartid i).toNat ≤ aclintMtimeGet now s then s.mip i ||| 1#64 <<< 7
      else s.mip i &&& ~~~(1#64 <<< 7)) }

/-- `aclint_mtimer_r` -/
def aclintMtimerR (now offset : BitVec 64) (s : AclintState machHartCount) : BitVec 64 :=
  if offset = 0x7ff8 then aclintMtimeGet now s else s.mtimerRegs offset.toNat

/-- `aclint_mtimer_w` -/
def aclintMtimerW (now offset data : BitVec 64) (s : AclintState machHartCount) :
    AclintState machHartCount :=
  if offset = 0x7ff8 then { s with timeStart := now - data * 100 }
  else
    -- mtimecmp updated, check if the interrupt is still pending
    aclintMtimerChk now offset.toNat
      { s with mtimerRegs := Function.update s.mtimerRegs offset.toNat data }

/-- `aclint_mswi_r` -/
def aclintMswiR (offset : BitVec 64) (s : AclintState machHartCount) : BitVec 32 :=
  s.mswiRegs offset.toNat

/-- `aclint_mswi_w` -/
def aclintMswiW (offset data : BitVec 64) (s : AclintState machHartCount) :
    AclintState machHartCount :=
  { s with mswiRegs := Function.update s.mswiRegs offset.toNat ((data &&& 0b1).setWidth 32) }

/-- `aclint_mswi_chk`, on `hartlist[i]` -/
def aclintMswiChk (i : Nat) (s : AclintState machHartCount) : AclintState machHartCount :=
  if s.mswiRegs (s.hartid i).toNat ≠ 0 then
    { s with mip := Function.update s.mip i (s.mip i ||| 1#64 <<< 3) }
  else s

/-- `hw_perhart_update`, on `hartlist[i]` -/
def hwPerhartUpdate (now : BitVec 64) (i : Nat) (s : AclintState machHartCount) :
    AclintState machHartCount :=
  aclintMswiChk i (aclintMtimerChk now i s)

end RvEmu
