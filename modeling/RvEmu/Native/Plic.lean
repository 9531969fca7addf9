import RvEmu.Native.State

/-!
# The interrupt controller

`plic.cpp`: the registers shared by all contexts, the interrupts that devices send,
and the handlers for the memory-mapped accesses. Context `2 * h` is M-mode of hart
`h`, and `2 * h + 1` its S-mode.

`plic_init` allocates fewer words for the enable registers than
`int_en_regs[0x20 * ctx + source / 32]` reaches; each index is a cell of its own here.
A `uint32_t*` that `plic_r` returns is dereferenced at once.
-/

namespace RvEmu

/-- The globals of `plic.cpp`, and `hartlist[i].mip`, which the PLIC writes. -/
structure PlicState where
  intPrioRegs : Nat → BitVec 32
  intPendRegs : Nat → BitVec 32
  intEnRegs : Nat → BitVec 32
  intPrioThres : Nat → BitVec 32
  intHandling : Nat → Bool
  highestSource : BitVec 32
  mip : BitVec 16 → BitVec 64

/-- `PLIC_SOURCE_COUNT` -/
def plicSourceCount : Nat := 16

/-- `PLIC_CTX_COUNT` -/
def plicCtxCount (machHartCount : BitVec 16) : Nat := 2 * machHartCount.toNat

/-- `plic_init`. The arrays that it does not initialise keep what the heap holds, and the
    braces of `int_en_regs` give its first word alone. -/
def plicInit (machHartCount : BitVec 16) (heap : PlicState) : PlicState :=
  { heap with
    intEnRegs := fun i =>
      if i = 0 then 0xFFFFFFFF
      else if i < (plicSourceCount + 31) / 32 * plicCtxCount machHartCount then 0
      else heap.intEnRegs i
    intHandling := fun i =>
      if i < plicCtxCount machHartCount then false else heap.intHandling i }

/-- `plic_find_en` -/
def plicFindEn (p : PlicState) (ctx : BitVec 16) (source : Nat) : Bool :=
  (p.intEnRegs (0x20 * ctx.toNat + source / 32)).getLsbD (source % 32)

/-- The hart of a context. -/
def ctxHart (ctx : BitVec 16) : BitVec 16 := (ctx &&& ~~~1) / 2

/-- `plic_notify_ctx`: raise the external interrupt of the context's mode. -/
def plicNotifyCtx (p : PlicState) (ctx : BitVec 16) : PlicState :=
  let mip := p.mip (ctxHart ctx)
  { p with
    mip := Function.update p.mip (ctxHart ctx)
      (if ctx.getLsbD 0 then mip ||| (1#64 <<< 9) else mip ||| (1#64 <<< 11)) }

/-- `plic_notify_finish_ctx` -/
def plicNotifyFinishCtx (p : PlicState) (ctx : BitVec 16) : PlicState :=
  let mip := p.mip (ctxHart ctx)
  { p with
    mip := Function.update p.mip (ctxHart ctx)
      (if ctx.getLsbD 0 then mip &&& ~~~(1#64 <<< 9) else mip &&& ~~~(1#64 <<< 11)) }

/-- `plic_try_int`. The 16-bit counter of the loop holds every context of up to
    32767 harts. -/
def plicTryInt (machHartCount : BitVec 16) (source : BitVec 16) (p : PlicState) : PlicState :=
  if !(p.intPendRegs (source.toNat / 32)).getLsbD (source.toNat % 32) then p
  else
    let intPrio := p.intPrioRegs source.toNat
    (List.range (plicCtxCount machHartCount)).foldl (fun p i =>
      if !p.intHandling i && p.intPrioThres i < intPrio &&
          plicFindEn p (BitVec.ofNat 16 i) source.toNat then
        plicNotifyCtx p (BitVec.ofNat 16 i)
      else p) p

/-- `plic_try_int_all` -/
def plicTryIntAll (machHartCount : BitVec 16) (p : PlicState) : PlicState :=
  (List.range plicSourceCount).foldl
    (fun p i => plicTryInt machHartCount (BitVec.ofNat 16 i) p) p

/-- `plic_chk` -/
def plicChk (machHartCount : BitVec 16) (p : PlicState) : PlicState :=
  plicTryIntAll machHartCount p

/-- `plic_send_int` -/
def plicSendInt (machHartCount : BitVec 16) (source : BitVec 16) (p : PlicState) : PlicState :=
  let regnum := source.toNat / 32
  let regbit := source.toNat % 32
  if (p.intPendRegs regnum).getLsbD regbit then p -- previous interrupt is pending
  else
    plicTryInt machHartCount source
      { p with
        intPendRegs := Function.update p.intPendRegs regnum
          (p.intPendRegs regnum ||| 1#32 <<< regbit) }

/-- `OFFSET_TO_CTX` -/
def offsetToCtx (offset : BitVec 64) : BitVec 64 := (offset >>> 12) - 0x200

/-- One round of the claim loop of `plic_r`: the highest priority so far and its source. -/
def claimStep (p : PlicState) (ctx : BitVec 16) (highest : BitVec 32 × Nat) (i : Nat) :
    BitVec 32 × Nat :=
  if p.intPrioRegs i > highest.1 then
    if plicFindEn p ctx i then (p.intPrioRegs i, i) else highest
  else highest

/-- The interrupt claim of `plic_r`. -/
def plicClaim (ctx : BitVec 64) (p : PlicState) : BitVec 32 × PlicState :=
  let highest := (List.range plicSourceCount).foldl (claimStep p (ctx.setWidth 16)) (0, 0)
  let source := highest.2
  let p := { p with highestSource := BitVec.ofNat 32 source }
  if source ≠ 0 then
    (BitVec.ofNat 32 source,
      { p with
        intHandling := Function.update p.intHandling ctx.toNat true
        intPendRegs := Function.update p.intPendRegs (source / 32)
          (p.intPendRegs (source / 32) &&& ~~~(1#32 <<< (source % 32))) })
  else (0, p)

/-- `plic_r` -/
def plicR (machHartCount : BitVec 16) (offset : BitVec 64) (p : PlicState) :
    BitVec 32 × PlicState :=
  let roffset := (offset / 4).toNat
  if roffset < plicSourceCount then (p.intPrioRegs roffset, p)
  else if 0x1000 / 4 ≤ roffset ∧ roffset < 0x1000 / 4 + (plicSourceCount + 31) / 32 then
    (p.intPendRegs (roffset - 0x1000 / 4), p)
  else if 0x2000 / 4 ≤ roffset ∧
      roffset < 0x2000 / 4 + plicCtxCount machHartCount * (1024 / 8) then
    (p.intEnRegs (roffset - 0x2000 / 4), p)
  else if offset ≥ 0x200000 ∧ offset &&& 0xFFF = 0 then
    (p.intPrioThres (offsetToCtx offset).toNat, p)
  else if offset ≥ 0x200000 ∧ offset &&& 0xFFF = 4 then plicClaim (offsetToCtx offset) p
  else (0, p)

/-- `plic_w` -/
def plicW (machHartCount : BitVec 16) (offset : BitVec 64) (data : BitVec 32) (p : PlicState) :
    PlicState :=
  let roffset := (offset / 4).toNat
  let p := if roffset < plicSourceCount then
      { p with intPrioRegs := Function.update p.intPrioRegs roffset data }
    else p
  let p := if 0x1000 / 4 ≤ roffset ∧ roffset < 0x1000 / 4 + (plicSourceCount + 31) / 32 then
      { p with intPendRegs := Function.update p.intPendRegs (roffset - 0x1000 / 4) data }
    else p
  let p := if 0x2000 / 4 ≤ roffset ∧
        roffset < 0x2000 / 4 + plicCtxCount machHartCount * 0x20 then
      -- cannot enable the non-existent interrupt 0
      { p with
        intEnRegs := Function.update p.intEnRegs (roffset - 0x2000 / 4) (data &&& ~~~1) }
    else p
  let p := if offset ≥ 0x200000 ∧ offset &&& 0xFFF = 0 then
      { p with intPrioThres := Function.update p.intPrioThres (offsetToCtx offset).toNat data }
    else p
  if offset ≥ 0x200000 ∧ offset &&& 0xFFF = 4 then -- interrupt complete
    plicNotifyFinishCtx
      { p with intHandling := Function.update p.intHandling (offsetToCtx offset).toNat false }
      ((offsetToCtx offset).setWidth 16)
  else p

end RvEmu
