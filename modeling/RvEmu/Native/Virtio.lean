import Mathlib.Logic.Function.Basic

/-!
# The virtio block device

`virtio_mmio_blk.cpp`: the registers of the device and their memory-mapped accesses. The
packed structures are arrays of 32-bit words here, each word a cell of its own, also behind
the end of a structure. The thread of the device does nothing yet.
-/

namespace RvEmu

/-- The globals of `virtio_mmio_blk.cpp` by word: `virtio_mmio_blk_devcfg`,
    `virtio_mmio_blk_queues` from its first element on, `vblkcfg`, and `configgen`. -/
structure VirtioState where
  devcfg : Nat → BitVec 32
  queues : Nat → BitVec 32
  vblkcfg : Nat → BitVec 32
  configgen : BitVec 32

/-- `sizeof(virtqueue)` in words -/
def virtqueueWords : Nat := 58

/-- `devfeatsel` -/
def VirtioState.devfeatsel (s : VirtioState) : BitVec 32 := s.devcfg 5

/-- `drifeatsel` -/
def VirtioState.drifeatsel (s : VirtioState) : BitVec 32 := s.devcfg 9

/-- `queuesel` -/
def VirtioState.queuesel (s : VirtioState) : BitVec 32 := s.devcfg 12

/-- The globals after `virtio_mmio_blk_init`, with the default values of the members. -/
def virtioMmioBlkInit : VirtioState where
  devcfg := fun
    | 0 => 0x74726976
    | 1 => 0x2
    | 2 => 2
    | 3 => 0x554d4551
    | _ => 0
  queues := fun _ => 0
  vblkcfg := fun _ => 0
  configgen := 0

/-- The offset in the device configuration: the feature words are selected. -/
def devcfgOffset (s : VirtioState) (offset : BitVec 64) : BitVec 64 :=
  let offset := if offset = 0x010 then offset + 2 * 4 * s.devfeatsel.setWidth 64 else offset
  if offset = 0x020 then offset + 2 * 4 * s.drifeatsel.setWidth 64 else offset

/-- `virtio_mmio_blk_r`; the caller reads the word at once. -/
def virtioMmioBlkR (offset : BitVec 64) (s : VirtioState) : BitVec 32 :=
  if offset ≤ 0x30 then s.devcfg (devcfgOffset s offset / 4).toNat
  -- interrupts and status
  else if 0x50 ≤ offset ∧ offset ≤ 0x70 then s.devcfg (offset / 4).toNat
  else if 0x34 ≤ offset ∧ offset ≤ 0xa4 then
    s.queues (virtqueueWords * s.queuesel.toNat + ((offset - 0x34) / 4).toNat)
  else if offset = 0xfc then s.configgen
  else if offset ≥ 0x100 then s.vblkcfg ((offset - 0x100) / 4).toNat
  else 0

/-- `virtio_mmio_blk_w`. The macro `SAO` divides its argument `off` without parentheses:
    `offset - 0x34 / sizeof(uint32_t)`. -/
def virtioMmioBlkW (offset : BitVec 64) (data : BitVec 32) (s : VirtioState) : VirtioState :=
  let low := offset ≤ 0x30
  let offset := if low then devcfgOffset s offset else offset
  let s := if low then
      { s with devcfg := Function.update s.devcfg (offset / 4).toNat data }
    else s
  -- interrupts and status
  let s := if 0x50 ≤ offset ∧ offset ≤ 0x70 then
      { s with devcfg := Function.update s.devcfg (offset / 4).toNat data }
    else s
  let s := if 0x34 ≤ offset ∧ offset ≤ 0xa4 then
      { s with
        queues := Function.update s.queues
          (virtqueueWords * s.queuesel.toNat + (offset - 0x34 / 4).toNat) data }
    else s
  if offset ≥ 0x100 then
    { s with vblkcfg := Function.update s.vblkcfg (offset - 0x100 / 4).toNat data }
  else s

end RvEmu
