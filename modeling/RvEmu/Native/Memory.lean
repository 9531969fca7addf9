import RvEmu.Native.Pmp

/-!
# Physical memory access

The memory map, `phy_mem_fetch` / `phy_mem_store`, and the PMP-checked
`mem_fetch` / `mem_store` (`mem.h`, `mem.ipp`, `mem.cpp`). The template
parameter is a `Width`; a value is carried zero-extended to 64 bits.
-/

namespace RvEmu

variable {δ : Type}

/-- The types `T` the accessors are instantiated at. -/
inductive Width where
  | u8 | u16 | u32 | u64
  deriving DecidableEq, Repr

/-- `sizeof(T)` -/
def Width.bytes : Width → Nat
  | .u8 => 1 | .u16 => 2 | .u32 => 4 | .u64 => 8

/-- Truncation to `T`. -/
def Width.trunc (w : Width) (v : BitVec 64) : BitVec 64 :=
  (v.setWidth (8 * w.bytes)).setWidth 64

/-- Sign extension from the signed counterpart of `T`. -/
def Width.sext (w : Width) (v : BitVec 64) : BitVec 64 :=
  (v.setWidth (8 * w.bytes)).signExtend 64

/-- `n` bytes of memory from `addr` on, little-endian. -/
def loadLe (mem : BitVec 64 → BitVec 8) (addr : BitVec 64) : Nat → BitVec 64
  | 0 => 0
  | n + 1 => (mem addr).setWidth 64 ||| (loadLe mem (addr + 1) n <<< 8)

/-- Memory after storing the low `n` bytes of `data` at `addr`, little-endian. -/
def storeLe (mem : BitVec 64 → BitVec 8) (addr data : BitVec 64) (n : Nat) :
    BitVec 64 → BitVec 8 :=
  fun a => if (a - addr).toNat < n then (data >>> (8 * (a - addr).toNat)).setWidth 8 else mem a

/-- `Memmap_Entry` -/
structure MemmapEntry where
  base : BitVec 64
  size : BitVec 64
  handler : Device

/-- `MAX_DTB_SIZE` -/
def maxDtbSize : BitVec 64 := 32768

/-- `mem_map` -/
def memMap : List MemmapEntry := [
  ⟨0x10001000, 0x1000, .virtioMmioBlk⟩,
  ⟨0x10000000, 16, .uart⟩,
  ⟨0xC000000, 0x4000000, .plic⟩,
  ⟨0x2004000, 0x8000, .aclintMtimer⟩,
  ⟨0x2000000, 0x4000, .aclintMswi⟩,
  ⟨0x1100, maxDtbSize, .dtb⟩]

/-- `0 <= offset && offset < size`, on the signed offset. -/
def MemmapEntry.matches (e : MemmapEntry) (addr : BitVec 64) : Bool :=
  (0#64).sle (addr - e.base) && (addr - e.base).slt e.size

/-- `boot_rom_content` -/
def bootRomContent : List (BitVec 8) := [
  0x13, 0x04, 0x10, 0x00, -- addi x8, x0, 1
  0x13, 0x14, 0xf4, 0x01, -- slli x8, x8, 31
  0x67, 0x00, 0x04, 0x00] -- jalr x0, x8, 0x0

/-- The bytes from the boot ROM on, as seen by a read that starts inside it. -/
def bootRomByte (env : Env δ) (addr : BitVec 64) : BitVec 8 :=
  bootRomContent.getD (addr - 0x1000).toNat (env.romOverrun addr)

/-- `phy_mem_fetch<T>` -/
def phyMemFetch (env : Env δ) (w : Width) (s : Sys δ) (addr : BitVec 64) : BitVec 64 × Sys δ :=
  if addr ≥ 0x80000000 then (loadLe s.bus.mainMem addr w.bytes, s)
  else
    match memMap.reverse.find? (·.matches addr) with
    | some e =>
      let r := env.handlerR e.handler (addr - e.base) w.bytes s.bus.dev
      (w.trunc r.1, { s with bus := { s.bus with dev := r.2 } })
    | none =>
      if 0x1000 ≤ addr ∧ addr < 0x1000 + 12 then (loadLe (bootRomByte env) addr w.bytes, s)
      else (0xFF, s)

/-- `phy_mem_store<T>`. The handlers see the `mip` of every hart, the running
    one's included. -/
def phyMemStore (env : Env δ) (w : Width) (s : Sys δ) (addr data : BitVec 64) : Sys δ :=
  if addr ≥ 0x80000000 then
    { s with bus := { s.bus with mainMem := storeLe s.bus.mainMem addr data w.bytes } }
  else
    match memMap.find? (·.matches addr) with
    | some e =>
      let mips := Function.update s.bus.peerMip s.hs.hartid s.hs.csr.mip
      let r := env.handlerW e.handler (addr - e.base) (w.trunc data) w.bytes s.bus.dev mips
      { hs := { s.hs with csr := { s.hs.csr with mip := r.2 s.hs.hartid } }
        bus := { s.bus with dev := r.1, peerMip := r.2 } }
    | none => s -- the boot ROM is unwritable

/-- The lowest page and everything past RAM fault. -/
def outOfRange (env : Env δ) (addr : BitVec 64) : Bool :=
  addr < 0x1000 || addr ≥ 0x80000000 + env.machMemSize

/-- The PMP tests of the template `mem_fetch`. `hs.memStatus` tells a load (true) from an
    instruction fetch (false). -/
def templateRefusesFetch (w : Width) (hs : HartState) (addr : BitVec 64) : Bool :=
  let pmpState := chkPmpRangeExp hs.pmp hs.privmode addr (addr + BitVec.ofNat 64 w.bytes - 1)
  pmpState == 0xF7 ||
  (pmpState == 0xFF && hs.privmode < 3) ||
  (hs.memStatus && !pmpState.getLsbD 0) ||
  !(hs.memStatus || pmpState.getLsbD 2)

/-- The PMP tests of the template `mem_store`. -/
def templateRefusesStore (w : Width) (hs : HartState) (addr : BitVec 64) : Bool :=
  let pmpState := chkPmpRangeExp hs.pmp hs.privmode addr (addr + BitVec.ofNat 64 w.bytes - 1)
  pmpState == 0xF7 ||
  (pmpState == 0xFF && hs.privmode < 3) ||
  !pmpState.getLsbD 1

/-- The PMP tests of `mem_fetch<T>`; the one-byte specialisation has its own. -/
def pmpRefusesFetch (w : Width) (hs : HartState) (addr : BitVec 64) : Bool :=
  match w with
  | .u8 =>
    let pmpState := chkPmpExp hs.pmp hs.privmode addr
    (pmpState == 0xFFF0 && hs.privmode ≤ 1) ||
    (hs.memStatus && !pmpState.getLsbD 6) ||
    !(hs.memStatus || pmpState.getLsbD 8)
  | _ => templateRefusesFetch w hs addr

/-- The PMP tests of `mem_store<T>`. -/
def pmpRefusesStore (w : Width) (hs : HartState) (addr : BitVec 64) : Bool :=
  match w with
  | .u8 =>
    let pmpState := chkPmpExp hs.pmp hs.privmode addr
    (pmpState == 0xFFF0 && hs.privmode ≤ 1) || !pmpState.getLsbD 7
  | _ => templateRefusesStore w hs addr

/-- The template `mem_fetch`, which `mem_fetch<uint8_t>` specialises. -/
def memFetchTemplate (env : Env δ) (w : Width) (s : Sys δ) (addr : BitVec 64) :
    BitVec 64 × Sys δ :=
  if outOfRange env addr || templateRefusesFetch w s.hs addr then (0, s.setMemStatus true)
  else phyMemFetch env w (s.setMemStatus false) addr

/-- The template `mem_store`, which `mem_store<uint8_t>` specialises. -/
def memStoreTemplate (env : Env δ) (w : Width) (s : Sys δ) (addr data : BitVec 64) : Sys δ :=
  if outOfRange env addr || templateRefusesStore w s.hs addr then s.setMemStatus true
  else phyMemStore env w (s.setMemStatus false) addr data

/-- `mem_fetch<T>` -/
def memFetch (env : Env δ) (w : Width) (s : Sys δ) (addr : BitVec 64) : BitVec 64 × Sys δ :=
  if outOfRange env addr || pmpRefusesFetch w s.hs addr then (0, s.setMemStatus true)
  else phyMemFetch env w (s.setMemStatus false) addr

/-- `mem_store<T>` -/
def memStore (env : Env δ) (w : Width) (s : Sys δ) (addr data : BitVec 64) : Sys δ :=
  if outOfRange env addr || pmpRefusesStore w s.hs addr then s.setMemStatus true
  else phyMemStore env w (s.setMemStatus false) addr data

end RvEmu
