import RvEmu.Native.Aclint
import RvEmu.Native.Cycle
import RvEmu.Native.Uart
import RvEmu.Native.Virtio

/-!
# The devices behind the memory map

The handlers of `mem_map` put together: each of them on the globals of its file, with
`hartlist[i].mip` as the one thing outside. This makes the `Env` of the hart model a
concrete one, `Host.env`, up to what the host decides.
-/

namespace RvEmu

/-- The globals of the device files, without the `mip` of the harts. The PLIC is the one the
    UART sends its interrupts to; what its `mip` holds between two uses is not looked at. -/
structure Devices where
  timeStart : BitVec 64
  mtimerRegs : Nat → BitVec 64
  mswiRegs : Nat → BitVec 32
  uart : UartState
  virtio : VirtioState
  dtbBuf : BitVec 64 → BitVec 8
  /-- How often `readtime` has been called. -/
  clockReads : Nat
  /-- What the terminal has been sent. -/
  printed : List (BitVec 8)

/-- What lies outside of the emulator: the command line settings, the clock, and the values
    that the C++ leaves to the host. -/
structure Host extends UartHost where
  machMemSize : BitVec 64
  /-- The answer to each call of `readtime`. -/
  readtime : Nat → BitVec 64
  /-- `hartlist[i].hartid` behind the last hart. -/
  hartidBehind : Nat → BitVec 16
  /-- The word behind a 32-bit register, which a 64-bit read also takes. -/
  wordBehind : Device → BitVec 64 → Devices → BitVec 32
  /-- What follows a narrow operand on the stack, which a handler for wider ones also reads. -/
  stackBehind : Device → BitVec 64 → Devices → BitVec 64
  romOverrun : BitVec 64 → BitVec 8
  intShlOverflow : BitVec 32 → Nat → BitVec 32
  u64ShlOverflow : BitVec 64 → Nat → BitVec 64

/-- The default settings of `constants.h`, on a host whose clock stands still and that finds
    zeros behind every object. -/
def Host.inert : Host where
  machHartCount := 1
  dbgFallback := false
  sigMode := false
  overrunGet s := s.inputBuffer ibufSize
  overrunPut s b := { s with inputBuffer := Function.update s.inputBuffer ibufSize b }
  machMemSize := 0x20000000
  readtime := fun _ => 0
  hartidBehind := fun _ => 0
  wordBehind := fun _ _ _ => 0
  stackBehind := fun _ _ _ => 0
  romOverrun := fun _ => 0
  intShlOverflow := fun _ _ => 0
  u64ShlOverflow := fun _ _ => 0

/-- Zeroed memory, as the allocations may find it. -/
def Devices.zero : Devices where
  timeStart := 0
  mtimerRegs := fun _ => 0
  mswiRegs := fun _ => 0
  uart := uartInit ⟨fun _ => 0, fun _ => 0, fun _ => 0, fun _ => 0, fun _ => false, 0, fun _ => 0⟩
  virtio := virtioMmioBlkInit
  dtbBuf := fun _ => 0
  clockReads := 0
  printed := []

namespace Devices

/-- The answer of `readtime` to the next call. -/
def now (host : Host) (d : Devices) : BitVec 64 := host.readtime d.clockReads

/-- `readtime` has been called. -/
def tick (d : Devices) : Devices := { d with clockReads := d.clockReads + 1 }

/-- The globals of `aclint.cpp` with the harts. -/
def aclint (host : Host) (d : Devices) (mips : BitVec 16 → BitVec 64) :
    AclintState host.machHartCount where
  timeStart := d.timeStart
  mtimerRegs := d.mtimerRegs
  mswiRegs := d.mswiRegs
  mip := fun i => mips (BitVec.ofNat 16 i)
  hartid := fun i =>
    if i < host.machHartCount.toNat then BitVec.ofNat 16 i else host.hartidBehind i
  hartid_eq := fun _ hi => if_pos hi

/-- The globals of `aclint.cpp` after a call. -/
def setAclint {machHartCount : BitVec 16} (d : Devices) (s : AclintState machHartCount) :
    Devices :=
  { d with timeStart := s.timeStart, mtimerRegs := s.mtimerRegs, mswiRegs := s.mswiRegs }

/-- The globals of `uart.cpp` and `plic.cpp` with the harts. -/
def uartWith (d : Devices) (mips : BitVec 16 → BitVec 64) : UartState :=
  { d.uart with plic := { d.uart.plic with mip := mips } }

/-- The globals of `plic.cpp` with the harts. -/
def plicWith (d : Devices) (mips : BitVec 16 → BitVec 64) : PlicState :=
  { d.uart.plic with mip := mips }

/-- The globals of `uart.cpp` and `plic.cpp` after a call. -/
def setUart (d : Devices) (u : UartState) : Devices := { d with uart := u }

/-- The globals of `plic.cpp` after a call. -/
def setPlic (d : Devices) (p : PlicState) : Devices := { d with uart := { d.uart with plic := p } }

/-- The terminal has been sent `bytes`. -/
def print (d : Devices) (bytes : List (BitVec 8)) : Devices :=
  { d with printed := d.printed ++ bytes }

end Devices

/-- `hartlist[i].mip` after a call into `aclint.cpp`. -/
def AclintState.mips {machHartCount : BitVec 16} (s : AclintState machHartCount) :
    BitVec 16 → BitVec 64 :=
  fun i => s.mip i.toNat

/-- `dtb_r`, with the `len` bytes that its caller reads. -/
def dtbR (offset : BitVec 64) (len : Nat) (dtbBuf : BitVec 64 → BitVec 8) : BitVec 64 :=
  loadLe dtbBuf offset len

/-- `dtb_w`. The cases of its switch are widths in bits, but `len` is one in bytes. -/
def dtbW (offset data : BitVec 64) (len : Nat) (dtbBuf : BitVec 64 → BitVec 8) :
    BitVec 64 → BitVec 8 :=
  match len with
  | 8 => storeLe dtbBuf offset data 1
  | 16 => storeLe dtbBuf offset data 2
  | 32 => storeLe dtbBuf offset data 4
  | 64 => storeLe dtbBuf offset data 8
  | _ => dtbBuf

namespace Host

/-- A pointer to a 32-bit register, dereferenced at up to 64 bits. -/
def wordAt (host : Host) (dev : Device) (offset : BitVec 64) (d : Devices) (v : BitVec 32) :
    BitVec 64 :=
  v.setWidth 64 ||| ((host.wordBehind dev offset d).setWidth 64 <<< 32)

/-- `*(uint64_t*)dataptr` for an operand of `len` bytes. -/
def operand (host : Host) (dev : Device) (offset data : BitVec 64) (len : Nat) (d : Devices) :
    BitVec 64 :=
  data ||| (host.stackBehind dev offset d <<< (8 * len))

/-- `handler_r` of each entry of `mem_map`, with the read of the pointer it returns. -/
def handlerR (host : Host) (dev : Device) (offset : BitVec 64) (len : Nat) (d : Devices) :
    BitVec 64 × Devices :=
  match dev with
  | .virtioMmioBlk => (host.wordAt dev offset d (virtioMmioBlkR offset d.virtio), d)
  | .uart =>
    let u := uartR host.toUartHost offset.toNat d.uart
    (u.outputByte, d.setUart u)
  | .plic =>
    let r := plicR host.machHartCount offset d.uart.plic
    (host.wordAt dev offset d r.1, d.setPlic r.2)
  | .aclintMtimer =>
    (aclintMtimerR (d.now host) offset (d.aclint host fun _ => 0),
      if offset = 0x7ff8 then d.tick else d)
  | .aclintMswi => (host.wordAt dev offset d (aclintMswiR offset (d.aclint host fun _ => 0)), d)
  | .dtb => (dtbR offset len d.dtbBuf, d)

/-- `handler_w` of each entry of `mem_map`. -/
def handlerW (host : Host) (dev : Device) (offset data : BitVec 64) (len : Nat) (d : Devices)
    (mips : BitVec 16 → BitVec 64) : Devices × (BitVec 16 → BitVec 64) :=
  let word := host.operand dev offset data len d
  match dev with
  | .virtioMmioBlk =>
    ({ d with virtio := virtioMmioBlkW offset (word.setWidth 32) d.virtio }, mips)
  | .uart =>
    let r := uartWrite host.toUartHost offset.toNat (data.setWidth 8) (d.uartWith mips)
    ((d.setUart r.2).print r.1, r.2.plic.mip)
  | .plic =>
    let p := plicW host.machHartCount offset (word.setWidth 32) (d.plicWith mips)
    (d.setPlic p, p.mip)
  | .aclintMtimer =>
    let s := aclintMtimerW (d.now host) offset word (d.aclint host mips)
    ((d.setAclint s).tick, s.mips)
  | .aclintMswi =>
    let s := aclintMswiW offset word (d.aclint host mips)
    (d.setAclint s, s.mips)
  | .dtb => ({ d with dtbBuf := dtbW offset data len d.dtbBuf }, mips)

/-- The surroundings of a hart. -/
def env (host : Host) : Env Devices where
  machMemSize := host.machMemSize
  machHartCount := host.machHartCount
  sigMode := host.sigMode
  handlerR := host.handlerR
  handlerW := host.handlerW
  aclintMtimeGet := fun d => (aclintMtimeGet (d.now host) (d.aclint host fun _ => 0), d.tick)
  romOverrun := host.romOverrun
  intShlOverflow := host.intShlOverflow
  u64ShlOverflow := host.u64ShlOverflow

end Host

/-- `hw_perhart_update`, on `hartlist[i]` -/
def Devices.hwPerhartUpdate (host : Host) (i : BitVec 16) (d : Devices)
    (mips : BitVec 16 → BitVec 64) : Devices × (BitVec 16 → BitVec 64) :=
  let s := RvEmu.hwPerhartUpdate (d.now host) i.toNat (d.aclint host mips)
  ((d.setAclint s).tick, s.mips)

/-- `hw_update`, with what the terminal has for `uart_chk` -/
def Devices.hwUpdate (host : Host) (received : Option (BitVec 8)) (d : Devices)
    (mips : BitVec 16 → BitVec 64) : Devices × (BitVec 16 → BitVec 64) :=
  let u := uartChk host.toUartHost received (d.uartWith mips)
  let p := plicChk host.machHartCount u.plic
  ({ d with uart := { u with plic := p } }, p.mip)

/-- An iteration of `uart_loop` -/
def Devices.uartLoop (host : Host) (d : Devices) (mips : BitVec 16 → BitVec 64) :
    Devices × (BitVec 16 → BitVec 64) :=
  let r := RvEmu.uartLoop host.toUartHost (d.uartWith mips)
  ((d.setUart r.2).print r.1, r.2.plic.mip)

/-- `hw_init` after `mem_init`, and the `aclint_mtimer_reset` before the harts start; `heap`
    is what the allocations find in memory. -/
def hwInit (host : Host) (heap : Devices) : Devices :=
  let s := aclintMtimerInit (host.readtime 0) (heap.aclint host fun _ => 0)
  let s := aclintMtimerReset (host.readtime 1) s
  { timeStart := s.timeStart
    mtimerRegs := s.mtimerRegs
    mswiRegs := s.mswiRegs
    uart := uartInit (plicInit host.machHartCount heap.uart.plic)
    virtio := virtioMmioBlkInit
    dtbBuf := heap.dtbBuf
    clockReads := 2
    printed := [] }

end RvEmu
