import Mathlib.Logic.Function.Basic

/-!
# Hart and machine state

The data model of the emulator: `HartState` with its TLB, CSRs and PMP
registers (`cpu.h`), the memory shared by the harts (`mem.h`), and what the
host supplies from outside (`Env`).

The CSRs and the PMP registers of the flat C++ struct are kept in two
sub-records, so that "no CSR changes" is one equation. Fixed-width C++ integers
are bit vectors of their width; a field that only ever receives masked values
(`privmode`, a register number) has the width of the mask.
-/

namespace RvEmu

/-- The page sizes of a TLB entry are numbered from zero. -/
instance instNeZeroTlbSizes : @NeZero Nat Zero.ofOfNat0 6 := ⟨Nat.succ_ne_zero 5⟩

/-- `PMP_COUNT` is not zero. -/
instance instNeZeroPmpCount : @NeZero Nat Zero.ofOfNat0 16 := ⟨Nat.succ_ne_zero 15⟩

/-- `TLBEntry`: `size` is the number of page table layers ignored (superpages). -/
structure TLBEntry where
  virtPage : BitVec 64
  phyPage : BitVec 64
  pteAddr : BitVec 64
  size : Fin 6
  permissions : BitVec 8
  user : Bool

/-- The zeroed entry; its empty `permissions` mark it as invalid. -/
def TLBEntry.zero : TLBEntry := ⟨0, 0, 0, 0, 0, false⟩

/-- `TLBStruct`: a hash table of `TLB_SIZE = 64` slots. -/
structure TLBStruct where
  maxEntrySize : Fin 6
  sizeCount : Fin 6 → BitVec 8
  tlbEntries : BitVec 6 → TLBEntry

/-- `ExpPMP`: one expanded PMP entry. -/
structure ExpPMP where
  enable : Bool
  lock : Bool
  lbound : BitVec 64
  ubound : BitVec 64
  lxwr : BitVec 8

/-- The zeroed expanded entry. -/
def ExpPMP.zero : ExpPMP := ⟨false, false, 0, 0, 0⟩

/-- The PMP registers and the table derived from them. -/
structure PmpState where
  pmpcfg : Fin 16 → BitVec 8
  pmpaddr : Fin 16 → BitVec 64
  pmpLockedaddr : Fin 16 → Bool
  pmpExpanded : Fin 16 → ExpPMP
  pmpAllEnabled : Bool
  minLbound : BitVec 64
  maxUbound : BitVec 64

/-- The CSRs that `HartState` stores one by one. -/
structure CsrState where
  mstatus : BitVec 64
  sstatus : BitVec 64
  medeleg : BitVec 64
  mideleg : BitVec 64
  mie : BitVec 64
  sie : BitVec 64
  mtvec : BitVec 64
  stvec : BitVec 64
  mscratch : BitVec 64
  sscratch : BitVec 64
  mepc : BitVec 64
  sepc : BitVec 64
  mcause : BitVec 64
  scause : BitVec 64
  mtval : BitVec 64
  stval : BitVec 64
  mip : BitVec 64
  mcycle : BitVec 64
  minstret : BitVec 64
  satp : BitVec 64
  misa : BitVec 64
  mhartid : BitVec 64
  cycle : BitVec 64
  instret : BitVec 64

/-- `HartState`. `regs[0]` is an ordinary cell: `cycle` zeroes it before each
    instruction. `privmode` is two bits wide, as every assignment to it is. -/
structure HartState where
  hartid : BitVec 16
  regs : BitVec 5 → BitVec 64
  pc : BitVec 64
  inst : BitVec 32
  instbuf : BitVec 16
  instLen : BitVec 8
  privmode : BitVec 2
  memStatus : Bool
  pageFault : Bool
  tlb : TLBStruct
  csr : CsrState
  pmp : PmpState
  chkInt : Bool

/-- `HartException`: the exception and interrupt causes, and `NOEXC`. -/
inductive HartException where
  | imisalign | iafault | illinst | bpoint | lmisalign | lafault | smisalign | safault
  | uecall | hsecall | vsecall | mecall | ipfault | lpfault | res2 | spfault
  | noexc
  | res3 | ssoftint | res4 | msoftint
  | res5 | stimeint | res6 | mtimeint
  | res7 | sextint | res8 | mextint
  deriving DecidableEq, Repr

namespace HartException

/-- The enumerator values of `HartException`; the sign bit marks an interrupt. -/
def toBits : HartException → BitVec 64
  | imisalign => 0 | iafault => 1 | illinst => 2 | bpoint => 3
  | lmisalign => 4 | lafault => 5 | smisalign => 6 | safault => 7
  | uecall => 8 | hsecall => 9 | vsecall => 10 | mecall => 11
  | ipfault => 12 | lpfault => 13 | res2 => 14 | spfault => 15
  | noexc => 0x8000000000000010
  | res3 => 0x8000000000000000 | ssoftint => 0x8000000000000001
  | res4 => 0x8000000000000002 | msoftint => 0x8000000000000003
  | res5 => 0x8000000000000004 | stimeint => 0x8000000000000005
  | res6 => 0x8000000000000006 | mtimeint => 0x8000000000000007
  | res7 => 0x8000000000000008 | sextint => 0x8000000000000009
  | res8 => 0x800000000000000A | mextint => 0x800000000000000B

/-- The cast `(HartException)(privmode + 8)` of the ECALL path. -/
def ofEcall (privmode : BitVec 2) : HartException :=
  if privmode = 0 then uecall
  else if privmode = 1 then hsecall
  else if privmode = 2 then vsecall
  else mecall

end HartException

/-- The devices of `mem_map`, one for each pair of handlers. -/
inductive Device where
  | virtioMmioBlk | uart | plic | aclintMtimer | aclintMswi | dtb
  deriving DecidableEq, Repr

/-- What lies outside the hart model: the command line settings, the device
    handlers over their registers `δ`, the host clock, and the values the C++
    leaves to the host where it reads past `boot_rom_content` or shifts by the
    width or more. Results hold for every `Env`. -/
structure Env (δ : Type) where
  machMemSize : BitVec 64
  machHartCount : BitVec 16
  sigMode : Bool
  /-- `handler_r(offset, len)`, dereferenced at the access width. -/
  handlerR : Device → BitVec 64 → Nat → δ → BitVec 64 × δ
  /-- `handler_w(offset, &data, len)`; the last argument is `hartlist[i].mip`,
      the one hart register that handlers write. -/
  handlerW : Device → BitVec 64 → BitVec 64 → Nat → δ → (BitVec 16 → BitVec 64) →
    δ × (BitVec 16 → BitVec 64)
  aclintMtimeGet : δ → BitVec 64 × δ
  romOverrun : BitVec 64 → BitVec 8
  intShlOverflow : BitVec 32 → Nat → BitVec 32
  u64ShlOverflow : BitVec 64 → Nat → BitVec 64

/-- The state shared by the harts. RAM is indexed by physical address;
    `peerMip` is the `mip` of the other harts in `hartlist`. -/
structure Bus (δ : Type) where
  mainMem : BitVec 64 → BitVec 8
  reservations : BitVec 16 → BitVec 64
  peerMip : BitVec 16 → BitVec 64
  dev : δ

/-- The machine as one hart sees it. -/
structure Sys (δ : Type) where
  hs : HartState
  bus : Bus δ

namespace Sys

variable {δ : Type}

/-- `hs.mem_status = b` -/
def setMemStatus (s : Sys δ) (b : Bool) : Sys δ := { s with hs := { s.hs with memStatus := b } }

/-- `hs.page_fault = b` -/
def setPageFault (s : Sys δ) (b : Bool) : Sys δ := { s with hs := { s.hs with pageFault := b } }

/-- `hs.privmode = p` -/
def setPrivmode (s : Sys δ) (p : BitVec 2) : Sys δ := { s with hs := { s.hs with privmode := p } }

/-- `hs.regs[rd] = v` -/
def setReg (s : Sys δ) (rd : BitVec 5) (v : BitVec 64) : Sys δ :=
  { s with hs := { s.hs with regs := Function.update s.hs.regs rd v } }

/-- `hs.pc = pc` -/
def setPc (s : Sys δ) (pc : BitVec 64) : Sys δ := { s with hs := { s.hs with pc := pc } }

/-- `hs.tlb = tlb` -/
def setTlb (s : Sys δ) (tlb : TLBStruct) : Sys δ := { s with hs := { s.hs with tlb := tlb } }

/-- `hs.instbuf = b` -/
def setInstbuf (s : Sys δ) (b : BitVec 16) : Sys δ := { s with hs := { s.hs with instbuf := b } }

/-- Replace the hart, leaving the shared state alone. -/
def setHs (s : Sys δ) (hs : HartState) : Sys δ := { s with hs := hs }

end Sys

/-- The default settings of `constants.h`, with devices that read as zero and
    ignore writes. -/
def Env.inert : Env Unit where
  machMemSize := 0x20000000
  machHartCount := 1
  sigMode := false
  handlerR := fun _ _ _ d => (0, d)
  handlerW := fun _ _ _ _ d mips => (d, mips)
  aclintMtimeGet := fun d => (0, d)
  romOverrun := fun _ => 0
  intShlOverflow := fun _ _ => 0
  u64ShlOverflow := fun _ _ => 0

/-- Zeroed memory and no reservations. -/
def Bus.inert : Bus Unit := ⟨fun _ => 0, fun _ => 0, fun _ => 0, ()⟩

/-- `int << n`, where a count of 32 or more is up to the host. -/
def Env.intShl {δ : Type} (env : Env δ) (x : BitVec 32) (n : Nat) : BitVec 32 :=
  if n < 32 then x <<< n else env.intShlOverflow x n

/-- `uint64_t << n`, where a count of 64 or more is up to the host. -/
def Env.u64Shl {δ : Type} (env : Env δ) (x : BitVec 64) (n : Nat) : BitVec 64 :=
  if n < 64 then x <<< n else env.u64ShlOverflow x n

end RvEmu
