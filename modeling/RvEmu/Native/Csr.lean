import RvEmu.Native.HartExc
import RvEmu.Native.Translate

/-!
# Control and status registers

`csr_from_addr`, `chk_ro0_csr`, `pmpcfg_rw` and `reset_state` (`cpu.cpp`). The
`uint64_t*` that `csr_from_addr` returns is a `CsrPtr`.
-/

namespace RvEmu

variable {δ : Type}

/-- What `csr_from_addr` can point to. -/
inductive CsrPtr where
  | mstatus | misa | medeleg | mideleg | mie | mtvec
  | mscratch | mepc | mcause | mtval | mip
  | sstatus | sie | stvec | sscratch | sepc | scause | stval | satp
  | mvendorid | marchid | mimpid | mhartid
  | pmpaddr (i : Fin 16)
  deriving DecidableEq

namespace CsrPtr

/-- `*csr_addr` -/
def get (hs : HartState) : CsrPtr → BitVec 64
  | mstatus => hs.csr.mstatus | misa => hs.csr.misa
  | medeleg => hs.csr.medeleg | mideleg => hs.csr.mideleg
  | mie => hs.csr.mie | mtvec => hs.csr.mtvec
  | mscratch => hs.csr.mscratch | mepc => hs.csr.mepc
  | mcause => hs.csr.mcause | mtval => hs.csr.mtval | mip => hs.csr.mip
  | sstatus => hs.csr.sstatus | sie => hs.csr.sie | stvec => hs.csr.stvec
  | sscratch => hs.csr.sscratch | sepc => hs.csr.sepc
  | scause => hs.csr.scause | stval => hs.csr.stval | satp => hs.csr.satp
  | mvendorid => 0 | marchid => 0 | mimpid => 0 -- globals no instruction can write
  | mhartid => hs.csr.mhartid
  | pmpaddr i => hs.pmp.pmpaddr i

/-- `*csr_addr = v` for a CSR other than `pmpaddr`. -/
def setCsr (c : CsrState) (v : BitVec 64) : CsrPtr → CsrState
  | mstatus => { c with mstatus := v } | misa => { c with misa := v }
  | medeleg => { c with medeleg := v } | mideleg => { c with mideleg := v }
  | mie => { c with mie := v } | mtvec => { c with mtvec := v }
  | mscratch => { c with mscratch := v } | mepc => { c with mepc := v }
  | mcause => { c with mcause := v } | mtval => { c with mtval := v }
  | mip => { c with mip := v }
  | sstatus => { c with sstatus := v } | sie => { c with sie := v }
  | stvec => { c with stvec := v } | sscratch => { c with sscratch := v }
  | sepc => { c with sepc := v } | scause => { c with scause := v }
  | stval => { c with stval := v } | satp => { c with satp := v }
  | mvendorid => c | marchid => c | mimpid => c
  | mhartid => { c with mhartid := v }
  | pmpaddr _ => c

/-- `*csr_addr = v` -/
def set (hs : HartState) (v : BitVec 64) (ptr : CsrPtr) : HartState :=
  match ptr with
  | pmpaddr i =>
    { hs with pmp := { hs.pmp with pmpaddr := Function.update hs.pmp.pmpaddr i v } }
  | ptr => { hs with csr := setCsr hs.csr v ptr }

end CsrPtr

/-- `csr_from_addr`; `none` is the null pointer. -/
def csrFromAddr (addr : BitVec 12) : Option CsrPtr :=
  match addr with
  | 0x300 => some .mstatus
  | 0x301 => some .misa
  | 0x302 => some .medeleg
  | 0x303 => some .mideleg
  | 0x304 => some .mie
  | 0x305 => some .mtvec
  | 0x340 => some .mscratch
  | 0x341 => some .mepc
  | 0x342 => some .mcause
  | 0x343 => some .mtval
  | 0x344 => some .mip
  | 0x100 => some .sstatus
  | 0x104 => some .sie
  | 0x105 => some .stvec
  | 0x140 => some .sscratch
  | 0x141 => some .sepc
  | 0x142 => some .scause
  | 0x143 => some .stval
  | 0x180 => some .satp
  | 0xF11 => some .mvendorid
  | 0xF12 => some .marchid
  | 0xF13 => some .mimpid
  | 0xF14 => some .mhartid
  | addr =>
    if 0x3B0 ≤ addr ∧ addr < 0x3B0 + 16 then some (.pmpaddr (Fin.ofNat 16 (addr - 0x3B0).toNat))
    else none

/-- `chk_ro0_csr` -/
def chkRo0Csr (csrno : BitVec 12) : Bool :=
  (0xB03 ≤ csrno && csrno ≤ 0xB1F) || (0x323 ≤ csrno && csrno ≤ 0x33F) || csrno == 0x30A

/-- Replace byte `k` of `x`. -/
def setByte (x : BitVec 64) (k : Nat) (b : BitVec 8) : BitVec 64 :=
  (x &&& ~~~(0xFF#64 <<< (8 * k))) ||| (b.setWidth 64 <<< (8 * k))

/-- `pmpcfg[k]`. Indices from `PMP_COUNT` on, which `pmpcfg_rw` also uses, fall
    into the next member of the struct, `pmpaddr`. -/
def PmpState.cfgByte (p : PmpState) (k : Nat) : BitVec 8 :=
  if h : k < 16 then p.pmpcfg ⟨k, h⟩
  else (p.pmpaddr (Fin.ofNat 16 ((k - 16) / 8)) >>> (8 * ((k - 16) % 8))).setWidth 8

/-- `pmpcfg[k] = b` -/
def PmpState.setCfgByte (p : PmpState) (k : Nat) (b : BitVec 8) : PmpState :=
  if h : k < 16 then { p with pmpcfg := Function.update p.pmpcfg ⟨k, h⟩ b }
  else
    let j := Fin.ofNat 16 ((k - 16) / 8)
    { p with pmpaddr := Function.update p.pmpaddr j (setByte (p.pmpaddr j) ((k - 16) % 8) b) }

/-- The byte 1 written at offset `j` of an `ExpPMP`; the gaps are padding. -/
def ExpPMP.setByteTrue (e : ExpPMP) (j : Nat) : ExpPMP :=
  if j = 0 then { e with enable := true }
  else if j = 1 then { e with lock := true }
  else if 8 ≤ j ∧ j < 16 then { e with lbound := setByte e.lbound (j - 8) 1 }
  else if 16 ≤ j ∧ j < 24 then { e with ubound := setByte e.ubound (j - 16) 1 }
  else if j = 24 then { e with lxwr := 1 }
  else e

/-- `pmp_lockedaddr[k] = true`; past the array comes `pmp_expanded`, whose
    elements take 32 bytes. -/
def PmpState.setLocked (p : PmpState) (k : Nat) : PmpState :=
  if h : k < 16 then { p with pmpLockedaddr := Function.update p.pmpLockedaddr ⟨k, h⟩ true }
  else
    let j := Fin.ofNat 16 ((k - 16) / 32)
    { p with pmpExpanded :=
        Function.update p.pmpExpanded j ((p.pmpExpanded j).setByteTrue ((k - 16) % 32)) }

/-- The body of the loop of `pmpcfg_rw`, for the entry `cfgindex` at byte `i`;
    the first component is `readval`. -/
def pmpcfgStep (env : Env δ) (wvalue : BitVec 64) (funct : BitVec 2) (startIndex : Nat)
    (acc : BitVec 64 × PmpState) (i : Nat) : BitVec 64 × PmpState :=
  let (readval, p) := acc
  let cfgindex := startIndex + i
  let old := p.cfgByte cfgindex
  let readval := readval ||| (env.intShl (old.setWidth 32) (8 * i)).signExtend 64
  let writeval := ((wvalue >>> (8 * i)) &&& 0xFF).setWidth 8
  if old.getLsbD 7 then (readval, p) -- this cfg is locked
  else
    let p := match funct with
      | 0b01 => p.setCfgByte cfgindex writeval
      | 0b10 => p.setCfgByte cfgindex (old ||| writeval)
      | 0b11 => p.setCfgByte cfgindex (old &&& ~~~writeval)
      | _ => p
    let new := p.cfgByte cfgindex
    if new.getLsbD 7 then -- just locked, lock the corresponding addr too
      let p := p.setLocked cfgindex
      if new &&& 0b11000 = 0b01000 ∧ cfgindex ≠ 0 then -- a TOR entry, lock the previous addr too
        (readval, p.setLocked (cfgindex - 1))
      else (readval, p)
    else (readval, p)

/-- `pmpcfg_rw`, with `rvalue = &hs.regs[rd]`. -/
def pmpcfgRw (env : Env δ) (s : Sys δ) (addr : BitVec 12) (rd : BitVec 5) (wvalue : BitVec 64)
    (funct : BitVec 2) : HartException × Sys δ :=
  if addr.getLsbD 0 then s.createException .illinst (s.hs.inst.signExtend 64)
  else
    let startIndex := ((4 * (addr - 0x3A0)).setWidth 8).toNat
    let r := (List.range 8).foldl (pmpcfgStep env wvalue funct startIndex) (0, s.hs.pmp)
    let s := s.setReg rd r.1
    (.noexc, s.setHs { s.hs with pmp := syncExpPmp env r.2 })

/-- `MISA` -/
def misaReset : BitVec 64 := (0b10#64 <<< 62) + 0b00000101000001000100000101

/-- `MSTATUS` -/
def mstatusReset : BitVec 64 :=
  0b0000000000000000000000000000101000000000001011000000100010101010

/-- Bits 3, 7 and 11: the machine mode software, timer and external interrupts. -/
def machineInts : BitVec 64 := 0b100010001000

/-- `reset_state` -/
def resetState (hartid : BitVec 16) : HartState where
  hartid := hartid
  regs := fun _ => 0
  pc := 0
  inst := 0
  instbuf := 0
  instLen := 0
  privmode := 0b11
  memStatus := false
  pageFault := false
  tlb := tlbClear
  csr := {
    mstatus := mstatusReset, sstatus := mstatusReset
    medeleg := 0, mideleg := 0
    mie := 0b101010101010, sie := 0b101010101010 &&& ~~~machineInts
    mtvec := 0, stvec := 0, mscratch := 0, sscratch := 0
    mepc := 0, sepc := 0, mcause := 0, scause := 0, mtval := 0, stval := 0
    mip := 0, mcycle := 0, minstret := 0, satp := 0
    misa := misaReset, mhartid := 0, cycle := 0, instret := 0 }
  pmp := {
    pmpcfg := Function.update (fun _ => 0) 0 0b00011111
    pmpaddr := Function.update (fun _ => 0) 0 0x003fffffffffffff
    pmpLockedaddr := fun _ => false
    pmpExpanded := fun _ => .zero
    pmpAllEnabled := false
    minLbound := 0
    maxUbound := 0 }
  chkInt := false

/-- `hart_init` (`main.cpp`) -/
def hartInit (env : Env δ) (hartid : BitVec 16) : HartState :=
  let hs := resetState hartid
  let regs := Function.update hs.regs 2 (0x80000000 + env.machMemSize - 1)
  let regs := Function.update regs 1 0x81000000
  let regs := Function.update regs 10 (hartid.setWidth 64)
  { hs with pc := 0x1000, regs := Function.update regs 11 0x1100 }

end RvEmu
