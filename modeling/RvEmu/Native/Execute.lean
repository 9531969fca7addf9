import RvEmu.Native.Decode
import RvEmu.Native.Csr

/-!
# Instruction execution

The execute stage of `decode_exc` (`cpu.cpp`), one function for each case of
the switch over `op_fun`.
-/

namespace RvEmu

variable {δ : Type}

/-- How a case of the switch is left: `return he`, or `break` with `pc_chgd`. -/
inductive Flow where
  | ret (he : HartException)
  | brk (pcChgd : Bool)
  deriving DecidableEq

/-- `(int32_t)x`, back in 64 bits. -/
def sext32 (x : BitVec 64) : BitVec 64 := (x.setWidth 32).signExtend 64

/-- A comparison stored into a register. -/
def boolReg (b : Bool) : BitVec 64 := if b then 1 else 0

/-- `HANDLE_MEM_ERROR(X, tval)`: the trap to return, if there is one. -/
def handleMemError (afault pfault : HartException) (tval : BitVec 64) (s : Sys δ) :
    Option (HartException × Sys δ) :=
  if s.hs.memStatus then some ((s.setMemStatus false).createException afault tval)
  else if s.hs.pageFault then some ((s.setPageFault false).createException pfault tval)
  else none

/-- Leave the switch through a trap. -/
def trap (r : HartException × Sys δ) : Flow × Sys δ := (.ret r.1, r.2)

/-- `return create_exception(hs, HartException::ILLINST, hs.inst)` -/
def illinst (s : Sys δ) : Flow × Sys δ :=
  trap (s.createException .illinst (s.hs.inst.signExtend 64))

/-! ## Integer computation -/

/-- The value `OP_IMM` computes from `hs.regs[rs1]`. -/
def opImmValue (d : Decoded) (a : BitVec 64) : BitVec 64 :=
  match d.funct3 with
  | 0b000 => a + d.imm
  | 0b011 => boolReg (a.ult d.imm)
  | 0b010 => boolReg (a.slt d.imm)
  | 0b100 => a ^^^ d.imm
  | 0b110 => a ||| d.imm
  | 0b111 => a &&& d.imm
  | 0b001 => a <<< (d.imm &&& 0b111111).toNat
  | _ =>
    if d.inst.getLsbD 30 then a.sshiftRight (d.imm &&& 0b111111).toNat -- arithmetic shift
    else a >>> (d.imm &&& 0b111111).toNat -- logical shift

/-- The value `OP_IMM_32` computes from `hs.regs[rs1]`. -/
def opImm32Value (d : Decoded) (a : BitVec 64) : BitVec 64 :=
  let a32 := a.setWidth 32
  match d.funct3 with
  | 0b000 => sext32 (a + d.imm)
  | 0b011 => boolReg ((a32.setWidth 64).ult d.imm)
  | 0b010 => boolReg ((a32.signExtend 64).slt d.imm)
  | 0b100 => a32.signExtend 64 ^^^ d.imm
  | 0b110 => a32.signExtend 64 ||| d.imm
  | 0b111 => a32.signExtend 64 &&& d.imm
  | 0b001 => (a32 <<< (d.imm &&& 0b11111).toNat).signExtend 64
  | _ =>
    if d.inst.getLsbD 30 then (a32.sshiftRight (d.imm &&& 0b11111).toNat).signExtend 64
    else (a32 >>> (d.imm &&& 0b11111).toNat).signExtend 64

/-- The `OP` values for `funct7` 0 and 0x20. -/
def opBaseValue (d : Decoded) (a b : BitVec 64) : BitVec 64 :=
  match d.funct3 with
  | 0b000 => if d.inst.getLsbD 30 then a - b else a + b
  | 0b011 => boolReg (a.ult b)
  | 0b010 => boolReg (a.slt b)
  | 0b100 => a ^^^ b
  | 0b110 => a ||| b
  | 0b111 => a &&& b
  | 0b001 => a <<< (b &&& 0b111111).toNat
  | _ =>
    if d.inst.getLsbD 30 then a.sshiftRight (b &&& 0b111111).toNat
    else a >>> (b &&& 0b111111).toNat

/-- The `OP` values of the M extension; products go through 128 bits. -/
def opMulValue (funct3 : BitVec 3) (a b : BitVec 64) : BitVec 64 :=
  match funct3 with
  | 0b000 => a * b
  | 0b001 => ((a.signExtend 128 * b.signExtend 128).sshiftRight 64).setWidth 64
  | 0b010 => ((a.signExtend 128 * b.setWidth 128).sshiftRight 64).setWidth 64
  | 0b011 => ((a.setWidth 128 * b.setWidth 128).sshiftRight 64).setWidth 64
  | 0b100 =>
    if b = 0 then -1
    else if a = BitVec.intMin 64 ∧ b = -1 then a -- signed division overflow
    else a.sdiv b
  | 0b101 => if b = 0 then BitVec.allOnes 64 else a / b
  | 0b110 =>
    if b = 0 then a
    else if a = BitVec.intMin 64 ∧ b = -1 then 0 -- signed division overflow
    else a.srem b
  | _ => if b = 0 then a else a % b

/-- The `OP_32` values for `funct7` 0 and 0x20. -/
def op32BaseValue (d : Decoded) (a b : BitVec 64) : BitVec 64 :=
  let a32 := a.setWidth 32
  let b32 := b.setWidth 32
  match d.funct3 with
  | 0b000 => if d.inst.getLsbD 30 then (a32 - b32).signExtend 64 else (a32 + b32).signExtend 64
  | 0b011 => boolReg (a32.ult b32)
  | 0b010 => boolReg (a32.slt b32)
  | 0b100 => (a32 ^^^ b32).signExtend 64
  | 0b110 => (a32 ||| b32).signExtend 64
  | 0b111 => (a32 &&& b32).signExtend 64
  | 0b001 => (a32 <<< (b32 &&& 0b11111).toNat).signExtend 64
  | _ =>
    if d.inst.getLsbD 30 then (a32.sshiftRight (b &&& 0b11111).toNat).signExtend 64
    else (a32 >>> (b &&& 0b11111).toNat).signExtend 64

/-- The `OP_32` values of the M extension; `none` where no case applies. -/
def op32MulValue (funct3 : BitVec 3) (a b : BitVec 64) : Option (BitVec 64) :=
  let a32 := a.setWidth 32
  let b32 := b.setWidth 32
  match funct3 with
  | 0b000 => some ((a32 * b32).signExtend 64)
  | 0b100 => some <|
    if b32 = 0 then -1
    -- the overflow test compares the whole registers
    else if a = (BitVec.intMin 32).signExtend 64 ∧ b = -1 then a32.signExtend 64
    else (a32.sdiv b32).signExtend 64
  | 0b101 => some <|
    if b32 = 0 then BitVec.allOnes 64 else (a32 / b32).signExtend 64
  | 0b110 => some <|
    if b32 = 0 then a32.signExtend 64
    else if a32 = BitVec.intMin 32 ∧ b32 = -1 then 0
    else (a32.signExtend 64).srem (b32.signExtend 64)
  | 0b111 => some <|
    if b32 = 0 then a32.signExtend 64 else (a32 % b32).signExtend 64
  | _ => none

/-- `a / b` on a signed type of the host, `none` where it kills the emulator. -/
def hostSdiv {w : Nat} (a b : BitVec w) : Option (BitVec w) :=
  if b = 0 ∨ (a = BitVec.intMin w ∧ b = -1) then none else some (a.sdiv b)

/-- `a % b` on a signed type of the host, `none` where it kills the emulator. -/
def hostSrem {w : Nat} (a b : BitVec w) : Option (BitVec w) :=
  if b = 0 ∨ (a = BitVec.intMin w ∧ b = -1) then none else some (a.srem b)

/-- `a / b` on an unsigned type of the host, `none` where it kills the emulator. -/
def hostUdiv {w : Nat} (a b : BitVec w) : Option (BitVec w) :=
  if b = 0 then none else some (a / b)

/-- `a % b` on an unsigned type of the host, `none` where it kills the emulator. -/
def hostUmod {w : Nat} (a b : BitVec w) : Option (BitVec w) :=
  if b = 0 then none else some (a % b)

/-- The division cases of `opMulValue`, with the divisions that the host makes in them. -/
def opDivHost (funct3 : BitVec 3) (a b : BitVec 64) : Option (BitVec 64) :=
  match funct3 with
  | 0b100 =>
    if b = 0 then some (-1)
    else if a = BitVec.intMin 64 ∧ b = -1 then some a
    else hostSdiv a b
  | 0b101 => if b = 0 then some (BitVec.allOnes 64) else hostUdiv a b
  | 0b110 =>
    if b = 0 then some a
    else if a = BitVec.intMin 64 ∧ b = -1 then some 0
    else hostSrem a b
  | _ => if b = 0 then some a else hostUmod a b

/-- The division cases of `op32MulValue`; DIVW divides on `int32_t`, REMW on `int64_t`. -/
def op32DivHost (funct3 : BitVec 3) (a b : BitVec 64) : Option (BitVec 64) :=
  let a32 := a.setWidth 32
  let b32 := b.setWidth 32
  match funct3 with
  | 0b100 =>
    if b32 = 0 then some (-1)
    else if a = (BitVec.intMin 32).signExtend 64 ∧ b = -1 then some (a32.signExtend 64)
    else (hostSdiv a32 b32).map (BitVec.signExtend 64)
  | 0b101 =>
    if b32 = 0 then some (BitVec.allOnes 64) else (hostUdiv a32 b32).map (BitVec.signExtend 64)
  | 0b110 =>
    if b32 = 0 then some (a32.signExtend 64)
    else if a32 = BitVec.intMin 32 ∧ b32 = -1 then some 0
    else hostSrem (a32.signExtend 64) (b32.signExtend 64)
  | _ =>
    if b32 = 0 then some (a32.signExtend 64) else (hostUmod a32 b32).map (BitVec.signExtend 64)

/-- The value `OP` stores, if any. -/
def opValue (d : Decoded) (a b : BitVec 64) : Option (BitVec 64) :=
  match d.funct7 with
  | 0b0100000 | 0b0000000 => some (opBaseValue d a b)
  | 0b0000001 => some (opMulValue d.funct3 a b)
  | _ => none

/-- The value `OP_32` stores, if any. -/
def op32Value (d : Decoded) (a b : BitVec 64) : Option (BitVec 64) :=
  match d.funct7 with
  | 0b0100000 | 0b0000000 => some (op32BaseValue d a b)
  | 0b0000001 => op32MulValue d.funct3 a b
  | _ => none

/-- Store a computed value, if there is one, and `break`. -/
def writeback (d : Decoded) (s : Sys δ) : Option (BitVec 64) → Flow × Sys δ
  | some v => (.brk false, s.setReg d.rd v)
  | none => (.brk false, s)

/-! ## Jumps and branches -/

/-- The exit shared by the jumps: `pc` has been changed. -/
def jumped (s : Sys δ) : Flow × Sys δ :=
  if s.hs.pc.getLsbD 0 then trap (s.createException .imisalign s.hs.pc) -- misaligned jump
  else (.brk true, s)

/-- `hs.inst_len / 8` -/
def HartState.instBytes (hs : HartState) : BitVec 64 := (hs.instLen / 8).setWidth 64

/-- `JAL` -/
def execJal (d : Decoded) (s : Sys δ) : Flow × Sys δ :=
  let s := s.setReg d.rd (s.hs.pc + s.hs.instBytes)
  jumped (s.setPc (s.hs.pc + d.imm))

/-- `JALR` -/
def execJalr (d : Decoded) (s : Sys δ) : Flow × Sys δ :=
  let swapTmp := s.hs.pc + s.hs.instBytes
  let s := s.setPc ((s.hs.regs d.rs1 + d.imm) &&& ~~~0b1#64)
  jumped (s.setReg d.rd swapTmp)

/-- `jflag` of `BRANCH`. -/
def branchTaken (funct3 : BitVec 3) (a b : BitVec 64) : Bool :=
  match funct3 with
  | 0b000 => a == b
  | 0b001 => a != b
  | 0b100 => a.slt b
  | 0b101 => b.sle a
  | 0b110 => a.ult b
  | 0b111 => b.ule a
  | _ => false

/-- `BRANCH` -/
def execBranch (d : Decoded) (s : Sys δ) : Flow × Sys δ :=
  if branchTaken d.funct3 (s.hs.regs d.rs1) (s.hs.regs d.rs2) then
    jumped (s.setPc (s.hs.pc + d.imm))
  else (.brk false, s)

/-! ## Loads and stores -/

/-- The access width of the low two bits of `funct3`. -/
def accessWidth (b : BitVec 2) : Width :=
  match b with
  | 0b00 => .u8 | 0b01 => .u16 | 0b10 => .u32 | _ => .u64

/-- `LOAD` -/
def execLoad (env : Env δ) (d : Decoded) (s : Sys δ) : Flow × Sys δ :=
  let loadAddr := s.hs.regs d.rs1 + d.imm
  let w := accessWidth (d.funct3.setWidth 2)
  let r := virtMemFetch env w (s.setMemStatus true) loadAddr
  let lv := if d.funct3.getLsbD 2 then r.1 else w.sext r.1
  match handleMemError .lafault .lpfault loadAddr r.2 with
  | some t => trap t
  | none => (.brk false, r.2.setReg d.rd lv)

/-- `STORE` -/
def execStore (env : Env δ) (d : Decoded) (s : Sys δ) : Flow × Sys δ :=
  let storeAddr := s.hs.regs d.rs1 + d.imm
  let s := s.setMemStatus false
  let s := if d.funct3.getLsbD 2 then s
    else virtMemStore env (accessWidth (d.funct3.setWidth 2)) s storeAddr (s.hs.regs d.rs2)
  match handleMemError .safault .spfault storeAddr s with
  | some t => trap t
  | none => (.brk false, s)

/-! ## The A extension -/

/-- The access width of an AMO: 32 bits for `funct3` 0b010, otherwise 64. -/
def amoWidth (d : Decoded) : Width := if d.funct3 = 0b010 then .u32 else .u64

/-- `(int32_t)x` for a word operation, `x` otherwise. -/
def amoSigned (d : Decoded) (x : BitVec 64) : BitVec 64 := if d.funct3 = 0b010 then sext32 x else x

/-- `(uint32_t)x` for a word operation, `x` otherwise. -/
def amoUnsigned (d : Decoded) (x : BitVec 64) : BitVec 64 :=
  if d.funct3 = 0b010 then (x.setWidth 32).setWidth 64 else x

/-- The new value of the read-modify-write, by `funct5`. -/
def amoValue (funct5 : BitVec 5) (ovalue src uovalue usrc : BitVec 64) : BitVec 64 :=
  match funct5 with
  | 0b00001 => src
  | 0b00000 => ovalue + src
  | 0b00100 => ovalue ^^^ src
  | 0b01100 => ovalue &&& src
  | 0b01000 => ovalue ||| src
  | 0b10000 => if ovalue.slt src then ovalue else src
  | 0b10100 => if src.slt ovalue then ovalue else src
  | 0b11000 => if uovalue.ult usrc then uovalue else usrc
  | 0b11100 => if usrc.ult uovalue then uovalue else usrc
  | _ => ovalue

/-- `reservations[i] = v` -/
def Sys.setReservation (s : Sys δ) (i : BitVec 16) (v : BitVec 64) : Sys δ :=
  { s with bus := { s.bus with reservations := Function.update s.bus.reservations i v } }

/-- SC -/
def execSc (env : Env δ) (d : Decoded) (s : Sys δ) : Flow × Sys δ :=
  let storeAddr := s.hs.regs d.rs1
  let r := pageTableWalk env s storeAddr true
  let scPhyAddr := r.1
  let s := r.2
  match handleMemError .safault .spfault storeAddr s with
  | some t => trap t
  | none =>
    if s.bus.reservations s.hs.hartid = scPhyAddr then
      let s := virtMemStore env (amoWidth d) (s.setMemStatus true) storeAddr (s.hs.regs d.rs2)
      match handleMemError .safault .spfault storeAddr s with
      | some t => trap t
      | none => (.brk false, (s.setReg d.rd 0).setReservation s.hs.hartid 0)
    else (.brk false, (s.setReg d.rd 1).setReservation s.hs.hartid 0)

/-- LR, after the load into `rd`. -/
def execLrReserve (env : Env δ) (d : Decoded) (s : Sys δ) : Flow × Sys δ :=
  let r := pageTableWalk env (s.setMemStatus true) (s.hs.regs d.rs1) false
  let lrPhyAddr := r.1
  let s := r.2
  match handleMemError .safault .spfault (s.hs.regs d.rs1) s with
  | some t => trap t
  | none =>
    -- remove existing reservations on this memory address by other harts
    let reservations := fun i =>
      if i < env.machHartCount ∧ s.hs.hartid ≠ i ∧ s.bus.reservations i = lrPhyAddr then 0
      else s.bus.reservations i
    let s := { s with bus := { s.bus with reservations := reservations } }
    (.brk false, s.setReservation s.hs.hartid lrPhyAddr)

/-- AMO, after the load into `rd`: modify and write back. -/
def execAmoWrite (env : Env δ) (d : Decoded) (funct5 : BitVec 5) (opAddr src usrc : BitVec 64)
    (s : Sys δ) : Flow × Sys δ :=
  let old := s.hs.regs d.rd
  let ovalue := amoValue funct5 (amoSigned d old) src (amoUnsigned d old) usrc
  let s := virtMemStore env (amoWidth d) (s.setMemStatus false) opAddr ovalue
  match handleMemError .safault .spfault opAddr s with
  | some t => trap t
  | none => (.brk false, s)

/-- `AMO` -/
def execAmo (env : Env δ) (d : Decoded) (s : Sys δ) : Flow × Sys δ :=
  let funct5 := d.funct7.extractLsb' 2 5
  if funct5 = 0b00011 then execSc env d s
  else
    -- src is read early in case rd == rs2
    let src := amoSigned d (s.hs.regs d.rs2)
    let usrc := amoUnsigned d (s.hs.regs d.rs2)
    let opAddr := s.hs.regs d.rs1
    let r := virtMemFetch env (amoWidth d) (s.setMemStatus true) opAddr
    let s := r.2.setReg d.rd r.1
    -- although this is a load, AMOs only throw store faults
    match handleMemError .safault .spfault opAddr s with
    | some t => trap t
    | none =>
      let s := s.setReg d.rd (amoSigned d (s.hs.regs d.rd))
      if funct5 = 0b00010 then execLrReserve env d s
      else execAmoWrite env d funct5 opAddr src usrc s

/-! ## SYSTEM -/

/-- ECALL -/
def instEcall : BitVec 32 := 0b00000000000000000000000001110011

/-- EBREAK -/
def instEbreak : BitVec 32 := 0b00000000000100000000000001110011

/-- MRET -/
def instMret : BitVec 32 := 0b00110000001000000000000001110011

/-- SRET -/
def instSret : BitVec 32 := 0b00010000001000000000000001110011

/-- WFI -/
def instWfi : BitVec 32 := 0b00010000010100000000000001110011

/-- The first bits of SFENCE.VMA. -/
def funct7Sfence : BitVec 7 := 0b0001001

/-- MRET -/
def execMret (s : Sys δ) : Sys δ :=
  let hs := s.hs
  let mstatus := (hs.csr.mstatus &&& ~~~(0b1#64 <<< 3)) |||
    ((hs.csr.mstatus &&& (0b1#64 <<< 7)) >>> (7 - 3)) -- move MPIE to MIE
  let mstatus := mstatus ||| (0b1#64 <<< 7) -- set MPIE
  let privmode := ((mstatus &&& (0b11#64 <<< 11)) >>> 11).setWidth 2 -- MPP
  let mstatus := mstatus &&& ~~~(0b11#64 <<< 11) -- set MPP to U
  let mstatus := if privmode ≠ 0b11 then mstatus &&& ~~~(0b1#64 <<< 17) else mstatus -- clear MPRV
  s.setHs { hs with
    pc := hs.csr.mepc &&& ~~~0b1#64
    privmode := privmode
    csr := { hs.csr with mstatus := mstatus }
    chkInt := true }

/-- SRET, past the TSR test. -/
def execSret (s : Sys δ) : Sys δ :=
  let hs := s.hs
  let mstatus := (hs.csr.mstatus &&& ~~~(0b1#64 <<< 1)) |||
    ((hs.csr.mstatus &&& (0b1#64 <<< 5)) >>> (5 - 1)) -- move SPIE to SIE
  let mstatus := mstatus ||| (0b1#64 <<< 5) -- set SPIE
  let privmode := ((mstatus &&& (0b1#64 <<< 8)) >>> 8).setWidth 2 -- SPP
  let mstatus := mstatus &&& ~~~(0b1#64 <<< 8) -- set SPP to U
  let mstatus := if privmode ≠ 0b11 then mstatus &&& ~~~(0b1#64 <<< 17) else mstatus -- clear MPRV
  s.setHs { hs with
    pc := hs.csr.sepc &&& ~~~0b1#64
    privmode := privmode
    csr := { hs.csr with mstatus := mstatus }
    chkInt := true }

/-- `hs.chk_int = true` -/
def Sys.setChkInt (s : Sys δ) : Sys δ := s.setHs { s.hs with chkInt := true }

/-- The fix-ups after a CSR access: the hardwired fields of `mstatus`, and the
    stored copies of `sstatus` and `sie`. -/
def csrMirror (hs : HartState) (imm : BitVec 12) (sstatus sie : Bool) : HartState :=
  let hs := if imm = 0x300 then
      let mstatus := hs.csr.mstatus &&& ~~~0b10101#64
      -- force SXL and UXL to be 64 bits
      let mstatus := mstatus &&& ~~~(0b1111#64 <<< 32)
      let mstatus := mstatus ||| (0b1010#64 <<< 32)
      { hs with csr := { hs.csr with mstatus := mstatus } }
    else hs
  let hs := if sstatus then
      { hs with csr := { hs.csr with sstatus := hs.csr.mstatus &&& ~~~(0b11#64 <<< 34) } }
    else hs
  if sie then { hs with csr := { hs.csr with sie := hs.csr.mie &&& ~~~machineInts } } else hs

/-- The value a CSR instruction writes through the pointer, from the old value;
    `sip` blocks the machine mode interrupts. -/
def csrWritten (funct : BitVec 2) (sip : Bool) (old wvalue : BitVec 64) : BitVec 64 :=
  match funct with
  | 0b01 => if sip then wvalue &&& ~~~machineInts else wvalue
  | 0b10 => old ||| (if sip then wvalue &&& ~~~machineInts else wvalue)
  | 0b11 => old &&& ~~~(if sip then wvalue ||| machineInts else wvalue)
  | _ => old

/-- `(funct3 & 0b11) == 0b01 || (wvalue && rs1)` -/
def csrWriteNeeded (d : Decoded) (wvalue : BitVec 64) : Bool :=
  d.funct3.setWidth 2 == 0b01#2 || (wvalue != 0 && d.rs1 != 0)

/-- The CSRs whose writes call for an interrupt check. -/
def csrIntRelated (imm : BitVec 12) : Bool :=
  imm == 0x300 || imm == 0x302 || imm == 0x303 || imm == 0x304 || imm == 0x344

/-- The address register of a locked PMP entry. -/
def CsrPtr.locked (hs : HartState) : CsrPtr → Bool
  | .pmpaddr i => hs.pmp.pmpLockedaddr i
  | _ => false

/-- A CSR instruction from the translation of the aliases on: `csrno` is the
    number in the instruction, `imm` the one it stands for. -/
def execCsrPtr (d : Decoded) (csrno : BitVec 12) (wvalue : BitVec 64) (s : Sys δ) :
    Flow × Sys δ :=
  let sstatus := csrno == 0x100
  let sie := csrno == 0x104
  let sip := csrno == 0x144
  let imm := if sstatus then 0x300 else if sie then 0x304 else if sip then 0x344 else csrno
  if imm = 0x180 ∧ s.hs.csr.mstatus.getLsbD 20 then illinst s -- TVM
  else
    match csrFromAddr imm with
    | none => illinst s
    | some csrAddr =>
      let old := csrAddr.get s.hs
      let s := if d.rd ≠ 0 then s.setReg d.rd old else s
      if csrAddr.locked s.hs then (.brk false, s)
      else if csrWriteNeeded d wvalue then
        if imm &&& (0b11#12 <<< 10) = 0b11#12 <<< 10 ∧ !(sstatus || sie || sip) then
          illinst s -- writing read-only CSR
        else if imm = 0x301 then (.brk false, s) -- misa writes are not supported
        else
          let s := if csrIntRelated imm then s.setChkInt else s
          let hs := csrAddr.set s.hs (csrWritten (d.funct3.setWidth 2) sip old wvalue)
          (.brk false, s.setHs (csrMirror hs imm sstatus sie))
      else (.brk false, s.setHs (csrMirror s.hs imm sstatus sie))

/-- The CSR instructions. -/
def execCsr (env : Env δ) (d : Decoded) (s : Sys δ) : Flow × Sys δ :=
  let imm := d.imm.setWidth 12 -- remove the sign extended bits
  if imm.extractLsb' 8 2 > s.hs.privmode then illinst s -- privilege mode insufficient
  else if imm = 0xC01 then
    let r := env.aclintMtimeGet s.bus.dev
    (.brk false, ({ s with bus := { s.bus with dev := r.2 } } : Sys δ).setReg d.rd r.1)
  else if chkRo0Csr imm then (.brk false, s.setReg d.rd 0)
  else if imm = 0x306 ∨ imm = 0x106 ∨ imm = 0x320 then (.brk false, s.setReg d.rd 5)
  else
    let wvalue := if d.funct3.getLsbD 2 then d.rs1.setWidth 64 else s.hs.regs d.rs1
    if 0x3A0 ≤ imm ∧ imm < 0x3B0 then
      let s := s.setPc (s.hs.pc + s.hs.instBytes)
      let s := s.setHs { s.hs with csr := { s.hs.csr with minstret := s.hs.csr.minstret + 1 } }
      trap (pmpcfgRw env s imm d.rd wvalue (d.funct3.setWidth 2))
    else execCsrPtr d imm wvalue s

/-- `SYSTEM` -/
def execSystem (env : Env δ) (d : Decoded) (s : Sys δ) : Flow × Sys δ :=
  if d.inst = instEcall then
    trap (s.createException (.ofEcall s.hs.privmode) s.hs.pc)
  else if d.inst = instEbreak ∨ d.cebreak then trap (s.createException .bpoint s.hs.pc)
  else if d.inst = instMret then (.brk true, execMret s)
  else if d.inst = instSret then
    if s.hs.csr.mstatus.getLsbD 22 then illinst s -- TSR bit
    else (.brk true, execSret s)
  else if d.inst = instWfi then
    if s.hs.csr.mstatus.getLsbD 21 then illinst s -- TW bit
    else (.brk false, s.setChkInt)
  else if d.inst.extractLsb' 25 7 = funct7Sfence then
    if s.hs.csr.mstatus.getLsbD 20 then illinst s -- TVM bit
    else (.brk false, (s.setTlb tlbClear).setInstbuf 0)
  else execCsr env d s

/-! ## The switch -/

/-- The switch over `op_fun`. -/
def execute (env : Env δ) (d : Decoded) (s : Sys δ) : Flow × Sys δ :=
  match d.opFun with
  | .opImm => writeback d s (some (opImmValue d (s.hs.regs d.rs1)))
  | .opImm32 => writeback d s (some (opImm32Value d (s.hs.regs d.rs1)))
  | .lui => writeback d s (some d.imm)
  | .auipc => writeback d s (some (d.imm + s.hs.pc))
  | .op => writeback d s (opValue d (s.hs.regs d.rs1) (s.hs.regs d.rs2))
  | .op32 => writeback d s (op32Value d (s.hs.regs d.rs1) (s.hs.regs d.rs2))
  | .jal => execJal d s
  | .jalr => execJalr d s
  | .branch => execBranch d s
  | .load => execLoad env d s
  | .store => execStore env d s
  | .miscMem => (.brk false, if d.funct3 = 0b001 then s.setInstbuf 0 else s) -- FENCE.I
  | .system => execSystem env d s
  | .amo => execAmo env d s
  | _ => (.brk false, s) -- unknown instruction

/-- What follows the switch: step over the instruction, or drop `instbuf`. -/
def retire (pcChgd : Bool) (s : Sys δ) : Sys δ :=
  let s := if pcChgd then s.setInstbuf 0 else s.setPc (s.hs.pc + s.hs.instBytes)
  s.setHs { s.hs with csr := { s.hs.csr with minstret := s.hs.csr.minstret + 1 } }

/-- `decode_exc` from the execute stage on. -/
def runDecoded (env : Env δ) (d : Decoded) (s : Sys δ) : HartException × Sys δ :=
  match execute env d (s.setHs { s.hs with inst := d.inst }) with
  | (.ret he, s) => (he, s)
  | (.brk pcChgd, s) => (.noexc, retire pcChgd s)

/-- `decode_exc` -/
def decodeExc (env : Env δ) (s : Sys δ) : HartException × Sys δ :=
  if s.hs.instLen = 16 then
    match decode16 s.hs.inst with
    | none => s.createException .illinst (s.hs.inst.signExtend 64)
    | some d => runDecoded env d s
  else if s.hs.instLen = 32 then runDecoded env (decode32 s.hs.inst) s
  else -- unsupported instruction length
    (s.setHs { s.hs with instLen := 0 }).createException .illinst (s.hs.inst.signExtend 64)

end RvEmu
