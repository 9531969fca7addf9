import RvEmu.Spec.Decode
import RvEmu.Spec.Outcome

/-!
# CSR accesses

A CSR instruction reads the CSR into `rd` and writes it, all through one pointer.
For the CSRs that are plain registers, `csrAccess_plain` gives the whole state
that any of the six instructions leads to.
-/

namespace RvEmu

open Isa (CsrOp)

variable {δ : Type}

/-! ## CSR instructions -/

/-- The encoding of a CSR instruction. -/
def csrWord (addr : BitVec 12) (op : CsrOp) (rd rs1 : BitVec 5) : BitVec 32 :=
  Isa.encI addr rs1 op.funct3 rd 0b1110011

/-- The operand of a CSR instruction. -/
def Isa.CsrOp.operand (op : CsrOp) (regs : BitVec 5 → BitVec 64) (rs1 : BitVec 5) : BitVec 64 :=
  match op with
  | .csrrw | .csrrs | .csrrc => regs rs1
  | .csrrwi | .csrrsi | .csrrci => rs1.setWidth 64

/-- Whether a CSR instruction writes at all. -/
def Isa.CsrOp.writes (op : CsrOp) (operand : BitVec 64) (rs1 : BitVec 5) : Prop :=
  match op with
  | .csrrw | .csrrwi => True
  | .csrrs | .csrrc | .csrrsi | .csrrci => operand ≠ 0 ∧ rs1 ≠ 0

/-- The test for a write is that of the ISA. -/
theorem csrWriteNeeded_iff {d : Decoded} {op : CsrOp} (h : d.funct3 = op.funct3)
    (operand : BitVec 64) : csrWriteNeeded d operand = true ↔ op.writes operand d.rs1 := by
  cases op <;> simp [csrWriteNeeded, h, CsrOp.funct3, CsrOp.writes]

/-- The number of a CSR instruction is its upper 12 bits. -/
theorem csrno_of_system {inst : BitVec 32} (h : (decode32 inst).opFun = .system) :
    (decode32 inst).csrno = inst.extractLsb' 20 12 := by
  rw [decode32_opFun] at h
  have himm : (decode32 inst).imm = (inst.sshiftRight 20).signExtend 64 := by
    simp only [decode32, h]
    rfl
  rw [Decoded.csrno, himm]
  apply BitVec.eq_of_getLsbD_eq
  intro i hi
  have h64 : i < 64 := by omega
  have h32 : i < 32 := by omega
  have hle : ¬ 32 ≤ i := by omega
  have hadd : 20 + i < 32 := by omega
  simp only [BitVec.getLsbD_setWidth, BitVec.getLsbD_signExtend, BitVec.getLsbD_sshiftRight,
    BitVec.getLsbD_extractLsb', hi, h64, h32, hle, hadd, decide_true, decide_false, Bool.not_false,
    Bool.true_and, ↓reduceIte]

/-- The number of the CSR is in the upper bits, … -/
theorem csrno_decode32 {inst : BitVec 32} (h : (decode32 inst).opFun = .system) :
    (decode32 inst).csrno = (decode32 inst).inst.extractLsb' 20 12 := by
  rw [csrno_of_system h, decode32_inst]

/-- … and a 32-bit instruction is no compressed `EBREAK`. -/
theorem decode32_cebreak (inst : BitVec 32) : (decode32 inst).cebreak = false := by
  simp only [decode32]
  split <;> rfl

/-- SFENCE.VMA has a smaller number than the `pmpcfg` CSRs. -/
theorem funct7_ne_sfence {n : BitVec 12} (h : 0x3A0 ≤ n) : n.extractLsb' 5 7 ≠ funct7Sfence := by
  intro hf
  have hnum := congrArg BitVec.toNat hf
  rw [BitVec.extractLsb'_toNat, Nat.shiftRight_eq_div_pow] at hnum
  have h9 : n.toNat / 2 ^ 5 % 2 ^ 7 = 9 := hnum
  have hle : 0x3A0 ≤ n.toNat := BitVec.le_def.mp h
  have hlt := n.isLt
  omega

/-- The upper bits of ECALL, EBREAK, MRET, SRET and WFI. -/
def plainNumbers : List (BitVec 12) := [0x000, 0x001, 0x302, 0x102, 0x105]

/-- An instruction with another number than those, and not the one of SFENCE.VMA,
    is a CSR instruction. -/
theorem execSystem_of_number (env : Env δ) (s : Sys δ) {d : Decoded} (hcebreak : d.cebreak = false)
    (hnum : d.csrno = d.inst.extractLsb' 20 12) (hplain : d.csrno ∉ plainNumbers)
    (hsfence : d.csrno.extractLsb' 5 7 ≠ funct7Sfence) :
    execSystem env d s = execCsr env d s := by
  have hne {x : BitVec 32} (hx : x.extractLsb' 20 12 ∈ plainNumbers) : d.inst ≠ x := by
    rintro rfl
    rw [hnum] at hplain
    exact hplain hx
  have hecall : d.inst ≠ instEcall := hne (by decide)
  have hebreak : d.inst ≠ instEbreak := hne (by decide)
  have hmret : d.inst ≠ instMret := hne (by decide)
  have hsret : d.inst ≠ instSret := hne (by decide)
  have hwfi : d.inst ≠ instWfi := hne (by decide)
  rw [hnum, BitVec.extractLsb'_extractLsb' _ (by decide)] at hsfence
  simp only [execSystem, hcebreak, hecall, hebreak, hmret, hsret, hwfi, hsfence,
    Bool.false_eq_true, or_self, ↓reduceIte]

/-- The fields of a CSR instruction. -/
theorem decode32_csrWord (addr : BitVec 12) (op : CsrOp) (rd rs1 : BitVec 5) :
    decode32 (csrWord addr op rd rs1) =
      ⟨csrWord addr op rd rs1, .system, rd, rs1, 0, op.funct3, 0, addr.signExtend 64, false⟩ :=
  decode32_encI rs1 rd op.funct3 0b1110011 addr rfl

/-- The instruction is not one of the others under the SYSTEM opcode. -/
theorem execSystem_csrWord (env : Env δ) (s : Sys δ) {addr : BitVec 12}
    (haddr : addr.extractLsb' 5 7 ≠ funct7Sfence) (op : CsrOp) (rd rs1 : BitVec 5) :
    execSystem env (decode32 (csrWord addr op rd rs1)) s =
      execCsr env (decode32 (csrWord addr op rd rs1)) s := by
  -- the others have a zero in funct3, or the funct7 of SFENCE.VMA
  have hne {x : BitVec 32} (hx : x.extractLsb' 12 3 = 0) : csrWord addr op rd rs1 ≠ x := by
    intro h
    have hf : op.funct3 = 0 := by rw [← hx, ← h, csrWord, Isa.encI_funct3]
    cases op <;> exact absurd hf (by decide)
  have hsfence : (csrWord addr op rd rs1).extractLsb' 25 7 ≠ funct7Sfence := by
    rw [csrWord, Isa.encI_eq_encR, Isa.encR_funct7]
    exact haddr
  rw [decode32_csrWord]
  simp only [execSystem, hne (x := instEcall) rfl, hne (x := instEbreak) rfl,
    hne (x := instMret) rfl, hne (x := instSret) rfl, hne (x := instWfi) rfl, hsfence,
    Bool.false_eq_true, or_self, ↓reduceIte]

/-- `decode_exc` on a CSR instruction, … -/
theorem decodeExc_csrWord (env : Env δ) (s : Sys δ) {addr : BitVec 12}
    (haddr : addr.extractLsb' 5 7 ≠ funct7Sfence) (op : CsrOp) (rd rs1 : BitVec 5) :
    decodeExc env (s.withInst (csrWord addr op rd rs1) 32) =
      finish (execCsr env (decode32 (csrWord addr op rd rs1))
        (s.withInst (csrWord addr op rd rs1) 32)) := by
  have hexec (t : Sys δ) : execute env (decode32 (csrWord addr op rd rs1)) t =
      execSystem env (decode32 (csrWord addr op rd rs1)) t := by
    rw [decode32_csrWord]
    rfl
  rw [decodeExc_withInst32, hexec, execSystem_csrWord env _ haddr]

/-- … with its number … -/
theorem csrno_csrWord (addr : BitVec 12) (op : CsrOp) (rd rs1 : BitVec 5) :
    (decode32 (csrWord addr op rd rs1)).csrno = addr := by
  rw [decode32_csrWord, Decoded.csrno]
  exact (BitVec.setWidth_signExtend_of_le _ (by decide)).trans (BitVec.signExtend_eq _)

/-- … and its operand. -/
theorem csrOperand_csrWord (addr : BitVec 12) (op : CsrOp) (rd rs1 : BitVec 5)
    (hs : HartState) :
    (decode32 (csrWord addr op rd rs1)).csrOperand hs = op.operand hs.regs rs1 := by
  simp only [decode32_csrWord, Decoded.csrOperand]
  cases op <;> rfl

/-- What is written through the pointer is the new value of the CSR. -/
theorem csrWritten_result {d : Decoded} {op : CsrOp} (h : d.funct3 = op.funct3)
    (old w : BitVec 64) :
    (if csrWriteNeeded d w then csrWritten (d.funct3.setWidth 2) false old w else old) =
      op.result old w d.rs1 := by
  have hneeded := csrWriteNeeded_iff h w
  -- an operand of zero sets and clears nothing
  have hset (hw : ¬ (w ≠ 0 ∧ d.rs1 ≠ 0)) (hrs1 : d.rs1 ≠ 0) : old ||| w = old := by
    have hz : w = 0 := not_not.mp fun hz => hw ⟨hz, hrs1⟩
    rw [hz]
    exact BitVec.or_zero
  have hclear (hw : ¬ (w ≠ 0 ∧ d.rs1 ≠ 0)) (hrs1 : d.rs1 ≠ 0) : old &&& ~~~w = old := by
    have hz : w = 0 := not_not.mp fun hz => hw ⟨hz, hrs1⟩
    rw [hz]
    exact BitVec.and_allOnes
  rw [h]
  cases op with
  | csrrw | csrrwi =>
    rw [if_pos (hneeded.mpr trivial)]
    rfl
  | csrrs | csrrsi =>
    simp only [CsrOp.result]
    by_cases hw : w ≠ 0 ∧ d.rs1 ≠ 0
    · rw [if_pos (hneeded.mpr hw), if_neg hw.2]
      rfl
    · rw [if_neg (mt hneeded.mp hw)]
      split
      · rfl
      · next hrs1 => exact (hset hw hrs1).symm
  | csrrc | csrrci =>
    simp only [CsrOp.result]
    by_cases hw : w ≠ 0 ∧ d.rs1 ≠ 0
    · rw [if_pos (hneeded.mpr hw), if_neg hw.2]
      rfl
    · rw [if_neg (mt hneeded.mp hw)]
      split
      · rfl
      · next hrs1 => exact (hclear hw hrs1).symm

/-- Two forms of the instruction are no CSR instruction. -/
theorem funct3_cases (f : BitVec 3) : f.setWidth 2 = 0b00#2 ∨ ∃ op : CsrOp, f = op.funct3 := by
  have hf : f = 0 ∨ f = 4 ∨ f = 1 ∨ f = 2 ∨ f = 3 ∨ f = 5 ∨ f = 6 ∨ f = 7 := by
    revert f
    decide
  rcases hf with rfl | rfl | rfl | rfl | rfl | rfl | rfl | rfl
  · exact .inl rfl
  · exact .inl rfl
  · exact .inr ⟨.csrrw, rfl⟩
  · exact .inr ⟨.csrrs, rfl⟩
  · exact .inr ⟨.csrrc, rfl⟩
  · exact .inr ⟨.csrrwi, rfl⟩
  · exact .inr ⟨.csrrsi, rfl⟩
  · exact .inr ⟨.csrrci, rfl⟩

/-- What the old value does not have, the new one has by a CSR instruction. -/
theorem csrWritten_iff (d : Decoded) {old w : BitVec 64} {Q : BitVec 64 → Prop} (hold : ¬ Q old) :
    Q (if csrWriteNeeded d w then csrWritten (d.funct3.setWidth 2) false old w else old) ↔
      ∃ op : CsrOp, d.funct3 = op.funct3 ∧ Q (op.result old w d.rs1) := by
  constructor
  · intro hnew
    rcases funct3_cases d.funct3 with hnone | ⟨op, hop⟩
    · rw [hnone] at hnew
      exact absurd (ite_self (c := csrWriteNeeded d w = true) old ▸ hnew) hold
    · exact ⟨op, hop, csrWritten_result hop old w ▸ hnew⟩
  · rintro ⟨op, hop, hnew⟩
    rwa [csrWritten_result hop]

/-! ## The CSRs that are plain registers -/

/-- The CSRs that keep what is written to them, with no other register behind them. -/
inductive PlainCsr where
  | mie | medeleg | mideleg | mtvec | stvec | mscratch | sscratch
  | mepc | sepc | mcause | scause | mtval | stval
  | pmpaddr (i : Fin 16)
  deriving DecidableEq

namespace PlainCsr

/-- The number of the CSR. -/
def addr : PlainCsr → BitVec 12
  | mie => 0x304 | medeleg => 0x302 | mideleg => 0x303
  | mtvec => 0x305 | stvec => 0x105
  | mscratch => 0x340 | sscratch => 0x140
  | mepc => 0x341 | sepc => 0x141
  | mcause => 0x342 | scause => 0x142
  | mtval => 0x343 | stval => 0x143
  | pmpaddr i => 0x3B0 + BitVec.ofNat 12 i

/-- The register that holds it. -/
def ptr : PlainCsr → CsrPtr
  | mie => .mie | medeleg => .medeleg | mideleg => .mideleg
  | mtvec => .mtvec | stvec => .stvec
  | mscratch => .mscratch | sscratch => .sscratch
  | mepc => .mepc | sepc => .sepc
  | mcause => .mcause | scause => .scause
  | mtval => .mtval | stval => .stval
  | pmpaddr i => .pmpaddr i

def read (c : PlainCsr) (hs : HartState) : BitVec 64 := c.ptr.get hs

def write (c : PlainCsr) (hs : HartState) (v : BitVec 64) : HartState := c.ptr.set hs v

/-- A CSR reads as what has been written, … -/
theorem read_write (c : PlainCsr) (hs : HartState) (v : BitVec 64) :
    c.read (c.write hs v) = v := by
  cases c
  case pmpaddr i => exact Function.update_self ..
  all_goals rfl

/-- … and another one as before. -/
theorem read_write_of_ne {c c' : PlainCsr} (h : c' ≠ c) (hs : HartState) (v : BitVec 64) :
    c'.read (c.write hs v) = c'.read hs := by
  cases c
  case pmpaddr i =>
    cases c'
    case pmpaddr j =>
      have hne : j ≠ i := fun hij => h (congrArg pmpaddr hij)
      exact Function.update_of_ne hne ..
    all_goals rfl
  all_goals
    cases c' <;> first | rfl | exact absurd rfl h

end PlainCsr

/-- No case of the CSR stage singles out the number `n`, which stands for `ptr`. -/
structure PlainNumber (n : BitVec 12) (ptr : CsrPtr) : Prop where
  pointer : csrFromAddr n = some ptr
  sfence : n.extractLsb' 5 7 ≠ funct7Sfence
  time : n ≠ 0xC01
  zero : chkRo0Csr n = false
  counteren : ¬ (n = 0x306 ∨ n = 0x106 ∨ n = 0x320)
  pmpcfg : ¬ (0x3A0 ≤ n ∧ n < 0x3B0)
  sstatus : (n == 0x100) = false
  sie : (n == 0x104) = false
  sip : (n == 0x144) = false
  satp : n ≠ 0x180
  writable : ¬ n &&& (0b11#12 <<< 10) = 0b11#12 <<< 10
  misa : n ≠ 0x301
  mstatus : n ≠ 0x300

/-- The listed CSRs have plain numbers. -/
theorem PlainCsr.plainNumber (c : PlainCsr) : PlainNumber c.addr c.ptr := by
  cases c
  case pmpaddr i => constructor <;> revert i <;> decide
  all_goals constructor <;> decide

/-- The hart after a CSR instruction on a plain register: `rd` has the old value,
    the CSR the new one, and only the pc, `minstret` and `chk_int` have moved
    besides. -/
def csrAccessed (c : PlainCsr) (op : CsrOp) (rd rs1 : BitVec 5) (chkInt : Bool)
    (hs : HartState) : HartState :=
  let hs' := c.write hs (op.result (c.read hs) (op.operand hs.regs rs1) rs1)
  { hs' with
    regs := if rd = 0 then hs.regs else Function.update hs.regs rd (c.read hs)
    pc := hs.pc + 4
    csr := { hs'.csr with minstret := hs.csr.minstret + 1 }
    chkInt := chkInt }

/-- The hart is the same but for a call for an interrupt check. -/
theorem CsrPtr.set_chkInt (ptr : CsrPtr) (hs : HartState) (v : BitVec 64) (b : Bool) :
    ptr.set { hs with chkInt := b } v = { ptr.set hs v with chkInt := b } := by
  cases ptr <;> rfl

/-- Writing back what is there changes nothing. -/
theorem CsrPtr.set_get (ptr : CsrPtr) (hs : HartState) : ptr.set hs (ptr.get hs) = hs := by
  cases ptr
  case pmpaddr i =>
    have hsame : Function.update hs.pmp.pmpaddr i (hs.pmp.pmpaddr i) = hs.pmp.pmpaddr :=
      Function.update_eq_self ..
    simp only [CsrPtr.set, CsrPtr.get, hsame]
  all_goals rfl

/-- Nothing is mirrored behind a plain number. -/
theorem csrMirror_plain {n : BitVec 12} (h : n ≠ 0x300) (hs : HartState) :
    csrMirror hs n false false = hs := by
  simp only [csrMirror, if_neg h, Bool.false_eq_true, ↓reduceIte]

/-- The access behind a plain number is the one of the ISA. -/
theorem execCsrPtr_plain {n : BitVec 12} {ptr : CsrPtr} (h : PlainNumber n ptr) {d : Decoded}
    {op : CsrOp} (hop : d.funct3 = op.funct3) (wvalue : BitVec 64) {s t : Sys δ}
    (hlock : ptr.locked s.hs = false)
    (ht : (if d.rd ≠ 0 then s.setReg d.rd (ptr.get s.hs) else s) = t) :
    ∃ chkInt, execCsrPtr d n wvalue s =
      (.brk false, t.setHs { ptr.set t.hs (op.result (ptr.get s.hs) wvalue d.rs1) with
        chkInt := chkInt }) := by
  have hget : ptr.get t.hs = ptr.get s.hs := by
    rw [← ht]
    split
    · cases ptr <;> rfl
    · rfl
  have hlock' : ptr.locked t.hs = false := by
    rw [← hlock, ← ht]
    split <;> rfl
  have hresult := csrWritten_result hop (ptr.get s.hs) wvalue
  simp only [execCsrPtr, h.sstatus, h.sie, h.sip, Bool.false_eq_true, h.satp, false_and,
    ↓reduceIte, h.pointer, ht, hlock', h.writable, h.misa, csrMirror_plain h.mstatus]
  rw [← hresult]
  cases hneeded : csrWriteNeeded d wvalue with
  | true =>
    by_cases hint : csrIntRelated n = true
    · refine ⟨true, ?_⟩
      simp only [hint, ↓reduceIte]
      exact congrArg (fun hs => (Flow.brk false, t.setHs hs)) (CsrPtr.set_chkInt ptr t.hs _ true)
    · refine ⟨t.hs.chkInt, ?_⟩
      simp only [hint, Bool.false_eq_true, ↓reduceIte]
      exact congrArg (fun hs => (Flow.brk false, t.setHs hs))
        (CsrPtr.set_chkInt ptr t.hs _ t.hs.chkInt)
  | false =>
    -- nothing is written, not even the old value
    refine ⟨t.hs.chkInt, ?_⟩
    have hsame := CsrPtr.set_get ptr t.hs
    rw [hget] at hsame
    simp only [Bool.false_eq_true, ↓reduceIte, hsame]

/-- A CSR instruction on a plain register gets to the pointer. -/
theorem execCsr_plain (env : Env δ) (c : PlainCsr) (op : CsrOp) (rd rs1 : BitVec 5) {s : Sys δ}
    (hpriv : c.addr.extractLsb' 8 2 ≤ s.hs.privmode) :
    execCsr env (decode32 (csrWord c.addr op rd rs1)) s =
      execCsrPtr (decode32 (csrWord c.addr op rd rs1)) c.addr (op.operand s.hs.regs rs1) s := by
  have hn := c.plainNumber
  have hcsrno := csrno_csrWord c.addr op rd rs1
  have hoperand := csrOperand_csrWord c.addr op rd rs1 s.hs
  rw [Decoded.csrno] at hcsrno
  rw [Decoded.csrOperand] at hoperand
  simp only [execCsr, hcsrno, hoperand, gt_iff_lt, BitVec.not_lt.mpr hpriv, hn.time, hn.zero,
    hn.counteren, hn.pmpcfg, Bool.false_eq_true, ↓reduceIte]

/-- A CSR instruction that the mode allows, on a plain register that is not
    locked, completes: it reads the old value, writes the new one, and changes
    nothing else but the pc, `minstret` and `chk_int`. -/
theorem csrAccess_plain (env : Env δ) (s : Sys δ) (c : PlainCsr) (op : CsrOp) (rd rs1 : BitVec 5)
    (hpriv : c.addr.extractLsb' 8 2 ≤ s.hs.privmode)
    (hlock : ∀ i, c = .pmpaddr i → s.hs.pmp.pmpLockedaddr i = false) :
    ∃ chkInt, decodeExc env (s.withInst (csrWord c.addr op rd rs1) 32) =
      (.noexc, (s.withInst (csrWord c.addr op rd rs1) 32).setHs
        (csrAccessed c op rd rs1 chkInt (s.withInst (csrWord c.addr op rd rs1) 32).hs)) := by
  generalize hu : s.withInst (csrWord c.addr op rd rs1) 32 = u
  have hbytes : u.hs.instBytes = 4 := HartState.instBytes_of_len32 (by rw [← hu]; rfl)
  have hpriv' : c.addr.extractLsb' 8 2 ≤ u.hs.privmode := by rwa [← hu]
  have hlocked : c.ptr.locked u.hs = false := by
    rw [← hu]
    cases c
    case pmpaddr i => exact hlock i rfl
    all_goals rfl
  have hd := decode32_csrWord c.addr op rd rs1
  have hop : (decode32 (csrWord c.addr op rd rs1)).funct3 = op.funct3 := by rw [hd]
  obtain ⟨chkInt, h⟩ :=
    execCsrPtr_plain c.plainNumber hop (op.operand u.hs.regs rs1) hlocked rfl
  refine ⟨chkInt, ?_⟩
  rw [← hu, decodeExc_csrWord env s c.plainNumber.sfence, hu, execCsr_plain env c op rd rs1 hpriv',
    h, hd]
  -- what is left is the step over the instruction
  simp only [finish, retire, csrAccessed, ← hbytes, Bool.false_eq_true, ↓reduceIte]
  by_cases hrd : rd = 0
  · rw [if_neg (not_not.mpr hrd), if_pos hrd]
    cases c <;> rfl
  · rw [if_pos hrd, if_neg hrd]
    cases c <;> rfl

/-- A hart at reset with a value in x5. -/
private def csrHart : HartState :=
  { resetState 0 with regs := fun r => if r = 5 then 7 else 0 }

/-- `csrrw x5, mscratch, x5` swaps. -/
theorem csrAccess_plain_mscratch :
    ∃ chkInt, decodeExc Env.inert
        ((⟨csrHart, Bus.inert⟩ : Sys Unit).withInst (csrWord 0x340 .csrrw 5 5) 32) =
      (.noexc, ((⟨csrHart, Bus.inert⟩ : Sys Unit).withInst (csrWord 0x340 .csrrw 5 5) 32).setHs
        (csrAccessed .mscratch .csrrw 5 5 chkInt
          ((⟨csrHart, Bus.inert⟩ : Sys Unit).withInst (csrWord 0x340 .csrrw 5 5) 32).hs)) :=
  csrAccess_plain Env.inert ⟨csrHart, Bus.inert⟩ .mscratch .csrrw 5 5 (by decide)
    (fun _ h => PlainCsr.noConfusion h)

end RvEmu
