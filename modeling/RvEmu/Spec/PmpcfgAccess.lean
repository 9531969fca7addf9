import RvEmu.Spec.PmpLock

/-!
# Accesses to `pmpcfg`

`pmpcfg_rw` reads and writes eight entries, one in each round of its loop. The
writes are right for the two CSRs that exist for 16 entries. The value read is
put together from shifts of `int`: past the fourth entry these are up to the
host, and the sign of the fourth entry fills the upper half.
-/

namespace RvEmu

open Isa (CsrOp)

variable {δ : Type}

/-! ## The law -/

/-- The bits of a CSR after an instruction that writes `v`. -/
def Isa.CsrOp.combine {w : Nat} (op : CsrOp) (old v : BitVec w) : BitVec w :=
  match op with
  | .csrrw | .csrrwi => v
  | .csrrs | .csrrsi => old ||| v
  | .csrrc | .csrrci => old &&& ~~~v

/-- Byte `k` of a CSR. -/
def byteAt (x : BitVec 64) (k : Nat) : BitVec 8 := x.extractLsb' (8 * k) 8

/-- The number of the first entry in a `pmpcfg` CSR. -/
def firstEntry (addr : BitVec 12) : Nat := 4 * (addr - 0x3A0).toNat

/-- Entry `k`; those that do not exist read as zero. -/
def PmpState.entry (p : PmpState) (k : Nat) : BitVec 8 := if h : k < 16 then p.pmpcfg ⟨k, h⟩ else 0

/-- An entry after an instruction that writes `v` to it. -/
def entryResult (op : CsrOp) (old v : BitVec 8) : BitVec 8 :=
  if old.getLsbD 7 then old else op.combine old v

/-- `start_index` of `pmpcfg_rw`. -/
def pmpcfgStart (addr : BitVec 12) : Nat := ((4 * (addr - 0x3A0)).setWidth 8).toNat

/-- What a CSR instruction on the `pmpcfg` CSR `addr` must do, from `hs` to `hs'`. -/
structure PmpcfgLaw (addr : BitVec 12) (op : CsrOp) (rd : BitVec 5) (operand : BitVec 64)
    (hs hs' : HartState) : Prop where
  indices : ∀ i < 8, pmpcfgStart addr + i < 16
  pmpaddr : hs'.pmp.pmpaddr = hs.pmp.pmpaddr
  read : rd ≠ 0 → ∀ k < 8, byteAt (hs'.regs rd) k = hs.pmp.entry (firstEntry addr + k)
  write : ∀ k : Fin 16, hs'.pmp.pmpcfg k =
    if firstEntry addr ≤ k ∧ k < firstEntry addr + 8 then
      entryResult op (hs.pmp.pmpcfg k) (byteAt operand (k - firstEntry addr))
    else hs.pmp.pmpcfg k

/-! ## The rounds -/

section Rounds

variable (env : Env δ) (wvalue : BitVec 64) (op : CsrOp) (start : Nat)

/-- The shift and the mask take out a byte. -/
theorem writeval_eq (i : Nat) :
    ((wvalue >>> (8 * i)) &&& 0xFF).setWidth 8 = byteAt wvalue i := by
  apply BitVec.eq_of_getLsbD_eq
  intro j hj
  have hmask : (0xFF : BitVec 64).getLsbD j = true := by
    revert j
    decide
  have h64 : j < 64 := by omega
  simp only [byteAt, BitVec.getLsbD_setWidth, BitVec.getLsbD_and, hmask, BitVec.getLsbD_ushiftRight,
    BitVec.getLsbD_extractLsb', hj, decide_true, Bool.true_and, Bool.and_true]

/-- The locks at the end of a round change no entry. -/
theorem lockRound_pmpcfg (q : PmpState) {k : Nat} (hk : k < 16) (rv : BitVec 64) (c c' : Prop)
    [Decidable c] [Decidable c'] :
    (if c then
      if c' then (rv, (q.setLocked k).setLocked (k - 1)) else (rv, q.setLocked k)
    else (rv, q)).2.pmpcfg = q.pmpcfg := by
  have hk' : k - 1 < 16 := by omega
  obtain ⟨hcfg, -, -⟩ := setLocked_frame q hk
  split
  · split
    · obtain ⟨hcfg', -, -⟩ := setLocked_frame (q.setLocked k) hk'
      exact hcfg'.trans hcfg
    · exact hcfg
  · rfl

/-- A round of the lock does not touch the value that is read. -/
theorem lockRound_readval {α β : Type} (rv : α) (x y z : β) (c c' : Prop) [Decidable c]
    [Decidable c'] : (if c then if c' then (rv, x) else (rv, y) else (rv, z)).1 = rv := by
  split
  · split <;> rfl
  · rfl

/-- A round writes its entry. -/
theorem pmpcfgStep_pmpcfg (acc : BitVec 64 × PmpState) {i : Nat} (hk : start + i < 16) :
    (pmpcfgStep env wvalue (op.funct3.setWidth 2) start acc i).2.pmpcfg =
      Function.update acc.2.pmpcfg ⟨start + i, hk⟩
        (entryResult op (acc.2.pmpcfg ⟨start + i, hk⟩) (byteAt wvalue i)) := by
  obtain ⟨readval, p⟩ := acc
  unfold pmpcfgStep
  dsimp only
  rw [cfgByte_of_lt p hk, writeval_eq, entryResult]
  by_cases hlock : (p.pmpcfg ⟨start + i, hk⟩).getLsbD 7 = true
  · rw [if_pos hlock, if_pos hlock, Function.update_eq_self]
  · rw [if_neg hlock, if_neg hlock]
    refine (lockRound_pmpcfg _ hk _ _ _).trans ?_
    cases op <;> exact congrArg PmpState.pmpcfg (dif_pos hk)

/-- A round adds its entry to the value read. -/
theorem pmpcfgStep_readval (funct : BitVec 2) (acc : BitVec 64 × PmpState) (i : Nat) :
    (pmpcfgStep env wvalue funct start acc i).1 =
      acc.1 ||| (env.intShl ((acc.2.cfgByte (start + i)).setWidth 32) (8 * i)).signExtend 64 := by
  obtain ⟨readval, p⟩ := acc
  unfold pmpcfgStep
  dsimp only
  split
  · rfl
  · exact lockRound_readval ..

/-- The value put together in `n` rounds from the bytes `b`. -/
def readBits (b : Nat → BitVec 8) : Nat → BitVec 64
  | 0 => 0
  | n + 1 => readBits b n ||| (env.intShl ((b n).setWidth 32) (8 * n)).signExtend 64

/-- What is read depends on the bytes, … -/
theorem readBits_congr {b b' : Nat → BitVec 8} {n : Nat} (h : ∀ i < n, b i = b' i) :
    readBits env b n = readBits env b' n := by
  induction n with
  | zero => rfl
  | succ n ih =>
    have hrest := ih fun i hi => h i (Nat.lt_succ_of_lt hi)
    rw [readBits, readBits, hrest, h n (Nat.lt_succ_self n)]

/-- The first `n` rounds read the old entries and write the new ones. -/
theorem foldl_pmpcfgStep (p : PmpState) (hstart : start ≤ 8) {n : Nat} (hn : n ≤ 8) :
    let r := (List.range n).foldl (pmpcfgStep env wvalue (op.funct3.setWidth 2) start) (0, p)
    r.1 = readBits env (fun i => p.cfgByte (start + i)) n ∧
    ∀ k : Fin 16, r.2.pmpcfg k =
      if start ≤ k ∧ k < start + n then
        entryResult op (p.pmpcfg k) (byteAt wvalue (k - start))
      else p.pmpcfg k := by
  induction n with
  | zero =>
    refine ⟨rfl, fun k => ?_⟩
    have hnone : ¬ (start ≤ k ∧ (k : Nat) < start + 0) := by omega
    exact (if_neg hnone).symm
  | succ n ih =>
    obtain ⟨hread, hcfg⟩ := ih (Nat.le_of_succ_le hn)
    have hk : start + n < 16 := by omega
    simp only [List.range_succ, List.foldl_append, List.foldl_cons, List.foldl_nil] at hread hcfg ⊢
    generalize (List.range n).foldl _ _ = acc at hread hcfg ⊢
    -- the entry of this round has not been written before
    have hold : acc.2.pmpcfg ⟨start + n, hk⟩ = p.pmpcfg ⟨start + n, hk⟩ := by
      rw [hcfg]
      exact if_neg fun h => Nat.lt_irrefl _ h.2
    refine ⟨?_, fun k => ?_⟩
    · rw [pmpcfgStep_readval, hread, readBits, cfgByte_of_lt _ hk, cfgByte_of_lt _ hk, hold]
    · rw [pmpcfgStep_pmpcfg env wvalue op start acc hk, hold]
      by_cases hkn : k = ⟨start + n, hk⟩
      · subst hkn
        have hin : start ≤ start + n ∧ start + n < start + (n + 1) := by omega
        rw [Function.update_self, if_pos hin, Nat.add_sub_cancel_left]
      · have hne : (k : Nat) ≠ start + n := fun h => hkn (Fin.ext h)
        have hiff : (start ≤ k ∧ (k : Nat) < start + (n + 1)) ↔
            (start ≤ k ∧ (k : Nat) < start + n) := by omega
        rw [Function.update_of_ne hkn, hcfg]
        simp only [hiff]

end Rounds

/-! ## The value read -/

section Read

variable (env : Env δ) (b : Nat → BitVec 8)

/-- What the shifts within an `int` put together. -/
def lowWord : BitVec 32 := b 3 ++ b 2 ++ b 1 ++ b 0

/-- What the host makes of the shifts by the width of `int` and more. -/
def overWord : BitVec 32 :=
  env.intShlOverflow ((b 4).setWidth 32) 32 ||| env.intShlOverflow ((b 5).setWidth 32) 40 |||
    env.intShlOverflow ((b 6).setWidth 32) 48 ||| env.intShlOverflow ((b 7).setWidth 32) 56

/-- When the value read consists of the eight bytes: the host adds nothing to the
    lower four, and the upper four repeat the sign of the fourth. -/
structure ReadsBytes : Prop where
  host : ∀ k < 4, b k ||| (overWord env b).extractLsb' (8 * k) 8 = b k
  upper : ∀ k < 8, 4 ≤ k → b k = if (b 3).getLsbD 7 then 0xFF else 0

/-- Byte `k` of a word. -/
theorem lowWord_byte {k : Nat} (hk : k < 4) : (lowWord b).extractLsb' (8 * k) 8 = b k := by
  apply BitVec.eq_of_getLsbD_eq
  intro i hi
  have hcases : k = 0 ∨ k = 1 ∨ k = 2 ∨ k = 3 := by omega
  unfold lowWord
  rcases hcases with rfl | rfl | rfl | rfl <;>
    simp only [BitVec.getLsbD_extractLsb', BitVec.getLsbD_append, hi, decide_true,
      Bool.true_and] <;> grind

/-- … and is a sign-extended word, … -/
theorem readBits_eq : readBits env b 8 = (lowWord b ||| overWord env b).signExtend 64 := by
  have hlow : lowWord b = (b 0).setWidth 32 <<< 0 ||| (b 1).setWidth 32 <<< 8 |||
      (b 2).setWidth 32 <<< 16 ||| (b 3).setWidth 32 <<< 24 := by
    apply BitVec.eq_of_getLsbD_eq
    intro i hi
    unfold lowWord
    simp only [BitVec.getLsbD_or, BitVec.getLsbD_shiftLeft, BitVec.getLsbD_setWidth,
      BitVec.getLsbD_append, hi, decide_true, Bool.true_and]
    grind
  simp only [readBits, Env.intShl, Nat.reduceMul, Nat.reduceLT, ↓reduceIte,
    ← BitVec.signExtend_or, hlow, overWord, BitVec.or_assoc]
  exact BitVec.zero_or

/-- The bytes of a sign extension. -/
theorem byteAt_signExtend (x : BitVec 32) {k : Nat} (hk : k < 8) :
    byteAt (x.signExtend 64) k =
      if k < 4 then x.extractLsb' (8 * k) 8 else if x.getLsbD 31 then 0xFF else 0 := by
  have hones : ∀ i < 8, (0xFF : BitVec 8).getLsbD i = true := by decide
  apply BitVec.eq_of_getLsbD_eq
  intro i hi
  have h64 : 8 * k + i < 64 := by omega
  simp only [byteAt, BitVec.getLsbD_extractLsb', BitVec.getLsbD_signExtend, h64, hi, decide_true,
    Bool.true_and, BitVec.msb_eq_getLsbD_last]
  by_cases hlow : k < 4
  · have h32 : 8 * k + i < 32 := by omega
    simp only [hlow, h32, ↓reduceIte, BitVec.getLsbD_extractLsb', hi, decide_true, Bool.true_and]
  · have h32 : ¬ 8 * k + i < 32 := by omega
    rw [if_neg hlow, if_neg h32]
    cases x.getLsbD 31 with
    | false => exact BitVec.getLsbD_zero.symm
    | true => exact (hones i hi).symm

/-- … byte by byte … -/
theorem byteAt_readBits {k : Nat} (hk : k < 8) :
    byteAt (readBits env b 8) k =
      if k < 4 then b k ||| (overWord env b).extractLsb' (8 * k) 8
      else if (lowWord b ||| overWord env b).getLsbD 31 then 0xFF else 0 := by
  rw [readBits_eq, byteAt_signExtend _ hk, BitVec.extractLsb'_or]
  by_cases hlow : k < 4
  · rw [if_pos hlow, if_pos hlow, lowWord_byte b hlow]
  · rw [if_neg hlow, if_neg hlow]

/-- The sign is that of the fourth byte if the host leaves it alone. -/
theorem readBits_sign (h : b 3 ||| (overWord env b).extractLsb' 24 8 = b 3) :
    (lowWord b ||| overWord env b).getLsbD 31 = (b 3).getLsbD 7 := by
  have hbyte : (lowWord b ||| overWord env b).extractLsb' 24 8 = b 3 := by
    rw [BitVec.extractLsb'_or]
    exact (congrArg (· ||| _) (lowWord_byte b (k := 3) (by decide))).trans h
  rw [← hbyte, BitVec.getLsbD_extractLsb']
  rfl

/-- … right exactly where `ReadsBytes` holds. -/
theorem byteAt_readBits_iff :
    (∀ k < 8, byteAt (readBits env b 8) k = b k) ↔ ReadsBytes env b := by
  constructor
  · intro h
    have hhost : ∀ k < 4, b k ||| (overWord env b).extractLsb' (8 * k) 8 = b k := by
      intro k hk
      have hread := h k (by omega)
      rwa [byteAt_readBits env b (by omega), if_pos hk] at hread
    refine ⟨hhost, fun k hk8 hk => ?_⟩
    have hread := h k hk8
    rw [byteAt_readBits env b hk8, if_neg (Nat.not_lt.mpr hk),
      readBits_sign env b (hhost 3 (by decide))] at hread
    exact hread.symm
  · intro h k hk
    rw [byteAt_readBits env b hk]
    by_cases hlow : k < 4
    · rw [if_pos hlow]
      exact h.host k hlow
    · rw [if_neg hlow, readBits_sign env b (h.host 3 (by decide))]
      exact (h.upper k hk (Nat.not_lt.mp hlow)).symm

end Read

/-! ## The instruction -/

/-- Only two of the CSRs lie within the entries. -/
theorem pmpcfgStart_lt_iff {addr : BitVec 12} (hlow : 0x3A0 ≤ addr) (hhigh : addr < 0x3B0)
    (heven : addr.getLsbD 0 = false) :
    (∀ i < 8, pmpcfgStart addr + i < 16) ↔ addr = 0x3A0 ∨ addr = 0x3A2 := by
  revert addr
  decide +kernel

/-- The first entry behind a number. -/
theorem pmpcfgStart_eq {addr : BitVec 12} (h : addr = 0x3A0 ∨ addr = 0x3A2) :
    pmpcfgStart addr = firstEntry addr ∧ firstEntry addr ≤ 8 := by
  rcases h with rfl | rfl <;> exact ⟨rfl, by decide⟩

/-- An entry is a byte of the array. -/
theorem entry_eq_cfgByte (p : PmpState) {k : Nat} (hk : k < 16) : p.entry k = p.cfgByte k := by
  rw [cfgByte_of_lt p hk]
  exact dif_pos hk

/-- `pmpcfg_rw` on one of the two CSRs. -/
theorem pmpcfgRw_law_iff (env : Env δ) (t : Sys δ) {addr : BitVec 12}
    (haddr : addr = 0x3A0 ∨ addr = 0x3A2) (op : CsrOp) (rd : BitVec 5) (operand : BitVec 64)
    {hs : HartState} (hpmp : t.hs.pmp = hs.pmp) :
    PmpcfgLaw addr op rd operand hs
        (pmpcfgRw env t addr rd operand (op.funct3.setWidth 2)).2.hs ↔
      (rd = 0 ∨ ReadsBytes env fun i => hs.pmp.entry (firstEntry addr + i)) := by
  obtain ⟨hstart, hle⟩ := pmpcfgStart_eq haddr
  have heven : addr.getLsbD 0 = false := by rcases haddr with rfl | rfl <;> rfl
  let b := fun i => hs.pmp.entry (firstEntry addr + i)
  have hbytes : ∀ i < 8, hs.pmp.cfgByte (firstEntry addr + i) = b i := by
    intro i hi
    exact (entry_eq_cfgByte hs.pmp (by omega)).symm
  obtain ⟨hread, hcfg⟩ := foldl_pmpcfgStep env operand op (firstEntry addr) hs.pmp hle (le_refl 8)
  have haddrs := (foldl_cfgStep env operand (op.funct3.setWidth 2) (firstEntry addr) hle
    (List.range 8) (fun i hi => List.mem_range.mp hi) (0, hs.pmp)).addr
  have hbits := hread.trans (readBits_congr env hbytes)
  -- the fold that `pmpcfg_rw` starts from the entries of `hs`
  have hrw : pmpcfgRw env t addr rd operand (op.funct3.setWidth 2) =
      let r := (List.range 8).foldl
        (pmpcfgStep env operand (op.funct3.setWidth 2) (firstEntry addr)) (0, hs.pmp)
      (.noexc, (t.setReg rd r.1).setHs { (t.setReg rd r.1).hs with pmp := syncExpPmp env r.2 }) := by
    rw [← hstart, ← hpmp, pmpcfgRw, heven]
    rfl
  rw [hrw]
  generalize (List.range 8).foldl _ _ = r at hbits hcfg haddrs ⊢
  obtain ⟨hsync, hsync', -, -⟩ := syncExpPmp_entry env r.2 0
  have hrd : (Function.update t.hs.regs rd r.1) rd = r.1 := Function.update_self ..
  have hiff : (∀ k < 8, byteAt r.1 k = b k) ↔ ReadsBytes env b := by
    rw [hbits]
    exact byteAt_readBits_iff env b
  constructor
  · intro h
    by_cases hrd0 : rd = 0
    · exact .inl hrd0
    · refine .inr (hiff.mp fun k hk => ?_)
      have hk' := h.read hrd0 k hk
      exact (congrArg (byteAt · k) hrd.symm).trans hk'
  · intro h
    refine ⟨?_, hsync'.trans haddrs, ?_, ?_⟩
    · intro i hi
      rw [hstart]
      omega
    · intro hrd0 k hk
      have hk' := hiff.mpr (h.resolve_left hrd0) k hk
      exact (congrArg (byteAt · k) hrd).trans hk'
    · intro k
      exact (congrFun hsync k).trans (hcfg k)

/-- A CSR instruction on a `pmpcfg` CSR follows the law just when the CSR has
    entries, and the value for `rd` comes out as their bytes. -/
theorem pmpcfgLaw_iff (env : Env δ) (s : Sys δ) (addr : BitVec 12) (op : CsrOp)
    (rd rs1 : BitVec 5) (hlow : 0x3A0 ≤ addr) (hhigh : addr < 0x3B0)
    (heven : addr.getLsbD 0 = false) (hpriv : s.hs.privmode = 3) :
    PmpcfgLaw addr op rd (op.operand s.hs.regs rs1) s.hs
        (decodeExc env (s.withInst (csrWord addr op rd rs1) 32)).2.hs ↔
      (addr = 0x3A0 ∨ addr = 0x3A2) ∧
      (rd = 0 ∨ ReadsBytes env fun i => s.hs.pmp.entry (firstEntry addr + i)) := by
  have hd := decode32_csrWord addr op rd rs1
  have hcsrno := csrno_csrWord addr op rd rs1
  have hoperand := csrOperand_csrWord addr op rd rs1 s.hs
  have hacc : AccessesPmpcfg (s.withInst (csrWord addr op rd rs1) 32) :=
    ⟨rfl, by rw [Sys.withInst, hd], by rw [Sys.withInst, hcsrno]; exact hlow,
      by rw [Sys.withInst, hcsrno]; exact hhigh, by rw [Sys.withInst, hcsrno]; exact heven, hpriv⟩
  obtain ⟨t, hpmp, ht⟩ := hacc.decodeExc_eq env
  have hrun : decodeExc env (s.withInst (csrWord addr op rd rs1) 32) =
      pmpcfgRw env t addr rd (op.operand s.hs.regs rs1) (op.funct3.setWidth 2) := by
    rw [ht]
    change pmpcfgRw env t (decode32 (csrWord addr op rd rs1)).csrno
      (decode32 (csrWord addr op rd rs1)).rd ((decode32 (csrWord addr op rd rs1)).csrOperand s.hs)
      ((decode32 (csrWord addr op rd rs1)).funct3.setWidth 2) = _
    rw [hcsrno, hoperand, hd]
  rw [hrun]
  by_cases haddr : addr = 0x3A0 ∨ addr = 0x3A2
  · rw [and_iff_right haddr]
    exact pmpcfgRw_law_iff env t haddr op rd _ hpmp
  · refine iff_of_false (fun h => ?_) fun h => haddr h.1
    exact haddr ((pmpcfgStart_lt_iff hlow hhigh heven).mp h.indices)

/-- A hart at reset with 1 in x5. -/
private def resetMachine : Sys Unit :=
  ⟨{ resetState 0 with regs := fun r => if r = 5 then 1 else 0 }, Bus.inert⟩

/-- `csrrw x6, pmpcfg0, x5` at reset. -/
theorem pmpcfgLaw_csrrw_pmpcfg0 :
    PmpcfgLaw 0x3A0 .csrrw 6 1 resetMachine.hs
      (decodeExc Env.inert (resetMachine.withInst (csrWord 0x3A0 .csrrw 6 5) 32)).2.hs :=
  (pmpcfgLaw_iff Env.inert resetMachine 0x3A0 .csrrw 6 5 (by decide) (by decide) rfl rfl).mpr
    ⟨.inl rfl, .inr ⟨by decide +kernel, by decide +kernel⟩⟩

/-- `csrrw x6, pmpcfg4, x5` overwrites a byte of `pmpaddr0`. -/
theorem pmpcfg4_writes_pmpaddr0 :
    ¬ ∀ (s : Sys Unit) (addr : BitVec 12) (op : CsrOp) (rd rs1 : BitVec 5), 0x3A0 ≤ addr →
      addr < 0x3B0 → addr.getLsbD 0 = false → s.hs.privmode = 3 →
      PmpcfgLaw addr op rd (op.operand s.hs.regs rs1) s.hs
        (decodeExc Env.inert (s.withInst (csrWord addr op rd rs1) 32)).2.hs := by
  intro h
  have hlaw := h resetMachine 0x3A4 .csrrw 6 5 (by decide) (by decide) rfl rfl
  exact absurd (congrFun hlaw.pmpaddr 0) (by decide +kernel)

end RvEmu
