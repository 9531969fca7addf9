import RvEmu.Isa.Rv64m
import RvEmu.Spec.Decode
import RvEmu.Spec.Outcome

/-!
# Multiplication and division

The values of the M extension are those of the ISA manual: for products, that
the way through 128 bits is exact; for divisions, when the host can make them.
-/

namespace RvEmu

open Isa

variable {δ : Type}

/-- `decode_exc` on the 32-bit word `inst` writes `v` to `rd` and retires the instruction. -/
def WritesBack (env : Env δ) (s : Sys δ) (inst : BitVec 32) (rd : BitVec 5) (v : BitVec 64) :
    Prop :=
  decodeExc env (s.withInst inst 32) = (.noexc, retire false ((s.withInst inst 32).setReg rd v))

section Encoding

variable (env : Env δ) (s : Sys δ) (rd rs1 rs2 : BitVec 5) (funct3 : BitVec 3)

/-- An instruction of the M extension writes its value to `rd`, … -/
theorem writesBack_op :
    WritesBack env s (encR 0b0000001 rs2 rs1 funct3 rd 0b0110011) rd
      (opMulValue funct3 (s.hs.regs rs1) (s.hs.regs rs2)) := by
  unfold WritesBack
  rw [decodeExc_withInst32, decode32_encR _ _ _ _ _ _ rfl]
  rfl

/-- … and so does one of the 32-bit forms. -/
theorem writesBack_op32 {v : BitVec 64}
    (h : op32MulValue funct3 (s.hs.regs rs1) (s.hs.regs rs2) = some v) :
    WritesBack env s (encR 0b0000001 rs2 rs1 funct3 rd 0b0111011) rd v := by
  unfold WritesBack
  rw [decodeExc_withInst32, decode32_encR _ _ _ _ _ _ rfl]
  show finish (writeback _ _ (op32MulValue funct3 (s.hs.regs rs1) (s.hs.regs rs2))) = _
  rw [h]
  rfl

end Encoding

/-! ## Products -/

/-- The high half of a 128-bit value, read as signed. -/
theorem toInt_highHalf (x : BitVec 128) :
    ((x.sshiftRight 64).setWidth 64).toInt = high x.toInt := by
  have hlt : x.toInt < 2 ^ 127 := BitVec.toInt_lt
  have hle : -2 ^ 127 ≤ x.toInt := BitVec.le_toInt x
  rw [← BitVec.signExtend_eq_setWidth_of_le _ (by decide),
    BitVec.toInt_signExtend_eq_toInt_bmod_of_le _ (by decide), BitVec.toInt_sshiftRight,
    Int.shiftRight_eq_div_pow]
  show (x.toInt / 0x10000000000000000).bmod _ = x.toInt / 0x10000000000000000
  apply Int.bmod_eq_of_le
  · omega
  · omega

/-- The high half of a 128-bit value, read as unsigned: the shift fills in bits that are
    cut off. -/
theorem toNat_highHalf (x : BitVec 128) :
    (((x.sshiftRight 64).setWidth 64).toNat : Int) = high x.toNat := by
  -- of the arithmetic shift only the 64 bits below the copies of the sign are kept
  have hx : (x.sshiftRight 64).setWidth 64 = x.extractLsb' 64 64 := by
    apply BitVec.eq_of_getLsbD_eq
    intro i hi
    have h : 64 + i < 128 := by omega
    simp [BitVec.getLsbD_sshiftRight, hi, h]
    omega
  have hlt := x.isLt
  rw [hx, BitVec.extractLsb'_toNat, Nat.shiftRight_eq_div_pow, Nat.mod_eq_of_lt]
  · rfl
  · omega

/-- The signed product fits into 128 bits, … -/
theorem toInt_mul_signed (a b : BitVec 64) :
    (a.signExtend 128 * b.signExtend 128).toInt = a.toInt * b.toInt := by
  have hle : a.toInt * b.toInt ≤ 2 ^ 126 := BitVec.toInt_mul_toInt_le
  have hge : -2 ^ 126 ≤ a.toInt * b.toInt := BitVec.le_toInt_mul_toInt
  rw [BitVec.toInt_mul, BitVec.toInt_signExtend_of_le (by decide),
    BitVec.toInt_signExtend_of_le (by decide)]
  apply Int.bmod_eq_of_le <;> omega

/-- … and so do the product with an unsigned factor … -/
theorem toInt_mul_mixed (a b : BitVec 64) :
    (a.signExtend 128 * b.setWidth 128).toInt = a.toInt * b.toNat := by
  have hlt : a.toInt < 2 ^ 63 := BitVec.toInt_lt
  have hge : -2 ^ 63 ≤ a.toInt := BitVec.le_toInt a
  have hb := b.isLt
  have hb0 : (0 : Int) ≤ b.toNat := Int.natCast_nonneg _
  -- an unsigned factor scales the bounds of the signed one
  have hupper : a.toInt * b.toNat ≤ 2 ^ 63 * b.toNat := Int.mul_le_mul_of_nonneg_right hlt.le hb0
  have hlower : -2 ^ 63 * b.toNat ≤ a.toInt * b.toNat := Int.mul_le_mul_of_nonneg_right hge hb0
  have hbInt : (b.setWidth 128).toInt = b.toNat := by
    rw [BitVec.toInt_setWidth]
    apply Int.bmod_eq_of_le <;> omega
  rw [BitVec.toInt_mul, BitVec.toInt_signExtend_of_le (by decide), hbInt]
  apply Int.bmod_eq_of_le <;> omega

/-- … and the unsigned one. -/
theorem toNat_mul_unsigned (a b : BitVec 64) :
    (a.setWidth 128 * b.setWidth 128).toNat = a.toNat * b.toNat := by
  have hlt : a.toNat * b.toNat < 2 ^ 128 := BitVec.toNat_mul_toNat_lt
  rw [BitVec.toNat_mul, BitVec.toNat_setWidth_of_le (by decide),
    BitVec.toNat_setWidth_of_le (by decide), Nat.mod_eq_of_lt hlt]

/-- The low bits of a product do not depend on the signs. -/
theorem mul_eq_ofInt {w : Nat} (a b : BitVec w) : a * b = BitVec.ofInt w (a.toInt * b.toInt) := by
  rw [BitVec.ofInt_mul, BitVec.ofInt_toInt, BitVec.ofInt_toInt]

/-- Every multiplication gives the part of the mathematical product that it is to give. -/
theorem multiplication_exact (env : Env δ) (op : MulOp) (rd rs1 rs2 : BitVec 5) (s : Sys δ) :
    ∃ v, op.Exact (s.hs.regs rs1) (s.hs.regs rs2) v ∧
      WritesBack env s (op.encode rd rs1 rs2) rd v := by
  cases op with
  | mul => exact ⟨_, mul_eq_ofInt _ _, writesBack_op env s rd rs1 rs2 _⟩
  | mulh =>
    refine ⟨_, ?_, writesBack_op env s rd rs1 rs2 _⟩
    exact (toInt_highHalf _).trans (congrArg high (toInt_mul_signed _ _))
  | mulhsu =>
    refine ⟨_, ?_, writesBack_op env s rd rs1 rs2 _⟩
    exact (toInt_highHalf _).trans (congrArg high (toInt_mul_mixed _ _))
  | mulhu =>
    refine ⟨_, ?_, writesBack_op env s rd rs1 rs2 _⟩
    -- MULHU shifts its product as a signed value, too
    refine (toNat_highHalf _).trans (congrArg high ?_)
    rw [toNat_mul_unsigned, Int.natCast_mul]
  | mulw =>
    refine ⟨_, ?_, writesBack_op32 env s rd rs1 rs2 _ rfl⟩
    exact congrArg (BitVec.signExtend 64) (mul_eq_ofInt _ _)

/-! ## What the host survives -/

/-- `x` is `y` where the host survives it. -/
def HostGives {α : Type} (x : Option α) (y : α) : Prop := ∀ v, x = some v → y = v

namespace HostGives

variable {α β : Type} {x x' : Option α} {y y' : α}

/-- What the host computes, … -/
theorem some (y : α) : HostGives (some y) y := fun _ h => Option.some.inj h

/-- … what kills it, … -/
theorem none (y : α) : HostGives none y := fun _ h => absurd h.symm (Option.some_ne_none _)

/-- … by cases, … -/
theorem ite {c : Prop} [Decidable c] (h : HostGives x y) (h' : HostGives x' y') :
    HostGives (if c then x else x') (if c then y else y') := by
  split
  · exact h
  · exact h'

/-- … behind a test … -/
theorem guard {c : Prop} [Decidable c] (y : α) :
    HostGives (if c then Option.none else Option.some y) y := by
  split
  · exact none y
  · exact some y

/-- … and with a conversion. -/
theorem map (h : HostGives x y) (f : α → β) : HostGives (x.map f) (f y) := by
  cases x with
  | none => exact none _
  | some z =>
    rw [h z rfl]
    exact some _

end HostGives

/-- The model computes what the host computes. -/
theorem opDivHost_gives (op : DivOp) (a b : BitVec 64) :
    HostGives (opDivHost op.funct3 a b) (opMulValue op.funct3 a b) := by
  cases op with
  | div => exact .ite (.some _) (.ite (.some _) (.guard _))
  | divu => exact .ite (.some _) (.guard _)
  | rem => exact .ite (.some _) (.ite (.some _) (.guard _))
  | remu => exact .ite (.some _) (.guard _)

/-- The same of the 32-bit forms, which extend the sign of the quotient. -/
theorem op32DivHost_gives (op : DivOp) (a b : BitVec 64) :
    ∃ v, op32MulValue op.funct3 a b = some v ∧ HostGives (op32DivHost op.funct3 a b) v := by
  cases op with
  | div => exact ⟨_, rfl, .ite (.some _) (.ite (.some _) (.map (.guard _) _))⟩
  | divu => exact ⟨_, rfl, .ite (.some _) (.map (.guard _) _)⟩
  | rem => exact ⟨_, rfl, .ite (.some _) (.ite (.some _) (.guard _))⟩
  | remu => exact ⟨_, rfl, .ite (.some _) (.map (.guard _) _)⟩

/-! ## Quotients and remainders -/

section Values

variable {w : Nat} {a b : BitVec w}

/-- The host divides as the ISA does where it divides at all, signed … -/
theorem hostSdiv_eq (hb : b ≠ 0) (hov : ¬ DivOverflow a b) :
    hostSdiv a b = some (DivOp.div.eval a b) := by
  have hhost : ¬ (b = 0 ∨ (a = BitVec.intMin w ∧ b = -1)) := not_or.mpr ⟨hb, hov⟩
  have hdiv : a.sdiv b = BitVec.ofInt w (a.toInt.tdiv b.toInt) := by
    apply BitVec.eq_of_toInt_eq
    rw [BitVec.toInt_sdiv, BitVec.toInt_ofInt]
  rw [hostSdiv, if_neg hhost, DivOp.eval, if_neg hb, if_neg hov, hdiv]

/-- … and with a signed remainder, … -/
theorem hostSrem_eq (hb : b ≠ 0) (hov : ¬ DivOverflow a b) :
    hostSrem a b = some (DivOp.rem.eval a b) := by
  have hhost : ¬ (b = 0 ∨ (a = BitVec.intMin w ∧ b = -1)) := not_or.mpr ⟨hb, hov⟩
  rw [hostSrem, if_neg hhost, DivOp.eval, if_neg hb, if_neg hov, ← BitVec.toInt_srem,
    BitVec.ofInt_toInt]

/-- … unsigned … -/
theorem hostUdiv_eq (hb : b ≠ 0) : hostUdiv a b = some (DivOp.divu.eval a b) := by
  have hdiv : a / b = BitVec.ofNat w (a.toNat / b.toNat) := by
    rw [← BitVec.toNat_udiv, BitVec.ofNat_toNat, BitVec.setWidth_eq]
  rw [hostUdiv, if_neg hb, DivOp.eval, if_neg hb, hdiv]

/-- … and with an unsigned remainder. -/
theorem hostUmod_eq (hb : b ≠ 0) : hostUmod a b = some (DivOp.remu.eval a b) := by
  have hmod : a % b = BitVec.ofNat w (a.toNat % b.toNat) := by
    rw [← BitVec.toNat_umod, BitVec.ofNat_toNat, BitVec.setWidth_eq]
  rw [hostUmod, if_neg hb, DivOp.eval, if_neg hb, hmod]

end Values

/-- The guards of the 64-bit divisions are those of the ISA. -/
theorem opDivHost_eq (op : DivOp) (a b : BitVec 64) :
    opDivHost op.funct3 a b = some (op.eval a b) := by
  cases op with
  | div =>
    show (if b = 0 then some (BitVec.allOnes 64)
      else if DivOverflow a b then some a else hostSdiv a b) = some (DivOp.div.eval a b)
    split
    · next hb => rw [DivOp.eval, if_pos hb]
    · next hb =>
      split
      · next hov => rw [DivOp.eval, if_neg hb, if_pos hov]
      · next hov => exact hostSdiv_eq hb hov
  | divu =>
    show (if b = 0 then some (BitVec.allOnes 64) else hostUdiv a b) = _
    split
    · next hb => rw [DivOp.eval, if_pos hb]
    · next hb => exact hostUdiv_eq hb
  | rem =>
    show (if b = 0 then some a
      else if DivOverflow a b then some 0 else hostSrem a b) = some (DivOp.rem.eval a b)
    split
    · next hb => rw [DivOp.eval, if_pos hb]
    · next hb =>
      split
      · next hov => rw [DivOp.eval, if_neg hb, if_pos hov]
      · next hov => exact hostSrem_eq hb hov
  | remu =>
    show (if b = 0 then some a else hostUmod a b) = _
    split
    · next hb => rw [DivOp.eval, if_pos hb]
    · next hb => exact hostUmod_eq hb

/-! ## Word divisions -/

/-- The register holds the sign extension of its low half. -/
def SignExtended (a : BitVec 64) : Prop := sext32 a = a

instance (a : BitVec 64) : Decidable (SignExtended a) := inferInstanceAs (Decidable (_ = _))

/-- The operands of the word division that overflows, where DIVW does not see it: its
    guard compares the whole registers. -/
def UnguardedOverflow (a b : BitVec 64) : Prop :=
  DivOverflow (a.setWidth 32) (b.setWidth 32) ∧ ¬ (SignExtended a ∧ SignExtended b)

/-- The guard of DIVW. -/
theorem divwGuard_iff (a b : BitVec 64) :
    (a = (BitVec.intMin 32).signExtend 64 ∧ b = -1) ↔
      DivOverflow (a.setWidth 32) (b.setWidth 32) ∧ SignExtended a ∧ SignExtended b := by
  have hneg : (-1 : BitVec 32).signExtend 64 = -1 := by decide
  constructor
  · rintro ⟨rfl, rfl⟩
    decide
  · rintro ⟨⟨ha, hb⟩, ha', hb'⟩
    refine ⟨ha'.symm.trans ?_, hb'.symm.trans ?_⟩
    · rw [sext32, ha]
    · rw [sext32, hb, hneg]

/-- A remainder of words is the same at 64 bits, where it does not overflow. -/
theorem hostSrem_signExtend {a b : BitVec 32} (hb : b ≠ 0) (hov : ¬ DivOverflow a b) :
    hostSrem (a.signExtend 64) (b.signExtend 64) = some ((DivOp.rem.eval a b).signExtend 64) := by
  have ha64 : (a.signExtend 64).toInt = a.toInt := BitVec.toInt_signExtend_of_le (by decide)
  have hb64 : (b.signExtend 64).toInt = b.toInt := BitVec.toInt_signExtend_of_le (by decide)
  have hlow : -2 ^ 31 ≤ a.toInt := BitVec.le_toInt a
  have hmin : (BitVec.intMin 64).toInt = -2 ^ 63 := by decide
  have hzero : b.signExtend 64 ≠ 0 := fun h => hb (BitVec.eq_of_toInt_eq (by rw [← hb64, h]; rfl))
  have hov64 : ¬ DivOverflow (a.signExtend 64) (b.signExtend 64) := fun h => by
    have hle := congrArg BitVec.toInt h.1
    rw [ha64, hmin] at hle
    omega
  rw [hostSrem_eq hzero hov64, DivOp.eval, if_neg hzero, if_neg hov64, DivOp.eval, if_neg hb,
    if_neg hov, ← BitVec.toInt_srem, ← BitVec.toInt_srem, BitVec.ofInt_toInt, BitVec.ofInt_toInt]
  apply congrArg some
  apply BitVec.eq_of_toInt_eq
  rw [BitVec.toInt_srem, ha64, hb64, BitVec.toInt_signExtend_of_le (by decide), BitVec.toInt_srem]

/-- The word divisions are guarded but for DIVW. -/
theorem op32DivHost_eq (op : DivOp) {a b : BitVec 64} (h : op = .div → ¬ UnguardedOverflow a b) :
    op32DivHost op.funct3 a b =
      some ((op.eval (a.setWidth 32) (b.setWidth 32)).signExtend 64) := by
  have hones : (BitVec.allOnes 32).signExtend 64 = BitVec.allOnes 64 := by decide
  cases op with
  | div =>
    have hguard := divwGuard_iff a b
    -- DIVW: the guard compares the registers, the division takes their low halves
    show (if b.setWidth 32 = 0 then some (BitVec.allOnes 64)
      else if a = (BitVec.intMin 32).signExtend 64 ∧ b = -1 then some ((a.setWidth 32).signExtend 64)
      else (hostSdiv (a.setWidth 32) (b.setWidth 32)).map (BitVec.signExtend 64)) = _
    split
    · next hb => rw [DivOp.eval, if_pos hb, hones]
    · next hb =>
      split
      · next hg => rw [DivOp.eval, if_neg hb, if_pos (hguard.mp hg).1]
      · next hg =>
        have hov : ¬ DivOverflow (a.setWidth 32) (b.setWidth 32) := fun hov =>
          h rfl ⟨hov, fun hs => hg (hguard.mpr ⟨hov, hs⟩)⟩
        rw [hostSdiv_eq hb hov]
        rfl
  | divu =>
    show (if b.setWidth 32 = 0 then some (BitVec.allOnes 64)
      else (hostUdiv (a.setWidth 32) (b.setWidth 32)).map (BitVec.signExtend 64)) = _
    split
    · next hb => rw [DivOp.eval, if_pos hb, hones]
    · next hb =>
      rw [hostUdiv_eq hb]
      rfl
  | rem =>
    -- REMW divides at 64 bits, behind a guard on the low halves
    show (if b.setWidth 32 = 0 then some ((a.setWidth 32).signExtend 64)
      else if DivOverflow (a.setWidth 32) (b.setWidth 32) then some 0
      else hostSrem ((a.setWidth 32).signExtend 64) ((b.setWidth 32).signExtend 64)) = _
    split
    · next hb => rw [DivOp.eval, if_pos hb]
    · next hb =>
      split
      · next hov =>
        rw [DivOp.eval, if_neg hb, if_pos hov]
        rfl
      · next hov => exact hostSrem_signExtend hb hov
  | remu =>
    show (if b.setWidth 32 = 0 then some ((a.setWidth 32).signExtend 64)
      else (hostUmod (a.setWidth 32) (b.setWidth 32)).map (BitVec.signExtend 64)) = _
    split
    · next hb => rw [DivOp.eval, if_pos hb]
    · next hb =>
      rw [hostUmod_eq hb]
      rfl

/-- The host takes the overflowing division. -/
theorem op32DivHost_overflow {a b : BitVec 64} (h : DivOverflow (a.setWidth 32) (b.setWidth 32))
    (hguard : ¬ (a = (BitVec.intMin 32).signExtend 64 ∧ b = -1)) :
    op32DivHost DivOp.div.funct3 a b = none := by
  have hb : ¬ b.setWidth 32 = 0 := by
    rw [h.2]
    decide
  have hhost : b.setWidth 32 = 0 ∨ (a.setWidth 32 = BitVec.intMin 32 ∧ b.setWidth 32 = -1) :=
    .inr h
  show (if b.setWidth 32 = 0 then some (BitVec.allOnes 64)
    else if a = (BitVec.intMin 32).signExtend 64 ∧ b = -1 then some ((a.setWidth 32).signExtend 64)
    else (hostSdiv (a.setWidth 32) (b.setWidth 32)).map (BitVec.signExtend 64)) = _
  rw [if_neg hb, if_neg hguard, hostSdiv, if_pos hhost]
  rfl

/-! ## Instructions -/

/-- The division that the host makes for an instruction. -/
def hostDivision (word : Bool) (funct3 : BitVec 3) (a b : BitVec 64) : Option (BitVec 64) :=
  if word then op32DivHost funct3 a b else opDivHost funct3 a b

/-- The host survives the instruction, which writes the value of the ISA. -/
structure DividesRight (env : Env δ) (op : DivOp) (word : Bool) (rd rs1 rs2 : BitVec 5)
    (s : Sys δ) : Prop where
  host : hostDivision word op.funct3 (s.hs.regs rs1) (s.hs.regs rs2) =
    some (op.value word (s.hs.regs rs1) (s.hs.regs rs2))
  result : WritesBack env s (op.encode word rd rs1 rs2) rd
    (op.value word (s.hs.regs rs1) (s.hs.regs rs2))

/-- A division that the host survives writes its quotient to `rd`. -/
theorem writesBack_division (env : Env δ) (op : DivOp) (word : Bool) (rd rs1 rs2 : BitVec 5)
    (s : Sys δ) {v : BitVec 64}
    (h : hostDivision word op.funct3 (s.hs.regs rs1) (s.hs.regs rs2) = some v) :
    WritesBack env s (op.encode word rd rs1 rs2) rd v := by
  cases word with
  | false =>
    have hv : opMulValue op.funct3 (s.hs.regs rs1) (s.hs.regs rs2) = v := opDivHost_gives op _ _ v h
    rw [← hv]
    exact writesBack_op env s rd rs1 rs2 op.funct3
  | true =>
    obtain ⟨u, hu, hgives⟩ := op32DivHost_gives op (s.hs.regs rs1) (s.hs.regs rs2)
    rw [← hgives v h]
    exact writesBack_op32 env s rd rs1 rs2 op.funct3 hu

/-- All divisions are right, but for DIVW with operands that overflow in their low halves
    and are not both sign-extended. -/
theorem division_right_iff (env : Env δ) (op : DivOp) (word : Bool) (rd rs1 rs2 : BitVec 5)
    (s : Sys δ) :
    DividesRight env op word rd rs1 rs2 s ↔
      ¬ (op = .div ∧ word = true ∧ UnguardedOverflow (s.hs.regs rs1) (s.hs.regs rs2)) := by
  constructor
  · rintro ⟨hhost, -⟩ ⟨rfl, rfl, hov, hsext⟩
    -- the host is killed, so that it gives no value at all
    have hnone := op32DivHost_overflow hov fun hg => hsext ((divwGuard_iff _ _).mp hg).2
    exact Option.some_ne_none _ (hhost.symm.trans hnone)
  · intro h
    have hhost : hostDivision word op.funct3 (s.hs.regs rs1) (s.hs.regs rs2) =
        some (op.value word (s.hs.regs rs1) (s.hs.regs rs2)) := by
      cases word with
      | false => exact opDivHost_eq op _ _
      | true => exact op32DivHost_eq op fun hop hov => h ⟨hop, rfl, hov⟩
    exact ⟨hhost, writesBack_division env op word rd rs1 rs2 s hhost⟩

/-- `divw x5, x6, x7` with `INT32_MIN` in the low half of x6, zero-extended, and -1 in x7. -/
theorem divw_kills_host :
    ¬ ∀ (op : DivOp) (word : Bool) (rd rs1 rs2 : BitVec 5) (s : Sys Unit),
      DividesRight Env.inert op word rd rs1 rs2 s := by
  intro h
  let hs := resetState 0
  let s : Sys Unit :=
    ⟨{ hs with regs := fun r => if r = 6 then 0x80000000 else if r = 7 then -1 else 0 }, Bus.inert⟩
  have hnone : hostDivision true DivOp.div.funct3 (s.hs.regs 6) (s.hs.regs 7) = none := by decide
  exact Option.some_ne_none _ ((h .div true 5 6 7 s).host.symm.trans hnone)

end RvEmu
