import RvEmu.Isa.Rvc
import RvEmu.Spec.Rv64i
import RvEmu.Spec.Frame

/-!
# The compressed instructions

The 16-bit decoder decodes a parcel to the instruction the C extension expands
it to. Its immediates are sums of shifted and masked copies of the parcel; the
masks are disjoint, so that each sum is a concatenation of fields.
-/

namespace RvEmu

open Isa

variable {δ : Type}

/-! ## Immediates -/

section Fields

variable (c : BitVec 16) (n : Nat) {mask : BitVec 32}

/-- A bit of a field that is shifted down, … -/
theorem shrMask_getLsbD (h : mask.msb = false) {i : Nat} (hi : i < 64) :
    (shrMask (c.setWidth 32) n mask).getLsbD i = (c.getLsbD (n + i) && mask.getLsbD i) := by
  simp only [shrMask, BitVec.getLsbD_signExtend, BitVec.getLsbD_and, BitVec.getLsbD_sshiftRight,
    BitVec.getLsbD_setWidth, BitVec.msb_and, h, hi]
  grind

/-- … and of one that is shifted up. -/
theorem shlMask_getLsbD (h : mask.msb = false) {i : Nat} (hi : i < 64) :
    (shlMask (c.setWidth 32) n mask).getLsbD i =
      (decide (n ≤ i) && c.getLsbD (i - n) && mask.getLsbD i) := by
  simp only [shlMask, BitVec.getLsbD_signExtend, BitVec.getLsbD_and, BitVec.getLsbD_shiftLeft,
    BitVec.getLsbD_setWidth, BitVec.msb_and, h, hi]
  grind

/-- The sign extension repeats the bit at its place. -/
theorem signExtendImm_getLsbD (imm : BitVec 64) {k i : Nat} (hk : k < 64) (hi : i < 64) :
    (signExtendImm imm k).getLsbD i = imm.getLsbD (if i < 64 - k then i else 63 - k) := by
  simp only [signExtendImm, BitVec.getLsbD_sshiftRight, BitVec.getLsbD_shiftLeft,
    BitVec.msb_eq_getLsbD_last]
  grind

end Fields

/-- A part of an immediate: the parcel, shifted to its place and masked. -/
inductive ImmPart where
  | shr (n : Nat) (mask : BitVec 32)
  | shl (n : Nat) (mask : BitVec 32)

namespace ImmPart

def mask : ImmPart → BitVec 32
  | shr _ mask => mask
  | shl _ mask => mask

def value (c : BitVec 16) : ImmPart → BitVec 64
  | shr n mask => shrMask (c.setWidth 32) n mask
  | shl n mask => shlMask (c.setWidth 32) n mask

/-- The bit of the parcel that becomes bit `i` of the immediate. -/
def bit (c : BitVec 16) (i : Nat) : ImmPart → Bool
  | shr n mask => c.getLsbD (n + i) && mask.getLsbD i
  | shl n mask => decide (n ≤ i) && c.getLsbD (i - n) && mask.getLsbD i

/-- The parts in the order in which the decoder adds them. -/
def sum (c : BitVec 16) (p : ImmPart) (ps : List ImmPart) : BitVec 64 :=
  ps.foldl (fun imm q => imm + q.value c) (p.value c)

variable {c : BitVec 16} {p : ImmPart}

/-- A piece of an immediate, bit by bit, … -/
theorem value_getLsbD (hp : p.mask.msb = false) {i : Nat} (hi : i < 64) :
    (p.value c).getLsbD i = p.bit c i := by
  cases p with
  | shr n mask => exact shrMask_getLsbD c n hp hi
  | shl n mask => exact shlMask_getLsbD c n hp hi

/-- … has no bit outside of its mask. -/
theorem value_under (hp : p.mask.msb = false) : (p.value c).Under (p.mask.setWidth 64) := by
  apply BitVec.eq_of_getLsbD_eq
  intro i hi
  rw [BitVec.getLsbD_and, BitVec.getLsbD_setWidth, value_getLsbD hp hi]
  cases p <;> simp only [bit, mask, hi, decide_true, Bool.true_and, Bool.and_assoc, Bool.and_self]

/-- A sum of parts with disjoint masks is a concatenation of fields if its bits are. -/
theorem sum_eq {w : Nat} {x : BitVec w} (p : ImmPart) (ps : List ImmPart)
    (hmsb : ∀ q ∈ p :: ps, q.mask.msb = false)
    (hmask : (p :: ps).Pairwise fun q r => q.mask.setWidth 64 &&& r.mask.setWidth 64 = 0#64)
    (hbits : ∀ i < 64, (p :: ps).any (bit c i) = (x.setWidth 64).getLsbD i) :
    sum c p ps = x.setWidth 64 := by
  obtain ⟨hp, hps⟩ := List.forall_mem_cons.mp hmsb
  obtain ⟨hfirst, hrest⟩ := List.pairwise_cons.mp hmask
  have hunder : ∀ q ∈ ps, (q.value c).Under (q.mask.setWidth 64) :=
    fun q hq => value_under (hps q hq)
  apply BitVec.eq_of_getLsbD_eq
  intro i hi
  have hbit : ∀ q ∈ ps, (q.value c).getLsbD i = q.bit c i :=
    fun q hq => value_getLsbD (hps q hq) hi
  rw [← hbits i hi, List.any_cons, ← value_getLsbD hp hi]
  exact BitVec.Under.foldl_add_getLsbD hunder hbit hrest (value_under hp) hfirst

end ImmPart

section Immediates

variable (c : BitVec 16)

/-- The immediate of the CI format, … -/
theorem imm6_eq : imm6 (c.setWidth 32) = (immCI c).setWidth 64 := by
  refine ImmPart.sum_eq (.shr 7 0b100000) [.shr 2 0b11111] ?_ ?_ fun i _ => ?_
  · decide
  · decide
  · simp only [immCI, BitVec.getLsbD_setWidth, BitVec.getLsbD_append,
      BitVec.getLsbD_extractLsb', List.any_cons, List.any_nil, ImmPart.bit]
    interval_cases i <;> simp

/-- … of `C.ADDI4SPN`, … -/
theorem imm_addi4spn :
    shrMask (c.setWidth 32) 1 0b1111000000 + shrMask (c.setWidth 32) 7 0b110000 +
    shrMask (c.setWidth 32) 2 0b1000 + shrMask (c.setWidth 32) 4 0b100 =
      (immAddi4spn c).setWidth 64 := by
  refine ImmPart.sum_eq (.shr 1 0b1111000000) [.shr 7 0b110000, .shr 2 0b1000, .shr 4 0b100]
    ?_ ?_ fun i _ => ?_
  · decide
  · decide
  · simp only [immAddi4spn, BitVec.getLsbD_setWidth, BitVec.getLsbD_append,
      BitVec.getLsbD_extractLsb', List.any_cons, List.any_nil, ImmPart.bit]
    interval_cases i <;> simp

/-- … of `C.LW` and `C.SW`, … -/
theorem imm_clw :
    shlMask (c.setWidth 32) 1 0b1000000 + shrMask (c.setWidth 32) 7 0b111000 +
    shrMask (c.setWidth 32) 4 0b100 =
      (immCLW c).setWidth 64 := by
  refine ImmPart.sum_eq (.shl 1 0b1000000) [.shr 7 0b111000, .shr 4 0b100] ?_ ?_ fun i _ => ?_
  · decide
  · decide
  · simp only [immCLW, BitVec.getLsbD_setWidth, BitVec.getLsbD_append,
      BitVec.getLsbD_extractLsb', List.any_cons, List.any_nil, ImmPart.bit]
    interval_cases i <;> simp

/-- … of `C.LD` and `C.SD`, … -/
theorem imm_cld :
    shlMask (c.setWidth 32) 1 0b11000000 + shrMask (c.setWidth 32) 7 0b111000 =
      (immCLD c).setWidth 64 := by
  refine ImmPart.sum_eq (.shl 1 0b11000000) [.shr 7 0b111000] ?_ ?_ fun i _ => ?_
  · decide
  · decide
  · simp only [immCLD, BitVec.getLsbD_setWidth, BitVec.getLsbD_append,
      BitVec.getLsbD_extractLsb', List.any_cons, List.any_nil, ImmPart.bit]
    interval_cases i <;> simp

/-- … of `C.ADDI16SP`, … -/
theorem imm_addi16sp :
    shrMask (c.setWidth 32) 3 0b1000000000 + shlMask (c.setWidth 32) 4 0b110000000 +
    shlMask (c.setWidth 32) 1 0b1000000 + shlMask (c.setWidth 32) 3 0b100000 +
    shrMask (c.setWidth 32) 2 0b10000 =
      (immAddi16sp c).setWidth 64 := by
  refine ImmPart.sum_eq (.shr 3 0b1000000000) [.shl 4 0b110000000, .shl 1 0b1000000,
    .shl 3 0b100000, .shr 2 0b10000] ?_ ?_ fun i _ => ?_
  · decide
  · decide
  · simp only [immAddi16sp, BitVec.getLsbD_setWidth, BitVec.getLsbD_append,
      BitVec.getLsbD_extractLsb', List.any_cons, List.any_nil, ImmPart.bit]
    interval_cases i <;> simp

/-- … of `C.LUI`, … -/
theorem imm_clui :
    shlMask (c.setWidth 32) 5 0x20000 + shlMask (c.setWidth 32) 10 0x1F000 =
      (immCI c ++ 0#12).setWidth 64 := by
  refine ImmPart.sum_eq (.shl 5 0x20000) [.shl 10 0x1F000] ?_ ?_ fun i _ => ?_
  · decide
  · decide
  · simp only [immCI, BitVec.getLsbD_setWidth, BitVec.getLsbD_append,
      BitVec.getLsbD_extractLsb', List.any_cons, List.any_nil, ImmPart.bit]
    interval_cases i <;> simp

/-- … of `C.J`, … -/
theorem imm_cj :
    shrMask (c.setWidth 32) 1 0xB40 + shrMask (c.setWidth 32) 2 0xE +
    shrMask (c.setWidth 32) 7 0x10 + shlMask (c.setWidth 32) 1 0x80 +
    shlMask (c.setWidth 32) 2 0x400 + shlMask (c.setWidth 32) 3 0x20 =
      (offsetCJ c ++ 0#1).setWidth 64 := by
  refine ImmPart.sum_eq (.shr 1 0xB40) [.shr 2 0xE, .shr 7 0x10, .shl 1 0x80, .shl 2 0x400,
    .shl 3 0x20] ?_ ?_ fun i _ => ?_
  · decide
  · decide
  · simp only [offsetCJ, BitVec.getLsbD_setWidth, BitVec.getLsbD_append,
      BitVec.getLsbD_extractLsb', List.any_cons, List.any_nil, ImmPart.bit]
    interval_cases i <;> simp

/-- … of the branches, … -/
theorem imm_cb :
    shrMask (c.setWidth 32) 4 0b100000000 + shlMask (c.setWidth 32) 1 0b11000000 +
    shlMask (c.setWidth 32) 3 0b100000 + shrMask (c.setWidth 32) 7 0b11000 +
    shrMask (c.setWidth 32) 2 0b110 =
      (offsetCB c ++ 0#1).setWidth 64 := by
  refine ImmPart.sum_eq (.shr 4 0b100000000) [.shl 1 0b11000000, .shl 3 0b100000,
    .shr 7 0b11000, .shr 2 0b110] ?_ ?_ fun i _ => ?_
  · decide
  · decide
  · simp only [offsetCB, BitVec.getLsbD_setWidth, BitVec.getLsbD_append,
      BitVec.getLsbD_extractLsb', List.any_cons, List.any_nil, ImmPart.bit]
    interval_cases i <;> simp

/-- … of `C.LWSP`, … -/
theorem imm_lwsp :
    shlMask (c.setWidth 32) 4 0b11000000 + shrMask (c.setWidth 32) 7 0b100000 +
    shrMask (c.setWidth 32) 2 0b11100 =
      (immLwsp c).setWidth 64 := by
  refine ImmPart.sum_eq (.shl 4 0b11000000) [.shr 7 0b100000, .shr 2 0b11100] ?_ ?_ fun i _ => ?_
  · decide
  · decide
  · simp only [immLwsp, BitVec.getLsbD_setWidth, BitVec.getLsbD_append,
      BitVec.getLsbD_extractLsb', List.any_cons, List.any_nil, ImmPart.bit]
    interval_cases i <;> simp

/-- … of `C.LDSP`, … -/
theorem imm_ldsp :
    shlMask (c.setWidth 32) 4 0b111000000 + shrMask (c.setWidth 32) 7 0b100000 +
    shrMask (c.setWidth 32) 2 0b11000 =
      (immLdsp c).setWidth 64 := by
  refine ImmPart.sum_eq (.shl 4 0b111000000) [.shr 7 0b100000, .shr 2 0b11000] ?_ ?_ fun i _ => ?_
  · decide
  · decide
  · simp only [immLdsp, BitVec.getLsbD_setWidth, BitVec.getLsbD_append,
      BitVec.getLsbD_extractLsb', List.any_cons, List.any_nil, ImmPart.bit]
    interval_cases i <;> simp

/-- … of `C.SWSP` … -/
theorem imm_swsp :
    shrMask (c.setWidth 32) 1 0b11000000 + shrMask (c.setWidth 32) 7 0b111100 =
      (immSwsp c).setWidth 64 := by
  refine ImmPart.sum_eq (.shr 1 0b11000000) [.shr 7 0b111100] ?_ ?_ fun i _ => ?_
  · decide
  · decide
  · simp only [immSwsp, BitVec.getLsbD_setWidth, BitVec.getLsbD_append,
      BitVec.getLsbD_extractLsb', List.any_cons, List.any_nil, ImmPart.bit]
    interval_cases i <;> simp

/-- … and of `C.SDSP`. -/
theorem imm_sdsp :
    shrMask (c.setWidth 32) 1 0b111000000 + shrMask (c.setWidth 32) 7 0b111000 =
      (immSdsp c).setWidth 64 := by
  refine ImmPart.sum_eq (.shr 1 0b111000000) [.shr 7 0b111000] ?_ ?_ fun i _ => ?_
  · decide
  · decide
  · simp only [immSdsp, BitVec.getLsbD_setWidth, BitVec.getLsbD_append,
      BitVec.getLsbD_extractLsb', List.any_cons, List.any_nil, ImmPart.bit]
    interval_cases i <;> simp

end Immediates

/-- Shifting up and down again extends the sign of a `w`-bit immediate. -/
theorem signExtendImm_setWidth {w k : Nat} (x : BitVec w) (hw : 0 < w) (hk : w + k = 64) :
    signExtendImm (x.setWidth 64) k = x.signExtend 64 := by
  have hwk : 64 - k = w := by omega
  have hlast : 63 - k = w - 1 := by omega
  apply BitVec.eq_of_getLsbD_eq
  intro i hi
  rw [signExtendImm_getLsbD _ (by omega) hi, BitVec.getLsbD_setWidth, BitVec.getLsbD_signExtend,
    BitVec.msb_eq_getLsbD_last, hwk, hlast]
  by_cases h : i < w
  · simp only [h, hi, ↓reduceIte, decide_true, Bool.true_and]
  · have : w - 1 < 64 := by omega
    simp only [h, hi, this, ↓reduceIte, decide_true, Bool.true_and]

/-! ## The 16-bit decoder -/

section Decode

variable {c : BitVec 16} {i : Instr}

/-- The fields of the parcel are read from its zero extension. -/
theorem extract_parcel (c : BitVec 16) {k n : Nat} (h : k + n ≤ 32) :
    (c.setWidth 32).extractLsb' k n = c.extractLsb' k n :=
  BitVec.extractLsb'_setWidth_of_le h

/-- The three bits of a register name one of `x8` to `x15`. -/
theorem reg16To32_eq (r : BitVec 3) : reg16To32 r = rvcReg r := by
  revert r
  decide

/-- Bit 30 tells SUB and SRA from ADD and SRL: set, … -/
theorem set_bit30 (x : BitVec 32) : (x ||| (0b1#32 <<< 30)).getLsbD 30 = true := by
  simp

/-- … cleared, … -/
theorem clear_bit30 (x : BitVec 32) : (x &&& ~~~(0b1#32 <<< 30)).getLsbD 30 = false := by
  simp

/-- … and as a compressed instruction has it. -/
theorem parcel_bit30 (c : BitVec 16) : (c.setWidth 32).getLsbD 30 = false := by
  rw [BitVec.getLsbD_setWidth, BitVec.getLsbD_of_ge c 30 (by decide)]
  rfl

/-- The signed immediate of the CI format. -/
theorem imm_ci (c : BitVec 16) :
    signExtendImm (imm6 (c.setWidth 32)) 58 = ((immCI c).signExtend 12).signExtend 64 := by
  rw [imm6_eq, signExtendImm_setWidth _ (by decide) rfl,
    BitVec.signExtend_signExtend_of_le _ (by decide)]

/-- The shift amount of the CI format. -/
theorem shamt_ci (c : BitVec 16) : (imm6 (c.setWidth 32)).setWidth 6 = immCI c := by
  rw [imm6_eq, BitVec.setWidth_setWidth_of_le _ (by decide), BitVec.setWidth_eq]

/-- Quadrant 0. -/
theorem decode16_q0 (hq : c.extractLsb' 0 2 = 0b00) (h : expandQ0 c = some i) :
    ∃ d, decode16 (c.setWidth 32) = some d ∧ d.Is i := by
  simp only [decode16, InstOp16.ofInst, extract_parcel, Nat.reduceAdd, Nat.reduceLeDiff, hq]
  unfold expandQ0 at h
  split at h
  · next hf => -- C.ADDI4SPN
    split at h
    · cases h
    · obtain rfl := Option.some.inj h
      rw [hf]
      refine ⟨_, rfl, rfl, reg16To32_eq _, rfl, rfl, ?_⟩
      rw [BitVec.signExtend_setWidth_of_lt _ (by decide)]
      exact imm_addi4spn c
  · next hf => -- C.LW
    obtain rfl := Option.some.inj h
    rw [hf]
    refine ⟨_, rfl, rfl, reg16To32_eq _, reg16To32_eq _, rfl, ?_⟩
    rw [BitVec.signExtend_setWidth_of_lt _ (by decide)]
    exact imm_clw c
  · next hf => -- C.LD
    obtain rfl := Option.some.inj h
    rw [hf]
    refine ⟨_, rfl, rfl, reg16To32_eq _, reg16To32_eq _, rfl, ?_⟩
    rw [BitVec.signExtend_setWidth_of_lt _ (by decide)]
    exact imm_cld c
  · next hf => -- C.SW
    obtain rfl := Option.some.inj h
    rw [hf]
    refine ⟨_, rfl, rfl, reg16To32_eq _, reg16To32_eq _, rfl, ?_⟩
    rw [BitVec.signExtend_setWidth_of_lt _ (by decide)]
    exact imm_clw c
  · next hf => -- C.SD
    obtain rfl := Option.some.inj h
    rw [hf]
    refine ⟨_, rfl, rfl, reg16To32_eq _, reg16To32_eq _, rfl, ?_⟩
    rw [BitVec.signExtend_setWidth_of_lt _ (by decide)]
    exact imm_cld c
  · cases h

/-- The CB and CA formats. -/
theorem decodeMiscAlu_is {d : Decoded} (hinst : d.inst = c.setWidth 32)
    (hrs1 : d.rs1 = rvcRs1' c) (hfunct7 : d.funct7 = 0) (h : expandMiscAlu c = some i) :
    (decodeMiscAlu (c.setWidth 32) d).Is i := by
  have hbit {k : Nat} (hk : k < 16) : (c.setWidth 32).getLsbD k = c.getLsbD k := by
    rw [BitVec.getLsbD_setWidth]
    have : k < 32 := Nat.lt_trans hk (by decide)
    simp only [this, decide_true, Bool.true_and]
  have h30 : d.inst.getLsbD 30 = false := hinst ▸ parcel_bit30 c
  simp only [decodeMiscAlu, extract_parcel, Nat.reduceAdd, Nat.reduceLeDiff, hbit, Nat.reduceLT]
  unfold expandMiscAlu at h
  split at h
  · next hf => -- C.SRLI
    obtain rfl := Option.some.inj h
    rw [hf]
    exact ⟨rfl, hrs1, hrs1, rfl, shamt_ci c, clear_bit30 _⟩
  · next hf => -- C.SRAI
    obtain rfl := Option.some.inj h
    rw [hf]
    exact ⟨rfl, hrs1, hrs1, rfl, shamt_ci c, set_bit30 _⟩
  · next hf => -- C.ANDI
    obtain rfl := Option.some.inj h
    rw [hf]
    exact ⟨rfl, hrs1, hrs1, rfl, imm_ci c⟩
  · next hf => -- the register-register operations
    rw [hf]
    split at h
    · next h12 hf2 => -- C.SUB
      obtain rfl := Option.some.inj h
      rw [h12, hf2]
      exact ⟨rfl, hrs1, hrs1, reg16To32_eq _, rfl, .inl hfunct7, set_bit30 _⟩
    · next h12 hf2 => -- C.XOR
      obtain rfl := Option.some.inj h
      rw [h12, hf2]
      exact ⟨rfl, hrs1, hrs1, reg16To32_eq _, rfl, .inl hfunct7, h30⟩
    · next h12 hf2 => -- C.OR
      obtain rfl := Option.some.inj h
      rw [h12, hf2]
      exact ⟨rfl, hrs1, hrs1, reg16To32_eq _, rfl, .inl hfunct7, h30⟩
    · next h12 hf2 => -- C.AND
      obtain rfl := Option.some.inj h
      rw [h12, hf2]
      exact ⟨rfl, hrs1, hrs1, reg16To32_eq _, rfl, .inl hfunct7, h30⟩
    · next h12 hf2 => -- C.SUBW
      obtain rfl := Option.some.inj h
      have h5 : c.getLsbD 5 = false := by
        have h := congrArg (·.getLsbD 0) hf2
        rwa [BitVec.getLsbD_extractLsb'] at h
      rw [h12, h5]
      exact ⟨rfl, hrs1, hrs1, reg16To32_eq _, rfl, .inl hfunct7, set_bit30 _⟩
    · next h12 hf2 => -- C.ADDW
      obtain rfl := Option.some.inj h
      have h5 : c.getLsbD 5 = true := by
        have h := congrArg (·.getLsbD 0) hf2
        rwa [BitVec.getLsbD_extractLsb'] at h
      rw [h12, h5]
      exact ⟨rfl, hrs1, hrs1, reg16To32_eq _, rfl, .inl hfunct7, parcel_bit30 c⟩
    · cases h
  · cases h

/-- The branch forms differ in one bit, which becomes `funct3`. -/
theorem extract_bit13 {f : BitVec 3} (hf : c.extractLsb' 13 3 = f) :
    c.extractLsb' 13 1 = f.extractLsb' 0 1 := by
  rw [← hf]
  apply BitVec.eq_of_getLsbD_eq
  intro k hk
  simp only [BitVec.getLsbD_extractLsb']
  grind

/-- The offset of a branch with its sign. -/
theorem signExtendImm_cb (c : BitVec 16) :
    signExtendImm (shrMask (c.setWidth 32) 4 0b100000000 + shlMask (c.setWidth 32) 1 0b11000000 +
      shlMask (c.setWidth 32) 3 0b100000 + shrMask (c.setWidth 32) 7 0b11000 +
      shrMask (c.setWidth 32) 2 0b110) 55 =
    ((offsetCB c).signExtend 12 ++ 0#1).signExtend 64 := by
  rw [imm_cb, signExtendImm_setWidth _ (by decide) rfl,
    BitVec.signExtend_signExtend_append_zero _ (by decide) (by decide)]

/-- Quadrant 1. -/
theorem decode16_q1 (hq : c.extractLsb' 0 2 = 0b01) (h : expandQ1 c = some i) :
    ∃ d, decode16 (c.setWidth 32) = some d ∧ d.Is i := by
  simp only [decode16, InstOp16.ofInst, extract_parcel, Nat.reduceAdd, Nat.reduceLeDiff, hq]
  unfold expandQ1 at h
  split at h
  · next hf => -- C.ADDI
    obtain rfl := Option.some.inj h
    rw [hf]
    exact ⟨_, rfl, rfl, rfl, rfl, rfl, imm_ci c⟩
  · next hf => -- C.ADDIW
    split at h
    · cases h
    · obtain rfl := Option.some.inj h
      rw [hf]
      exact ⟨_, rfl, rfl, rfl, rfl, rfl, imm_ci c⟩
  · next hf => -- C.LI
    obtain rfl := Option.some.inj h
    rw [hf]
    exact ⟨_, rfl, rfl, rfl, rfl, rfl, imm_ci c⟩
  · next hf =>
    rw [hf]
    split at h
    · cases h
    · split at h
      · next hrd => -- C.ADDI16SP
        obtain rfl := Option.some.inj h
        refine ⟨_, if_pos hrd, rfl, rfl, rfl, rfl, ?_⟩
        rw [imm_addi16sp, signExtendImm_setWidth _ (by decide) rfl,
          BitVec.signExtend_signExtend_of_le _ (by decide)]
      · next hrd => -- C.LUI
        obtain rfl := Option.some.inj h
        refine ⟨_, if_neg hrd, rfl, rfl, ?_⟩
        rw [imm_clui, signExtendImm_setWidth _ (by decide) rfl,
          BitVec.signExtend_signExtend_append_zero _ (by decide) (by decide)]
  · next hf =>
    rw [hf]
    exact ⟨_, rfl, decodeMiscAlu_is rfl (reg16To32_eq _) rfl h⟩
  · next hf => -- C.J
    obtain rfl := Option.some.inj h
    rw [hf]
    refine ⟨_, rfl, rfl, rfl, ?_⟩
    rw [imm_cj, signExtendImm_setWidth _ (by decide) rfl,
      BitVec.signExtend_signExtend_append_zero _ (by decide) (by decide)]
  · next hf => -- C.BEQZ
    obtain rfl := Option.some.inj h
    rw [hf, extract_bit13 hf]
    exact ⟨_, rfl, rfl, reg16To32_eq _, rfl, rfl, signExtendImm_cb c⟩
  · next hf => -- C.BNEZ
    obtain rfl := Option.some.inj h
    rw [hf, extract_bit13 hf]
    exact ⟨_, rfl, rfl, reg16To32_eq _, rfl, rfl, signExtendImm_cb c⟩
  · cases h

/-- A parcel is the concatenation of its fields in the CR format. -/
theorem parcel_eq_fields (c : BitVec 16) :
    c = (c.extractLsb' 13 3 ++ c.extractLsb' 12 1 ++ rvcRd c ++ rvcRs2 c ++
      c.extractLsb' 0 2 : BitVec (3 + 1 + 5 + 5 + 2)) := by
  apply BitVec.eq_of_getLsbD_eq
  intro k hk
  simp only [rvcRd, rvcRs2, BitVec.getLsbD_append, BitVec.getLsbD_extractLsb']
  grind

/-- The CR format. -/
theorem decodeJalr16_is {d : Decoded} (hq : c.extractLsb' 0 2 = 0b10)
    (hf : c.extractLsb' 13 3 = 0b100) (hinst : d.inst = c.setWidth 32) (hfunct7 : d.funct7 = 0)
    (h : expandCR c = some i) : (decodeJalr16 (c.setWidth 32) d).Is i := by
  have hbit12 : (c.setWidth 32).getLsbD 12 = c.getLsbD 12 := by
    rw [BitVec.getLsbD_setWidth]
    rfl
  have h30 : d.inst.getLsbD 30 = false := hinst ▸ parcel_bit30 c
  -- C.EBREAK is the only parcel of the group with both register fields zero
  have hne (h' : rvcRd c ≠ 0 ∨ rvcRs2 c ≠ 0) : c.setWidth 32 ≠ 0x9002 := by
    intro hc
    have hrd : rvcRd c = 0 := by rw [rvcRd, ← extract_parcel c (by decide), hc]; decide
    have hrs2 : rvcRs2 c = 0 := by rw [rvcRs2, ← extract_parcel c (by decide), hc]; decide
    exact h'.elim (absurd hrd) (absurd hrs2)
  have hrd : (c.setWidth 32).extractLsb' 7 5 = rvcRd c := extract_parcel c (by decide)
  have hrs2 : (c.setWidth 32).extractLsb' 2 5 = rvcRs2 c := extract_parcel c (by decide)
  unfold expandCR at h
  split at h
  · next h12 =>
    split at h
    · next hrs2' => -- C.MV
      obtain rfl := Option.some.inj h
      simp only [decodeJalr16, if_neg (hne (.inr hrs2')), hbit12, h12, hrd, hrs2, if_pos hrs2']
      exact ⟨rfl, rfl, rfl, rfl, rfl, .inl hfunct7, h30⟩
    · next hrs2' =>
      split at h
      · next hrd' => -- C.JR
        obtain rfl := Option.some.inj h
        simp only [decodeJalr16, if_neg (hne (.inl hrd')), hbit12, h12, hrd, hrs2, if_neg hrs2']
        exact ⟨rfl, rfl, rfl, rfl⟩
      · cases h
  · next h12 =>
    split at h
    · next hrs2' => -- C.ADD
      obtain rfl := Option.some.inj h
      simp only [decodeJalr16, if_neg (hne (.inr hrs2')), hbit12, h12, hrd, hrs2, if_pos hrs2']
      exact ⟨rfl, rfl, rfl, rfl, rfl, .inl hfunct7, h30⟩
    · next hrs2' =>
      split at h
      · next hrd' => -- C.JALR
        obtain rfl := Option.some.inj h
        simp only [decodeJalr16, if_neg (hne (.inl hrd')), hbit12, h12, hrd, hrs2, if_neg hrs2']
        exact ⟨rfl, rfl, rfl, rfl⟩
      · next hrd' => -- C.EBREAK
        obtain rfl := Option.some.inj h
        have h12' : c.extractLsb' 12 1 = 1#1 := by
          apply BitVec.eq_of_getLsbD_eq
          intro k hk
          obtain rfl := Nat.lt_one_iff.mp hk
          rw [BitVec.getLsbD_extractLsb']
          exact h12
        have hc : c.setWidth 32 = 0x9002 := by
          rw [parcel_eq_fields c, hf, h12', Classical.not_not.mp hrd', Classical.not_not.mp hrs2',
            hq]
          rfl
        rw [decodeJalr16, if_pos hc]
        exact ⟨rfl, by rw [hinst, hc]; decide, .inr rfl⟩

/-- Quadrant 2. -/
theorem decode16_q2 (hq : c.extractLsb' 0 2 = 0b10) (h : expandQ2 c = some i) :
    ∃ d, decode16 (c.setWidth 32) = some d ∧ d.Is i := by
  have hq' := hq
  simp only [decode16, InstOp16.ofInst, extract_parcel, Nat.reduceAdd, Nat.reduceLeDiff, hq]
  unfold expandQ2 at h
  split at h
  · next hf => -- C.SLLI
    obtain rfl := Option.some.inj h
    rw [hf]
    exact ⟨_, rfl, rfl, rfl, rfl, rfl, shamt_ci c, parcel_bit30 c⟩
  · next hf => -- C.LWSP
    split at h
    · cases h
    · obtain rfl := Option.some.inj h
      rw [hf]
      refine ⟨_, rfl, rfl, rfl, rfl, rfl, ?_⟩
      rw [BitVec.signExtend_setWidth_of_lt _ (by decide)]
      exact imm_lwsp c
  · next hf => -- C.LDSP
    split at h
    · cases h
    · obtain rfl := Option.some.inj h
      rw [hf]
      refine ⟨_, rfl, rfl, rfl, rfl, rfl, ?_⟩
      rw [BitVec.signExtend_setWidth_of_lt _ (by decide)]
      exact imm_ldsp c
  · next hf =>
    rw [hf]
    exact ⟨_, rfl, decodeJalr16_is hq' hf rfl rfl h⟩
  · next hf => -- C.SWSP
    obtain rfl := Option.some.inj h
    rw [hf]
    refine ⟨_, rfl, rfl, rfl, rfl, rfl, ?_⟩
    rw [BitVec.signExtend_setWidth_of_lt _ (by decide)]
    exact imm_swsp c
  · next hf => -- C.SDSP
    obtain rfl := Option.some.inj h
    rw [hf]
    refine ⟨_, rfl, rfl, rfl, rfl, rfl, ?_⟩
    rw [BitVec.signExtend_setWidth_of_lt _ (by decide)]
    exact imm_sdsp c
  · cases h

/-- Every parcel of the C extension is decoded to its expansion. -/
theorem decode16_is (h : rvcExpand c = some i) :
    ∃ d, decode16 (c.setWidth 32) = some d ∧ d.Is i := by
  unfold rvcExpand at h
  split at h
  · next hq => exact decode16_q0 hq h
  · next hq => exact decode16_q1 hq h
  · next hq => exact decode16_q2 hq h
  · cases h

end Decode

/-! ## Execution -/

/-- The register in which a jump leaves its return address. -/
def Isa.Instr.linkReg : Instr → Option (BitVec 5)
  | .jal rd _ => some rd
  | .jalr rd _ _ => some rd
  | _ => none

/-- Whether the next instruction follows, if there is no trap. -/
def Isa.Instr.fallsThrough (x : Regs) : Instr → Bool
  | .jal .. | .jalr .. => false
  | .branch op rs1 rs2 _ => !op.taken (x rs1) (x rs2)
  | _ => true

/-- Write the return address of `i`, if it has one. -/
def Sys.link (s : Sys δ) (i : Instr) (ret : BitVec 64) : Sys δ :=
  match i.linkReg with
  | some rd => s.setReg rd ret
  | none => s

/-- How the execute stage may end for `i`: in a trap, or with the next
    instruction just when `i` falls through. -/
def FlowOk (s : Sys δ) (i : Instr) (f : Flow) (u : Sys δ) : Prop :=
  (∃ he, f = .ret he ∧ he ≠ .noexc) ∨
  (f = .brk (!i.fallsThrough s.hs.regs) ∧ (i.fallsThrough s.hs.regs = true → u.hs.pc = s.hs.pc))

/-- Executing `i` on `s` ends in `f` and `u`, whichever encoding of `i` was
    decoded, but for that encoding, its length and the return address. -/
def ExecutesTo (env : Env δ) (s : Sys δ) (i : Instr) (f : Flow) (u : Sys δ) : Prop :=
  ∀ d inst len, d.Is i →
    execute env d (s.withInst inst len) =
      (f, (u.withInst inst len).link i (s.hs.pc + (s.withInst inst len).hs.instBytes))

section Execute

variable (env : Env δ) (s : Sys δ) {i : Instr}

/-- An instruction that only writes `rd`, … -/
theorem exists_of_write {rd : BitVec 5} {v : BitVec 64} (hlink : i.linkReg = none)
    (hfall : i.fallsThrough s.hs.regs = true)
    (he : ∀ len, i.effect s.hs.regs s.hs.pc len = some ⟨some (rd, v), none⟩) :
    ∃ f u, FlowOk s i f u ∧ ExecutesTo env s i f u := by
  refine ⟨.brk false, s.setReg rd v, .inr ⟨by rw [hfall]; rfl, fun _ => rfl⟩, ?_⟩
  intro d inst len hd
  have hexec := execute_of_is env (s := s.withInst inst len) hd (he _)
  rw [hexec, Sys.link, hlink]
  rfl

/-- … one that jumps, … -/
theorem exists_of_target (target : BitVec 64) (hfall : i.fallsThrough s.hs.regs = false)
    (he : ∀ len, i.effect s.hs.regs s.hs.pc len =
      some ⟨i.linkReg.map fun rd => (rd, s.hs.pc + len), some target⟩) :
    ∃ f u, FlowOk s i f u ∧ ExecutesTo env s i f u := by
  refine ⟨(jumped (s.setPc target)).1, (jumped (s.setPc target)).2, ?_, ?_⟩
  · refine (jumped_flow _).imp_right fun h => ?_
    rw [hfall]
    exact ⟨h, fun hf => Bool.noConfusion hf⟩
  · intro d inst len hd
    have hexec := execute_of_is env (s := s.withInst inst len) hd (he _)
    rw [hexec, Effect.apply, Effect.writeReg, Sys.link]
    cases i.linkReg with
    | none => exact jumped_withInst (s.setPc target) inst len
    | some rd =>
      refine (jumped_setReg ((s.setPc target).withInst inst len) rd _).trans ?_
      rw [jumped_withInst]
      rfl

/-- … and one that does nothing at all. -/
theorem exists_of_nothing (hlink : i.linkReg = none) (hfall : i.fallsThrough s.hs.regs = true)
    (he : ∀ len, i.effect s.hs.regs s.hs.pc len = some ⟨none, none⟩) :
    ∃ f u, FlowOk s i f u ∧ ExecutesTo env s i f u := by
  refine ⟨.brk false, s, .inr ⟨by rw [hfall]; rfl, fun _ => rfl⟩, ?_⟩
  intro d inst len hd
  have hexec := execute_of_is env (s := s.withInst inst len) hd (he _)
  rw [hexec, Sys.link, hlink]
  rfl

/-- A load ends as `execLoad` does, … -/
theorem executesTo_load (op : LoadOp) (rd rs1 : BitVec 5) (imm : BitVec 12) :
    let r := execLoad env (decode32 (Instr.load op rd rs1 imm).encode) s
    ExecutesTo env s (.load op rd rs1 imm) r.1 r.2 := by
  intro r d inst len hd
  obtain ⟨hop, hrd, hrs1, hfunct3, himm⟩ := hd
  obtain ⟨-, hrd', hrs1', hfunct3', himm'⟩ := decode32_is (.load op rd rs1 imm)
  have hd' : execLoad env d s = r := by
    simp only [execLoad, r, hrd, hrs1, hfunct3, himm, hrd', hrs1', hfunct3', himm']
  rw [execute, hop]
  exact (execLoad_withInst env s inst len d).trans (congrArg (mapInst inst len) hd')

/-- … and a store as `execStore`. -/
theorem executesTo_store (op : StoreOp) (rs1 rs2 : BitVec 5) (imm : BitVec 12) :
    let r := execStore env (decode32 (Instr.store op rs1 rs2 imm).encode) s
    ExecutesTo env s (.store op rs1 rs2 imm) r.1 r.2 := by
  intro r d inst len hd
  obtain ⟨hop, hrs1, hrs2, hfunct3, himm⟩ := hd
  obtain ⟨-, hrs1', hrs2', hfunct3', himm'⟩ := decode32_is (.store op rs1 rs2 imm)
  have hd' : execStore env d s = r := by
    simp only [execStore, r, hrs1, hrs2, hfunct3, himm, hrs1', hrs2', hfunct3', himm']
  rw [execute, hop]
  exact (execStore_withInst env s inst len d).trans (congrArg (mapInst inst len) hd')

/-- `EBREAK` traps with its own address. -/
theorem executesTo_ebreak :
    ExecutesTo env s .ebreak (trap (s.createException .bpoint s.hs.pc)).1
      (trap (s.createException .bpoint s.hs.pc)).2 := by
  intro d inst len hd
  obtain ⟨hop, hcall, hbreak⟩ := hd
  rw [execute, hop]
  change execSystem env d (s.withInst inst len) = _
  rw [execSystem, if_neg hcall, if_pos hbreak, createException_withInst]
  rfl

/-- A memory error is never `noexc`. -/
theorem flowOk_memError {afault pfault : HartException} {tval : BitVec 64} {u : Sys δ}
    {t : HartException × Sys δ} (ha : afault.interrupt = false) (hp : pfault.interrupt = false)
    (hne : afault ≠ .noexc ∧ pfault ≠ .noexc) (h : handleMemError afault pfault tval u = some t) :
    FlowOk s i (trap t).1 (trap t).2 := by
  refine .inl ⟨t.1, rfl, ?_⟩
  rcases handleMemError_fst ha hp h with hexc | hexc
  · exact hexc ▸ hne.1
  · exact hexc ▸ hne.2

/-- A load goes on behind itself, or traps, … -/
theorem execLoad_flow (d : Decoded) (hi : ∀ x, i.fallsThrough x = true) :
    FlowOk s i (execLoad env d s).1 (execLoad env d s).2 := by
  unfold execLoad
  dsimp only
  split
  · next ht => exact flowOk_memError s rfl rfl (by decide) ht
  · refine .inr ⟨by rw [hi]; rfl, fun _ => ?_⟩
    exact congrArg Core.pc (virtMemFetch_core env (s.setMemStatus true) _ _)

/-- … and so does a store. -/
theorem execStore_flow (d : Decoded) (hi : ∀ x, i.fallsThrough x = true) :
    FlowOk s i (execStore env d s).1 (execStore env d s).2 := by
  unfold execStore
  dsimp only
  split
  · next ht => exact flowOk_memError s rfl rfl (by decide) ht
  · refine .inr ⟨by rw [hi]; rfl, fun _ => ?_⟩
    split
    · rfl
    · exact congrArg Core.pc (virtMemStore_core env (s.setMemStatus false) _ _ _)

/-- Every instruction has an outcome that does not depend on its encoding. -/
theorem exists_executesTo (i : Instr) : ∃ f u, FlowOk s i f u ∧ ExecutesTo env s i f u := by
  cases i with
  | lui rd imm => exact exists_of_write env s rfl rfl fun _ => rfl
  | auipc rd imm => exact exists_of_write env s rfl rfl fun _ => rfl
  | jal rd offset => exact exists_of_target env s _ rfl fun _ => rfl
  | jalr rd rs1 imm => exact exists_of_target env s _ rfl fun _ => rfl
  | branch op rs1 rs2 offset =>
    cases htaken : op.taken (s.hs.regs rs1) (s.hs.regs rs2) with
    | true =>
      let target := s.hs.pc + (offset ++ 0#1).signExtend 64
      refine exists_of_target env s target ?_ fun _ => ?_
      · rw [Instr.fallsThrough, htaken]
        rfl
      · rw [Instr.effect, htaken, if_pos rfl]
        rfl
    | false =>
      refine exists_of_nothing env s rfl ?_ fun _ => ?_
      · rw [Instr.fallsThrough, htaken]
        rfl
      · rw [Instr.effect, htaken]
        rfl
  | opImm op rd rs1 imm => exact exists_of_write env s rfl rfl fun _ => rfl
  | shiftImm op rd rs1 shamt => exact exists_of_write env s rfl rfl fun _ => rfl
  | addiw rd rs1 imm => exact exists_of_write env s rfl rfl fun _ => rfl
  | shiftImmW op rd rs1 shamt => exact exists_of_write env s rfl rfl fun _ => rfl
  | opReg op rd rs1 rs2 => exact exists_of_write env s rfl rfl fun _ => rfl
  | opRegW op rd rs1 rs2 => exact exists_of_write env s rfl rfl fun _ => rfl
  | load op rd rs1 imm =>
    exact ⟨_, _, execLoad_flow env s _ fun _ => rfl, executesTo_load env s op rd rs1 imm⟩
  | store op rs1 rs2 imm =>
    exact ⟨_, _, execStore_flow env s _ fun _ => rfl, executesTo_store env s op rs1 rs2 imm⟩
  | ebreak =>
    exact ⟨_, _, .inl ⟨_, rfl, createException_raises s _ rfl⟩, executesTo_ebreak env s⟩

end Execute

/-! ## The expansion is exact -/

/-- The results `r₁` and `r₂` of executing `i` on `s` as a 16-bit and as a
    32-bit instruction agree, but for the return address and the address of the
    next instruction. -/
structure RvcAgree (s : Sys δ) (i : Instr) (r₁ r₂ : HartException × Sys δ) : Prop where
  exc : r₁.1 = r₂.1
  bus : r₁.2.bus = r₂.2.bus
  csr : r₁.2.hs.csr = r₂.2.hs.csr
  pmp : r₁.2.hs.pmp = r₂.2.hs.pmp
  privmode : r₁.2.hs.privmode = r₂.2.hs.privmode
  tlb : r₁.2.hs.tlb = r₂.2.hs.tlb
  memStatus : r₁.2.hs.memStatus = r₂.2.hs.memStatus
  pageFault : r₁.2.hs.pageFault = r₂.2.hs.pageFault
  chkInt : r₁.2.hs.chkInt = r₂.2.hs.chkInt
  hartid : r₁.2.hs.hartid = r₂.2.hs.hartid
  regs : ∀ r, i.linkReg ≠ some r → r₁.2.hs.regs r = r₂.2.hs.regs r
  link : ∀ r, i.linkReg = some r →
    r₁.2.hs.regs r = s.hs.pc + 2 ∧ r₂.2.hs.regs r = s.hs.pc + 4
  pc : if r₁.1 = .noexc ∧ i.fallsThrough s.hs.regs = true then
      r₁.2.hs.pc = s.hs.pc + 2 ∧ r₂.2.hs.pc = s.hs.pc + 4
    else r₁.2.hs.pc = r₂.2.hs.pc

/-- A 16-bit instruction is executed as `decode16` decodes it. -/
theorem decodeExc_of_len16 (env : Env δ) {s : Sys δ} {d : Decoded} (hlen : s.hs.instLen = 16)
    (hdec : decode16 s.hs.inst = some d) : decodeExc env s = runDecoded env d s := by
  rw [decodeExc, if_pos hlen, hdec]

/-- Finishing an outcome does not depend on the instruction, but for the
    address of the next one. -/
theorem finish_withInst {s : Sys δ} {i : Instr} {f : Flow} {u : Sys δ} (h : FlowOk s i f u) :
    ∃ (x : HartException) (v : Sys δ), ∀ inst len, finish (f, u.withInst inst len) =
      (x, (v.withInst inst len).setPc
        (if x = .noexc ∧ i.fallsThrough s.hs.regs = true
          then s.hs.pc + (u.withInst inst len).hs.instBytes else v.hs.pc)) := by
  rcases h with ⟨he, rfl, hne⟩ | ⟨rfl, hpc⟩
  · refine ⟨he, u, fun inst len => ?_⟩
    rw [if_neg fun h => hne h.1]
    rfl
  · cases hfall : i.fallsThrough s.hs.regs with
    | false =>
      refine ⟨.noexc, retire true u, fun inst len => ?_⟩
      rw [if_neg fun h => Bool.noConfusion h.2]
      rfl
    | true =>
      refine ⟨.noexc, retire false u, fun inst len => ?_⟩
      rw [if_pos ⟨rfl, rfl⟩, ← hpc hfall]
      rfl

/-- Finishing an outcome does not depend on the return address either. -/
theorem finish_link (f : Flow) (t : Sys δ) (i : Instr) (ret : BitVec 64) :
    finish (f, t.link i ret) = ((finish (f, t)).1, (finish (f, t)).2.link i ret) := by
  unfold Sys.link
  cases i.linkReg with
  | none => rfl
  | some rd =>
    cases f with
    | ret he => rfl
    | brk pcChgd => cases pcChgd <;> rfl

/-- Two outcomes that differ in the instruction and the return address. -/
theorem rvcAgree_of_flowOk {s : Sys δ} {i : Instr} {f : Flow} {u : Sys δ} (h : FlowOk s i f u)
    (inst₁ inst₂ : BitVec 32) :
    RvcAgree s i (finish (f, (u.withInst inst₁ 16).link i (s.hs.pc + 2)))
      (finish (f, (u.withInst inst₂ 32).link i (s.hs.pc + 4))) := by
  obtain ⟨x, v, hfin⟩ := finish_withInst h
  have h16 : (u.withInst inst₁ 16).hs.instBytes = 2 := HartState.instBytes_of_len16 rfl
  have h32 : (u.withInst inst₂ 32).hs.instBytes = 4 := HartState.instBytes_of_len32 rfl
  simp only [finish_link, hfin, h16, h32]
  cases hlink : i.linkReg with
  | none =>
    simp only [Sys.link, hlink]
    constructor
    case regs => exact fun _ _ => rfl
    case link => exact fun r hr => by rw [hlink] at hr; cases hr
    case pc => split <;> simp_all [Sys.setPc]
    all_goals rfl
  | some rd =>
    simp only [Sys.link, hlink]
    constructor
    case regs =>
      intro r hr
      have hne : r ≠ rd := fun h => hr (h ▸ hlink)
      exact (Function.update_of_ne hne _ _).trans (Function.update_of_ne hne _ _).symm
    case link =>
      intro r hr
      obtain rfl : rd = r := Option.some.inj (hlink.symm.trans hr)
      exact ⟨Function.update_self .., Function.update_self ..⟩
    case pc => split <;> simp_all [Sys.setPc, Sys.setReg]
    all_goals rfl

/-- A defined parcel of the C extension has the effect of the instruction it
    expands to. -/
theorem decodeExc_rvcExpand (env : Env δ) (s : Sys δ) (c : BitVec 16) (i : Instr)
    (hc : rvcExpand c = some i) :
    RvcAgree s i (decodeExc env (s.withInst (c.setWidth 32) 16))
      (decodeExc env (s.withInst i.encode 32)) := by
  obtain ⟨d, hdec, hd⟩ := decode16_is hc
  obtain ⟨f, u, hflow, hexec⟩ := exists_executesTo env s i
  have h₁ : decodeExc env (s.withInst (c.setWidth 32) 16) =
      finish (f, (u.withInst d.inst 16).link i (s.hs.pc + 2)) := by
    rw [decodeExc_of_len16 env (s := s.withInst (c.setWidth 32) 16) rfl hdec,
      runDecoded_eq_finish, hexec d _ _ hd, HartState.instBytes_of_len16 rfl]
  have h₂ : decodeExc env (s.withInst i.encode 32) =
      finish (f, (u.withInst i.encode 32).link i (s.hs.pc + 4)) := by
    have hrun : decodeExc env (s.withInst i.encode 32) =
        runDecoded env (decode32 i.encode) (s.withInst i.encode 32) := rfl
    rw [hrun, runDecoded_eq_finish, decode32_inst, hexec _ _ _ (decode32_is i),
      HartState.instBytes_of_len32 rfl]
  rw [h₁, h₂]
  exact rvcAgree_of_flowOk hflow d.inst i.encode

/-- `c.addi sp, -16` -/
theorem decodeExc_rvcExpand_addi :
    let s : Sys Unit := ⟨resetState 0, Bus.inert⟩
    RvcAgree s (.opImm .addi 2 2 (-16)) (decodeExc Env.inert (s.withInst 0x1141 16))
      (decodeExc Env.inert (s.withInst 0xFF010113 32)) :=
  decodeExc_rvcExpand Env.inert ⟨resetState 0, Bus.inert⟩ 0x1141 _ (by decide)

end RvEmu
