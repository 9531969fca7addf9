import Mathlib.Logic.Function.Basic

/-!
# Bit vector lemmas

Facts about single bits, masks and fields of bit vectors: candidates for the
standard library.
-/

namespace BitVec

/-- Masking with one bit tests that bit. -/
theorem and_one_shiftLeft_eq_zero {w : Nat} (x : BitVec w) (k : Nat) :
    x &&& (1#w <<< k) = 0#w ↔ x.getLsbD k = false := by
  rw [← twoPow_eq, and_twoPow]
  cases h : x.getLsbD k with
  | false => simp
  | true =>
    have hk : k < w := lt_of_getLsbD h
    simp only [↓reduceIte, reduceCtorEq, iff_false]
    intro hz
    have := congrArg (fun y => y.getLsbD k) hz
    simp [hk] at this

/-- The test of a bit as a Boolean. -/
theorem and_one_shiftLeft_beq_zero {w : Nat} (x : BitVec w) (k : Nat) :
    (x &&& (1#w <<< k) == 0#w) = !x.getLsbD k := by
  rw [Bool.eq_iff_iff, beq_iff_eq, and_one_shiftLeft_eq_zero, Bool.not_eq_true']

/-- Clearing the lowest bit of an even vector changes nothing. -/
theorem and_not_one_eq_self {w : Nat} {x : BitVec w} (h : x.getLsbD 0 = false) :
    x &&& ~~~1#w = x := by
  apply eq_of_getLsbD_eq
  intro i hi
  cases i with
  | zero => simp [h]
  | succ i => simp [hi]

/-- Two values are at most one. -/
theorem le_one_cases {w : Nat} {x : BitVec w} (h : x ≤ 1) : x = 0 ∨ x = 1 := by
  cases w with
  | zero => exact .inl of_length_zero
  | succ w =>
    have hle : x.toNat ≤ 1 := by simpa [le_def] using h
    rcases Nat.le_one_iff_eq_zero_or_eq_one.mp hle with h0 | h1
    · exact .inl (eq_of_toNat_eq (by simpa using h0))
    · exact .inr (eq_of_toNat_eq (by simpa using h1))

/-- Truncating a sign extension is a sign extension to the smaller width. -/
theorem setWidth_signExtend_of_le {w m n : Nat} (x : BitVec w) (h : m ≤ n) :
    (x.signExtend n).setWidth m = x.signExtend m := by
  apply eq_of_getLsbD_eq
  intro i hi
  have hin : i < n := Nat.lt_of_lt_of_le hi h
  simp only [getLsbD_setWidth, getLsbD_signExtend, hi, hin, decide_true, Bool.true_and]

/-- The low part of an appended value. -/
theorem setWidth_signExtend_append {m k n : Nat} (hi : BitVec m) (lo : BitVec k) (h : k ≤ n) :
    ((hi ++ lo).signExtend n).setWidth k = lo := by
  rw [setWidth_signExtend_of_le _ h, signExtend_eq_setWidth_of_le _ (Nat.le_add_left k m)]
  exact setWidth_append_eq_right

/-- The last bit of a sign extension is the sign bit. -/
theorem signBit_of_le {w m : Nat} (x : BitVec w) (h : w ≤ m) :
    (if m - 1 < w then x.getLsbD (m - 1) else x.getLsbD (w - 1)) = x.getLsbD (w - 1) := by
  split
  · have hmw : m - 1 = w - 1 := by omega
    rw [hmw]
  · rfl

/-- Extending twice is extending once. -/
theorem signExtend_signExtend_of_le {w m n : Nat} (x : BitVec w) (h : w ≤ m) :
    (x.signExtend m).signExtend n = x.signExtend n := by
  apply eq_of_getLsbD_eq
  intro i hi
  simp only [getLsbD_signExtend, msb_eq_getLsbD_last, hi]
  by_cases him : i < m
  · simp [him]
  · have hiw : ¬ i < w := by omega
    rw [if_neg him, if_neg hiw]
    by_cases hm : m - 1 < m
    · rw [signBit_of_le x h]
      simp [hm]
    · have hw : w = 0 := by omega
      subst hw
      simp

/-- After a strict zero extension, sign extension adds zeros too. -/
theorem signExtend_setWidth_of_lt {w m n : Nat} (x : BitVec w) (h : w < m) :
    (x.setWidth m).signExtend n = x.setWidth n := by
  apply eq_of_getLsbD_eq
  intro i hi
  simp only [getLsbD_signExtend, msb_eq_getLsbD_last, hi, getLsbD_setWidth]
  by_cases him : i < m
  · simp [him]
  · have hlast : x.getLsbD (m - 1) = false := getLsbD_of_ge x (m - 1) (by omega)
    have hxi : x.getLsbD i = false := getLsbD_of_ge x i (by omega)
    simp [him, hlast, hxi]

/-- Sign extension before and after a shift by appended zeros. -/
theorem signExtend_signExtend_append_zero {w m k n : Nat} (x : BitVec w) (hw : 0 < w)
    (h : w ≤ m) : (x.signExtend m ++ 0#k).signExtend n = (x ++ 0#k).signExtend n := by
  apply eq_of_getLsbD_eq
  intro i hi
  simp only [getLsbD_signExtend, msb_eq_getLsbD_last, hi, getLsbD_append, getLsbD_zero]
  have hwk : ¬ w + k - 1 < k := by omega
  have hmk : ¬ m + k - 1 < k := by omega
  have hw1 : w + k - 1 - k = w - 1 := by omega
  have hm1 : m + k - 1 - k = m - 1 := by omega
  have hlt : m - 1 < m := by omega
  rw [if_neg hwk, if_neg hmk, hw1, hm1]
  by_cases hik : i < k
  · have him : i < m + k := by omega
    have hiw : i < w + k := by omega
    simp [hik, him, hiw]
  · by_cases him : i < m + k
    · have hikm : i - k < m := by omega
      have hikw : i - k < w ↔ i < w + k := by omega
      simp [hik, him, hikm, hikw]
    · have hiw : ¬ i < w + k := by omega
      simp [him, hiw, hlt, signBit_of_le x h]

/-- Masking with the low `k` bits is truncation to `k` bits. -/
theorem toNat_and_lowMask {w : Nat} (x : BitVec w) (k : Nat) (hk : k ≤ w) :
    (x &&& (allOnes k).setWidth w).toNat = (x.setWidth k).toNat := by
  rw [toNat_and, toNat_setWidth_of_le hk, toNat_allOnes, Nat.and_two_pow_sub_one_eq_mod,
    toNat_setWidth]

/-- The lowest bit of a sum. -/
theorem getLsbD_zero_add {w : Nat} (hw : 0 < w) (x y : BitVec w) :
    (x + y).getLsbD 0 = (x.getLsbD 0 ^^ y.getLsbD 0) := by
  rw [getLsbD_add hw, carry_zero, Bool.xor_false]

/-! ### Writes under a mask -/

/-- Cleared bits are clear. -/
theorem and_not_and_self {w : Nat} (x m : BitVec w) : x &&& ~~~m &&& m = 0 := by
  apply eq_of_getLsbD_eq
  intro i hi
  simp only [getLsbD_and, getLsbD_not, hi, decide_true, Bool.true_and, ofNat_eq_ofNat,
    getLsbD_zero]
  cases m.getLsbD i <;> simp

/-- All bits of `x` are among those of `m`, in two forms. -/
theorem and_not_eq_zero_iff {w : Nat} (x m : BitVec w) : x &&& ~~~m = 0 ↔ x ||| m = m := by
  constructor
  all_goals
    intro h
    apply eq_of_getLsbD_eq
    intro i hi
    have hbit := congrArg (·.getLsbD i) h
    simp only [getLsbD_and, getLsbD_or, getLsbD_not, hi, decide_true, Bool.true_and,
      ofNat_eq_ofNat, getLsbD_zero] at hbit ⊢
    revert hbit
    cases x.getLsbD i <;> cases m.getLsbD i <;> decide

/-- Setting the bits of `x` keeps those under `m` if they are set already. -/
theorem or_and_eq_and_iff {w : Nat} (y x m : BitVec w) :
    (y ||| x) &&& m = y &&& m ↔ x &&& m &&& ~~~y = 0 := by
  constructor
  all_goals
    intro h
    apply eq_of_getLsbD_eq
    intro i hi
    have hbit := congrArg (·.getLsbD i) h
    simp only [getLsbD_and, getLsbD_or, getLsbD_not, hi, decide_true, Bool.true_and,
      ofNat_eq_ofNat, getLsbD_zero] at hbit ⊢
    revert hbit
    cases y.getLsbD i <;> cases x.getLsbD i <;> cases m.getLsbD i <;> decide

/-- Clearing the bits of `x` keeps those under `m` if they are clear already. -/
theorem and_not_and_eq_and_iff {w : Nat} (y x m : BitVec w) :
    y &&& ~~~x &&& m = y &&& m ↔ x &&& m &&& y = 0 := by
  constructor
  all_goals
    intro h
    apply eq_of_getLsbD_eq
    intro i hi
    have hbit := congrArg (·.getLsbD i) h
    simp only [getLsbD_and, getLsbD_not, hi, decide_true, Bool.true_and, ofNat_eq_ofNat,
      getLsbD_zero] at hbit ⊢
    revert hbit
    cases y.getLsbD i <;> cases x.getLsbD i <;> cases m.getLsbD i <;> decide

/-- A word contains a mask of consecutive bits if and only if they are all ones in it. -/
theorem and_eq_mask_iff {w : Nat} (x : BitVec w) (start len : Nat) (h : start + len ≤ w) :
    x &&& (allOnes len).setWidth w <<< start = (allOnes len).setWidth w <<< start ↔
      x.extractLsb' start len = allOnes len := by
  constructor
  · intro hmask
    apply eq_of_getLsbD_eq
    intro i hi
    have hbit := congrArg (·.getLsbD (start + i)) hmask
    simp only [getLsbD_and, getLsbD_shiftLeft, getLsbD_setWidth, getLsbD_allOnes] at hbit
    simp only [getLsbD_extractLsb', getLsbD_allOnes]
    grind
  · intro hfield
    apply eq_of_getLsbD_eq
    intro i hi
    have hbit := congrArg (·.getLsbD (i - start)) hfield
    simp only [getLsbD_extractLsb', getLsbD_allOnes] at hbit
    simp only [getLsbD_and, getLsbD_shiftLeft, getLsbD_setWidth, getLsbD_allOnes]
    grind

/-- A field of a field. -/
theorem extractLsb'_extractLsb' {w : Nat} (x : BitVec w) {start len i n : Nat} (h : i + n ≤ len) :
    (x.extractLsb' start len).extractLsb' i n = x.extractLsb' (start + i) n := by
  apply eq_of_getLsbD_eq
  intro j hj
  simp only [getLsbD_extractLsb']
  grind

/-- Fields within the low bits that are kept. -/
theorem extractLsb'_and_allOnes {w : Nat} (x : BitVec w) (n : Nat) {start len : Nat}
    (h : start + len ≤ n) :
    (x &&& (allOnes n).setWidth w).extractLsb' start len = x.extractLsb' start len := by
  apply eq_of_getLsbD_eq
  intro i hi
  simp only [getLsbD_extractLsb', getLsbD_and, getLsbD_setWidth, getLsbD_allOnes]
  grind

/-- A mask of the low bits sees the low part only. -/
theorem and_setWidth {v w : Nat} (x : BitVec w) (k : BitVec v) :
    x &&& k.setWidth w = (x.setWidth v &&& k).setWidth w := by
  apply eq_of_getLsbD_eq
  intro i hi
  simp only [getLsbD_and, getLsbD_setWidth, hi, decide_true, Bool.true_and]
  by_cases hv : i < v
  · rw [decide_eq_true hv, Bool.true_and]
  · rw [decide_eq_false hv, getLsbD_of_ge k i (by omega), Bool.and_false, Bool.and_false]

/-- Replacing bits outside of `m`. -/
theorem and_or_and_eq_and {w : Nat} (x : BitVec w) {k s m : BitVec w} (hk : k &&& m = m)
    (hs : s &&& m = 0) : (x &&& k ||| s) &&& m = x &&& m := by
  apply eq_of_getLsbD_eq
  intro i hi
  have hki := congrArg (·.getLsbD i) hk
  have hsi := congrArg (·.getLsbD i) hs
  simp only [getLsbD_and, getLsbD_or, ofNat_eq_ofNat, getLsbD_zero] at hki hsi ⊢
  revert hki hsi
  cases k.getLsbD i <;> cases s.getLsbD i <;> cases m.getLsbD i <;> simp

section Disjoint

variable {w : Nat} {k m : BitVec w}

/-- Bits outside of `m` are outside of a part of it. -/
theorem disjoint_of_subset {b : BitVec w} (hk : k &&& m = 0) (hb : b &&& k = b) : b &&& m = 0 := by
  rw [← hb, and_assoc, hk]
  exact and_zero

/-- Clearing other bits does not matter to a mask, … -/
theorem and_not_and_of_disjoint (hk : k &&& m = 0) (x : BitVec w) :
    x &&& ~~~k &&& m = x &&& m := by
  rw [and_not_and_eq_and_iff, hk]
  exact zero_and

/-- … nor does setting them. -/
theorem or_and_of_disjoint (hk : k &&& m = 0) (x : BitVec w) : (x ||| k) &&& m = x &&& m := by
  rw [or_and_eq_and_iff, hk]
  exact zero_and

/-- A field moved up to bits outside of `m`, and one moved down. -/
theorem shiftLeft_and_of_disjoint {b : BitVec w} {j : Nat} (hb : b <<< j &&& m = 0)
    (y : BitVec w) : (y &&& b) <<< j &&& m = 0 := by
  rw [shiftLeft_and_distrib, and_assoc, hb]
  exact and_zero

/-- A field that is moved away from the mask. -/
theorem ushiftRight_and_of_disjoint {b : BitVec w} {j : Nat} (hb : b >>> j &&& m = 0)
    (y : BitVec w) : (y &&& b) >>> j &&& m = 0 := by
  rw [ushiftRight_and_distrib, and_assoc, hb]
  exact and_zero

end Disjoint

/-! ### Sums of disjoint fields -/

/-- All bits of `x` are among those of `m`. -/
def Under {w : Nat} (x m : BitVec w) : Prop := x &&& m = x

/-- Below two masks. -/
theorem Under.or {w : Nat} {x y m n : BitVec w} (hx : x.Under m) (hy : y.Under n) :
    (x ||| y).Under (m ||| n) := by
  apply eq_of_getLsbD_eq
  intro i hi
  have hxi := congrArg (·.getLsbD i) hx
  have hyi := congrArg (·.getLsbD i) hy
  simp only [getLsbD_and, getLsbD_or] at hxi hyi ⊢
  revert hxi hyi
  cases x.getLsbD i <;> cases y.getLsbD i <;> cases m.getLsbD i <;> simp

/-- Below a mask, by the test of the bits outside. -/
theorem under_of_and_not_eq_zero {w : Nat} {x m : BitVec w} (h : x &&& ~~~m = 0) : x.Under m := by
  rw [Under, ← (and_not_eq_zero_iff x m).mp h]
  apply eq_of_getLsbD_eq
  intro i hi
  rw [getLsbD_and, getLsbD_or]
  cases x.getLsbD i <;> simp

/-- Fields under disjoint masks add up without carries. -/
theorem Under.add {w : Nat} {x y m n : BitVec w} (hx : x.Under m) (hy : y.Under n)
    (h : m &&& n = 0) : x + y = x ||| y := by
  apply add_eq_or_of_and_eq_zero
  calc x &&& y = (x &&& m) &&& (y &&& n) := by rw [hx, hy]
    _ = (x &&& y) &&& (m &&& n) := by ac_rfl
    _ = 0#w := by rw [h]; exact and_zero

/-- A sum of fields under disjoint masks, bit by bit. -/
theorem Under.foldl_add_getLsbD {w i : Nat} {α : Type} {value mask : α → BitVec w}
    {bit : α → Bool} {as : List α} (hvalue : ∀ a ∈ as, (value a).Under (mask a))
    (hbit : ∀ a ∈ as, (value a).getLsbD i = bit a)
    (hmask : as.Pairwise fun a b => mask a &&& mask b = 0) {x m : BitVec w} (hx : x.Under m)
    (hm : ∀ a ∈ as, m &&& mask a = 0) :
    (as.foldl (fun y a => y + value a) x).getLsbD i = (x.getLsbD i || as.any bit) := by
  induction as generalizing x m with
  | nil => exact (Bool.or_false _).symm
  | cons a as ih =>
    rw [List.forall_mem_cons] at hvalue hbit hm
    obtain ⟨hfirst, hrest⟩ := List.pairwise_cons.mp hmask
    have hapart : ∀ b ∈ as, (m ||| mask a) &&& mask b = 0 := by
      intro b hb
      rw [and_or_distrib_right, hm.2 b hb, hfirst b hb]
      exact or_zero
    rw [List.foldl_cons, hx.add hvalue.1 hm.1,
      ih hvalue.2 hbit.2 hrest (hx.or hvalue.1) hapart, getLsbD_or, hbit.1, List.any_cons,
      Bool.or_assoc]

/-! ### Low and high parts -/

/-- The mask of the low `k` bits, made from either side. -/
theorem not_allOnes_shiftLeft {w k : Nat} (hk : k ≤ w) :
    ~~~(allOnes w <<< k) = allOnes w >>> (w - k) := by
  apply eq_of_getLsbD_eq
  intro i hi
  simp only [getLsbD_not, getLsbD_shiftLeft, getLsbD_ushiftRight, getLsbD_allOnes, hi, decide_true,
    Bool.true_and]
  by_cases hik : i < k
  · have hlow : w - k + i < w := by omega
    simp [hik, hlow]
  · have hhigh : ¬ w - k + i < w := by omega
    have hsub : i - k < w := by omega
    simp [hik, hhigh, hsub]

/-- A number below `2 ^ k` has no bits from `k` on. -/
theorem getLsbD_of_lt_one_shiftLeft {w k i : Nat} {x : BitVec w} (hk : k < w)
    (h : x < 1#w <<< k) (hi : k ≤ i) : x.getLsbD i = false := by
  have hone : (1#w <<< k).toNat = 2 ^ k := by
    rw [toNat_shiftLeft, Nat.shiftLeft_eq, toNat_ofNat,
      Nat.mod_eq_of_lt (Nat.one_lt_two_pow (by omega)), Nat.one_mul,
      Nat.mod_eq_of_lt (Nat.pow_lt_pow_right (by decide) hk)]
  have hlt : x.toNat < 2 ^ k := by
    rw [← hone]
    exact h
  exact Nat.testBit_lt_two_pow (Nat.lt_of_lt_of_le hlt (Nat.pow_le_pow_right (by decide) hi))

/-- Agreement with the part of `y` from bit `k` on, by a comparison. -/
theorem ushiftRight_eq_of_xor_lt {w k m : Nat} {x y : BitVec w} (hk : k < w)
    (h : x ^^^ (y &&& (allOnes w <<< k)) < 1#w <<< k) (hm : k ≤ m) : x >>> m = y >>> m := by
  apply eq_of_getLsbD_eq
  intro i hi
  rw [getLsbD_ushiftRight, getLsbD_ushiftRight]
  by_cases hw : m + i < w
  · have hbit := getLsbD_of_lt_one_shiftLeft hk h (i := m + i) (by omega)
    have hhigh : ¬ m + i < k := by omega
    have hsub : m + i - k < w := by omega
    simpa [getLsbD_xor, getLsbD_and, getLsbD_shiftLeft, getLsbD_allOnes, hw, hhigh, hsub] using hbit
  · rw [getLsbD_of_ge x _ (by omega), getLsbD_of_ge y _ (by omega)]

/-- The part from bit `k` on, in place. -/
theorem and_allOnes_shiftLeft_congr {w k : Nat} {x y : BitVec w} (h : x >>> k = y >>> k) :
    x &&& (allOnes w <<< k) = y &&& (allOnes w <<< k) := by
  apply eq_of_getLsbD_eq
  intro i hi
  simp only [getLsbD_and, getLsbD_shiftLeft, hi, decide_true, Bool.true_and]
  by_cases hik : i < k
  · simp [hik]
  · have hbit := congrArg (·.getLsbD (i - k)) h
    simp only [getLsbD_ushiftRight, Nat.add_sub_of_le (Nat.le_of_not_lt hik)] at hbit
    rw [hbit]

/-- The part below bit `k`. -/
theorem toNat_and_not_allOnes_shiftLeft {w k : Nat} (x : BitVec w) (hk : k ≤ w) :
    (x &&& ~~~(allOnes w <<< k)).toNat = (x.setWidth k).toNat := by
  have hmask : ~~~(allOnes w <<< k) = (allOnes k).setWidth w := by
    apply eq_of_getLsbD_eq
    intro i hi
    simp only [getLsbD_not, getLsbD_shiftLeft, getLsbD_setWidth, getLsbD_allOnes, hi, decide_true,
      Bool.true_and]
    by_cases hik : i < k
    · simp [hik]
    · have hsub : i - k < w := by omega
      simp [hik, hsub]
  rw [hmask, toNat_and_lowMask x k hk]

/-- A number is below `2 ^ k` if nothing is left from bit `k` on. -/
theorem lt_one_shiftLeft_iff {w k : Nat} {x : BitVec w} (hk : k < w) :
    x < 1#w <<< k ↔ x >>> k = 0#w := by
  constructor
  · intro h
    apply eq_of_getLsbD_eq
    intro i hi
    rw [getLsbD_ushiftRight, getLsbD_of_lt_one_shiftLeft hk h (Nat.le_add_right k i), getLsbD_zero]
  · intro h
    have hone : (1#w <<< k).toNat = 2 ^ k := by
      rw [toNat_shiftLeft, Nat.shiftLeft_eq, toNat_ofNat,
        Nat.mod_eq_of_lt (Nat.one_lt_two_pow (by omega)), Nat.one_mul,
        Nat.mod_eq_of_lt (Nat.pow_lt_pow_right (by decide) hk)]
    have hzero := congrArg BitVec.toNat h
    rw [toNat_ushiftRight, Nat.shiftRight_eq_div_pow, toNat_ofNat, Nat.zero_mod,
      Nat.div_eq_zero_iff] at hzero
    rw [lt_def, hone]
    exact hzero.resolve_left (Nat.ne_of_gt (Nat.two_pow_pos k))

/-- Agreement from bit `k` on with a number that has no bits below, by a comparison. -/
theorem xor_lt_one_shiftLeft_iff {w k : Nat} {x y : BitVec w} (hk : k < w)
    (hy : y.Under (allOnes w <<< k)) : x ^^^ y < 1#w <<< k ↔ x &&& (allOnes w <<< k) = y := by
  constructor
  · intro h
    rw [← hy] at h
    rw [and_allOnes_shiftLeft_congr (ushiftRight_eq_of_xor_lt hk h (Nat.le_refl k)), hy]
  · rintro rfl
    rw [lt_one_shiftLeft_iff hk]
    apply eq_of_getLsbD_eq
    intro i hi
    have hlow : ¬ k + i < k := by omega
    rw [getLsbD_ushiftRight, getLsbD_xor, getLsbD_and, getLsbD_shiftLeft, getLsbD_zero]
    by_cases hw : k + i < w
    · simp [hw, hi]
    · simp [getLsbD_of_ge x (k + i) (by omega)]

/-! ## Trailing ones -/

/-- The number of ones at the low end. -/
def trailingOnes {w : Nat} (x : BitVec w) : Nat := (~~~x).ctz.toNat

section TrailingOnes

variable {w : Nat} {x : BitVec w}

/-- The complement of anything but all ones is not zero. -/
theorem not_ne_zero (h : x ≠ allOnes w) : ~~~x ≠ 0#w := by
  intro h0
  apply h
  rw [← BitVec.not_not (b := x), h0]
  simp

/-- Not all bits are trailing ones. -/
theorem trailingOnes_lt (h : x ≠ allOnes w) : x.trailingOnes < w := by
  have hlt := ctz_lt_iff_ne_zero.mpr (not_ne_zero h)
  rw [lt_def] at hlt
  show (~~~x).ctz.toNat < w
  simpa [Nat.mod_eq_of_lt Nat.lt_two_pow_self] using hlt

/-- The bits below are ones. -/
theorem getLsbD_of_lt_trailingOnes {i : Nat} (hw : i < w) (hi : i < x.trailingOnes) :
    x.getLsbD i = true := by
  have h := getLsbD_false_of_lt_ctz (x := ~~~x) hi
  simpa [hw] using h

/-- The bit after them is not. -/
theorem getLsbD_trailingOnes (h : x ≠ allOnes w) : x.getLsbD x.trailingOnes = false := by
  have hbit := getLsbD_true_ctz_of_ne_zero (not_ne_zero h)
  rw [getLsbD_not, Bool.and_eq_true, Bool.not_eq_true'] at hbit
  exact hbit.2

/-- The low end: a zero, and the ones after it. -/
theorem toNat_mod_trailingOnes (h : x ≠ allOnes w) :
    x.toNat % (1 <<< (x.trailingOnes + 1)) = 1 <<< x.trailingOnes - 1 := by
  have hlt := trailingOnes_lt h
  have hstop := getLsbD_trailingOnes h
  rw [Nat.one_shiftLeft, Nat.one_shiftLeft]
  apply Nat.eq_of_testBit_eq
  intro i
  rw [Nat.testBit_mod_two_pow, Nat.testBit_two_pow_sub_one, testBit_toNat]
  rcases Nat.lt_trichotomy i x.trailingOnes with hi | hi | hi
  · rw [getLsbD_of_lt_trailingOnes (by omega) hi]
    simp [hi, Nat.lt_succ_of_lt hi]
  · rw [hi, hstop]
    simp
  · have hge : ¬ i < x.trailingOnes + 1 := by omega
    have hge' : ¬ i < x.trailingOnes := by omega
    simp [hge, hge']

end TrailingOnes

end BitVec
