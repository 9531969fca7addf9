import Mathlib.Tactic.Ring
import RvEmu.ForStd.BitVec
import RvEmu.Spec.PmpSync

/-!
# The regions of PMP entries

What region an entry protects by the privileged architecture, and what
`sync_exp_pmp` makes of it. TOR and NA4 entries are expanded as specified. Of a
NAPOT region, whose size `pmpaddr` encodes by its trailing ones, the expanded entry
covers the lower half.
-/

namespace RvEmu

variable {δ : Type}

/-! ## The specified regions -/

/-- The base of the NAPOT region that `a` encodes: `a` without its trailing ones, in
    units of four bytes. -/
def napotBase (a : BitVec 64) : Nat := 4 * (a.toNat - (1 <<< a.trailingOnes - 1))

/-- The size of the NAPOT region that `a` encodes. -/
def napotSize (a : BitVec 64) : Nat := 1 <<< (a.trailingOnes + 3)

/-- The region `[lo, hi)` that the privileged architecture assigns to entry `i`. -/
def PmpState.region (p : PmpState) (i : Fin 16) : Nat × Nat :=
  let a := p.pmpaddr i
  if p.mode i = 1 then -- TOR
    (if i = 0 then 0 else 4 * (p.pmpaddr (i - 1)).toNat, 4 * a.toNat)
  else if p.mode i = 2 then -- NA4
    (4 * a.toNat, 4 * a.toNat + 4)
  else -- NAPOT
    (napotBase a, napotBase a + napotSize a)

/-- The expanded entry covers the addresses of a region. -/
def ExpPMP.Matches (e : ExpPMP) (region : Nat × Nat) : Prop :=
  ∀ x : BitVec 64, e.covers x = true ↔ region.1 ≤ x.toNat ∧ x.toNat < region.2

/-! ## NAPOT -/

section Napot

variable {a : BitVec 64}

/-- `ffsll` finds the lowest zero of `a` in its complement. -/
theorem ffsll_not (h : a ≠ BitVec.allOnes 64) : ffsll (~~~a) = a.trailingOnes + 1 := by
  have hlt := BitVec.trailingOnes_lt h
  have hfind : (List.range 64).find? (fun i => (~~~a).getLsbD i) = some a.trailingOnes := by
    rw [List.find?_range_eq_some]
    refine ⟨?_, List.mem_range.mpr hlt, fun j hj => ?_⟩
    · rw [BitVec.getLsbD_not, BitVec.getLsbD_trailingOnes h]
      simp [hlt]
    · simp [BitVec.getLsbD_of_lt_trailingOnes (Nat.lt_trans hj hlt) hj]
  rw [ffsll, hfind]

/-- A number in terms of its trailing ones. -/
theorem toNat_trailingOnes (h : a ≠ BitVec.allOnes 64) :
    ∃ q, a.toNat = q * (2 * 1 <<< a.trailingOnes) + (1 <<< a.trailingOnes - 1) := by
  have hmod := BitVec.toNat_mod_trailingOnes h
  have hdouble : 1 <<< (a.trailingOnes + 1) = 2 * 1 <<< a.trailingOnes := by
    rw [Nat.one_shiftLeft, Nat.one_shiftLeft, Nat.pow_succ, Nat.mul_comm]
  refine ⟨a.toNat / 1 <<< (a.trailingOnes + 1), ?_⟩
  rw [← hmod, ← hdouble]
  exact (Nat.div_add_mod' _ _).symm

/-- The base is aligned to the size. -/
theorem napotSize_dvd_napotBase (h : a ≠ BitVec.allOnes 64) : napotSize a ∣ napotBase a := by
  obtain ⟨q, hq⟩ := toNat_trailingOnes h
  refine ⟨q, ?_⟩
  rw [napotBase, napotSize, hq, Nat.add_sub_cancel]
  simp only [Nat.one_shiftLeft, Nat.pow_succ]
  ring

variable (hlt : a < 0x40000000000000)
include hlt

/-- 54 bits are not all ones, … -/
theorem ne_allOnes_of_lt : a ≠ BitVec.allOnes 64 := by
  rintro rfl
  exact absurd hlt (by decide)

/-- … and so end in at most 54 ones. -/
theorem trailingOnes_le : a.trailingOnes ≤ 54 := by
  obtain ⟨q, hq⟩ := toNat_trailingOnes (ne_allOnes_of_lt hlt)
  by_contra hgt
  have hpow : 1 <<< 55 ≤ 1 <<< a.trailingOnes := by
    rw [Nat.one_shiftLeft, Nat.one_shiftLeft]
    exact Nat.pow_le_pow_right (by decide) (by omega)
  have ha : a.toNat < 0x40000000000000 := hlt
  have hlarge : 1 <<< a.trailingOnes - 1 ≤ a.toNat := hq ▸ Nat.le_add_left _ _
  omega

/-- The shifts of `sync_exp_pmp` drop the trailing ones. -/
theorem toNat_napot_lbound :
    ((a >>> a.trailingOnes) <<< (a.trailingOnes + 2)).toNat = napotBase a := by
  obtain ⟨q, hq⟩ := toNat_trailingOnes (ne_allOnes_of_lt hlt)
  have ha : a.toNat < 0x40000000000000 := hlt
  have hpos : 0 < 2 ^ a.trailingOnes := Nat.two_pow_pos _
  rw [Nat.one_shiftLeft] at hq
  -- shifting out the trailing ones leaves `2 * q`: the bit behind them is zero
  have hdiv : a.toNat / 2 ^ a.trailingOnes = 2 * q := by
    rw [hq, Nat.div_eq_of_lt_le]
    · have : 2 * q * 2 ^ a.trailingOnes = q * (2 * 2 ^ a.trailingOnes) := by ring
      omega
    · have : (2 * q + 1) * 2 ^ a.trailingOnes = q * (2 * 2 ^ a.trailingOnes) + 2 ^ a.trailingOnes := by
        ring
      omega
  have hbase : 2 * q * 2 ^ (a.trailingOnes + 2) = 4 * (q * (2 * 2 ^ a.trailingOnes)) := by ring
  rw [BitVec.toNat_shiftLeft, BitVec.toNat_ushiftRight, Nat.shiftRight_eq_div_pow, hdiv,
    Nat.shiftLeft_eq, hbase, napotBase, Nat.one_shiftLeft]
  rw [Nat.mod_eq_of_lt]
  · omega
  · omega

/-- The region of the expanded entry: the specified base, and half the size. -/
theorem toNat_pmpBounds_napot (env : Env δ) (p : PmpState) (i : Fin 16) (ha : p.pmpaddr i = a) :
    (pmpBounds env p i 3).1.toNat = napotBase a ∧
      (pmpBounds env p i 3).2.toNat = napotBase a + 1 <<< (a.trailingOnes + 2) := by
  have hne := ne_allOnes_of_lt hlt
  have hk := trailingOnes_le hlt
  -- `ffsll` counts from one, so the source's shift amount is the number of trailing ones
  have hsize : ffsll (~~~a) - 1 = a.trailingOnes := by
    rw [ffsll_not hne, Nat.add_sub_cancel]
  have hshift : a.trailingOnes + 2 < 64 := by omega
  have hlow := toNat_napot_lbound hlt
  have hone : (1#64 <<< (a.trailingOnes + 2)).toNat = 1 <<< (a.trailingOnes + 2) := by
    rw [BitVec.toNat_shiftLeft, Nat.mod_eq_of_lt]
    · rfl
    · rw [BitVec.toNat_ofNat, Nat.shiftLeft_eq, Nat.one_mod, Nat.one_mul]
      exact Nat.pow_lt_pow_right (by decide) hshift
  have hbounds : pmpBounds env p i 3 =
      ((a >>> a.trailingOnes) <<< (a.trailingOnes + 2),
        (a >>> a.trailingOnes) <<< (a.trailingOnes + 2) + 1#64 <<< (a.trailingOnes + 2)) := by
    have hall : a ≠ 0xffffffffffffffff := hne
    have htor : ¬ (3 : BitVec 8) = 1 := by decide
    have hna4 : ¬ (3 : BitVec 8) = 2 := by decide
    rw [pmpBounds, if_neg htor, if_neg hna4]
    simp only [ha, if_pos hall, hsize, Env.u64Shl, if_pos hshift]
    rfl
  -- neither the base nor the sum of base and length reaches `2 ^ 64`
  have hbase : napotBase a ≤ 4 * a.toNat := Nat.mul_le_mul_left 4 (Nat.sub_le _ _)
  have hpow : 1 <<< (a.trailingOnes + 2) ≤ 1 <<< 56 := by
    rw [Nat.one_shiftLeft, Nat.one_shiftLeft]
    exact Nat.pow_le_pow_right (by decide) (by omega)
  have halt : a.toNat < 0x40000000000000 := hlt
  rw [hbounds]
  refine ⟨hlow, ?_⟩
  rw [BitVec.toNat_add, hlow, hone, Nat.mod_eq_of_lt (by omega)]

end Napot

/-! ## Expanded entries -/

section Expanded

variable (env : Env δ) (p : PmpState) (i : Fin 16)

/-- An enabled entry is expanded by its mode. -/
theorem syncExpPmp_bounds_eq (hen : ((syncExpPmp env p).pmpExpanded i).enable = true) :
    p.mode i ≠ 0 ∧ ((syncExpPmp env p).pmpExpanded i).lbound = (pmpBounds env p i (p.mode i)).1 ∧
      ((syncExpPmp env p).pmpExpanded i).ubound = (pmpBounds env p i (p.mode i)).2 := by
  have hentry : (syncExpPmp env p).pmpExpanded i = expandPmp env p i := by
    rw [syncExpPmp_eq]
    rfl
  rw [hentry] at hen ⊢
  unfold expandPmp at hen ⊢
  by_cases hmode : (p.pmpcfg i &&& 0b11000) >>> 3 = 0
  · simp only [if_pos hmode] at hen
    cases hen
  · simp only [if_neg hmode]
    exact ⟨hmode, rfl, rfl⟩

/-- The four modes. -/
theorem mode_cases : p.mode i = 0 ∨ p.mode i = 1 ∨ p.mode i = 2 ∨ p.mode i = 3 := by
  unfold PmpState.mode
  generalize p.pmpcfg i = cfg
  revert cfg
  decide

/-- `x << 2`, which loses no bits of a 54-bit address. -/
theorem toNat_shiftLeft_two {x : BitVec 64} (hx : x < 0x40000000000000) :
    (x <<< 2).toNat = 4 * x.toNat := by
  have hlt : x.toNat < 0x40000000000000 := hx
  rw [BitVec.toNat_shiftLeft, Nat.shiftLeft_eq]
  omega

/-- A region by its bounds as numbers: … -/
theorem matches_of_toNat {e : ExpPMP} {region : Nat × Nat} (hlow : e.lbound.toNat = region.1)
    (hhigh : e.ubound.toNat = region.2) : e.Matches region := by
  intro x
  rw [← hlow, ← hhigh, ExpPMP.covers, Bool.and_eq_true, decide_eq_true_eq, decide_eq_true_eq]
  rfl

variable {env p i} {e : ExpPMP}

/-- … that of TOR … -/
theorem matches_tor (haddr : ∀ j, p.pmpaddr j < 0x40000000000000) (hmode : p.mode i = 1)
    (hlow : e.lbound = (pmpBounds env p i (p.mode i)).1)
    (hhigh : e.ubound = (pmpBounds env p i (p.mode i)).2) : e.Matches (p.region i) := by
  refine matches_of_toNat ?_ ?_
  · rw [hlow, hmode, PmpState.region, if_pos hmode]
    show (if i = 0 then (0 : BitVec 64) else p.pmpaddr (i - 1) <<< 2).toNat = _
    split
    · rfl
    · exact toNat_shiftLeft_two (haddr (i - 1))
  · rw [hhigh, hmode, PmpState.region, if_pos hmode]
    exact toNat_shiftLeft_two (haddr i)

/-- … and that of NA4. -/
theorem matches_na4 (haddr : p.pmpaddr i < 0x40000000000000) (hmode : p.mode i = 2)
    (hlow : e.lbound = (pmpBounds env p i (p.mode i)).1)
    (hhigh : e.ubound = (pmpBounds env p i (p.mode i)).2) : e.Matches (p.region i) := by
  have htor : p.mode i ≠ 1 := by rw [hmode]; decide
  have ha := toNat_shiftLeft_two haddr
  have hlt : (p.pmpaddr i).toNat < 0x40000000000000 := haddr
  refine matches_of_toNat ?_ ?_
  · rw [hlow, hmode, PmpState.region, if_neg htor, if_pos hmode]
    exact ha
  · rw [hhigh, hmode, PmpState.region, if_neg htor, if_pos hmode]
    show (p.pmpaddr i <<< 2 + 4#64).toNat = _
    rw [BitVec.toNat_add, ha, BitVec.toNat_ofNat]
    omega

/-- The size of a NAPOT region is twice what the code takes, … -/
theorem napotSize_eq (a : BitVec 64) : napotSize a = 2 * 1 <<< (a.trailingOnes + 2) := by
  simp only [napotSize, Nat.one_shiftLeft, Nat.pow_succ]
  ring

/-- … which therefore differs. -/
theorem not_matches_napot (haddr : p.pmpaddr i < 0x40000000000000) (hmode : p.mode i = 3)
    (hhigh : e.ubound = (pmpBounds env p i (p.mode i)).2) : ¬ e.Matches (p.region i) := by
  intro hmatch
  have htor : p.mode i ≠ 1 := by rw [hmode]; decide
  have hna4 : p.mode i ≠ 2 := by rw [hmode]; decide
  have hregion : p.region i =
      (napotBase (p.pmpaddr i), napotBase (p.pmpaddr i) + napotSize (p.pmpaddr i)) := by
    rw [PmpState.region, if_neg htor, if_neg hna4]
  have hend := (toNat_pmpBounds_napot haddr env p i rfl).2
  have hpos : 0 < 1 <<< ((p.pmpaddr i).trailingOnes + 2) := by
    rw [Nat.one_shiftLeft]
    exact Nat.two_pow_pos _
  rw [hmode] at hhigh
  -- the first address past the expanded entry is in the middle of the region
  have hin : e.covers e.ubound = true := by
    refine (hmatch e.ubound).mpr ?_
    rw [hregion, hhigh, hend, napotSize_eq]
    exact ⟨by omega, by omega⟩
  rw [ExpPMP.covers, Bool.and_eq_true, decide_eq_true_eq, decide_eq_true_eq] at hin
  exact BitVec.lt_irrefl _ hin.2

variable (env p i)

/-- `sync_exp_pmp` gives an enabled entry the specified region if and only if its mode is
    not NAPOT, whose regions it halves. The registers hold 54-bit addresses. -/
theorem pmp_region_iff (haddr : ∀ j, p.pmpaddr j < 0x40000000000000)
    (hen : ((syncExpPmp env p).pmpExpanded i).enable = true) :
    ((syncExpPmp env p).pmpExpanded i).Matches (p.region i) ↔ p.mode i ≠ 3 := by
  obtain ⟨hmode, hlow, hhigh⟩ := syncExpPmp_bounds_eq env p i hen
  rcases mode_cases p i with h | h | h | h
  · exact absurd h hmode
  · exact iff_of_true (matches_tor haddr h hlow hhigh) (by rw [h]; decide)
  · exact iff_of_true (matches_na4 (haddr i) h hlow hhigh) (by rw [h]; decide)
  · exact iff_of_false (not_matches_napot (haddr i) h hhigh) fun hne => hne h

end Expanded

/-- Entry 0 enabled with `cfg`, for the address `addr`. -/
private def regionTable (cfg : BitVec 8) (addr : BitVec 64) : PmpState :=
  let p := (resetState 0).pmp
  { p with
    pmpcfg := Function.update p.pmpcfg 0 cfg
    pmpaddr := Function.update p.pmpaddr 0 addr }

/-- An NA4 entry. -/
theorem pmp_region_na4 :
    let p := regionTable 0b00010001 0x20000400
    ((syncExpPmp Env.inert p).pmpExpanded 0).Matches (p.region 0) ↔ p.mode 0 ≠ 3 :=
  pmp_region_iff Env.inert (regionTable 0b00010001 0x20000400) 0 (by decide +kernel)
    (by decide +kernel)

/-- The NAPOT region of eight bytes at 0x80001000 is expanded to four bytes. -/
theorem pmp_region_halved :
    ¬ ∀ (p : PmpState) i, (∀ j, p.pmpaddr j < 0x40000000000000) →
      ((syncExpPmp Env.inert p).pmpExpanded i).enable = true →
      ((syncExpPmp Env.inert p).pmpExpanded i).Matches (p.region i) := by
  intro h
  have hmatch := h (regionTable 0b00011001 0x20000400) 0 (by decide +kernel) (by decide +kernel)
  have hout : ((syncExpPmp Env.inert (regionTable 0b00011001 0x20000400)).pmpExpanded 0).covers
      0x80001004 = false := by decide +kernel
  have hregion : (regionTable 0b00011001 0x20000400).region 0 = (0x80001000, 0x80001008) := by
    decide +kernel
  have hin := (hmatch 0x80001004).mpr (by rw [hregion]; decide)
  rw [hout] at hin
  cases hin

end RvEmu
