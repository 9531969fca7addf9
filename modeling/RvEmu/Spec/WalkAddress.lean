import Mathlib.Data.Bool.Basic
import RvEmu.Isa.Sv
import RvEmu.Spec.TlbRun

/-!
# The address that a walk gives

Where the page tables lie in RAM, `page_table_walk` follows the tree that the
architecture defines: the leaf it ends at is the one that the VPN fields lead to, and the
address it returns is the one that this leaf translates to.
-/

namespace RvEmu

open Isa

variable {δ : Type}

/-! ## The fields of a PTE -/

/-- A page address bit by bit. -/
theorem getLsbD_pageAddress (ppn : BitVec 44) (k : Nat) :
    (pageAddress ppn).getLsbD k = (decide (12 ≤ k) && ppn.getLsbD (k - 12)) := by
  simp only [pageAddress, BitVec.getLsbD_setWidth, BitVec.getLsbD_append, BitVec.getLsbD_zero]
  grind

/-- The root table is the page of `satp.PPN`. -/
theorem satpRoot_eq (satp : BitVec 64) : satpRoot satp = pageAddress (satpPpn satp) := by
  have hmask : (0xFFFFFFFFFFF : BitVec 64) = (BitVec.allOnes 44).setWidth 64 := by decide
  apply BitVec.eq_of_getLsbD_eq
  intro i hi
  simp only [satpRoot, getLsbD_pageAddress, satpPpn, hmask, BitVec.getLsbD_shiftLeft,
    BitVec.getLsbD_setWidth, BitVec.getLsbD_extractLsb', BitVec.getLsbD_and,
    BitVec.getLsbD_allOnes]
  grind

/-- The two extractions of the PPN agree on a leaf. -/
theorem ptePpn_eq (pte : BitVec 64) : ptePpn pte = pageAddress (Pte.ppn pte) := by
  have hmask : (0x3FFFFFFFFFFC00 : BitVec 64) = (BitVec.allOnes 44).setWidth 64 <<< 10 := by
    decide
  apply BitVec.eq_of_getLsbD_eq
  intro i hi
  simp only [ptePpn, getLsbD_pageAddress, Pte.ppn, hmask, BitVec.getLsbD_shiftLeft,
    BitVec.getLsbD_setWidth, BitVec.getLsbD_extractLsb', BitVec.getLsbD_and,
    BitVec.getLsbD_allOnes]
  grind

/-- The mask for pointers clears bits 61 to 63 only. -/
theorem nextTable_eq {pte : BitVec 64} (h : Pte.reserved pte = 0) :
    nextTable pte = pageAddress (Pte.ppn pte) := by
  have hclear : ∀ k < 7, pte.getLsbD (54 + k) = false := by
    intro k hk
    have hbit := congrArg (·.getLsbD k) h
    simpa [Pte.reserved, hk] using hbit
  have hmask : 0b111#64 = (BitVec.allOnes 3).setWidth 64 := by decide
  apply BitVec.eq_of_getLsbD_eq
  intro i hi
  have hbit := hclear (i - 12 - 44)
  simp only [nextTable, getLsbD_pageAddress, Pte.ppn, hmask, BitVec.getLsbD_shiftLeft,
    BitVec.getLsbD_ushiftRight, BitVec.getLsbD_not, BitVec.getLsbD_setWidth,
    BitVec.getLsbD_extractLsb', BitVec.getLsbD_and, BitVec.getLsbD_allOnes]
  grind

/-- The index into a table is `va.vpn[i]`. -/
theorem index_eq (va : BitVec 64) (i : Nat) :
    (va >>> (9 * i + 12)) &&& 0b111111111 = (vpn va i).setWidth 64 := by
  have hmask : (0b111111111 : BitVec 64) = (BitVec.allOnes 9).setWidth 64 := by decide
  apply BitVec.eq_of_getLsbD_eq
  intro k hk
  simp only [vpn, hmask, BitVec.getLsbD_ushiftRight, BitVec.getLsbD_setWidth,
    BitVec.getLsbD_extractLsb', BitVec.getLsbD_and, BitVec.getLsbD_allOnes]
  grind

/-- The address of an entry of the table in a page. -/
theorem pageAddress_add (ppn : BitVec 44) (n : BitVec 9) :
    pageAddress ppn + (n ++ 0#3).setWidth 64 = pteAddress ppn n := by
  -- the index lies within the zeros of the page address
  have hdisjoint : pageAddress ppn &&& (n ++ 0#3).setWidth 64 = 0#64 := by
    apply BitVec.eq_of_getLsbD_eq
    intro k hk
    simp only [getLsbD_pageAddress, BitVec.getLsbD_setWidth, BitVec.getLsbD_append,
      BitVec.getLsbD_and, BitVec.getLsbD_zero]
    grind
  rw [BitVec.add_eq_or_of_and_eq_zero _ _ hdisjoint]
  apply BitVec.eq_of_getLsbD_eq
  intro k hk
  simp only [pteAddress, getLsbD_pageAddress, BitVec.getLsbD_setWidth, BitVec.getLsbD_append,
    BitVec.getLsbD_or, BitVec.getLsbD_zero]
  grind

/-- The PTE that a round of the walk reads is the one of the specification. -/
theorem pteAddrAt_eq (ppn : BitVec 44) (va : BitVec 64) (i : Nat) :
    pteAddrAt (pageAddress ppn) va i = pteAddress ppn (vpn va i) := by
  have hscale : ∀ n : BitVec 9, 8 * n.setWidth 64 = (n ++ 0#3).setWidth 64 := by decide
  rw [pteAddrAt, index_eq, hscale, pageAddress_add]

/-! The walk tests V, R, W and X, which are within the low four bits. -/

/-- The low four bits of a PTE. -/
theorem getLsbD_lowFour (pte : BitVec 64) {i : Nat} (hi : i < 4) :
    pte.getLsbD i = ((pte.setWidth 4).setWidth 64).getLsbD i := by
  rw [BitVec.getLsbD_setWidth, BitVec.getLsbD_setWidth, decide_eq_true hi,
    decide_eq_true (Nat.lt_trans hi (by decide)), Bool.true_and, Bool.true_and]

/-- The kind of a PTE depends on V, R, W and X. -/
theorem kind_lowFour (pte : BitVec 64) :
    Pte.isPointer pte = Pte.isPointer ((pte.setWidth 4).setWidth 64) ∧
      Pte.isLeaf pte = Pte.isLeaf ((pte.setWidth 4).setWidth 64) := by
  have h0 := getLsbD_lowFour pte (i := 0) (by decide)
  have h1 := getLsbD_lowFour pte (i := 1) (by decide)
  have h2 := getLsbD_lowFour pte (i := 2) (by decide)
  have h3 := getLsbD_lowFour pte (i := 3) (by decide)
  unfold Pte.isPointer Pte.isLeaf Pte.v Pte.r Pte.w Pte.x
  rw [← h0, ← h1, ← h2, ← h3]
  exact ⟨rfl, rfl⟩

/-- A PTE is invalid if it is neither a pointer nor a leaf. -/
theorem pteInvalid_eq (pte : BitVec 64) :
    pteInvalid pte = (!Pte.isPointer pte && !Pte.isLeaf pte) := by
  have hmask : pte &&& 0b110 = (pte.setWidth 4 &&& 0b110).setWidth 64 :=
    BitVec.and_setWidth pte 0b110#4
  rw [pteInvalid, hmask, getLsbD_lowFour pte (by decide), (kind_lowFour pte).1,
    (kind_lowFour pte).2]
  generalize pte.setWidth 4 = low
  revert low
  decide

/-- A valid PTE without R, W and X is a pointer. -/
theorem isPointer_eq (pte : BitVec 64) :
    (pte &&& 0b1110 == 0 && !pteInvalid pte) = Pte.isPointer pte := by
  have hmask : pte &&& 0b1110 = (pte.setWidth 4 &&& 0b1110).setWidth 64 :=
    BitVec.and_setWidth pte 0b1110#4
  rw [pteInvalid_eq, hmask, (kind_lowFour pte).1, (kind_lowFour pte).2]
  generalize pte.setWidth 4 = low
  revert low
  decide

/-- What the two tests of the loop say about an entry. -/
theorem isPointer_iff {pte : BitVec 64} (h : pteInvalid pte = false) :
    pte &&& 0b1110 = 0 ↔ Pte.isPointer pte = true := by
  rw [← isPointer_eq, h, Bool.not_false, Bool.and_true, beq_iff_eq]

/-- A valid PTE with one of R, W and X is a leaf. -/
theorem isLeaf_of_not_pointer {pte : BitVec 64} (h : pteInvalid pte = false)
    (hn : pte &&& 0b1110 ≠ 0) : Pte.isLeaf pte = true := by
  have hpointer := Bool.eq_false_iff.mpr (mt (isPointer_iff h).mpr hn)
  rw [pteInvalid_eq, hpointer] at h
  simpa using h

/-! ## The leaf -/

/-- The PTEs that RAM holds. -/
def ramPtes (s : Sys δ) (a : BitVec 64) : BitVec 64 := loadLe s.bus.mainMem a 8

/-- The PTEs on the way to the leaf are in RAM, with their reserved bits clear. -/
def TablesInRam (mode : SvMode) (va : BitVec 64) (s : Sys δ) : Prop :=
  ∀ a, ReadAt (ramPtes s) va mode.levels (satpPpn s.hs.csr.satp) a →
    0x80000000 ≤ a ∧ Pte.reserved (ramPtes s a) = 0

section Leaf

variable {env : Env δ} {va : BitVec 64} {s : Sys δ}

/-- The leaf that the search finds is the one of the specification, by induction on the levels. -/
theorem leafAt_of_tablePath {n : Nat} {ppn : BitVec 44} {l : Leaf}
    (hram : ∀ a, ReadAt (ramPtes s) va n ppn a →
      0x80000000 ≤ a ∧ Pte.reserved (ramPtes s a) = 0)
    (h : tablePath env va n (pageAddress ppn) s = some l) :
    LeafAt (ramPtes s) va n ppn l.level l.pteAddr ∧ l.pte = ramPtes s l.pteAddr := by
  -- level by level: each round reads the entry that `LeafAt` asks about
  induction n generalizing ppn with
  | zero => cases h
  | succ n ih =>
    obtain ⟨hin, hres⟩ := hram _ (.here n ppn)
    have hread : phyMemFetch env .u64 s (pteAddress ppn (vpn va n)) =
        (ramPtes s (pteAddress ppn (vpn va n)), s) := phyMemFetch_ram hin
    simp only [tablePath, pteAddrAt_eq, hread] at h
    split at h
    · cases h
    · next hv =>
      have hvalid := (Bool.or_eq_false_iff.mp (Bool.eq_false_iff.mpr hv)).2
      split at h
      · next hn =>
        have hpointer := (isPointer_iff hvalid).mp hn
        rw [nextTable_eq hres] at h
        obtain ⟨hleaf, hpte⟩ := ih (fun a ha => hram a (.pointer n ppn a hpointer ha)) h
        exact ⟨.pointer n ppn _ _ hpointer hleaf, hpte⟩
      · next hn =>
        cases h
        exact ⟨.leaf n ppn (isLeaf_of_not_pointer hvalid hn), rfl⟩

/-- The VPN fields lead to one leaf only. -/
theorem leafAt_unique {ptes : BitVec 64 → BitVec 64} {n i j : Nat} {ppn : BitVec 44}
    {a b : BitVec 64} (h : LeafAt ptes va n ppn i a) (h' : LeafAt ptes va n ppn j b) :
    i = j ∧ a = b := by
  have hexclusive : ∀ pte, Pte.isPointer pte = true → Pte.isLeaf pte = true → False := by
    intro pte hp hl
    unfold Pte.isPointer Pte.isLeaf at *
    grind
  induction h with
  | leaf n ppn hl =>
    cases h' with
    | leaf => exact ⟨rfl, rfl⟩
    | pointer _ _ _ _ hp => exact (hexclusive _ hp hl).elim
  | pointer n ppn i a hp _ ih =>
    cases h' with
    | leaf _ _ hl => exact (hexclusive _ hp hl).elim
    | pointer _ _ _ _ _ hrest => exact ih hrest

/-! ## The address -/

/-- A superpage that passes the alignment test is aligned. -/
theorem aligned_of_leaf {l : Leaf} (h : l.aligned = true) :
    Isa.Aligned (Pte.ppn l.pte) l.level := by
  intro k hk
  rcases Bool.or_eq_true_iff.mp h with h0 | hmask
  · rw [beq_iff_eq.mp h0] at hk
    exact absurd hk (Nat.not_lt_zero k)
  · by_cases hlast : k < 44
    · have hbit := congrArg (·.getLsbD (k + 12)) (beq_iff_eq.mp hmask)
      simp only [ptePpn_eq, pageMask, BitVec.getLsbD_and, getLsbD_pageAddress,
        BitVec.getLsbD_not, BitVec.getLsbD_shiftLeft, BitVec.ofNat_eq_ofNat,
        BitVec.getLsbD_zero] at hbit
      grind
    · exact BitVec.getLsbD_of_ge _ _ (by omega)

/-- The offset is added to zeros. -/
theorem translated_of_aligned {ppn : BitVec 44} {i : Nat} (h : Isa.Aligned ppn i) :
    (va &&& ~~~pageMask (12 + 9 * i)) + pageAddress ppn = Isa.translated ppn va i := by
  have hzero : ∀ k < 12 + 9 * i, (pageAddress ppn).getLsbD k = false := by
    intro k hk
    have hbit := h (k - 12)
    rw [getLsbD_pageAddress]
    grind
  -- page address and offset have no bit in common, so that the sum is an or
  have hdisjoint : va &&& offsetMask i &&& pageAddress ppn = 0#64 := by
    apply BitVec.eq_of_getLsbD_eq
    intro k hk
    have hbit := hzero k
    simp only [offsetMask, BitVec.getLsbD_and, BitVec.getLsbD_not, BitVec.getLsbD_shiftLeft,
      BitVec.getLsbD_allOnes, BitVec.getLsbD_zero]
    grind
  have hhigh : pageAddress ppn &&& ~~~offsetMask i = pageAddress ppn := by
    apply BitVec.eq_of_getLsbD_eq
    intro k hk
    have hbit := hzero k
    simp only [offsetMask, BitVec.getLsbD_and, BitVec.getLsbD_not, BitVec.getLsbD_shiftLeft,
      BitVec.getLsbD_allOnes]
    grind
  have hmask : ~~~pageMask (12 + 9 * i) = offsetMask i := rfl
  rw [hmask, BitVec.add_eq_or_of_and_eq_zero _ _ hdisjoint, Isa.translated, hhigh, BitVec.or_comm]

/-- A walk that translates has passed all checks of its leaf. -/
theorem walkLeaf_translated {isWrite memStatus : Bool} {l : Leaf}
    (hfault : (walkLeaf env va isWrite memStatus l.level l.pteAddr l.pte s).2.hs.pageFault = false)
    (hmem : (walkLeaf env va isWrite memStatus l.level l.pteAddr l.pte s).2.hs.memStatus = false) :
    l.aligned = true ∧
      (walkLeaf env va isWrite memStatus l.level l.pteAddr l.pte s).1 = l.address va ∧
      (walkLeaf env va isWrite memStatus l.level l.pteAddr l.pte s).2.hs.tlb =
        tlbAdd s.hs.tlb (leafEntry va l.pteAddr l.pte l.level) := by
  have hstore := memStore_tlb env s .u64 l.pteAddr (pteTouched l.pte isWrite)
  have hcases := walkLeaf_cases env va s isWrite memStatus l
  generalize walkLeaf env va isWrite memStatus l.level l.pteAddr l.pte s = r at hfault hmem hcases
  -- the other two outcomes set a flag
  cases hcases with
  | fault => exact Bool.noConfusion hfault
  | refused _ _ hm => exact Bool.noConfusion (hmem.symm.trans hm)
  | untouched hok => exact ⟨aligned_of_passed hok, rfl, rfl⟩
  | touched t hok _ ht =>
    refine ⟨aligned_of_passed hok, rfl, ?_⟩
    rw [leafEntry_touched, ← hstore, ← ht]
    rfl

end Leaf

/-! ## The walk -/

/-- The walk used the leaf of level `i` at `a`: the one that the VPN fields lead to. -/
structure WalkedTo (env : Env δ) (mode : SvMode) (va : BitVec 64) (isWrite : Bool) (s : Sys δ)
    (i : Nat) (a : BitVec 64) : Prop where
  leaf : LeafAt (ramPtes s) va mode.levels (satpPpn s.hs.csr.satp) i a
  unique : ∀ j b, LeafAt (ramPtes s) va mode.levels (satpPpn s.hs.csr.satp) j b → j = i ∧ b = a
  aligned : Isa.Aligned (Pte.ppn (ramPtes s a)) i
  address : (pageTableWalk env s va isWrite).1 = Isa.translated (Pte.ppn (ramPtes s a)) va i
  entry : (pageTableWalk env s va isWrite).2.hs.tlb =
    tlbAdd s.hs.tlb (leafEntry va a (ramPtes s a) i)

/-- Each mode has its levels. -/
theorem satpLevels_eq {mode : SvMode} {satp : BitVec 64} (h : satpMode satp = mode.encoding) :
    satpLevels satp = mode.levels := by
  have hshift : satp >>> 60 = (satpMode satp).setWidth 64 := by
    apply BitVec.eq_of_getLsbD_eq
    intro i hi
    simp only [satpMode, BitVec.getLsbD_ushiftRight, BitVec.getLsbD_setWidth,
      BitVec.getLsbD_extractLsb']
    grind
  rw [satpLevels, hshift, h]
  cases mode <;> rfl

/-- The modes with translation have levels. -/
theorem satpLevels_ne_zero {mode : SvMode} {satp : BitVec 64} (h : satpMode satp = mode.encoding) :
    satpLevels satp ≠ 0 := by
  rw [satpLevels_eq h]
  cases mode <;> decide

/-- A walk that succeeds has followed the page tables of the architecture. -/
theorem walk_address_correct {env : Env δ} {mode : SvMode} {va : BitVec 64} {isWrite : Bool}
    {s : Sys δ} (hmode : satpMode s.hs.csr.satp = mode.encoding) (hram : TablesInRam mode va s)
    (h : WalkAccepts env va isWrite s) : ∃ i a, WalkedTo env mode va isWrite s i a := by
  have hlevels := satpLevels_eq hmode
  obtain ⟨l, hl⟩ := h.leaf (satpLevels_ne_zero hmode)
  have hwalk : leafWalk env va s = (some l, (leafWalk env va s).2) := Prod.ext hl rfl
  have htable := tablePath_of_walkPath env va hwalk
  rw [hlevels, satpRoot_eq] at htable
  -- the search is that of the architecture, and the leaf has the address and the entry
  obtain ⟨hleaf, hpte⟩ := leafAt_of_tablePath hram htable
  obtain ⟨hfault, hmem⟩ := h
  have hsearch : (leafWalk env va s).2.hs.tlb = s.hs.tlb := walkPath_tlb env s va _ _ _
  have hend := pageTableWalk_leaf env va isWrite hwalk
  rw [hend] at hfault hmem
  obtain ⟨haligned, haddress, htlb⟩ := walkLeaf_translated hfault hmem
  refine ⟨l.level, l.pteAddr, hleaf, fun j b hb => ?_, ?_, ?_, ?_⟩
  · exact leafAt_unique hb hleaf
  · rw [← hpte]
    exact aligned_of_leaf haligned
  · rw [hend, haddress, ← hpte, Leaf.address, ptePpn_eq]
    exact translated_of_aligned (aligned_of_leaf haligned)
  · rw [hend, htlb, hsearch, hpte]

/-- A gigapage. -/
theorem walk_address_gigapage :
    ∃ i a, WalkedTo Env.inert .sv39 0x80002000 false (gigapage 0x2000000F) i a := by
  refine walk_address_correct (by decide) (fun a ha => ?_) ⟨by decide +kernel, by decide +kernel⟩
  cases ha with
  | here => exact ⟨by decide +kernel, by decide +kernel⟩
  | pointer _ _ _ h => exact absurd h (by decide +kernel)

end RvEmu
