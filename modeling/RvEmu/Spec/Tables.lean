import RvEmu.Spec.WalkMemory
import RvEmu.Spec.WalkPermission

/-!
# What the page tables say

The leaf that the tables in memory hold for an address, whatever the PMP and the mode,
and the address it translates to. Where PMP permits the accesses to the tables, the
page table walk finds this leaf.
-/

namespace RvEmu

variable {δ : Type}

section Tables

variable (env : Env δ) (va : BitVec 64)

/-- The search for a leaf, with `n` levels left and the current table at `a`. -/
def tablePath : Nat → BitVec 64 → Sys δ → Option Leaf
  | 0, _, _ => none
  | i + 1, a, s =>
    let r := phyMemFetch env .u64 s (pteAddrAt a va i)
    if outOfRange env (pteAddrAt a va i) || pteInvalid r.1 then none
    else if r.1 &&& 0b1110 = 0 then tablePath i (nextTable r.1) r.2
    else some ⟨i, pteAddrAt a va i, r.1⟩

/-- The leaf for an address in the tables of `satp`. -/
def tableLeaf (s : Sys δ) : Option Leaf :=
  tablePath env va (satpLevels s.hs.csr.satp) (satpRoot s.hs.csr.satp) s

/-- The address that a leaf translates to. -/
def Leaf.address (l : Leaf) : BitVec 64 := (va &&& ~~~pageMask (12 + 9 * l.level)) + ptePpn l.pte

/-! ## Reading the tables -/

/-- Physical memory does not depend on the hart. -/
theorem phyMemFetch_setHs (w : Width) (s : Sys δ) (hs : HartState) (a : BitVec 64) :
    phyMemFetch env w (s.setHs hs) a =
      ((phyMemFetch env w s a).1, (phyMemFetch env w s a).2.setHs hs) := by
  unfold phyMemFetch
  split
  · rfl
  · split
    · rfl
    · split <;> rfl

/-- The tables lie in memory. -/
theorem tablePath_setHs (n : Nat) (a : BitVec 64) (s : Sys δ) (hs : HartState) :
    tablePath env va n a (s.setHs hs) = tablePath env va n a s := by
  induction n generalizing a s with
  | zero => rfl
  | succ i ih => simp only [tablePath, phyMemFetch_setHs, ih]

/-- The path through the tables depends on what the harts share, … -/
theorem tablePath_bus {s t : Sys δ} (hmem : t.bus.mainMem = s.bus.mainMem)
    (hdev : t.bus.dev = s.bus.dev) (n : Nat) (a : BitVec 64) :
    tablePath env va n a t = tablePath env va n a s := by
  induction n generalizing a s t with
  | zero => rfl
  | succ i ih =>
    -- a PTE may lie in RAM or behind a device
    have hread : (phyMemFetch env .u64 t (pteAddrAt a va i)).1 =
          (phyMemFetch env .u64 s (pteAddrAt a va i)).1 ∧
        (phyMemFetch env .u64 t (pteAddrAt a va i)).2.bus.dev =
          (phyMemFetch env .u64 s (pteAddrAt a va i)).2.bus.dev := by
      unfold phyMemFetch
      rw [hmem, hdev]
      split
      · exact ⟨rfl, hdev⟩
      · split
        · exact ⟨rfl, rfl⟩
        · split <;> exact ⟨rfl, hdev⟩
    simp only [tablePath, hread.1]
    rw [ih (by rw [phyMemFetch_mainMem, phyMemFetch_mainMem, hmem]) hread.2]

/-- A read of a PTE that is not refused. -/
theorem memFetch_tables {s : Sys δ} {memStatus : Bool} {a : BitVec 64}
    (hok : (outOfRange env a || pmpRefusesFetch .u64 (s.setMemStatus memStatus).hs a) = false) :
    memFetch env .u64 (s.setMemStatus memStatus) a =
      ((phyMemFetch env .u64 s a).1,
        (phyMemFetch env .u64 s a).2.setHs { s.hs with memStatus := false }) :=
  (memFetch_granted hok).trans (phyMemFetch_setHs env .u64 s { s.hs with memStatus := false } a)

/-- A walk finds the leaf of the tables. -/
theorem tablePath_of_walkPath {memStatus : Bool} {n : Nat} {a : BitVec 64} {s t : Sys δ} {l : Leaf}
    (h : walkPath env va memStatus n a s = (some l, t)) : tablePath env va n a s = some l := by
  induction n generalizing a s with
  | zero => cases h
  | succ i ih =>
    obtain ⟨hm, hv, hround⟩ := walkPath_some env va h
    have hok := memFetch_ok hm
    rw [memFetch_tables env hok] at hv hround
    simp only [tablePath, (Bool.or_eq_false_iff.mp hok).1, Bool.false_or]
    rw [hv, if_neg Bool.false_ne_true]
    rcases hround with ⟨hn, hrest⟩ | ⟨hn, rfl, -⟩
    · rw [if_pos hn]
      exact (tablePath_setHs env va _ _ _ _).symm.trans (ih hrest)
    · rw [if_neg hn]

/-- PMP permits the accesses to the tables. -/
structure PmpPermits (hs : HartState) : Prop where
  fetch : ∀ memStatus a, outOfRange env a = false →
    pmpRefusesFetch .u64 { hs with memStatus := memStatus } a = false
  store : ∀ a, outOfRange env a = false → pmpRefusesStore .u64 hs a = false

/-- The PMP does not depend on the flag. -/
theorem PmpPermits.setMemStatus {env : Env δ} {s : Sys δ} (h : PmpPermits env s.hs) (b : Bool) :
    PmpPermits env (s.setMemStatus b).hs := ⟨h.fetch, h.store⟩

/-- An entry that permits everything everywhere, and none that does not. -/
theorem pmpPermits_of_allEnabled {hs : HartState} (h : hs.pmp.pmpAllEnabled = true)
    (hmax : hs.pmp.maxUbound = 0) : PmpPermits env hs := by
  -- the shortcut applies from address 1 on, and the memory map begins behind it
  have hchk : ∀ a, outOfRange env a = false → ∀ b,
      chkPmpRangeExp hs.pmp hs.privmode a b = 0b111 := by
    intro a ha b
    have hpos : a > 0 := by
      have hlow := of_decide_eq_false (Bool.or_eq_false_iff.mp ha).1
      bv_omega
    rw [chkPmpRangeExp, h, hmax, decide_eq_true hpos]
    rfl
  refine ⟨fun memStatus a ha => ?_, fun a ha => ?_⟩
  · unfold pmpRefusesFetch templateRefusesFetch
    dsimp only
    rw [hchk a ha]
    cases memStatus <;> rfl
  · unfold pmpRefusesStore templateRefusesStore
    dsimp only
    rw [hchk a ha]
    rfl

/-- The walk finds the leaf of the tables if PMP permits it. -/
theorem walkPath_of_tablePath {memStatus : Bool} {n : Nat} {a : BitVec 64} {s : Sys δ} {l : Leaf}
    (hpmp : PmpPermits env s.hs) (h : tablePath env va n a s = some l) :
    (walkPath env va memStatus n a s).1 = some l := by
  induction n generalizing a s with
  | zero => cases h
  | succ i ih =>
    simp only [tablePath] at h
    by_cases hv : (outOfRange env (pteAddrAt a va i) ||
        pteInvalid (phyMemFetch env .u64 s (pteAddrAt a va i)).1) = true
    · rw [if_pos hv] at h
      cases h
    · rw [if_neg hv] at h
      obtain ⟨hrange, hvalid⟩ := Bool.or_eq_false_iff.mp (Bool.eq_false_iff.mpr hv)
      have hok : (outOfRange env (pteAddrAt a va i) ||
          pmpRefusesFetch .u64 (s.setMemStatus memStatus).hs (pteAddrAt a va i)) = false :=
        Bool.or_eq_false_iff.mpr ⟨hrange, hpmp.fetch memStatus _ hrange⟩
      simp only [walkPath]
      rw [memFetch_tables env hok, if_neg (by exact Bool.false_ne_true),
        if_neg (by rw [hvalid]; exact Bool.false_ne_true)]
      -- no permission bits: a pointer to the next table
      by_cases hn : (phyMemFetch env .u64 s (pteAddrAt a va i)).1 &&& 0b1110 = 0
      · rw [if_pos hn] at h ⊢
        refine ih ?_ ((tablePath_setHs env va _ _ _ _).trans h)
        exact ⟨fun memStatus => hpmp.fetch memStatus, hpmp.store⟩
      · rw [if_neg hn] at h ⊢
        exact h

/-! ## Pages -/

/-- The level of a leaf is within the levels of the mode. -/
theorem tablePath_level {n : Nat} {a : BitVec 64} {s : Sys δ} {l : Leaf}
    (h : tablePath env va n a s = some l) : l.level < n := by
  induction n generalizing a s with
  | zero => cases h
  | succ i ih =>
    simp only [tablePath] at h
    split at h
    · cases h
    · split at h
      · exact Nat.lt_succ_of_lt (ih h)
      · cases h
        exact Nat.lt_succ_self i

/-- A leaf has a permission bit, or it would point to a table. -/
theorem tablePath_permissions {n : Nat} {a : BitVec 64} {s : Sys δ} {l : Leaf}
    (h : tablePath env va n a s = some l) : l.pte &&& 0b1110 ≠ 0 := by
  induction n generalizing a s with
  | zero => cases h
  | succ i ih =>
    simp only [tablePath] at h
    split at h
    · cases h
    · split at h
      · exact ih h
      · next hn =>
        cases h
        exact hn

/-- All addresses of a page have the same leaf. -/
theorem tablePath_samePage {va' : BitVec 64} {n : Nat} {a : BitVec 64} {s : Sys δ} {l : Leaf}
    (hva : ∀ k, 12 + 9 * l.level ≤ k → va' >>> k = va >>> k)
    (h : tablePath env va n a s = some l) : tablePath env va' n a s = some l := by
  induction n generalizing a s with
  | zero => cases h
  | succ i ih =>
    have hlevel := tablePath_level env va h
    -- the path down to level `l.level` uses index bits that are the same
    have hindex : pteAddrAt a va' i = pteAddrAt a va i := by
      rw [pteAddrAt, hva (9 * i + 12) (by omega), pteAddrAt]
    simp only [tablePath] at h ⊢
    rw [hindex]
    split at h
    · cases h
    · next hv =>
      rw [if_neg hv]
      split at h
      · next hn =>
        rw [if_pos hn]
        exact ih h
      · next hn =>
        rw [if_neg hn]
        exact h

/-- The addresses of a page have one leaf. -/
theorem tableLeaf_samePage {va' : BitVec 64} {s : Sys δ} {l : Leaf}
    (hva : ∀ k, 12 + 9 * l.level ≤ k → va' >>> k = va >>> k)
    (h : tableLeaf env va s = some l) : tableLeaf env va' s = some l :=
  tablePath_samePage env va hva h

/-- At most five levels. -/
theorem tableLeaf_level {s : Sys δ} {l : Leaf} (h : tableLeaf env va s = some l) : l.level < 5 := by
  have hlevel := tablePath_level env va h
  unfold satpLevels at hlevel
  split at hlevel
  · omega
  · split at hlevel
    · omega
    · split at hlevel <;> omega

end Tables

/-! ## A and D -/

/-- The leaf with A and D clear. -/
def Leaf.clearAD (l : Leaf) : Leaf := { l with pte := l.pte &&& ~~~0xC0 }

/-- A and D are not part of the physical page, … -/
theorem ptePpn_clearAD (pte : BitVec 64) : ptePpn (pte &&& ~~~0xC0) = ptePpn pte := by
  have hmask : ~~~(0xC0 : BitVec 64) &&& 0x3FFFFFFFFFFC00 = 0x3FFFFFFFFFFC00 := by decide
  rw [ptePpn, BitVec.and_assoc, hmask, ptePpn]

/-- The bits below A are kept. -/
theorem getLsbD_clearAD (pte : BitVec 64) {i : Nat} (hi : i < 6) :
    (pte &&& ~~~0xC0).getLsbD i = pte.getLsbD i := by
  have hmask : ∀ j < 6, (~~~(0xC0 : BitVec 64)).getLsbD j = true := by decide
  rw [BitVec.getLsbD_and, hmask i hi, Bool.and_true]

/-- A TLB entry depends on the PTE outside of A and D alone. -/
theorem leafEntry_clearAD (va pteAddr pte : BitVec 64) (i : Nat) :
    leafEntry va pteAddr (pte &&& ~~~0xC0) i = leafEntry va pteAddr pte i := by
  have hperms : ((pte &&& ~~~0xC0) >>> 1) &&& (0b111 : BitVec 64) = (pte >>> 1) &&& 0b111 := by
    have hmask : (~~~(0xC0 : BitVec 64) >>> 1) &&& 0b111 = 0b111 := by decide
    rw [BitVec.ushiftRight_and_distrib, BitVec.and_assoc, hmask]
  unfold leafEntry
  rw [ptePpn_clearAD, getLsbD_clearAD pte (by decide)]
  exact congrArg (fun perms => (⟨_, _, _, _, perms, _⟩ : TLBEntry)) (congrArg _ hperms)

/-- … and all that a use changes. -/
theorem pteTouched_clearAD (pte : BitVec 64) (isWrite : Bool) :
    pteTouched pte isWrite &&& ~~~0xC0 = pte &&& ~~~0xC0 := by
  have hmask : adMask isWrite &&& ~~~0xC0 = 0 := by revert isWrite; decide
  rw [pteTouched_eq, BitVec.and_or_distrib_right, hmask]
  exact BitVec.or_zero

/-- An entry does not hold A and D. -/
theorem leafEntry_touched (va pteAddr pte : BitVec 64) (isWrite : Bool) (i : Nat) :
    leafEntry va pteAddr (pteTouched pte isWrite) i = leafEntry va pteAddr pte i := by
  rw [← leafEntry_clearAD, pteTouched_clearAD, leafEntry_clearAD]

/-! ## The address of a translation -/

section Address

variable {env : Env δ} {s : Sys δ} {va : BitVec 64}

/-- What a walk past its leaf yields. -/
theorem walkLeaf_fst (isWrite memStatus : Bool) (l : Leaf) :
    (walkLeaf env va isWrite memStatus l.level l.pteAddr l.pte s).1 = l.address va ∨
    (walkLeaf env va isWrite memStatus l.level l.pteAddr l.pte s).2.hs.pageFault = true ∨
    (walkLeaf env va isWrite memStatus l.level l.pteAddr l.pte s).2.hs.memStatus = true := by
  have hcases := walkLeaf_cases env va s isWrite memStatus l
  generalize walkLeaf env va isWrite memStatus l.level l.pteAddr l.pte s = r at hcases
  cases hcases with
  | fault => exact .inr (.inl rfl)
  | refused _ _ hmem => exact .inr (.inr hmem)
  | untouched => exact .inl rfl
  | touched => exact .inl rfl

/-- The physical address that the tables of `satp` give. -/
def tableAddress (env : Env δ) (va : BitVec 64) (s : Sys δ) : Option (BitVec 64) :=
  if satpLevels s.hs.csr.satp = 0 then some va else (tableLeaf env va s).map (Leaf.address va)

/-- There is a leaf only if `satp` has a paging mode. -/
theorem tableLeaf_levels {l : Leaf} (h : tableLeaf env va s = some l) :
    satpLevels s.hs.csr.satp ≠ 0 := by
  intro h0
  rw [tableLeaf, h0] at h
  cases h

/-- The address by the leaf. -/
theorem tableAddress_of_leaf {l : Leaf} (h : tableLeaf env va s = some l) :
    tableAddress env va s = some (l.address va) := by
  rw [tableAddress, if_neg (tableLeaf_levels h), h]
  rfl

/-- A walk that succeeds yields the address that the tables give. -/
theorem WalkAccepts.address {isWrite : Bool} (h : WalkAccepts env va isWrite s) :
    tableAddress env va s = some (pageTableWalk env s va isWrite).1 := by
  by_cases hmode : satpLevels s.hs.csr.satp = 0
  · rw [tableAddress, if_pos hmode]
    unfold pageTableWalk
    rw [hmode]
    rfl
  · obtain ⟨l, hl⟩ := h.leaf hmode
    have hwalk : leafWalk env va s = (some l, (leafWalk env va s).2) := Prod.ext hl rfl
    obtain ⟨hfault, hmem⟩ := h
    rw [tableAddress_of_leaf (tablePath_of_walkPath env va hwalk)]
    rw [pageTableWalk_leaf env va isWrite hwalk] at hfault hmem ⊢
    -- a leaf that is accepted gives its address
    rcases @walkLeaf_fst δ env (leafWalk env va s).2 va isWrite s.hs.memStatus l with haddr | hf | hm
    · rw [haddr]
    · exact Bool.noConfusion (hfault.symm.trans hf)
    · exact Bool.noConfusion (hmem.symm.trans hm)

end Address

end RvEmu
