import RvEmu.Spec.Access

/-!
# The page table walk and its leaf

The level loop of `page_table_walk` is a search for a leaf PTE, which changes
nothing but the flags, followed by the checks on that leaf and the update of its
A and D bits. What the walk says about an address is thereby a statement about
one leaf.
-/

namespace RvEmu

variable {δ : Type}

/-! ## Bytes of memory -/

/-- Byte `k` of a little-endian value is the byte of memory at offset `k`. -/
theorem loadLe_byte (mem : BitVec 64 → BitVec 8) (addr : BitVec 64) {n k : Nat} (hn : n ≤ 8)
    (hk : k < n) :
    ((loadLe mem addr n) >>> (8 * k)).setWidth 8 = mem (addr + BitVec.ofNat 64 k) := by
  -- the low byte is the first one read; the others come from the rest of the load, shifted by 8
  induction n generalizing addr k with
  | zero => omega
  | succ n ih =>
    apply BitVec.eq_of_getLsbD_eq
    intro i hi
    cases k with
    | zero =>
      have hlow : ¬ 8 ≤ i := by omega
      simp only [loadLe, BitVec.getLsbD_setWidth, BitVec.getLsbD_ushiftRight, BitVec.getLsbD_or,
        BitVec.getLsbD_shiftLeft, hi, Nat.mul_zero, Nat.zero_add, decide_true, Bool.true_and]
      have h64 : i < 64 := by omega
      simp [hi, h64]
    | succ k =>
      have hrec := congrArg (·.getLsbD i) (ih (addr + 1) (by omega) (k := k) (by omega))
      have haddr : addr + 1 + BitVec.ofNat 64 k = addr + BitVec.ofNat 64 (k + 1) := by
        rw [BitVec.add_assoc]
        congr 1
        apply BitVec.eq_of_toNat_eq
        simp
        omega
      rw [haddr] at hrec
      rw [← hrec]
      have hout : (mem addr).getLsbD (8 * (k + 1) + i) = false :=
        BitVec.getLsbD_of_ge _ _ (by omega)
      have hsub : 8 * (k + 1) + i - 8 = 8 * k + i := by omega
      have h64 : 8 * (k + 1) + i < 64 := by omega
      have hge : ¬ 8 * (k + 1) + i < 8 := by omega
      simp only [loadLe, BitVec.getLsbD_setWidth, BitVec.getLsbD_ushiftRight, BitVec.getLsbD_or,
        BitVec.getLsbD_shiftLeft, hi, hout, hsub, h64, hge, decide_true, decide_false,
        Bool.not_false, Bool.true_and, Bool.and_false, Bool.false_or]

/-- The value of eight bytes is determined by them. -/
theorem eq_of_bytes {x y : BitVec 64}
    (h : ∀ k < 8, (x >>> (8 * k)).setWidth 8 = (y >>> (8 * k)).setWidth 8) : x = y := by
  apply BitVec.eq_of_getLsbD_eq
  intro i hi
  have hbyte := congrArg (·.getLsbD (i % 8)) (h (i / 8) (by omega))
  have hmod : i % 8 < 8 := Nat.mod_lt _ (by decide)
  simpa only [BitVec.getLsbD_setWidth, BitVec.getLsbD_ushiftRight, hmod, decide_true,
    Bool.true_and, Nat.div_add_mod] using hbyte

theorem offset_toNat (addr : BitVec 64) {k : Nat} (hk : k < 8) :
    (addr + BitVec.ofNat 64 k - addr).toNat = k := by
  have hcancel : addr + BitVec.ofNat 64 k - addr = BitVec.ofNat 64 k := by
    rw [BitVec.add_comm, BitVec.add_sub_cancel]
  rw [hcancel, BitVec.toNat_ofNat]
  omega

/-- Reading a doubleword back. -/
theorem loadLe_storeLe (mem : BitVec 64 → BitVec 8) (addr v : BitVec 64) :
    loadLe (storeLe mem addr v 8) addr 8 = v := by
  refine eq_of_bytes fun k hk => ?_
  rw [loadLe_byte _ _ (Nat.le_refl 8) hk]
  simp only [storeLe, offset_toNat addr hk, hk, ↓reduceIte]

/-- Writing back a doubleword that was read changes nothing. -/
theorem storeLe_loadLe (mem : BitVec 64 → BitVec 8) (addr : BitVec 64) :
    storeLe mem addr (loadLe mem addr 8) 8 = mem := by
  funext a
  unfold storeLe
  split
  · next hk =>
    have ha : addr + BitVec.ofNat 64 (a - addr).toNat = a := by
      rw [BitVec.ofNat_toNat, BitVec.setWidth_eq, BitVec.add_comm, BitVec.sub_add_cancel]
    rw [loadLe_byte _ _ (Nat.le_refl 8) hk, ha]
  · rfl

/-! ## The leaf of a walk -/

/-- A leaf PTE, and where it was found. -/
structure Leaf where
  level : Nat
  pteAddr : BitVec 64
  pte : BitVec 64
  deriving DecidableEq

section Walk

variable (env : Env δ) (va : BitVec 64)

/-- The level loop of `page_table_walk` up to the leaf; `none` if there is a fault
    before. -/
def walkPath (memStatus : Bool) : Nat → BitVec 64 → Sys δ → Option Leaf × Sys δ
  | 0, _, s => (none, s.setPageFault true)
  | i + 1, a, s =>
    let r := memFetch env .u64 (s.setMemStatus memStatus) (pteAddrAt a va i)
    if r.2.hs.memStatus then (none, r.2)
    else if pteInvalid r.1 then (none, r.2.setPageFault true)
    else if r.1 &&& 0b1110 = 0 then walkPath memStatus i (nextTable r.1) r.2
    else (some ⟨i, pteAddrAt a va i, r.1⟩, r.2)

/-- One round of a search that finds a leaf: the PTE is read and valid, and it is the
    leaf or points to the table where the search goes on. -/
theorem walkPath_some {memStatus : Bool} {i : Nat} {a : BitVec 64} {s t : Sys δ} {l : Leaf}
    (h : walkPath env va memStatus (i + 1) a s = (some l, t)) :
    let r := memFetch env .u64 (s.setMemStatus memStatus) (pteAddrAt a va i)
    r.2.hs.memStatus = false ∧ pteInvalid r.1 = false ∧
      ((r.1 &&& 0b1110 = 0 ∧ walkPath env va memStatus i (nextTable r.1) r.2 = (some l, t)) ∨
        (r.1 &&& 0b1110 ≠ 0 ∧ l = ⟨i, pteAddrAt a va i, r.1⟩ ∧ t = r.2)) := by
  intro r
  simp only [walkPath] at h
  split at h
  · cases h
  · next hm =>
    split at h
    · cases h
    · next hv =>
      refine ⟨Bool.eq_false_iff.mpr hm, Bool.eq_false_iff.mpr hv, ?_⟩
      split at h
      · next hn => exact .inl ⟨hn, h⟩
      · next hn =>
        cases h
        exact .inr ⟨hn, rfl, rfl⟩

/-- The walk ends at the leaf. -/
theorem walkLoop_leaf (isWrite memStatus : Bool) {n : Nat} {a : BitVec 64} {s t : Sys δ} {l : Leaf}
    (h : walkPath env va memStatus n a s = (some l, t)) :
    walkLoop env va isWrite memStatus n a s =
      walkLeaf env va isWrite memStatus l.level l.pteAddr l.pte t := by
  induction n generalizing a s with
  | zero => cases h
  | succ i ih =>
    obtain ⟨hm, hv, hround⟩ := walkPath_some env va h
    simp only [walkLoop, hm, hv, Bool.false_eq_true, ↓reduceIte]
    rcases hround with ⟨hn, hrest⟩ | ⟨hn, rfl, rfl⟩
    · rw [if_pos hn]
      exact ih hrest
    · rw [if_neg hn]

/-- The walk ends before a leaf. -/
theorem walkLoop_none (isWrite memStatus : Bool) {n : Nat} {a : BitVec 64} {s t : Sys δ}
    (h : walkPath env va memStatus n a s = (none, t)) :
    walkLoop env va isWrite memStatus n a s = (0, t) := by
  -- level by level: the path has no leaf where the loop returns 0 at the same test
  induction n generalizing a s with
  | zero =>
    cases h
    rfl
  | succ i ih =>
    simp only [walkPath, walkLoop] at h ⊢
    generalize memFetch env .u64 (s.setMemStatus memStatus) (pteAddrAt a va i) = r at h
    by_cases hm : r.2.hs.memStatus = true
    · rw [if_pos hm] at h ⊢
      cases h
      rfl
    · rw [if_neg hm] at h ⊢
      by_cases hv : pteInvalid r.1 = true
      · rw [if_pos hv] at h ⊢
        cases h
        rfl
      · rw [if_neg hv] at h ⊢
        by_cases hn : r.1 &&& 0b1110 = 0
        · rw [if_pos hn] at h ⊢
          exact ih h
        · rw [if_neg hn] at h
          cases h

/-- The outcomes of `page_table_walk` from its leaf on: the leaf faults, the update of A
    and D is refused, or the entry of the leaf is added to the TLB, with or without an
    update. -/
inductive LeafOutcome (s : Sys δ) (isWrite memStatus : Bool) (l : Leaf) : BitVec 64 × Sys δ → Prop
  | fault (h : leafFault s.hs isWrite memStatus l.level l.pte = true) :
    LeafOutcome s isWrite memStatus l (0, s.setPageFault true)
  | refused (h : leafFault s.hs isWrite memStatus l.level l.pte = false)
    (htouch : (~~~(l.pte ||| (0b11#64 <<< 6)) != 0) = true)
    (hmem : (memStore env .u64 s l.pteAddr (pteTouched l.pte isWrite)).hs.memStatus = true) :
    LeafOutcome s isWrite memStatus l (0, memStore env .u64 s l.pteAddr (pteTouched l.pte isWrite))
  | untouched (h : leafFault s.hs isWrite memStatus l.level l.pte = false)
    (htouch : (~~~(l.pte ||| (0b11#64 <<< 6)) != 0) = false) :
    LeafOutcome s isWrite memStatus l ((va &&& ~~~pageMask (12 + 9 * l.level)) + ptePpn l.pte,
      (s.setTlb (tlbAdd s.hs.tlb (leafEntry va l.pteAddr l.pte l.level))).setMemStatus false)
  | touched (t : Sys δ) (h : leafFault s.hs isWrite memStatus l.level l.pte = false)
    (htouch : (~~~(l.pte ||| (0b11#64 <<< 6)) != 0) = true)
    (ht : t = memStore env .u64 s l.pteAddr (pteTouched l.pte isWrite))
    (hmem : t.hs.memStatus = false) :
    LeafOutcome s isWrite memStatus l ((va &&& ~~~pageMask (12 + 9 * l.level)) + ptePpn l.pte,
      (t.setTlb (tlbAdd t.hs.tlb
        (leafEntry va l.pteAddr (pteTouched l.pte isWrite) l.level))).setMemStatus false)

theorem walkLeaf_cases (s : Sys δ) (isWrite memStatus : Bool) (l : Leaf) :
    LeafOutcome env va s isWrite memStatus l
      (walkLeaf env va isWrite memStatus l.level l.pteAddr l.pte s) := by
  unfold walkLeaf
  dsimp only
  cases hfault : leafFault s.hs isWrite memStatus l.level l.pte with
  | true => exact .fault hfault
  | false =>
    cases htouch : (~~~(l.pte ||| (0b11#64 <<< 6)) != 0) with
    | false => exact .untouched hfault htouch
    | true =>
      simp only [↓reduceIte, Bool.true_and, Bool.false_eq_true]
      split
      · next hmem => exact .refused hfault htouch hmem
      · next hmem => exact .touched _ hfault htouch rfl (Bool.eq_false_iff.mpr hmem)

/-- What a completed search says about its leaf. -/
structure LeafRead (env : Env δ) (s t : Sys δ) (l : Leaf) : Prop where
  memStatus : t.hs.memStatus = false
  inRange : outOfRange env l.pteAddr = false
  valid : pteInvalid l.pte = false
  pte : 0x80000000 ≤ l.pteAddr → l.pte = loadLe s.bus.mainMem l.pteAddr 8

theorem walkPath_mainMem (memStatus : Bool) (n : Nat) (a : BitVec 64) (s : Sys δ) :
    (walkPath env va memStatus n a s).2.bus.mainMem = s.bus.mainMem := by
  induction n generalizing a s with
  | zero => rfl
  | succ i ih =>
    have hfetch := memFetch_mainMem env .u64 (s.setMemStatus memStatus) (pteAddrAt a va i)
    simp only [walkPath]
    generalize memFetch env .u64 (s.setMemStatus memStatus) (pteAddrAt a va i) = r at hfetch
    split
    · exact hfetch
    · split
      · exact hfetch
      · split
        · exact (ih _ _).trans hfetch
        · exact hfetch

/-- A PTE fetch that is not refused. -/
theorem pteFetch_ok {s : Sys δ} {a : BitVec 64}
    (h : (memFetch env .u64 s a).2.hs.memStatus = false) :
    outOfRange env a = false ∧ (memFetch env .u64 s a).2.hs = { s.hs with memStatus := false } ∧
      (0x80000000 ≤ a → (memFetch env .u64 s a).1 = loadLe s.bus.mainMem a 8) := by
  have hok := memFetch_ok h
  rw [memFetch_granted hok]
  refine ⟨(Bool.or_eq_false_iff.mp hok).1, phyMemFetch_hs env .u64 _ a, fun ha => ?_⟩
  rw [phyMemFetch_ram ha]
  rfl

theorem walkPath_leaf {memStatus : Bool} {n : Nat} {a : BitVec 64} {s t : Sys δ} {l : Leaf}
    (h : walkPath env va memStatus n a s = (some l, t)) :
    LeafRead env s t l ∧ t.hs = { s.hs with memStatus := false } := by
  induction n generalizing a s with
  | zero => cases h
  | succ i ih =>
    have hmem := memFetch_mainMem env .u64 (s.setMemStatus memStatus) (pteAddrAt a va i)
    obtain ⟨hm, hv, hround⟩ := walkPath_some env va h
    obtain ⟨hrange, hhs, hpte⟩ := pteFetch_ok env hm
    rcases hround with ⟨-, hrest⟩ | ⟨-, rfl, rfl⟩
    · -- the PTEs read on the way are in the RAM that the search started from
      obtain ⟨hl, ht⟩ := ih hrest
      refine ⟨⟨hl.memStatus, hl.inRange, hl.valid, fun ha => ?_⟩, ?_⟩
      · rw [hl.pte ha, hmem]
        rfl
      · rw [ht, hhs]
        rfl
    · exact ⟨⟨hm, hrange, hv, hpte⟩, hhs⟩

/-- The search for the leaf that `page_table_walk` makes. -/
def leafWalk (s : Sys δ) : Option Leaf × Sys δ :=
  walkPath env va s.hs.memStatus (satpLevels s.hs.csr.satp) (satpRoot s.hs.csr.satp) s

theorem pageTableWalk_leaf {s t : Sys δ} {l : Leaf} (isWrite : Bool)
    (h : leafWalk env va s = (some l, t)) :
    pageTableWalk env s va isWrite =
      walkLeaf env va isWrite s.hs.memStatus l.level l.pteAddr l.pte t := by
  unfold leafWalk at h
  unfold pageTableWalk
  split
  · next h0 =>
    rw [h0] at h
    cases h
  · exact walkLoop_leaf env va isWrite s.hs.memStatus h

/-- Without a leaf a walk returns 0, except in Bare mode, which has no levels. -/
theorem pageTableWalk_noLeaf {s t : Sys δ} (isWrite : Bool) (hmode : satpLevels s.hs.csr.satp ≠ 0)
    (h : leafWalk env va s = (none, t)) : pageTableWalk env s va isWrite = (0, t) := by
  unfold pageTableWalk
  split
  · next h0 => exact absurd h0 hmode
  · exact walkLoop_none env va isWrite s.hs.memStatus h

/-- A walk without a leaf leaves RAM alone. -/
theorem pageTableWalk_none {s t : Sys δ} (isWrite : Bool) (h : leafWalk env va s = (none, t)) :
    (pageTableWalk env s va isWrite).2.bus.mainMem = s.bus.mainMem := by
  have hmem := walkPath_mainMem env va s.hs.memStatus (satpLevels s.hs.csr.satp)
    (satpRoot s.hs.csr.satp) s
  unfold leafWalk at h
  rw [h] at hmem
  unfold pageTableWalk
  split
  · rfl
  · rw [walkLoop_none env va isWrite s.hs.memStatus h]
    exact hmem

end Walk

end RvEmu
