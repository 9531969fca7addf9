import RvEmu.Spec.FinalAccess
import RvEmu.Spec.WalkAddress
import RvEmu.Spec.WalkFailure

/-!
# Non-canonical addresses

Neither `page_table_walk` nor `tlb_find` looks at the bits of an address above those it
translates. A non-canonical address is thus an alias of a canonical one: an access to it
page-faults if the page tables happen not to map that one.
-/

namespace RvEmu

open Isa

variable {δ : Type}

/-! ## Aliases -/

/-- The levels translate all bits up to the top one. -/
theorem topBit_levels (mode : SvMode) : mode.topBit + 1 = 12 + 9 * mode.levels := by
  cases mode <;> rfl

/-- The alias has the same lower bits … -/
theorem getLsbD_canonicalAlias (mode : SvMode) (va : BitVec 64) {k : Nat}
    (hk : k ≤ mode.topBit) : (canonicalAlias mode va).getLsbD k = va.getLsbD k := by
  have h64 : mode.topBit < 64 := by cases mode <;> decide
  have hlow : k < mode.topBit + 1 := Nat.lt_succ_of_le hk
  rw [canonicalAlias, BitVec.getLsbD_signExtend, if_pos hlow, BitVec.getLsbD_setWidth,
    decide_eq_true hlow, decide_eq_true (Nat.lt_of_le_of_lt hk h64), Bool.true_and, Bool.true_and]

/-- … and is canonical. -/
theorem canonical_canonicalAlias (mode : SvMode) (va : BitVec 64) :
    Canonical mode (canonicalAlias mode va) := by
  intro k hk htop
  rcases Nat.eq_or_lt_of_le htop with rfl | hlt
  · rfl
  · have hhigh : ¬ k < mode.topBit + 1 := by omega
    rw [getLsbD_canonicalAlias mode va (Nat.le_refl _), canonicalAlias, BitVec.getLsbD_signExtend,
      if_neg hhigh, decide_eq_true hk, Bool.true_and, BitVec.msb_eq_getLsbD_last,
      BitVec.getLsbD_setWidth, Nat.add_sub_cancel, decide_eq_true (Nat.lt_succ_self _),
      Bool.true_and]

section Alias

variable {env : Env δ} {mode : SvMode} {va : BitVec 64}

/-- The walk does not see the difference: not in the address of a PTE … -/
theorem pteAddrAt_alias {i : Nat} (hi : i < mode.levels) (a : BitVec 64) :
    pteAddrAt a (canonicalAlias mode va) i = pteAddrAt a va i := by
  have hindex : vpn (canonicalAlias mode va) i = vpn va i := by
    apply BitVec.eq_of_getLsbD_eq
    intro k hk
    have hle : 12 + 9 * i + k ≤ mode.topBit := by
      have htop := topBit_levels mode
      omega
    rw [vpn, vpn, BitVec.getLsbD_extractLsb', BitVec.getLsbD_extractLsb',
      getLsbD_canonicalAlias mode va hle]
  rw [pteAddrAt, pteAddrAt, index_eq, index_eq, hindex]

/-- The search for a leaf does not see the bits above the top one. -/
theorem walkPath_alias {n : Nat} (hn : n ≤ mode.levels) (memStatus : Bool) (a : BitVec 64)
    (s : Sys δ) :
    walkPath env (canonicalAlias mode va) memStatus n a s = walkPath env va memStatus n a s := by
  induction n generalizing a s with
  | zero => rfl
  | succ i ih => simp only [walkPath, pteAddrAt_alias hn, ih (Nat.le_of_succ_le hn)]

/-- … and not in the leaf. -/
theorem leafWalk_alias {s : Sys δ} (hmode : satpMode s.hs.csr.satp = mode.encoding) :
    leafWalk env (canonicalAlias mode va) s = leafWalk env va s := by
  have hlevels := satpLevels_eq hmode
  exact walkPath_alias (Nat.le_of_eq hlevels) _ _ s

end Alias

/-! ## Page faults -/

/-- `handle_mem_error` raises a page fault. -/
def PageFaults (t : Sys δ) : Prop := t.hs.memStatus = false ∧ t.hs.pageFault = true

section Walk

variable (env : Env δ) (va : BitVec 64) (isWrite : Bool) (s : Sys δ)

/-- The page tables do not map the address for the access: they hold no leaf for it, where
    PMP permits to read the PTEs on the way, or a leaf that does not pass the checks. -/
inductive Unmapped : Prop
  | noLeaf (h : (leafWalk env va s).1 = none) (hread : (leafWalk env va s).2.hs.memStatus = false)
  | leaf (l : Leaf) (h : (leafWalk env va s).1 = some l) (hfail : ¬ LeafPasses isWrite s l)

variable {env va isWrite s}

/-- A walk raises a page fault where nothing is mapped. -/
theorem walk_pageFaults_iff (hmode : satpLevels s.hs.csr.satp ≠ 0)
    (hfault : s.hs.pageFault = false) :
    PageFaults (pageTableWalk env s va isWrite).2 ↔ Unmapped env va isWrite s := by
  rcases hl : leafWalk env va s with ⟨_ | l, t⟩
  -- without a leaf one of the two flags is set
  · have hflag : OneFlag t := walkPath_none_oneFlag hfault (fun h0 => absurd h0 hmode) hl
    rw [pageTableWalk_noLeaf env va isWrite hmode hl]
    constructor
    · intro h
      exact .noLeaf (by rw [hl]) (by rw [hl]; exact h.1)
    · intro h
      cases h with
      | noLeaf _ hread =>
        rw [hl] at hread
        have hpf : (!t.hs.pageFault) = false := hflag.symm.trans hread
        rw [Bool.not_eq_false'] at hpf
        exact ⟨hread, hpf⟩
      | leaf l h =>
        rw [hl] at h
        cases h
  -- with a leaf `page_fault` tells whether it passes its checks
  · have hleaf : (leafWalk env va s).1 = some l := by rw [hl]
    obtain ⟨hpf, hm⟩ := @pageTableWalk_flags δ env va isWrite s l hleaf
    rw [hfault, Bool.or_false] at hpf
    rw [PageFaults, hpf, hm]
    constructor
    · rintro ⟨-, hbad⟩
      refine .leaf l hleaf fun hpass => ?_
      rw [leafPasses_iff.mp hpass] at hbad
      cases hbad
    · intro h
      cases h with
      | noLeaf h =>
        rw [hl] at h
        cases h
      | leaf l' h hfail =>
        obtain rfl := Option.some.inj (hleaf.symm.trans h)
        have hbad := Bool.not_eq_false _ ▸ mt leafPasses_iff.mpr hfail
        rw [hbad]
        exact ⟨rfl, rfl⟩

/-- Nor do the checks on the leaf. -/
theorem unmapped_alias {mode : SvMode} (hmode : satpMode s.hs.csr.satp = mode.encoding) :
    Unmapped env (canonicalAlias mode va) isWrite s ↔ Unmapped env va isWrite s := by
  have hsearch := @leafWalk_alias δ env mode va s hmode
  constructor
  all_goals
    intro h
    cases h with
    | noLeaf h hread =>
      refine .noLeaf ?_ ?_
      · simpa only [hsearch] using h
      · simpa only [hsearch] using hread
    | leaf l h hfail => exact .leaf l (by simpa only [hsearch] using h) hfail

end Walk

/-! ## Accesses -/

section Access

variable (env : Env δ)

/-- A load, store or instruction fetch. -/
def virtAccess (k : Access) (w : Width) (s : Sys δ) (va data : BitVec 64) : Sys δ :=
  match k with
  | .load => (virtMemFetch env w (s.setMemStatus true) va).2
  | .store => virtMemStore env w s va data
  | .fetch => (virtMemFetch env w (s.setMemStatus false) va).2

/-- The state in which the access is entered. -/
def Access.entered (k : Access) (s : Sys δ) : Sys δ :=
  match k with
  | .load => s.setMemStatus true
  | .store => s
  | .fetch => s.setMemStatus false

/-- `iswrite` -/
def Access.isWrite (k : Access) : Bool := k == .store

variable {env} {k : Access} {w : Width} {s : Sys δ} {va data : BitVec 64}

/-- The kind of the access. -/
theorem accessOf_entered : accessOf k.isWrite (k.entered s) = k := by
  cases k <;> rfl

/-- Below M-mode an access is one at a virtual address. -/
theorem virtAccess_eq (hpriv : s.hs.privmode ≠ 3) :
    virtAccess env k w s va data = accessAt env w k.isWrite (k.entered s) va data := by
  cases k with
  | load => exact congrArg Prod.snd (if_neg hpriv)
  | store => exact if_neg hpriv
  | fetch => exact congrArg Prod.snd (if_neg hpriv)

/-- The access does not translate to an address. -/
structure NotMapped (env : Env δ) (mode : SvMode) (k : Access) (va : BitVec 64) (s : Sys δ) :
    Prop where
  tlb : NoHit env va k.perms s
  tables : Unmapped env (canonicalAlias mode va) k.isWrite (tlbFind env s va k.perms).2

/-- What translates raises no page fault. -/
theorem accessAt_pageFault {isWrite : Bool} (hfault : s.hs.pageFault = false) {p : BitVec 64}
    (hp : byteAddress env isWrite s va = some p) :
    (accessAt env w isWrite s va data).hs.pageFault = false := by
  have hpf : (translated env isWrite s va).hs.pageFault = false := translate_pageFault hfault hp
  rw [accessAt_some hp]
  split
  · exact (memStore_flags env w _ p data).2.trans hpf
  · exact (memFetch_flags env w _ p).2.trans hpf

/-- It raises a page fault where its address is not mapped. -/
theorem accessAt_pageFaults_iff {mode : SvMode} (hmode : satpMode s.hs.csr.satp = mode.encoding)
    (hfault : s.hs.pageFault = false) {isWrite : Bool} :
    PageFaults (accessAt env w isWrite s va data) ↔
      NotMapped env mode (accessOf isWrite s) va s := by
  have hlevels := satpLevels_ne_zero hmode
  have hsatp : s.hs.csr.satp ≠ 0 := fun h0 => hlevels (by rw [h0]; rfl)
  have hkind : (accessOf isWrite s).isWrite = isWrite := by
    unfold accessOf Access.ofFlags
    cases isWrite <;> cases s.hs.memStatus <;> rfl
  have hkept := (tlbFind_frame env s va (accessOf isWrite s).perms).satp
  have hpf : (tlbFind env s va (accessOf isWrite s).perms).2.hs.pageFault = false :=
    tlbFind_pageFault.trans hfault
  have htranslates : ∀ p, byteAddress env isWrite s va = some p →
      ¬ PageFaults (accessAt env w isWrite s va data) := by
    intro p hp h
    exact Bool.noConfusion ((accessAt_pageFault hfault hp).symm.trans h.2)
  by_cases hhit : (tlbFind env s va (accessOf isWrite s).perms).1 = 0
  · have hdepth : satpLevels
        (tlbFind env s va (accessOf isWrite s).perms).2.hs.csr.satp ≠ 0 := by
      rw [hkept]
      exact hlevels
    have hwalk := @walk_pageFaults_iff δ env va isWrite _ hdepth hpf
    have htables : Unmapped env (canonicalAlias mode va) (accessOf isWrite s).isWrite
        (tlbFind env s va (accessOf isWrite s).perms).2 ↔
        Unmapped env va isWrite (tlbFind env s va (accessOf isWrite s).perms).2 := by
      rw [hkind]
      exact unmapped_alias (by rw [hkept]; exact hmode)
    -- after a miss the walk decides, and it does not tell the address from its alias
    by_cases haccepts : WalkAccepts env va isWrite (tlbFind env s va (accessOf isWrite s).perms).2
    · refine iff_of_false (htranslates _ ((translate_of_miss hhit).mpr ⟨haccepts, rfl⟩)) ?_
      intro h
      exact Bool.noConfusion (haccepts.1.symm.trans (hwalk.mpr (htables.mp h.tables)).2)
    · have hnone := translate_of_refused hhit haccepts
      have hlast : accessAt env w isWrite s va data =
          (pageTableWalk env (tlbFind env s va (accessOf isWrite s).perms).2 va isWrite).2 :=
        (accessAt_none (congrArg Prod.fst hnone)).trans (congrArg Prod.snd hnone)
      rw [hlast, hwalk, ← htables]
      exact ⟨fun h => ⟨(tlbFind_zero_iff hsatp).mp hhit, h⟩, fun h => h.tables⟩
  · refine iff_of_false (htranslates _ (congrArg Prod.fst (translate_of_hit hhit))) ?_
    intro h
    exact hhit ((tlbFind_zero_iff hsatp).mpr h.tlb)

/-- A non-canonical address page-faults. -/
def NonCanonicalFaults (env : Env δ) (mode : SvMode) (k : Access) (w : Width)
    (s : Sys δ) (va data : BitVec 64) : Prop :=
  ¬ Canonical mode va → PageFaults (virtAccess env k w s va data)

/-- A non-canonical address faults only where its alias is not mapped. -/
theorem nonCanonical_faults_iff {mode : SvMode} (hmode : satpMode s.hs.csr.satp = mode.encoding)
    (hpriv : s.hs.privmode = 0 ∨ s.hs.privmode = 1) (hfault : s.hs.pageFault = false) :
    NonCanonicalFaults env mode k w s va data ↔
      Canonical mode va ∨ NotMapped env mode k va (k.entered s) := by
  have hbelow : s.hs.privmode ≠ 3 := by
    rcases hpriv with h | h <;> rw [h] <;> decide
  -- entering the access changes only `mem_status`
  have hentered : satpMode (k.entered s).hs.csr.satp = mode.encoding ∧
      (k.entered s).hs.pageFault = false := by
    cases k <;> exact ⟨hmode, hfault⟩
  have hiff := @accessAt_pageFaults_iff δ env w (k.entered s) va data mode hentered.1 hentered.2
    k.isWrite
  rw [accessOf_entered] at hiff
  rw [NonCanonicalFaults, virtAccess_eq hbelow, hiff, or_iff_not_imp_left]

/-- Without page tables every address faults. -/
theorem nonCanonical_faults_unmapped :
    NonCanonicalFaults Env.inert .sv39 .load .u64 (gigapage 0) 0x8000000080002000 0 := by
  refine (nonCanonical_faults_iff (by decide) (.inr rfl) rfl).mpr (.inr ⟨fun i e h => ?_, ?_⟩)
  · have hnone : tlbEntry (Access.entered .load (gigapage 0)).hs 0x8000000080002000
        (Access.perms .load) = none := by decide
    exact absurd (h.symm.trans hnone) (Option.some_ne_none _)
  · exact .noLeaf (by decide +kernel) (by decide +kernel)

/-- A load through an alias of a mapped page. -/
theorem nonCanonical_alias_loads :
    ¬ ∀ (s : Sys Unit) mode k w va data, satpMode s.hs.csr.satp = SvMode.encoding mode →
      s.hs.privmode = 0 ∨ s.hs.privmode = 1 → s.hs.pageFault = false →
      NonCanonicalFaults Env.inert mode k w s va data := by
  intro h
  have hfaults := h (gigapage 0x2000000F) .sv39 .load .u64 0x8000000080002000 0 (by decide)
    (.inr rfl) rfl
  have hva : ¬ Canonical .sv39 0x8000000080002000 := by
    intro hcanonical
    exact absurd (hcanonical 63 (by decide) (by decide)) (by decide)
  exact absurd (hfaults hva).2 (by decide +kernel)

end Access

end RvEmu
