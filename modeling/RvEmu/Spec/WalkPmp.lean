import RvEmu.Spec.PmpCheck
import RvEmu.Spec.Tables

/-!
# PMP and the page tables

By the privileged architecture the accesses of a page table walk are data accesses,
whatever the translated access is, and a PTE with its A and D set is only read.
`page_table_walk` fetches the PTEs for an access that is no load as if they were
instructions, and it writes back nearly every leaf.
-/

namespace RvEmu

variable {δ : Type}

section Reads

variable (env : Env δ) (va : BitVec 64)

/-- `mem_fetch` reads the PTE at `x`, entered with `memStatus`. -/
def pteGranted (hs : HartState) (memStatus : Bool) (x : BitVec 64) : Bool :=
  !(outOfRange env x || pmpRefusesFetch .u64 { hs with memStatus := memStatus } x)

/-- The PTEs that the level loop of `page_table_walk` reads, and whether it may. -/
def walkReads (memStatus : Bool) : Nat → BitVec 64 → Sys δ → List (BitVec 64 × Bool)
  | 0, _, _ => []
  | i + 1, a, s =>
    let pteAddr := pteAddrAt a va i
    let r := memFetch env .u64 (s.setMemStatus memStatus) pteAddr
    (pteAddr, !r.2.hs.memStatus) ::
      if r.2.hs.memStatus || pteInvalid r.1 then []
      else if r.1 &&& 0b1110 = 0 then walkReads memStatus i (nextTable r.1) r.2
      else []

/-- The PTEs on the way to a leaf in the tables, up to the first that `granted` does not
    let through. -/
def tablePtes (granted : BitVec 64 → Bool) : Nat → BitVec 64 → Sys δ → List (BitVec 64)
  | 0, _, _ => []
  | i + 1, a, s =>
    let pteAddr := pteAddrAt a va i
    let r := phyMemFetch env .u64 s pteAddr
    pteAddr ::
      if !granted pteAddr || pteInvalid r.1 then []
      else if r.1 &&& 0b1110 = 0 then tablePtes granted i (nextTable r.1) r.2
      else []

variable {env va}

theorem tablePtes_setHs (granted : BitVec 64 → Bool) (n : Nat) (a : BitVec 64) (s : Sys δ)
    (hs : HartState) :
    tablePtes env va granted n a (s.setHs hs) = tablePtes env va granted n a s := by
  induction n generalizing a s with
  | zero => rfl
  | succ i ih => simp only [tablePtes, phyMemFetch_setHs, ih]

/-- The walk reads what is on the way in the tables. -/
theorem walkReads_eq (memStatus : Bool) (n : Nat) (a : BitVec 64) (s : Sys δ) :
    walkReads env va memStatus n a s =
      (tablePtes env va (pteGranted env s.hs memStatus) n a s).map fun x =>
        (x, pteGranted env s.hs memStatus x) := by
  induction n generalizing a s with
  | zero => rfl
  | succ i ih =>
    -- a read is granted exactly where it leaves `mem_status` clear
    have hflag := (memFetch_flags env .u64 (s.setMemStatus memStatus) (pteAddrAt a va i)).1
    have hgranted : pteGranted env s.hs memStatus (pteAddrAt a va i) =
        !(memFetch env .u64 (s.setMemStatus memStatus) (pteAddrAt a va i)).2.hs.memStatus := by
      rw [hflag]
      rfl
    simp only [walkReads, tablePtes, List.map_cons, hgranted, Bool.not_not]
    congr 1
    cases hm : (memFetch env .u64 (s.setMemStatus memStatus) (pteAddrAt a va i)).2.hs.memStatus with
    | true => rfl
    | false =>
      rw [memFetch_tables env (hflag.symm.trans hm)]
      simp only [Bool.false_or]
      split
      · rfl
      · split
        · exact (ih _ _).trans (by rw [tablePtes_setHs]; rfl)
        · rfl

/-- Two grants that agree on the way let the same PTEs through. -/
theorem tablePtes_congr {f g : BitVec 64 → Bool} {n : Nat} {a : BitVec 64} {s : Sys δ}
    (h : ∀ x ∈ tablePtes env va g n a s, f x = g x) :
    tablePtes env va f n a s = tablePtes env va g n a s := by
  -- `f` and `g` are asked only about PTEs on the path, and the path goes on only where they agree
  induction n generalizing a s with
  | zero => rfl
  | succ i ih =>
    simp only [tablePtes, List.mem_cons, forall_eq_or_imp] at h ⊢
    rw [h.1]
    congr 1
    split
    · rfl
    · next hstop =>
      rw [if_neg hstop] at h
      split
      · next hnext =>
        rw [if_pos hnext] at h
        exact ih h.2
      · rfl

/-- Whether two grants agree may be asked on the way of either. -/
theorem tablePtes_agree_iff {f g : BitVec 64 → Bool} {n : Nat} {a : BitVec 64} {s : Sys δ} :
    (∀ x ∈ tablePtes env va f n a s, f x = g x) ↔ ∀ x ∈ tablePtes env va g n a s, f x = g x := by
  constructor
  · intro h x hx
    rw [tablePtes_congr fun y hy => (h y hy).symm] at hx
    exact h x hx
  · intro h x hx
    rw [tablePtes_congr h] at hx
    exact h x hx

/-- The search for a leaf succeeds if there is one, and every PTE on the way is granted. -/
theorem walkPath_iff {memStatus : Bool} {n : Nat} {a : BitVec 64} {s : Sys δ} {l : Leaf} :
    (walkPath env va memStatus n a s).1 = some l ↔
      tablePath env va n a s = some l ∧
        ∀ x ∈ tablePtes env va (pteGranted env s.hs memStatus) n a s,
          pteGranted env s.hs memStatus x = true := by
  induction n generalizing a s with
  | zero =>
    constructor
    · intro h
      cases h
    · intro h
      cases h.1
  | succ i ih =>
    simp only [walkPath, tablePath, tablePtes, List.mem_cons, forall_eq_or_imp]
    cases hok : (outOfRange env (pteAddrAt a va i) ||
        pmpRefusesFetch .u64 (s.setMemStatus memStatus).hs (pteAddrAt a va i)) with
    | true =>
      -- the PTE is not granted, and the walk ends with an access fault
      have hm : (memFetch env .u64 (s.setMemStatus memStatus)
          (pteAddrAt a va i)).2.hs.memStatus = true :=
        ((memFetch_flags env .u64 _ _).1).trans hok
      have hgranted : pteGranted env s.hs memStatus (pteAddrAt a va i) = false :=
        congrArg Bool.not hok
      rw [if_pos hm, hgranted]
      constructor
      · intro h
        cases h
      · intro h
        cases h.2.1
    | false =>
      have hgranted : pteGranted env s.hs memStatus (pteAddrAt a va i) = true :=
        congrArg Bool.not hok
      rw [memFetch_tables env hok, (Bool.or_eq_false_iff.mp hok).1, hgranted]
      simp only [Bool.not_true, Bool.false_or, true_and]
      show (if false = true then _ else _ : Option Leaf × Sys δ).1 = some l ↔ _
      rw [if_neg Bool.false_ne_true]
      split
      · -- the PTE is invalid
        constructor
        · intro h
          cases h
        · intro h
          cases h.1
      · split
        · -- the search goes on in the next table
          rw [ih, tablePath_setHs, tablePtes_setHs]
          rfl
        · constructor
          · intro h
            exact ⟨h, fun x hx => absurd hx (List.not_mem_nil)⟩
          · intro h
            exact h.1

/-- A read that is not granted ends the search. -/
theorem walkPath_refused {memStatus : Bool} {n : Nat} {a x : BitVec 64} {s : Sys δ}
    (h : (x, false) ∈ walkReads env va memStatus n a s) :
    (walkPath env va memStatus n a s).1 = none ∧
      (walkPath env va memStatus n a s).2.hs.memStatus = true := by
  induction n generalizing a s with
  | zero => cases h
  | succ i ih =>
    simp only [walkReads, walkPath] at h ⊢
    generalize memFetch env .u64 (s.setMemStatus memStatus) (pteAddrAt a va i) = r at h ⊢
    cases hm : r.2.hs.memStatus with
    | true => exact ⟨rfl, hm⟩
    | false =>
      -- this PTE was read, so the refused one is on the way behind it
      simp only [hm, Bool.not_false, List.mem_cons, Prod.mk.injEq, Bool.false_eq_true, and_false,
        false_or, Bool.false_or] at h
      rw [if_neg Bool.false_ne_true]
      split at h
      · cases h
      · next hv =>
        rw [if_neg hv]
        split at h
        · next hn =>
          rw [if_pos hn]
          exact ih h
        · cases h

/-- A search that ends with an access fault was not granted a read. -/
theorem walkPath_not_granted {memStatus : Bool} {n : Nat} {a : BitVec 64} {s t : Sys δ}
    (hn : n = 0 → s.hs.memStatus = false) (h : walkPath env va memStatus n a s = (none, t))
    (hm : t.hs.memStatus = true) : ∃ x, (x, false) ∈ walkReads env va memStatus n a s := by
  induction n generalizing a s with
  | zero =>
    cases h
    exact Bool.noConfusion (hm.symm.trans (hn rfl))
  | succ i ih =>
    rw [walkPath] at h
    rw [walkReads]
    generalize memFetch env .u64 (s.setMemStatus memStatus) (pteAddrAt a va i) = r at h ⊢
    cases hr : r.2.hs.memStatus with
    | true => exact ⟨_, List.mem_cons_self⟩
    | false =>
      -- this PTE was read, so the refused one is on the way behind it
      rw [hr, if_neg Bool.false_ne_true] at h
      rw [Bool.false_or]
      split at h
      · cases h
        exact Bool.noConfusion (hm.symm.trans hr)
      · next hv =>
        rw [if_neg hv]
        split at h
        · next hnext =>
          rw [if_pos hnext]
          obtain ⟨x, hx⟩ := ih (fun _ => hr) h
          exact ⟨x, List.mem_cons_of_mem _ hx⟩
        · cases h

end Reads

section Rules

variable {env : Env δ} {va : BitVec 64} {isWrite : Bool} {s : Sys δ}

/-- The PTEs on the way to the leaf for an address, as far as data reads get. -/
def dataPtes (env : Env δ) (va : BitVec 64) (s : Sys δ) : List (BitVec 64) :=
  tablePtes env va (pteGranted env s.hs true) (satpLevels s.hs.csr.satp)
    (satpRoot s.hs.csr.satp) s

/-- The reads of the PTEs that `page_table_walk` makes. -/
def pteReads (env : Env δ) (va : BitVec 64) (s : Sys δ) : List (BitVec 64 × Bool) :=
  walkReads env va s.hs.memStatus (satpLevels s.hs.csr.satp) (satpRoot s.hs.csr.satp) s

/-- A read that is not granted is an access fault of `page_table_walk`. -/
theorem pageTableWalk_refused {x : BitVec 64} (h : (x, false) ∈ pteReads env va s) :
    (pageTableWalk env s va isWrite).1 = 0 ∧
      (pageTableWalk env s va isWrite).2.hs.memStatus = true := by
  obtain ⟨hnone, hmem⟩ := walkPath_refused h
  unfold pageTableWalk
  split
  · next h0 =>
    rw [pteReads, h0] at h
    cases h
  · rw [walkLoop_none env va isWrite s.hs.memStatus (Prod.ext hnone rfl)]
    exact ⟨rfl, hmem⟩

/-- A, and for a store D, is set. -/
def Leaf.touched (l : Leaf) (isWrite : Bool) : Bool :=
  l.pte.getLsbD 6 && (!isWrite || l.pte.getLsbD 7)

/-- `page_table_walk` translates by the leaf, and raises nothing. -/
structure TranslatesBy (env : Env δ) (va : BitVec 64) (isWrite : Bool) (s : Sys δ) (l : Leaf) :
    Prop where
  address : (pageTableWalk env s va isWrite).1 = l.address va
  memStatus : (pageTableWalk env s va isWrite).2.hs.memStatus = false
  pageFault : (pageTableWalk env s va isWrite).2.hs.pageFault = s.hs.pageFault

/-- A PTE is read if and only if a data read of it is granted, and a leaf that passes the
    checks translates whatever PMP says about writing it, if A and D need no update. -/
structure PteRules (env : Env δ) (va : BitVec 64) (isWrite : Bool) (s : Sys δ) : Prop where
  read : ∀ r ∈ pteReads env va s, r.2 = pteGranted env s.hs true r.1
  leaf : ∀ l, (leafWalk env va s).1 = some l → LeafPasses isWrite s l →
    l.touched isWrite = true → TranslatesBy env va isWrite s l

/-- On the way to the leaf PMP grants the walk's own reads wherever it grants data reads,
    and a leaf whose A and D need no update may be written, or has every other bit set. -/
structure PteConditions (env : Env δ) (va : BitVec 64) (isWrite : Bool) (s : Sys δ) : Prop where
  read : ∀ x ∈ dataPtes env va s, pteGranted env s.hs s.hs.memStatus x = pteGranted env s.hs true x
  leaf : ∀ l, tableLeaf env va s = some l →
    (∀ x ∈ dataPtes env va s, pteGranted env s.hs true x = true) →
    LeafPasses isWrite s l → l.touched isWrite = true → l.updateRefused s.hs = false

/-- `page_table_walk` raises an access fault exactly if it is not granted one of its reads, or
    the update of a leaf that passes the checks is refused. -/
theorem pageTableWalk_refused_iff (hmode : satpLevels s.hs.csr.satp ≠ 0) :
    (pageTableWalk env s va isWrite).2.hs.memStatus = true ↔
      (∃ x, (x, false) ∈ pteReads env va s) ∨
      ∃ l, (leafWalk env va s).1 = some l ∧ LeafPasses isWrite s l ∧
        l.updateRefused s.hs = true := by
  constructor
  · intro hm
    rcases hl : (leafWalk env va s).1 with _ | l
    · have hwalk : leafWalk env va s = (none, (leafWalk env va s).2) := Prod.ext hl rfl
      rw [pageTableWalk_noLeaf env va isWrite hmode hwalk] at hm
      exact .inl (walkPath_not_granted (fun h0 => absurd h0 hmode) hwalk hm)
    · rw [(@pageTableWalk_flags δ env va isWrite s l hl).2, Bool.and_eq_true,
        Bool.not_eq_true'] at hm
      exact .inr ⟨l, rfl, leafPasses_iff.mpr hm.1, hm.2⟩
  · rintro (⟨x, hx⟩ | ⟨l, hl, hpass, hrefused⟩)
    · exact (pageTableWalk_refused hx).2
    · rw [(@pageTableWalk_flags δ env va isWrite s l hl).2, leafPasses_iff.mp hpass, hrefused]
      rfl

/-- Past its checks, a leaf translates unless its update is refused. -/
theorem translatesBy_iff {l : Leaf} (hl : (leafWalk env va s).1 = some l)
    (hpass : LeafPasses isWrite s l) :
    TranslatesBy env va isWrite s l ↔ l.updateRefused s.hs = false := by
  obtain ⟨hfault, hmem⟩ := @pageTableWalk_flags δ env va isWrite s l hl
  rw [leafPasses_iff.mp hpass, Bool.false_or] at hfault
  rw [leafPasses_iff.mp hpass, Bool.not_false, Bool.true_and] at hmem
  -- `mem_status` says whether the update was refused; where it was not, the leaf fills the entry
  refine ⟨fun h => hmem.symm.trans h.memStatus, fun h => ⟨?_, hmem.trans h, hfault⟩⟩
  have hwalk : leafWalk env va s = (some l, (leafWalk env va s).2) := Prod.ext hl rfl
  have hhs := (walkPath_leaf env va hwalk).2
  rw [pageTableWalk_leaf env va isWrite hwalk] at hmem ⊢
  have hcases := walkLeaf_cases env va (leafWalk env va s).2 isWrite s.hs.memStatus l
  generalize walkLeaf env va isWrite s.hs.memStatus l.level l.pteAddr l.pte (leafWalk env va s).2
    = r at hcases hmem
  cases hcases with
  | fault hf =>
    rw [hhs] at hf
    exact Bool.noConfusion (hf.symm.trans (leafPasses_iff.mp hpass))
  | refused _ _ hm => exact Bool.noConfusion (hm.symm.trans (hmem.trans h))
  | untouched => rfl
  | touched => rfl

/-- The walk treats the PTEs as data exactly where PMP does not tell its reads from data
    reads, and refuses no update of a leaf that needs none. -/
theorem pte_rules_iff : PteRules env va isWrite s ↔ PteConditions env va isWrite s := by
  have hreads : (∀ r ∈ pteReads env va s, r.2 = pteGranted env s.hs true r.1) ↔
      ∀ x ∈ dataPtes env va s,
        pteGranted env s.hs s.hs.memStatus x = pteGranted env s.hs true x := by
    rw [pteReads, walkReads_eq, List.forall_mem_map]
    exact tablePtes_agree_iff
  -- if the reads agree, the walk finds the leaf of the tables where data reads get to it
  have hleaf : (∀ x ∈ dataPtes env va s,
        pteGranted env s.hs s.hs.memStatus x = pteGranted env s.hs true x) →
      ∀ l, (leafWalk env va s).1 = some l ↔ tableLeaf env va s = some l ∧
        ∀ x ∈ dataPtes env va s, pteGranted env s.hs true x = true := by
    intro h l
    unfold leafWalk
    rw [walkPath_iff, tablePtes_congr h]
    exact and_congr_right fun _ => forall₂_congr fun x hx => by rw [h x hx]
  constructor
  · intro h
    have hread := hreads.mp h.read
    refine ⟨hread, fun l hl hgranted hpass htouched => ?_⟩
    have hfound := (hleaf hread l).mpr ⟨hl, hgranted⟩
    exact (translatesBy_iff hfound hpass).mp (h.leaf l hfound hpass htouched)
  · intro h
    refine ⟨hreads.mpr h.read, fun l hl hpass htouched => ?_⟩
    obtain ⟨htable, hgranted⟩ := (hleaf h.read l).mp hl
    exact (translatesBy_iff hl hpass).mpr (h.leaf l htable hgranted hpass htouched)

end Rules

/-- The gigapage at 0x80000000 under a PMP entry for everything with the bits `cfg`. -/
private def gigapageUnder (cfg : BitVec 8) : Sys Unit :=
  let s := gigapage 0x200000CF
  let p := s.hs.pmp
  s.setHs { s.hs with
    pmp := syncExpPmp Env.inert { p with pmpcfg := Function.update p.pmpcfg 0 cfg } }

/-- Where PMP grants reads and writes alone, a walk for an instruction fetch is refused
    the PTE; the leaf is executable, with A and D set. -/
theorem pte_read_as_fetch :
    ¬ ∀ (s : Sys Unit) va isWrite, PteRules Env.inert va isWrite s := by
  intro h
  have hread := (h (gigapageUnder 0b00011011) 0x80002000 false).read (0x80001010, false)
    (by decide +kernel)
  exact absurd hread (by decide +kernel)

-- a load by this leaf, with no need to set A or D, faults where PMP grants reads alone
example : (pageTableWalk Env.inert ((gigapageUnder 0b00011001).setMemStatus true) 0x80002000
    false).2.hs.memStatus = true := by decide +kernel

end RvEmu
