import RvEmu.Spec.Tables

/-!
# The TLB caches the page tables

While neither `satp` nor the page tables change, every TLB entry made since the last
`tlb_clear` is the one that a walk of the tables makes. What the tables are is a
matter of the memory alone, so that the hart may change its mode, `mstatus` and the PMP
between filling an entry and hitting it.
-/

namespace RvEmu

variable {δ : Type}

/-! ## Accessors keep the TLB -/

section Tlb

variable (env : Env δ) (s : Sys δ) (w : Width) (addr data : BitVec 64)

/-- Accesses to physical memory do not touch the TLB: no fetch, … -/
theorem memFetch_tlb : (memFetch env w s addr).2.hs.tlb = s.hs.tlb := by
  unfold memFetch
  split
  · rfl
  · rw [phyMemFetch_hs]
    rfl

/-- … and no store; … -/
theorem memStore_tlb : (memStore env w s addr data).hs.tlb = s.hs.tlb := by
  unfold memStore phyMemStore
  split
  · rfl
  · split
    · rfl
    · split <;> rfl

/-- … nor does a hit, … -/
theorem tlbHit_tlb (va : BitVec 64) (perms : BitVec 8) (i : Nat) (e : TLBEntry) :
    (tlbHit env s va perms i e).2.hs.tlb = s.hs.tlb := by
  have hfetch := memFetch_tlb env s .u64 e.pteAddr
  rcases tlbHit_cases env s va perms i e with h | ⟨b, h⟩ <;> rw [h]
  · exact hfetch
  · exact (memStore_tlb env _ .u64 e.pteAddr _).trans hfetch

/-- … the lookup as a whole, … -/
theorem tlbFind_tlb (va : BitVec 64) (perms : BitVec 8) :
    (tlbFind env s va perms).2.hs.tlb = s.hs.tlb := by
  rcases he : tlbEntry s.hs va perms with _ | ⟨i, e⟩
  · rw [tlbFind_miss env he]
  · rw [tlbFind_hit env he]
    exact tlbHit_tlb env s va perms i e

/-- Only the slot of the new entry changes. -/
theorem tlbAdd_entries (tlb : TLBStruct) (e : TLBEntry) (i : BitVec 6) :
    (tlbAdd tlb e).tlbEntries i = if i = tlbHash e.virtPage then e else tlb.tlbEntries i :=
  Function.update_apply ..

/-- A walk that gets past its checks adds the entry of the leaf. -/
theorem walkLeaf_tlb (va : BitVec 64) (isWrite memStatus : Bool) (l : Leaf) :
    (walkLeaf env va isWrite memStatus l.level l.pteAddr l.pte s).2.hs.tlb = s.hs.tlb ∨
    (leafFault s.hs isWrite memStatus l.level l.pte = false ∧
      (walkLeaf env va isWrite memStatus l.level l.pteAddr l.pte s).2.hs.tlb =
        tlbAdd s.hs.tlb (leafEntry va l.pteAddr l.pte l.level)) := by
  have hstore := memStore_tlb env s .u64 l.pteAddr (pteTouched l.pte isWrite)
  have hcases := walkLeaf_cases env va s isWrite memStatus l
  generalize walkLeaf env va isWrite memStatus l.level l.pteAddr l.pte s = r at hcases
  cases hcases with
  | fault => exact .inl rfl
  | refused => exact .inl hstore
  | untouched h => exact .inr ⟨h, rfl⟩
  | touched t h _ ht =>
    refine .inr ⟨h, ?_⟩
    rw [leafEntry_touched, ← hstore, ← ht]
    rfl

/-- … or the search for a leaf. -/
theorem walkPath_tlb (va : BitVec 64) (memStatus : Bool) (n : Nat) (a : BitVec 64) :
    (walkPath env va memStatus n a s).2.hs.tlb = s.hs.tlb := by
  induction n generalizing a s with
  | zero => rfl
  | succ i ih =>
    have hfetch := memFetch_tlb env (s.setMemStatus memStatus) .u64 (pteAddrAt a va i)
    simp only [walkPath]
    split
    · exact hfetch
    · split
      · exact hfetch
      · split
        · exact (ih _ _).trans hfetch
        · exact hfetch

/-- A walk leaves the TLB alone, or adds the entry of the leaf in the tables. -/
theorem pageTableWalk_tlb (va : BitVec 64) (isWrite : Bool) :
    (pageTableWalk env s va isWrite).2.hs.tlb = s.hs.tlb ∨
    ∃ l, tableLeaf env va s = some l ∧ l.aligned = true ∧
      (pageTableWalk env s va isWrite).2.hs.tlb =
        tlbAdd s.hs.tlb (leafEntry va l.pteAddr l.pte l.level) := by
  have hpath : (leafWalk env va s).2.hs.tlb = s.hs.tlb := walkPath_tlb env s va _ _ _
  -- no leaf, no entry
  rcases hl : leafWalk env va s with ⟨_ | l, t⟩
  · refine .inl ?_
    rw [hl] at hpath
    unfold pageTableWalk
    split
    · rfl
    · rw [walkLoop_none env va isWrite s.hs.memStatus hl]
      exact hpath
  · rw [hl] at hpath
    rw [pageTableWalk_leaf env va isWrite hl]
    rcases walkLeaf_tlb env t va isWrite s.hs.memStatus l with hsame | ⟨hok, hadd⟩
    · exact .inl (hsame.trans hpath)
    · refine .inr ⟨l, tablePath_of_walkPath env va hl, aligned_of_passed hok, ?_⟩
      rw [hadd]
      exact congrArg (tlbAdd · _) hpath

end Tlb

/-! ## The entries -/

/-- The entry is invalid, or what a walk of the tables makes. -/
def TlbEntryOk (env : Env δ) (s : Sys δ) (e : TLBEntry) : Prop :=
  e.permissions = 0 ∨ ∃ va l, tableLeaf env va s = some l ∧ l.aligned = true ∧
    e = leafEntry va l.pteAddr l.pte l.level

/-- Every entry is. -/
def TlbOk (env : Env δ) (s : Sys δ) : Prop := ∀ i, TlbEntryOk env s (s.hs.tlb.tlbEntries i)

/-- `satp` and, but for A and D, the leaves in the tables have not changed. -/
structure SameTables (env : Env δ) (s t : Sys δ) : Prop where
  satp : t.hs.csr.satp = s.hs.csr.satp
  leaf : ∀ va, (tableLeaf env va t).map Leaf.clearAD = (tableLeaf env va s).map Leaf.clearAD

/-- The same page tables in the same state, … -/
theorem SameTables.refl {env : Env δ} (s : Sys δ) : SameTables env s s := ⟨rfl, fun _ => rfl⟩

/-- … in states one after the other, … -/
theorem SameTables.trans {env : Env δ} {s t u : Sys δ} (h : SameTables env s t)
    (h' : SameTables env t u) : SameTables env s u :=
  ⟨h'.satp.trans h.satp, fun va => (h'.leaf va).trans (h.leaf va)⟩

/-- … and the other way round. -/
theorem SameTables.symm {env : Env δ} {s t : Sys δ} (h : SameTables env s t) : SameTables env t s :=
  ⟨h.satp.symm, fun va => (h.leaf va).symm⟩

/-- The tables are part of what the harts share. -/
theorem sameTables_of_bus {env : Env δ} {s t : Sys δ} (hsatp : t.hs.csr.satp = s.hs.csr.satp)
    (hmem : t.bus.mainMem = s.bus.mainMem) (hdev : t.bus.dev = s.bus.dev) : SameTables env s t := by
  refine ⟨hsatp, fun va => ?_⟩
  rw [RvEmu.tableLeaf, RvEmu.tableLeaf, hsatp, tablePath_bus env va hmem hdev]

/-- A leaf is still there, but for A and D. -/
theorem SameTables.tableLeaf {env : Env δ} {s t : Sys δ} (h : SameTables env s t) {va : BitVec 64}
    {l : Leaf} (hl : tableLeaf env va s = some l) :
    ∃ l', RvEmu.tableLeaf env va t = some l' ∧ l'.clearAD = l.clearAD := by
  have hleaf := h.leaf va
  rw [hl] at hleaf
  exact Option.map_eq_some_iff.mp hleaf

/-- A and D do not matter to the alignment of a leaf, … -/
theorem aligned_clearAD (l : Leaf) : l.clearAD.aligned = l.aligned := by
  unfold Leaf.aligned Leaf.clearAD
  rw [ptePpn_clearAD]

/-- … nor to its address. -/
theorem address_clearAD (va : BitVec 64) (l : Leaf) : l.clearAD.address va = l.address va := by
  unfold Leaf.address Leaf.clearAD
  rw [ptePpn_clearAD]

/-- The same tables give the same addresses. -/
theorem tableAddress_congr {env : Env δ} {s t : Sys δ} (h : SameTables env s t) (va : BitVec 64) :
    tableAddress env va t = tableAddress env va s := by
  have hleaf := congrArg (Option.map (Leaf.address va)) (h.leaf va)
  have hclear : Leaf.address va ∘ Leaf.clearAD = Leaf.address va := funext (address_clearAD va)
  rw [Option.map_map, Option.map_map, hclear] at hleaf
  rw [tableAddress, h.satp, hleaf, tableAddress]

/-- An entry that agrees with the tables agrees with the same tables later on. -/
theorem TlbEntryOk.mono {env : Env δ} {s t : Sys δ} {e : TLBEntry} (h : SameTables env s t)
    (he : TlbEntryOk env s e) : TlbEntryOk env t e := by
  rcases he with hinvalid | ⟨va, l, hl, haligned, rfl⟩
  · exact .inl hinvalid
  · obtain ⟨l', hl', hsame⟩ := h.tableLeaf hl
    refine .inr ⟨va, l', hl', ?_, ?_⟩
    · rw [← aligned_clearAD, hsame, aligned_clearAD]
      exact haligned
    · have hentry := congrArg (fun l : Leaf => leafEntry va l.pteAddr l.pte l.level) hsame
      simp only [Leaf.clearAD, leafEntry_clearAD] at hentry
      exact hentry.symm

/-! ## Runs -/

/-- What happens to a hart, as far as its TLB is concerned. -/
inductive TlbStep (env : Env δ) : Sys δ → Sys δ → Prop
  | find (s : Sys δ) (va : BitVec 64) (perms : BitVec 8) :
    TlbStep env s (tlbFind env s va perms).2
  | walk (s : Sys δ) (va : BitVec 64) (isWrite : Bool) :
    TlbStep env s (pageTableWalk env s va isWrite).2
  | clear (s t : Sys δ) (h : t.hs.tlb = tlbClear) : TlbStep env s t
  | other (s t : Sys δ) (h : t.hs.tlb = s.hs.tlb) : TlbStep env s t

/-- The states of a run since the last `tlb_clear`, as long as `satp` and the tables
    do not change. -/
inductive SinceClear (env : Env δ) : Sys δ → Prop
  | clear (s : Sys δ) (h : s.hs.tlb = tlbClear) : SinceClear env s
  | step {s t : Sys δ} (h : SinceClear env s) (hstep : TlbStep env s t)
    (hsame : SameTables env s t) : SinceClear env t

/-- A flag is no step of the TLB. -/
theorem SinceClear.setMemStatus {env : Env δ} {s : Sys δ} (h : SinceClear env s) (b : Bool) :
    SinceClear env (s.setMemStatus b) :=
  h.step (.other s _ rfl) (sameTables_of_bus rfl rfl rfl)

/-- After a walk that leaves RAM alone. -/
theorem SinceClear.walk {env : Env Unit} {s : Sys Unit} (h : SinceClear env s) (va : BitVec 64)
    (isWrite : Bool) (hmem : (pageTableWalk env s va isWrite).2.bus.mainMem = s.bus.mainMem) :
    SinceClear env (pageTableWalk env s va isWrite).2 :=
  h.step (.walk s va isWrite)
    (sameTables_of_bus (pageTableWalk_frame env s va isWrite).satp hmem rfl)

/-- The cleared TLB agrees with any tables. -/
theorem tlbOk_clear {env : Env δ} {s : Sys δ} (h : s.hs.tlb = tlbClear) : TlbOk env s := by
  intro i
  rw [h]
  exact .inl rfl

/-- What one step preserves. -/
theorem TlbOk.step {env : Env δ} {s t : Sys δ} (hok : TlbOk env s) (hstep : TlbStep env s t)
    (hsame : SameTables env s t) : TlbOk env t := by
  have hkept : t.hs.tlb = s.hs.tlb → TlbOk env t := by
    intro htlb i
    rw [htlb]
    exact (hok i).mono hsame
  -- only a walk adds an entry, which is that of a leaf
  cases hstep with
  | find va perms => exact hkept (tlbFind_tlb env s va perms)
  | walk va isWrite =>
    rcases pageTableWalk_tlb env s va isWrite with htlb | ⟨l, hl, haligned, htlb⟩
    · exact hkept htlb
    · intro i
      refine TlbEntryOk.mono hsame ?_
      rw [htlb, tlbAdd_entries]
      split
      · exact .inr ⟨va, l, hl, haligned, rfl⟩
      · exact hok i
  | clear _ htlb => exact tlbOk_clear htlb
  | other _ htlb => exact hkept htlb

/-- Every entry made since the last `tlb_clear` agrees with the tables. -/
theorem SinceClear.tlbOk {env : Env δ} {s : Sys δ} (h : SinceClear env s) : TlbOk env s := by
  induction h with
  | clear s h => exact tlbOk_clear h
  | step _ hstep hsame ih => exact ih.step hstep hsame

/-! ## Hits -/

section Hit

variable {env : Env δ} {s : Sys δ} {va : BitVec 64}

/-- The entry that a lookup finds is that of the address's own leaf. -/
theorem TlbOk.hit (hok : TlbOk env s) {perms : BitVec 8} {i : Nat} {e : TLBEntry}
    (h : tlbEntry s.hs va perms = some (i, e)) :
    ∃ l, tableLeaf env va s = some l ∧ l.aligned = true ∧ l.level = i ∧
      e = leafEntry va l.pteAddr l.pte l.level ∧ tlbMatches s.hs va perms i e = true := by
  unfold tlbEntry at h
  split at h
  · cases h
  · obtain ⟨-, rfl, hmatch⟩ := tlbLookup_matches h
    have hm := hmatch
    simp only [tlbMatches, Bool.and_eq_true] at hm
    obtain ⟨⟨⟨⟨⟨hsize, hvalid⟩, hpage⟩, -⟩, -⟩, -⟩ := hm
    rcases hok (tlbHash (va &&& pageMask (12 + 9 * i))) with hinvalid | ⟨va', l, hl, haligned, he⟩
    · rw [tlbProbe, hinvalid] at hvalid
      cases hvalid
    · have hlevel := tableLeaf_level env va' hl
      have hi : l.level = i := by
        rw [tlbProbe, he, beq_iff_eq] at hsize
        rw [← hsize]
        exact (Nat.mod_eq_of_lt (by omega)).symm
      subst hi
      rw [tlbProbe, he, decide_eq_true_eq] at hpage
      -- the probe of a level compares the bits above the page offset of that level
      have hsame : ∀ k, 12 + 9 * l.level ≤ k → va >>> k = va' >>> k := fun k hk =>
        BitVec.ushiftRight_eq_of_xor_lt (by omega) hpage hk
      have hvirt : va &&& pageMask (12 + 9 * l.level) = va' &&& pageMask (12 + 9 * l.level) :=
        BitVec.and_allOnes_shiftLeft_congr (hsame _ (Nat.le_refl _))
      refine ⟨l, tableLeaf_samePage env va' hsame hl, haligned, rfl, ?_, hmatch⟩
      rw [tlbProbe, he, leafEntry, leafEntry, hvirt]

/-- The address composed from an entry is the one that its leaf translates to. -/
theorem leafEntry_address {l : Leaf} (hlevel : l.level < 5) :
    (leafEntry va l.pteAddr l.pte l.level).address va l.level = l.address va := by
  rw [TLBEntry.address, ← BitVec.not_allOnes_shiftLeft (by omega), BitVec.add_comm]
  rfl

/-- A TLB hit yields the address that the tables give. -/
theorem TlbOk.address (hok : TlbOk env s) {perms : BitVec 8} (h : (tlbFind env s va perms).1 ≠ 0) :
    tableAddress env va s = some (tlbFind env s va perms).1 := by
  rcases he : tlbEntry s.hs va perms with _ | ⟨i, e⟩
  · rw [tlbFind_miss env he] at h ⊢
    -- with `satp` zero the lookup returns the address itself
    by_cases hsatp : s.hs.csr.satp = 0
    · rw [tableAddress, hsatp]
      rfl
    · exact absurd (if_neg hsatp) h
  · obtain ⟨l, hl, -, rfl, rfl, -⟩ := hok.hit he
    rw [tlbFind_hit env he] at h ⊢
    rw [tableAddress_of_leaf hl]
    rw [tlbHit_fst] at h ⊢
    split at h
    · exact absurd rfl h
    · next hok => rw [if_neg hok, leafEntry_address (tableLeaf_level env va hl)]

/-- So does a translation, by a hit or by a walk. -/
theorem TlbOk.translate (hok : TlbOk env s) {perms : BitVec 8} {isWrite : Bool} {p : BitVec 64}
    (hfind : SameTables env s (tlbFind env s va perms).2)
    (h : (translate env s va perms isWrite).1 = some p) : tableAddress env va s = some p := by
  simp only [RvEmu.translate] at h
  split at h
  · split at h
    · cases h
    · next hflags =>
      obtain ⟨hfault, hmem⟩ := Bool.or_eq_false_iff.mp (Bool.eq_false_iff.mpr hflags)
      rw [← tableAddress_congr hfind, WalkAccepts.address ⟨hfault, hmem⟩]
      exact h
  · next hhit =>
    rw [hok.address hhit]
    exact h

end Hit

end RvEmu
