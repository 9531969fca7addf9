import RvEmu.Spec.WalkPermission

/-!
# Failed page table walks

A walk that does not translate sets one of `mem_status` and `page_fault`, and changes nothing
else: `handle_mem_error` then knows which fault to raise.
-/

namespace RvEmu

variable {δ : Type}

/-- `t` is `s` but for the flags and for what reads do to a device. -/
structure OnlyFlags (s t : Sys δ) : Prop where
  hart : t.hs = { s.hs with memStatus := t.hs.memStatus, pageFault := t.hs.pageFault }
  bus : t.bus = { s.bus with dev := t.bus.dev }

namespace OnlyFlags

variable {s t u : Sys δ}

/-- Nothing has changed. -/
theorem refl (s : Sys δ) : OnlyFlags s s := ⟨rfl, rfl⟩

/-- The relation is transitive. -/
theorem trans (h : OnlyFlags s t) (h' : OnlyFlags t u) : OnlyFlags s u :=
  ⟨h'.hart.trans (by rw [h.hart]), h'.bus.trans (by rw [h.bus])⟩

/-- `mem_status` may change. -/
theorem setMemStatus (h : OnlyFlags s t) (b : Bool) : OnlyFlags s (t.setMemStatus b) :=
  h.trans ⟨rfl, rfl⟩

/-- `page_fault` may change. -/
theorem setPageFault (h : OnlyFlags s t) (b : Bool) : OnlyFlags s (t.setPageFault b) :=
  h.trans ⟨rfl, rfl⟩

end OnlyFlags

section Walk

variable (env : Env δ)

/-- A physical load changes at most device state. -/
theorem phyMemFetch_onlyFlags (w : Width) (s : Sys δ) (a : BitVec 64) :
    OnlyFlags s (phyMemFetch env w s a).2 := by
  unfold phyMemFetch
  split
  · exact .refl s
  · split
    · exact ⟨rfl, rfl⟩
    · split
      · exact .refl s
      · exact .refl s

/-- So does a load, but for `mem_status`. -/
theorem memFetch_onlyFlags (w : Width) (s : Sys δ) (a : BitVec 64) :
    OnlyFlags s (memFetch env w s a).2 := by
  unfold memFetch
  split
  · exact ⟨rfl, rfl⟩
  · exact (OnlyFlags.setMemStatus (.refl s) false).trans (phyMemFetch_onlyFlags env w _ a)

variable {env} {va : BitVec 64}

/-- The search for a leaf changes only flags, by induction on the levels. -/
theorem walkPath_onlyFlags (memStatus : Bool) (n : Nat) (a : BitVec 64) (s : Sys δ) :
    OnlyFlags s (walkPath env va memStatus n a s).2 := by
  induction n generalizing a s with
  | zero => exact ⟨rfl, rfl⟩
  | succ i ih =>
    have hfetch : OnlyFlags s
        (memFetch env .u64 (s.setMemStatus memStatus) (pteAddrAt a va i)).2 :=
      (OnlyFlags.setMemStatus (.refl s) memStatus).trans (memFetch_onlyFlags env .u64 _ _)
    simp only [walkPath]
    generalize memFetch env .u64 (s.setMemStatus memStatus) (pteAddrAt a va i) = r at hfetch
    split
    · exact hfetch
    · split
      · exact hfetch.setPageFault true
      · split
        · exact hfetch.trans (ih _ _)
        · exact hfetch

/-- The search that `page_table_walk` makes changes only flags. -/
theorem leafWalk_onlyFlags {s t : Sys δ} {o : Option Leaf} (h : leafWalk env va s = (o, t)) :
    OnlyFlags s t := by
  have ht : t = (leafWalk env va s).2 := congrArg Prod.snd h.symm
  rw [ht]
  exact walkPath_onlyFlags _ _ _ s

/-- Exactly one of the flags is set. -/
def OneFlag (t : Sys δ) : Prop := t.hs.memStatus = !t.hs.pageFault

/-- A search without a leaf sets one flag. At the end of the levels `mem_status` is clear,
    since the last PTE has been read. -/
theorem walkPath_none_oneFlag {memStatus : Bool} {n : Nat} {a : BitVec 64} {s t : Sys δ}
    (hfault : s.hs.pageFault = false) (hn : n = 0 → s.hs.memStatus = false)
    (h : walkPath env va memStatus n a s = (none, t)) : OneFlag t := by
  induction n generalizing a s with
  | zero =>
    cases h
    exact hn rfl
  | succ i ih =>
    have hflags := memFetch_flags env .u64 (s.setMemStatus memStatus) (pteAddrAt a va i)
    simp only [walkPath] at h
    generalize memFetch env .u64 (s.setMemStatus memStatus) (pteAddrAt a va i) = r at h hflags
    have hpf : r.2.hs.pageFault = false := hflags.2.trans hfault
    -- a PTE that PMP refuses sets `mem_status`, every other exit `page_fault`
    by_cases hm : r.2.hs.memStatus = true
    · rw [if_pos hm] at h
      cases h
      exact hm.trans (hpf ▸ rfl)
    · have hm' := Bool.eq_false_iff.mpr hm
      rw [if_neg hm] at h
      by_cases hv : pteInvalid r.1 = true
      · rw [if_pos hv] at h
        cases h
        exact hm'
      · rw [if_neg hv] at h
        by_cases hp : r.1 &&& 0b1110 = 0
        · rw [if_pos hp] at h
          exact ih hpf (fun _ => hm') h
        · rw [if_neg hp] at h
          cases h

/-- A walk translates with both flags clear, or fails: it returns 0 with one flag set. -/
inductive WalkResult (s : Sys δ) (r : BitVec 64 × Sys δ) : Prop
  | translated (hmem : r.2.hs.memStatus = false) (hfault : r.2.hs.pageFault = false)
  | failed (hzero : r.1 = 0) (hflag : OneFlag r.2) (htrace : OnlyFlags s r.2)

/-- A walk that ends at a leaf translates, or fails without a trace. -/
theorem walkLeaf_result {s t : Sys δ} {isWrite memStatus : Bool} {l : Leaf}
    (hfault : t.hs.pageFault = false) (hmem : t.hs.memStatus = false) (hs : OnlyFlags s t) :
    WalkResult s (walkLeaf env va isWrite memStatus l.level l.pteAddr l.pte t) := by
  have hcases := walkLeaf_cases env va t isWrite memStatus l
  have hstore := memStore_flags env .u64 t l.pteAddr (pteTouched l.pte isWrite)
  generalize walkLeaf env va isWrite memStatus l.level l.pteAddr l.pte t = r at hcases
  cases hcases with
  | fault => exact .failed rfl hmem (hs.setPageFault true)
  | refused _ _ hm =>
    -- a refused store has only set the flag
    have hrefused : memStore env .u64 t l.pteAddr (pteTouched l.pte isWrite) = t.setMemStatus true :=
      memStore_refused _ (hstore.1.symm.trans hm)
    refine .failed rfl ?_ ?_
    · exact hm.trans (by rw [hstore.2, hfault]; rfl)
    · exact hrefused ▸ hs.setMemStatus true
  | untouched => exact .translated rfl hfault
  | touched _ _ _ ht => exact .translated rfl (by rw [ht]; exact hstore.2.trans hfault)

/-- Whatever `satp` says and whatever the tables hold, a failed walk leaves nothing but the
    one flag that tells the fault. -/
theorem walk_failure_traceless (s : Sys δ) (hfault : s.hs.pageFault = false) (isWrite : Bool) :
    WalkResult s (pageTableWalk env s va isWrite) := by
  by_cases hmode : satpLevels s.hs.csr.satp = 0
  · unfold pageTableWalk
    rw [hmode]
    exact .translated rfl hfault
  · rcases hwalk : leafWalk env va s with ⟨_ | l, t⟩
    · rw [pageTableWalk_noLeaf env va isWrite hmode hwalk]
      exact .failed rfl (walkPath_none_oneFlag hfault (fun h0 => absurd h0 hmode) hwalk)
        (leafWalk_onlyFlags hwalk)
    · have hhs := (walkPath_leaf env va hwalk).2
      have hmem : t.hs.memStatus = false := congrArg HartState.memStatus hhs
      have hpf : t.hs.pageFault = false := (congrArg HartState.pageFault hhs).trans hfault
      rw [pageTableWalk_leaf env va isWrite hwalk]
      exact walkLeaf_result hpf hmem (leafWalk_onlyFlags hwalk)

end Walk

/-- A load from a page that is only executable. -/
theorem walk_failure_load :
    WalkResult ((gigapage 0x20000009).setMemStatus true)
      (pageTableWalk Env.inert ((gigapage 0x20000009).setMemStatus true) 0x80002000 false) :=
  walk_failure_traceless _ rfl false

end RvEmu
