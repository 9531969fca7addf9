import RvEmu.Spec.Walk

/-!
# Page permissions

What `page_table_walk` demands of the leaf. MXR is meant to let loads read pages
that are only executable; the walk applies it to instruction fetches instead, which
it lets execute pages that are only readable.
-/

namespace RvEmu

variable {δ : Type}

/-- The kinds of access; `page_table_walk` gets them as `iswrite` and `mem_status`. -/
inductive Access where
  | load | store | fetch
  deriving DecidableEq, Repr

/-- The access that the two flags stand for. -/
def Access.ofFlags (isWrite memStatus : Bool) : Access :=
  if isWrite then .store else if memStatus then .load else .fetch

/-- R of a PTE. -/
def Leaf.readable (l : Leaf) : Bool := l.pte.getLsbD 1

/-- W of a PTE. -/
def Leaf.writable (l : Leaf) : Bool := l.pte.getLsbD 2

/-- X of a PTE. -/
def Leaf.executable (l : Leaf) : Bool := l.pte.getLsbD 3

/-- `mstatus.MXR` -/
def HartState.mxr (hs : HartState) : Bool := hs.csr.mstatus.getLsbD 19

/-- The U bit suits the mode: user pages from S-mode need SUM, and are never
    executable there. -/
def Leaf.modeOk (l : Leaf) (hs : HartState) (k : Access) : Bool :=
  if l.pte.getLsbD 4 then hs.privmode == 0 || (hs.csr.mstatus.getLsbD 18 && k != .fetch)
  else hs.privmode != 0

/-- A superpage is aligned. -/
def Leaf.aligned (l : Leaf) : Bool :=
  l.level == 0 || ptePpn l.pte &&& ~~~pageMask (9 * l.level + 12) == 0

/-- The permissions that an access needs by the privileged architecture. -/
def Leaf.permits (l : Leaf) (hs : HartState) : Access → Bool
  | .load => l.readable || (l.executable && hs.mxr)
  | .store => l.writable
  | .fetch => l.executable

/-- The permissions that the walk tests. -/
def Leaf.tested (l : Leaf) (hs : HartState) : Access → Bool
  | .load => l.readable
  | .store => l.writable
  | .fetch => l.executable || (hs.mxr && l.readable)

/-- The test of R, W and X, … -/
theorem tested_eq (l : Leaf) (hs : HartState) (isWrite memStatus : Bool) :
    (if isWrite then !l.pte.getLsbD 2
     else (memStatus && !l.pte.getLsbD 1) ||
       (!memStatus && !(l.pte.getLsbD 3 || (hs.csr.mstatus.getLsbD 19 && l.pte.getLsbD 1)))) =
      !l.tested hs (.ofFlags isWrite memStatus) := by
  cases isWrite
  · cases memStatus
    · exact Bool.false_or _
    · exact Bool.or_false _
  · rfl

/-- … that of U … -/
theorem modeOk_eq (l : Leaf) (hs : HartState) (isWrite memStatus : Bool) :
    (if l.pte.getLsbD 4 then
       hs.privmode ≥ 1 && (!hs.csr.mstatus.getLsbD 18 || (!memStatus && !isWrite))
     else hs.privmode == 0) = !l.modeOk hs (.ofFlags isWrite memStatus) := by
  have hpriv : decide (hs.privmode ≥ 1) = !(hs.privmode == 0) := by
    generalize hs.privmode = p
    revert p
    decide
  have hfetch : (Access.ofFlags isWrite memStatus != .fetch) = !(!memStatus && !isWrite) := by
    revert isWrite memStatus
    decide
  unfold Leaf.modeOk
  cases l.pte.getLsbD 4
  · exact (Bool.not_not _).symm
  · simp only [hpriv, hfetch, ↓reduceIte, Bool.not_or, Bool.not_and, Bool.not_not]

/-- … and that of the alignment. -/
theorem aligned_eq (l : Leaf) :
    (0 < l.level && (ptePpn l.pte &&& ~~~pageMask (9 * l.level + 12)) != 0) = !l.aligned := by
  unfold Leaf.aligned
  cases l.level
  · rfl
  · exact (Bool.true_and _).trans (congrArg _ (Bool.false_or _)).symm

/-- The checks on the leaf. -/
theorem leafFault_eq (l : Leaf) (hs : HartState) (isWrite memStatus : Bool) :
    leafFault hs isWrite memStatus l.level l.pte =
      !(l.tested hs (.ofFlags isWrite memStatus) &&
        l.modeOk hs (.ofFlags isWrite memStatus) && l.aligned) := by
  rw [leafFault, tested_eq, modeOk_eq, aligned_eq, Bool.not_and, Bool.not_and]

/-- A leaf that passes is aligned. -/
theorem aligned_of_passed {l : Leaf} {hs : HartState} {isWrite memStatus : Bool}
    (h : leafFault hs isWrite memStatus l.level l.pte = false) : l.aligned = true := by
  rw [leafFault_eq, Bool.not_eq_false', Bool.and_eq_true_iff] at h
  exact h.2

section Walk

variable (env : Env δ) (va : BitVec 64) (isWrite : Bool) (s : Sys δ)

/-- The update of A and D in the leaf is refused, which is an access fault. -/
def Leaf.updateRefused (l : Leaf) (hs : HartState) : Bool :=
  ~~~(l.pte ||| (0b11#64 <<< 6)) != 0 && pmpRefusesStore .u64 hs l.pteAddr

/-- The walk translates the address. -/
def WalkAccepts : Prop :=
  (pageTableWalk env s va isWrite).2.hs.pageFault = false ∧
    (pageTableWalk env s va isWrite).2.hs.memStatus = false

/-- A walk that reached a leaf. -/
theorem walkLeaf_flags (memStatus : Bool) {l : Leaf} (hrange : outOfRange env l.pteAddr = false)
    (hs : s.hs.memStatus = false) :
    (walkLeaf env va isWrite memStatus l.level l.pteAddr l.pte s).2.hs.pageFault =
        (leafFault s.hs isWrite memStatus l.level l.pte || s.hs.pageFault) ∧
      (walkLeaf env va isWrite memStatus l.level l.pteAddr l.pte s).2.hs.memStatus =
        (!leafFault s.hs isWrite memStatus l.level l.pte && l.updateRefused s.hs) := by
  have hstore := memStore_flags env .u64 s l.pteAddr (pteTouched l.pte isWrite)
  rw [hrange, Bool.false_or] at hstore
  -- the outcome of the leaf fixes both flags: a fault stops before the update is tried
  have hcases := walkLeaf_cases env va s isWrite memStatus l
  generalize walkLeaf env va isWrite memStatus l.level l.pteAddr l.pte s = r at hcases
  unfold Leaf.updateRefused
  cases hcases with
  | fault h =>
    rw [h]
    exact ⟨rfl, hs⟩
  | refused h htouch =>
    rw [h, htouch]
    exact ⟨hstore.2, hstore.1⟩
  | untouched h htouch =>
    rw [h, htouch]
    exact ⟨rfl, rfl⟩
  | touched _ h htouch ht hmem =>
    subst ht
    rw [h, htouch]
    exact ⟨hstore.2, hmem.symm.trans hstore.1⟩

/-- A search without a leaf ends in a fault. -/
theorem walkPath_none {memStatus : Bool} {n : Nat} {a : BitVec 64} {s t : Sys δ}
    (h : walkPath env va memStatus n a s = (none, t)) :
    t.hs.pageFault = true ∨ t.hs.memStatus = true := by
  induction n generalizing a s with
  | zero =>
    cases h
    exact .inl rfl
  | succ i ih =>
    simp only [walkPath] at h
    generalize memFetch env .u64 (s.setMemStatus memStatus) (pteAddrAt a va i) = r at h
    by_cases hm : r.2.hs.memStatus = true
    · rw [if_pos hm] at h
      cases h
      exact .inr hm
    · rw [if_neg hm] at h
      by_cases hv : pteInvalid r.1 = true
      · rw [if_pos hv] at h
        cases h
        exact .inl rfl
      · rw [if_neg hv] at h
        by_cases hn : r.1 &&& 0b1110 = 0
        · rw [if_pos hn] at h
          exact ih h
        · rw [if_neg hn] at h
          cases h

variable {env va isWrite s}

/-- The kind of access that a walk is made for. -/
def accessOf (isWrite : Bool) (s : Sys δ) : Access := .ofFlags isWrite s.hs.memStatus

/-- A walk that reaches a leaf. -/
theorem pageTableWalk_flags {l : Leaf} (hl : (leafWalk env va s).1 = some l) :
    (pageTableWalk env s va isWrite).2.hs.pageFault =
        (leafFault s.hs isWrite s.hs.memStatus l.level l.pte || s.hs.pageFault) ∧
      (pageTableWalk env s va isWrite).2.hs.memStatus =
        (!leafFault s.hs isWrite s.hs.memStatus l.level l.pte && l.updateRefused s.hs) := by
  have hwalk : leafWalk env va s = (some l, (leafWalk env va s).2) := Prod.ext hl rfl
  obtain ⟨hread, hhs⟩ := walkPath_leaf env va hwalk
  have hflags := walkLeaf_flags env va isWrite (leafWalk env va s).2 s.hs.memStatus
    hread.inRange hread.memStatus
  rw [pageTableWalk_leaf env va isWrite hwalk]
  rw [hhs] at hflags
  exact hflags

/-- The leaf passes the tests of the walk. -/
structure LeafPasses (isWrite : Bool) (s : Sys δ) (l : Leaf) : Prop where
  tested : l.tested s.hs (accessOf isWrite s) = true
  modeOk : l.modeOk s.hs (accessOf isWrite s) = true
  aligned : l.aligned = true

/-- All tests together. -/
theorem leafPasses_iff {l : Leaf} :
    LeafPasses isWrite s l ↔ leafFault s.hs isWrite s.hs.memStatus l.level l.pte = false := by
  rw [leafFault_eq, Bool.not_eq_false', Bool.and_eq_true_iff, Bool.and_eq_true_iff]
  exact ⟨fun h => ⟨⟨h.tested, h.modeOk⟩, h.aligned⟩, fun h => ⟨h.1.1, h.1.2, h.2⟩⟩

/-- A walk to a leaf raises no page fault if the leaf passes, … -/
theorem noPageFault_iff (hfault : s.hs.pageFault = false) {l : Leaf}
    (hl : (leafWalk env va s).1 = some l) :
    (pageTableWalk env s va isWrite).2.hs.pageFault = false ↔ LeafPasses isWrite s l := by
  rw [(pageTableWalk_flags hl).1, hfault, Bool.or_false, leafPasses_iff]

/-- … and accepts if its PTE can also be written back. -/
theorem walkAccepts_iff (hfault : s.hs.pageFault = false) {l : Leaf}
    (hl : (leafWalk env va s).1 = some l) :
    WalkAccepts env va isWrite s ↔ LeafPasses isWrite s l ∧ l.updateRefused s.hs = false := by
  unfold WalkAccepts
  rw [noPageFault_iff hfault hl]
  refine and_congr_right fun hpass => ?_
  rw [(pageTableWalk_flags hl).2, leafPasses_iff.mp hpass, Bool.not_false, Bool.true_and]

/-- Only a walk with a leaf translates. -/
theorem WalkAccepts.leaf (hmode : satpLevels s.hs.csr.satp ≠ 0)
    (h : WalkAccepts env va isWrite s) : ∃ l, (leafWalk env va s).1 = some l := by
  rcases hl : leafWalk env va s with ⟨_ | l, t⟩
  · obtain ⟨hfault, hmem⟩ := h
    rw [pageTableWalk_noLeaf env va isWrite hmode hl] at hfault hmem
    rcases walkPath_none env va hl with ht | ht
    · exact Bool.noConfusion (hfault.symm.trans ht)
    · exact Bool.noConfusion (hmem.symm.trans ht)
  · exact ⟨l, rfl⟩

/-- The walk translates only what the leaf permits, and it faults no load that the
    leaf permits, unless PMP refuses the update of A and D. -/
structure PermissionRules (env : Env δ) (va : BitVec 64) (isWrite : Bool) (s : Sys δ) : Prop where
  sound : WalkAccepts env va isWrite s →
    ∃ l, (leafWalk env va s).1 = some l ∧ l.permits s.hs (accessOf isWrite s) = true
  complete : accessOf isWrite s = .load → ∀ l, (leafWalk env va s).1 = some l →
    l.permits s.hs .load = true → l.modeOk s.hs .load = true → l.aligned = true →
    (pageTableWalk env s va isWrite).2.hs.pageFault = false ∧
      (l.updateRefused s.hs = false → WalkAccepts env va isWrite s)

/-- With MXR set, a load of an executable page that is not readable, or a fetch from a
    readable page that is not executable; the leaf passes the other checks. -/
structure MxrMisapplied (isWrite : Bool) (s : Sys δ) (l : Leaf) : Prop where
  mxr : s.hs.mxr = true
  modeOk : l.modeOk s.hs (accessOf isWrite s) = true
  aligned : l.aligned = true
  page : (accessOf isWrite s = .load ∧ l.executable = true ∧ l.readable = false) ∨
    (accessOf isWrite s = .fetch ∧ l.readable = true ∧ l.executable = false ∧
      l.updateRefused s.hs = false)

/-- The tests of the walk differ from the permissions on the misapplied pages alone. -/
theorem Leaf.permits_of_tested {l : Leaf} {hs : HartState} {k : Access}
    (h : l.tested hs k = true) (hk : k = .fetch → hs.mxr = true → l.readable = true →
      l.executable = true) : l.permits hs k = true := by
  cases k with
  | load => exact Bool.or_eq_true_iff.mpr (.inl h)
  | store => exact h
  | fetch =>
    rcases Bool.or_eq_true_iff.mp h with hx | hmr
    · exact hx
    · obtain ⟨hm, hr⟩ := Bool.and_eq_true_iff.mp hmr
      exact hk rfl hm hr

/-- The walk obeys the page permissions unless MXR is set and turns the tests of R and
    X around. `page_fault` is clear on entry: `handle_mem_error` clears what a walk set. -/
theorem permissionRules_iff (hmode : satpLevels s.hs.csr.satp ≠ 0)
    (hfault : s.hs.pageFault = false) :
    PermissionRules env va isWrite s ↔
      ¬ ∃ l, (leafWalk env va s).1 = some l ∧ MxrMisapplied isWrite s l := by
  constructor
  · rintro hrules ⟨l, hl, hm⟩
    rcases hm.page with ⟨hk, hx, hr⟩ | ⟨hk, hr, hx, hupdate⟩
    · -- the load is permitted by X, but R is tested
      have hpermits : l.permits s.hs .load = true := by
        rw [Leaf.permits, hx, hm.mxr]
        exact Bool.or_true _
      have hok := (hrules.complete hk l hl hpermits (hk ▸ hm.modeOk) hm.aligned).1
      have htested := ((noPageFault_iff hfault hl).mp hok).tested
      rw [hk, Leaf.tested, hr] at htested
      cases htested
    · -- the fetch is tested for R, but X is needed
      have htested : l.tested s.hs (accessOf isWrite s) = true := by
        rw [hk, Leaf.tested, hm.mxr, hr]
        exact Bool.or_true _
      obtain ⟨l', hl', hpermits⟩ := hrules.sound
        ((walkAccepts_iff hfault hl).mpr ⟨⟨htested, hm.modeOk, hm.aligned⟩, hupdate⟩)
      obtain rfl := Option.some.inj (hl.symm.trans hl')
      rw [hk, Leaf.permits, hx] at hpermits
      cases hpermits
  · intro hno
    constructor
    · intro haccepts
      obtain ⟨l, hl⟩ := haccepts.leaf hmode
      obtain ⟨hpass, hupdate⟩ := (walkAccepts_iff hfault hl).mp haccepts
      refine ⟨l, hl, Leaf.permits_of_tested hpass.tested fun hk hm hr => ?_⟩
      cases hx : l.executable with
      | true => rfl
      | false =>
        exact absurd ⟨l, hl, hm, hpass.modeOk, hpass.aligned, .inr ⟨hk, hr, hx, hupdate⟩⟩ hno
    · intro hk l hl hpermits hmodeOk haligned
      have hpass : LeafPasses isWrite s l := by
        refine ⟨?_, hk ▸ hmodeOk, haligned⟩
        rw [hk]
        rcases Bool.or_eq_true_iff.mp hpermits with hr | hxm
        · exact hr
        · obtain ⟨hx, hm⟩ := Bool.and_eq_true_iff.mp hxm
          cases hr : l.readable with
          | true => exact hr
          | false =>
            exact absurd ⟨l, hl, hm, hk ▸ hmodeOk, haligned, .inl ⟨hk, hx, hr⟩⟩ hno
      exact ⟨(noPageFault_iff hfault hl).mpr hpass,
        fun hupdate => (walkAccepts_iff hfault hl).mpr ⟨hpass, hupdate⟩⟩

end Walk

/-- S-mode under Sv39 with the root table at 0x80001000, RAM that holds `ptes` and is
    zero elsewhere, the reset `mstatus`, and PMP that permits everything. -/
def mapped (ptes : BitVec 64 → BitVec 64) : Sys Unit :=
  let mem := fun a : BitVec 64 => (ptes (a &&& ~~~7#64) >>> (8 * (a &&& 7#64).toNat)).setWidth 8
  let hs := resetState 0
  let pmp := { hs.pmp with
    pmpcfg := Function.update (fun _ => 0) 0 0b00011111
    pmpaddr := Function.update (fun _ => 0) 0 (BitVec.allOnes 64) }
  ⟨{ hs with
      privmode := 1, pmp := syncExpPmp Env.inert pmp
      csr := { hs.csr with satp := 0x8000000000080001 } },
    { Bus.inert with mainMem := mem }⟩

/-- One leaf, for the gigapage at 0x80000000. -/
def gigapage (pte : BitVec 64) : Sys Unit := mapped fun a => if a = 0x80001010 then pte else 0

/-- A page with all permissions. -/
theorem permissionRules_rwx : PermissionRules Env.inert 0x80002000 false (gigapage 0x2000000F) := by
  refine (permissionRules_iff (by decide) rfl).mpr fun ⟨l, hl, hm⟩ => ?_
  have hleaf : (leafWalk Env.inert 0x80002000 (gigapage 0x2000000F)).1 =
      some ⟨2, 0x80001010, 0x2000000F⟩ := by decide +kernel
  obtain rfl := Option.some.inj (hleaf.symm.trans hl)
  rcases hm.page with ⟨-, -, hr⟩ | ⟨-, -, hx, -⟩
  · exact absurd hr (by decide)
  · exact absurd hx (by decide)

/-- Under the reset `mstatus`, code is fetched from a page that is only readable. -/
theorem walk_executes_readable_page :
    ¬ ∀ (s : Sys Unit) va isWrite, satpLevels s.hs.csr.satp ≠ 0 → s.hs.pageFault = false →
      PermissionRules Env.inert va isWrite s := by
  intro h
  have hrules := h (gigapage 0x20000003) 0x80002000 false (by decide) rfl
  obtain ⟨l, hl, hpermits⟩ := hrules.sound ⟨by decide +kernel, by decide +kernel⟩
  have hleaf : (leafWalk Env.inert 0x80002000 (gigapage 0x20000003)).1 =
      some ⟨2, 0x80001010, 0x20000003⟩ := by decide +kernel
  obtain rfl := Option.some.inj (hleaf.symm.trans hl)
  have hrefused : (⟨2, 0x80001010, 0x20000003⟩ : Leaf).permits (gigapage 0x20000003).hs
      (accessOf false (gigapage 0x20000003)) = false := by decide +kernel
  exact Bool.noConfusion (hrefused.symm.trans hpermits)

end RvEmu
