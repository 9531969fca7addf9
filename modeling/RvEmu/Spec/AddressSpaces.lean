import RvEmu.Spec.TlbRun

/-!
# Switching address spaces

TLB entries carry no address space identifier, and a write of `satp` leaves them
alone. A translation is one by the tables of the current `satp` if `satp` has kept its
value since the last `SFENCE.VMA`; different identifiers do not replace the fence.
-/

namespace RvEmu

variable {δ : Type}

/-- `hs.satp = v` -/
def Sys.setSatp (s : Sys δ) (v : BitVec 64) : Sys δ :=
  s.setHs { s.hs with csr := { s.hs.csr with satp := v } }

/-- `satp.ASID` -/
def satpAsid (satp : BitVec 64) : BitVec 16 := satp.extractLsb' 44 16

/-- What happens in a run: an access below M-mode, a write of `satp`, `SFENCE.VMA`, or
    anything that leaves the TLB and `satp` alone. -/
inductive VmOp (δ : Type) where
  | fetch (w : Width) (va : BitVec 64)
  | store (w : Width) (va data : BitVec 64)
  | writeSatp (v : BitVec 64)
  | sfence
  | other (t : Sys δ)

namespace VmOp

variable (env : Env δ)

/-- The state after the operation. -/
def run (s : Sys δ) : VmOp δ → Sys δ
  | fetch w va => (virtMemFetchAt env w s va).2
  | store w va data => virtMemStoreAt env w s va data
  | writeSatp v => s.setSatp v
  | sfence => s.setTlb tlbClear
  | other t => (t.setTlb s.hs.tlb).setSatp s.hs.csr.satp

/-- The arguments of the translation that the operation makes. -/
def access (s : Sys δ) : VmOp δ → Option (BitVec 64 × BitVec 8 × Bool)
  | fetch _ va => some (va, if s.hs.memStatus then 0b001 else 0b100, false)
  | store _ va _ => some (va, 0b010, true)
  | _ => none

/-- The states that the operation passes through: after the lookup, after the
    translation, and at its end. -/
def passes (s : Sys δ) (op : VmOp δ) : List (Sys δ) :=
  match op.access s with
  | some (va, perms, isWrite) =>
    [(tlbFind env s va perms).2, (translate env s va perms isWrite).2, op.run env s]
  | none => [op.run env s]

/-- The value written to `satp`. -/
def written : VmOp δ → Option (BitVec 64)
  | writeSatp v => some v
  | _ => none

/-- Whether `satp` has its value since the last `SFENCE.VMA` after the operation, from
    whether it has before, where it is `satp`. -/
def fenced (satp : BitVec 64) (before : Bool) : VmOp δ → Bool
  | writeSatp v => before && v == satp
  | sfence => true
  | _ => before

end VmOp

section Run

variable (env : Env δ)

/-- The state after a run. -/
def runOps (s : Sys δ) : List (VmOp δ) → Sys δ
  | [] => s
  | op :: ops => runOps (op.run env s) ops

/-- All states of a run. -/
def runStates (s : Sys δ) : List (VmOp δ) → List (Sys δ)
  | [] => [s]
  | op :: ops => s :: (op.passes env s ++ runStates (op.run env s) ops)

/-- The values that `satp` takes in a run. -/
def satpValues (s : Sys δ) (ops : List (VmOp δ)) : List (BitVec 64) :=
  s.hs.csr.satp :: ops.filterMap VmOp.written

/-- The tables of no address space are modified, but for A and D. -/
def TablesKept (s : Sys δ) (ops : List (VmOp δ)) : Prop :=
  ∀ v ∈ satpValues s ops, ∀ t ∈ runStates env s ops, SameTables env (s.setSatp v) (t.setSatp v)

/-- Different root tables go with different identifiers. -/
def AsidsApart (values : List (BitVec 64)) : Prop :=
  ∀ v ∈ values, ∀ v' ∈ values, satpRoot v ≠ satpRoot v' → satpAsid v ≠ satpAsid v'

/-- Whether `satp` has its value since the last `SFENCE.VMA` after a run. -/
def satpFenced (satp : BitVec 64) (before : Bool) : List (VmOp δ) → Bool
  | [] => before
  | op :: ops => satpFenced (op.written.getD satp) (op.fenced satp before) ops

/-- The last access of a run is performed at `p`, where it is translated. -/
def LastAccessAt (s : Sys δ) (ops : List (VmOp δ)) (op : VmOp δ) (va p : BitVec 64) : Prop :=
  ∃ perms isWrite, op.access (runOps env s ops) = some (va, perms, isWrite) ∧
    (translate env (runOps env s ops) va perms isWrite).1 = some p

end Run

/-! ## What one operation preserves -/

section Step

variable {env : Env δ} {s : Sys δ}

/-- A translation, from lookup to walk. -/
theorem SinceClear.translate (h : SinceClear env s) {va : BitVec 64} {perms : BitVec 8}
    {isWrite : Bool} (hfind : SameTables env s (tlbFind env s va perms).2)
    (htrans : SameTables env s (translate env s va perms isWrite).2) :
    SinceClear env (RvEmu.translate env s va perms isWrite).2 := by
  have hfound := h.step (.find s va perms) hfind
  have hrest := hfind.symm.trans htrans
  simp only [RvEmu.translate] at hrest ⊢
  -- a miss is followed by a walk, a hit by nothing
  split
  · next hmiss =>
    rw [if_pos hmiss] at hrest
    split
    · next hfault =>
      rw [if_pos hfault] at hrest
      exact hfound.step (.walk _ va isWrite) hrest
    · next hok =>
      rw [if_neg hok] at hrest
      have hwalk := hrest.trans (u := (pageTableWalk env (tlbFind env s va perms).2 va isWrite).2)
        (sameTables_of_bus rfl rfl rfl)
      exact (hfound.step (.walk _ va isWrite) hwalk).setMemStatus _
  · exact hfound

/-- A fetch changes the TLB by its translation alone, … -/
theorem virtMemFetchAt_tlb (w : Width) (va : BitVec 64) :
    (virtMemFetchAt env w s va).2.hs.tlb =
      (RvEmu.translate env s va (if s.hs.memStatus then 0b001 else 0b100) false).2.hs.tlb := by
  unfold virtMemFetchAt
  split
  · next h => rw [h]
  · next h =>
    rw [h]
    exact memFetch_tlb env _ w _

/-- … and so does a store. -/
theorem virtMemStoreAt_tlb (w : Width) (va data : BitVec 64) :
    (virtMemStoreAt env w s va data).hs.tlb =
      (RvEmu.translate env s va 0b010 true).2.hs.tlb := by
  unfold virtMemStoreAt
  split
  · next h => rw [h]
  · next h =>
    rw [h]
    exact memStore_tlb env _ w _ data

/-- An operation that neither writes `satp` nor is a fence. -/
theorem SinceClear.op (h : SinceClear env s) (op : VmOp δ)
    (hkept : ∀ t ∈ op.passes env s, SameTables env s t) (hw : op.written = none) :
    SinceClear env (op.run env s) := by
  cases op with
  | fetch w va =>
    have hstates := List.forall_mem_cons.mp hkept
    have hrest := List.forall_mem_cons.mp hstates.2
    have hlast := (List.forall_mem_singleton.mp hrest.2)
    refine (h.translate hstates.1 hrest.1).step (.other _ _ (virtMemFetchAt_tlb w va)) ?_
    exact hrest.1.symm.trans hlast
  | store w va data =>
    have hstates := List.forall_mem_cons.mp hkept
    have hrest := List.forall_mem_cons.mp hstates.2
    have hlast := (List.forall_mem_singleton.mp hrest.2)
    refine (h.translate hstates.1 hrest.1).step (.other _ _ (virtMemStoreAt_tlb w va data)) ?_
    exact hrest.1.symm.trans hlast
  -- a write to `satp` is not a step of this run
  | writeSatp v => cases hw
  | sfence => exact .clear _ rfl
  | other t => exact h.step (.other s _ rfl) (List.forall_mem_singleton.mp hkept)

end Step

/-! ## Runs -/

section Run

variable {env : Env δ}

/-- `satp` holds what was written last. -/
theorem run_satp (op : VmOp δ) (s : Sys δ) :
    (op.run env s).hs.csr.satp = op.written.getD s.hs.csr.satp := by
  cases op with
  | fetch w va => exact (virtMemFetchAt_frame env s w va).satp
  | store w va data => exact (virtMemStoreAt_frame env s w va data).satp
  | writeSatp v => rfl
  | sfence => rfl
  | other t => rfl

/-- The states that an operation passes through keep `satp`, unless it writes it. -/
theorem passes_satp (op : VmOp δ) (s t : Sys δ) (ht : t ∈ op.passes env s) (hw : op.written = none) :
    t.hs.csr.satp = s.hs.csr.satp := by
  have hrun : (op.run env s).hs.csr.satp = s.hs.csr.satp := by rw [run_satp, hw]; rfl
  unfold VmOp.passes at ht
  split at ht
  · next va perms isWrite _ =>
    rcases List.mem_cons.mp ht with rfl | ht
    · exact (tlbFind_frame env s va perms).satp
    · rcases List.mem_cons.mp ht with rfl | ht
      · exact (translate_frame env s va isWrite perms).satp
      · rw [List.mem_singleton.mp ht]
        exact hrun
  · rw [List.mem_singleton.mp ht]
    exact hrun

/-- Between states with the same `satp`, of tables that are kept. -/
theorem sameTables_of_kept (s₀ : Sys δ) {s t : Sys δ}
    (hs : SameTables env (s₀.setSatp s.hs.csr.satp) (s.setSatp s.hs.csr.satp))
    (ht : SameTables env (s₀.setSatp s.hs.csr.satp) (t.setSatp s.hs.csr.satp))
    (hsatp : t.hs.csr.satp = s.hs.csr.satp) : SameTables env s t := by
  have h := hs.symm.trans ht
  have hself : t.setSatp s.hs.csr.satp = t := by rw [← hsatp]; rfl
  rw [hself] at h
  exact h

/-- What one operation of the run preserves. -/
theorem sinceClear_run {s : Sys δ} {op : VmOp δ} {before : Bool}
    (hkept : op.written = none → ∀ t ∈ op.passes env s, SameTables env s t)
    (hs : before = true → SinceClear env s)
    (hfenced : op.fenced s.hs.csr.satp before = true) : SinceClear env (op.run env s) := by
  cases op with
  | fetch w va => exact (hs hfenced).op _ (hkept rfl) rfl
  | store w va data => exact (hs hfenced).op _ (hkept rfl) rfl
  | writeSatp v =>
    obtain ⟨hbefore, hv⟩ := Bool.and_eq_true_iff.mp hfenced
    obtain rfl := eq_of_beq hv
    exact hs hbefore
  | sfence => exact .clear _ rfl
  | other t => exact (hs hfenced).op _ (hkept rfl) rfl

/-- The values of `satp` from the second step on are among all of them. -/
theorem satpValues_cons (op : VmOp δ) (ops : List (VmOp δ)) (s : Sys δ) (v : BitVec 64)
    (hv : v ∈ satpValues (op.run env s) ops) : v ∈ satpValues s (op :: ops) := by
  rw [satpValues, run_satp] at hv
  unfold satpValues
  cases hw : op.written with
  | none =>
    rw [hw] at hv
    rw [List.filterMap_cons_none hw]
    exact hv
  | some v' =>
    rw [hw] at hv
    rw [List.filterMap_cons_some hw]
    exact List.mem_cons_of_mem _ hv

/-- The last state is one of the run, … -/
theorem runStates_last (ops : List (VmOp δ)) (s : Sys δ) :
    runOps env s ops ∈ runStates env s ops := by
  induction ops generalizing s with
  | nil => exact List.mem_cons_self
  | cons op ops ih => exact List.mem_cons_of_mem _ (List.mem_append_right _ (ih (op.run env s)))

/-- What the whole run preserves. -/
theorem sinceClear_runOps {s₀ : Sys δ} {values : List (BitVec 64)} (ops : List (VmOp δ))
    (s : Sys δ) (before : Bool) (hvalues : ∀ v ∈ satpValues s ops, v ∈ values)
    (hkept : ∀ v ∈ values, ∀ t ∈ runStates env s ops, SameTables env (s₀.setSatp v) (t.setSatp v))
    (hs : before = true → SinceClear env s)
    (hfenced : satpFenced s.hs.csr.satp before ops = true) : SinceClear env (runOps env s ops) := by
  -- induction on the operations; `before` says whether a fence has come since `satp` changed
  induction ops generalizing s before with
  | nil => exact hs hfenced
  | cons op ops ih =>
    have hcurrent : s.hs.csr.satp ∈ values := hvalues _ List.mem_cons_self
    -- the passes of an operation that keeps `satp` keep the tables it points to
    have htables : op.written = none → ∀ t ∈ op.passes env s, SameTables env s t := by
      intro hw t ht
      refine sameTables_of_kept s₀ (hkept _ hcurrent s List.mem_cons_self) ?_
        (passes_satp op s t ht hw)
      exact hkept _ hcurrent t (List.mem_cons_of_mem _ (List.mem_append_left _ ht))
    refine ih (op.run env s) (op.fenced s.hs.csr.satp before)
      (fun v hv => hvalues v (satpValues_cons op ops s v hv))
      (fun v hv t ht => hkept v hv t (List.mem_cons_of_mem _ (List.mem_append_right _ ht)))
      (sinceClear_run htables hs) ?_
    rw [run_satp]
    exact hfenced

/-- … and its `satp` one of the values. -/
theorem runOps_satp_mem (ops : List (VmOp δ)) (s : Sys δ) :
    (runOps env s ops).hs.csr.satp ∈ satpValues s ops := by
  induction ops generalizing s with
  | nil => exact List.mem_cons_self
  | cons op ops ih => exact satpValues_cons op ops s _ (ih (op.run env s))

/-- The states of a run and of the operation after it. -/
theorem mem_runStates_append (ops : List (VmOp δ)) (op : VmOp δ) (s t : Sys δ)
    (ht : t ∈ runStates env s ops ∨ t ∈ op.passes env (runOps env s ops)) :
    t ∈ runStates env s (ops ++ [op]) := by
  induction ops generalizing s with
  | nil =>
    rcases ht with ht | ht
    · rw [List.mem_singleton.mp ht]
      exact List.mem_cons_self
    · exact List.mem_cons_of_mem _ (List.mem_append_left _ ht)
  | cons op' ops ih =>
    rcases ht with ht | ht
    · rcases List.mem_cons.mp ht with rfl | ht
      · exact List.mem_cons_self
      · refine List.mem_cons_of_mem _ (List.mem_append.mpr ?_)
        exact (List.mem_append.mp ht).imp_right fun ht => ih _ (.inl ht)
    · exact List.mem_cons_of_mem _ (List.mem_append_right _ (ih _ (.inr ht)))

/-- An access whose `satp` has its value since the last `SFENCE.VMA` is performed at the
    address that the tables of that `satp` give. -/
theorem access_current {s : Sys δ} {ops : List (VmOp δ)} {op : VmOp δ} {va p : BitVec 64}
    (hclear : s.hs.tlb = tlbClear) (hkept : TablesKept env s (ops ++ [op]))
    (hfenced : satpFenced s.hs.csr.satp true ops = true)
    (haccess : LastAccessAt env s ops op va p) :
    tableAddress env va (runOps env s ops) = some p := by
  obtain ⟨perms, isWrite, hop, htrans⟩ := haccess
  have hvalues : ∀ v ∈ satpValues s ops, v ∈ satpValues s (ops ++ [op]) := by
    intro v hv
    rw [satpValues, List.filterMap_append, ← List.cons_append]
    exact List.mem_append_left _ hv
  -- the run up to the access leaves only current entries
  have hsince : SinceClear env (runOps env s ops) :=
    sinceClear_runOps ops s true hvalues
      (fun v hv t ht => hkept v hv t (mem_runStates_append ops op s t (.inl ht)))
      (fun _ => .clear s hclear) hfenced
  refine hsince.tlbOk.translate ?_ htrans
  have hcurrent := hvalues _ (@runOps_satp_mem δ env ops s)
  have hfind : (tlbFind env (runOps env s ops) va perms).2 ∈ op.passes env (runOps env s ops) := by
    rw [VmOp.passes, hop]
    exact List.mem_cons_self
  -- the lookup of the access itself may write A and D
  refine sameTables_of_kept s ?_ ?_ (tlbFind_frame env _ va perms).satp
  · exact hkept _ hcurrent _ (mem_runStates_append ops op s _ (.inl (runStates_last ops s)))
  · exact hkept _ hcurrent _ (mem_runStates_append ops op s _ (.inr hfind))

end Run

/-! ## A switch without a fence -/

/-- A run that leaves RAM alone keeps the page tables. -/
theorem tablesKept_of_mainMem {env : Env Unit} {s : Sys Unit} {ops : List (VmOp Unit)}
    (h : ∀ t ∈ runStates env s ops, t.bus.mainMem = s.bus.mainMem) : TablesKept env s ops :=
  fun _ _ t ht => sameTables_of_bus rfl (h t ht) rfl

/-- An access whose PTEs have A set already. -/
theorem fetch_passes_mainMem (env : Env δ) (s : Sys δ) (w : Width) (va : BitVec 64)
    (perms : BitVec 8) (hperms : perms = if s.hs.memStatus then 0b001 else 0b100)
    (hread : ¬ HitOverwrites env va perms s)
    (hfind : ∀ a, tlbUsed va perms s.hs = some a →
      loadLe s.bus.mainMem a 8 ||| 0x40 = loadLe s.bus.mainMem a 8)
    (hwalk : (tlbFind env s va perms).1 = 0 →
      ∀ a, walkUsed env va (tlbFind env s va perms).2 = some a →
        loadLe s.bus.mainMem a 8 ||| 0x40 = loadLe s.bus.mainMem a 8) :
    ∀ t ∈ (VmOp.fetch w va).passes env s, t.bus.mainMem = s.bus.mainMem := by
  have hwrite : (perms &&& 0b010 != 0) = false := by
    rw [hperms]
    cases s.hs.memStatus <;> decide
  -- A is set in the PTE that a hit writes back
  have hfound : (tlbFind env s va perms).2.bus.mainMem = s.bus.mainMem := by
    refine ((tlbFind_keepsRam_iff env s va perms).mpr hread).eq_of_set fun a ha => ?_
    rw [hwrite]
    exact hfind a ha
  -- and in the one that the walk after a miss writes
  have hwalked (hmiss : (tlbFind env s va perms).1 = 0) :
      (pageTableWalk env (tlbFind env s va perms).2 va false).2.bus.mainMem = s.bus.mainMem := by
    refine ((pageTableWalk_keepsRam env va false _).eq_of_set fun a ha => ?_).trans hfound
    rw [hfound]
    exact hwalk hmiss a ha
  have htrans : (translate env s va perms false).2.bus.mainMem = s.bus.mainMem := by
    simp only [translate]
    split
    · next hmiss =>
      split
      · exact hwalked hmiss
      · exact hwalked hmiss
    · exact hfound
  have hrun : (virtMemFetchAt env w s va).2.bus.mainMem = s.bus.mainMem := by
    unfold virtMemFetchAt
    rw [← hperms]
    split
    · next h =>
      rw [h] at htrans
      exact htrans
    · next h =>
      rw [h] at htrans
      exact (memFetch_mainMem env w _ _).trans htrans
  intro t ht
  simp only [VmOp.passes, VmOp.access, ← hperms, List.mem_cons, List.not_mem_nil, or_false] at ht
  rcases ht with rfl | rfl | rfl
  · exact hfound
  · exact htrans
  · exact hrun

/-- An access that finds no entry, and walks to a PTE with A set. -/
theorem miss_passes_mainMem (env : Env δ) {s : Sys δ} {w : Width} {va a : BitVec 64}
    {perms : BitVec 8} (hperms : perms = if s.hs.memStatus then 0b001 else 0b100)
    (hmiss : tlbUsed va perms s.hs = none)
    (hwalk : walkUsed env va (tlbFind env s va perms).2 = some a)
    (hset : loadLe s.bus.mainMem a 8 ||| 0x40 = loadLe s.bus.mainMem a 8) :
    ∀ t ∈ (VmOp.fetch w va).passes env s, t.bus.mainMem = s.bus.mainMem := by
  refine fetch_passes_mainMem env s w va perms hperms (fun ⟨b, hb, _⟩ => ?_) (fun b hb => ?_)
    fun _ b hb => ?_
  · rw [hmiss] at hb
    cases hb
  · rw [hmiss] at hb
    cases hb
  · rw [← Option.some.inj (hwalk.symm.trans hb)]
    exact hset

/-- A write of `satp` leaves RAM alone. -/
theorem writeSatp_passes_mainMem {env : Env δ} {s : Sys δ} {v : BitVec 64} :
    ∀ t ∈ (VmOp.writeSatp v).passes env s, t.bus.mainMem = s.bus.mainMem := by
  intro t ht
  rw [List.mem_singleton.mp ht]
  rfl

/-- A fence leaves RAM alone. -/
theorem sfence_passes_mainMem {env : Env δ} {s : Sys δ} :
    ∀ t ∈ VmOp.sfence.passes env s, t.bus.mainMem = s.bus.mainMem := by
  intro t ht
  rw [List.mem_singleton.mp ht]
  rfl

/-- RAM is left alone step by step. -/
theorem runStates_cons_mainMem {env : Env δ} {s : Sys δ} {op : VmOp δ} {ops : List (VmOp δ)}
    (hop : ∀ t ∈ op.passes env s, t.bus.mainMem = s.bus.mainMem)
    (hops : ∀ t ∈ runStates env (op.run env s) ops, t.bus.mainMem = (op.run env s).bus.mainMem) :
    ∀ t ∈ runStates env s (op :: ops), t.bus.mainMem = s.bus.mainMem := by
  -- the last pass of an operation is the state that it leaves
  have hrun : op.run env s ∈ op.passes env s := by
    unfold VmOp.passes
    split
    · exact List.mem_cons_of_mem _ (List.mem_cons_of_mem _ List.mem_cons_self)
    · exact List.mem_cons_self
  intro t ht
  rcases List.mem_cons.mp ht with rfl | ht
  · rfl
  · rcases List.mem_append.mp ht with ht | ht
    · exact hop t ht
    · exact (hops t ht).trans (hop _ hrun)

/-- Two address spaces with different ASIDs. -/
theorem asidsApart_pair {a b : BitVec 64} (h : satpAsid a ≠ satpAsid b) : AsidsApart [a, b] := by
  intro v hv v' hv' hne
  simp only [List.mem_cons, List.not_mem_nil, or_false] at hv hv'
  rcases hv with rfl | rfl <;> rcases hv' with rfl | rfl
  · exact absurd rfl hne
  · exact h
  · exact h.symm
  · exact absurd rfl hne

/-- The second address space: another root table, with another identifier. -/
private def secondSatp : BitVec 64 := 0x8000100000080003

/-- The first address space, about to load; the second one maps nothing. -/
private def firstSpace : Sys Unit := (gigapage 0x200000CF).setMemStatus true

/-- Both address spaces, which map the gigapage at 0x80000000 to different places; about to
    load. -/
private def bothSpaces : Sys Unit :=
  (mapped fun a => if a = 0x80001010 then 0x200000CF else if a = 0x80003010 then 0x300000CF
    else 0).setMemStatus true

/-- A load in the first address space. -/
private theorem load_passes {s : Sys Unit} (hs : s = firstSpace ∨ s = bothSpaces) :
    ∀ t ∈ (VmOp.fetch .u64 0x80002000).passes Env.inert s, t.bus.mainMem = s.bus.mainMem := by
  have hmiss : tlbUsed 0x80002000 0b001 s.hs = none := by
    rcases hs with rfl | rfl <;> decide +kernel
  have hwalk : walkUsed Env.inert 0x80002000 (tlbFind Env.inert s 0x80002000 0b001).2 =
      some 0x80001010 := by
    rcases hs with rfl | rfl <;> decide +kernel
  have hset : loadLe s.bus.mainMem 0x80001010 8 ||| 0x40 = loadLe s.bus.mainMem 0x80001010 8 := by
    rcases hs with rfl | rfl <;> decide +kernel
  have hperms : 0b001 = if s.hs.memStatus then (0b001 : BitVec 8) else 0b100 := by
    rcases hs with rfl | rfl <;> rfl
  exact miss_passes_mainMem Env.inert hperms hmiss hwalk hset

/-- A load, and a switch to the second address space with a fence behind it. -/
private def fencedSwitch : List (VmOp Unit) :=
  [.fetch .u64 0x80002000, .writeSatp secondSatp, .sfence]

/-- The page tables of the two runs stay: of that with a fence … -/
private theorem tablesKept_fencedSwitch :
    TablesKept Env.inert bothSpaces (fencedSwitch ++ [.fetch .u64 0x80002000]) := by
  -- the fence makes the fetch walk through the tables of the second address space
  have hmiss : tlbUsed 0x80002000 0b100 (runOps Env.inert bothSpaces fencedSwitch).hs = none := by
    decide +kernel
  have hwalk : walkUsed Env.inert 0x80002000
      (tlbFind Env.inert (runOps Env.inert bothSpaces fencedSwitch) 0x80002000 0b100).2 =
      some 0x80003010 := by decide +kernel
  have hset : loadLe (runOps Env.inert bothSpaces fencedSwitch).bus.mainMem 0x80003010 8 ||| 0x40 =
      loadLe (runOps Env.inert bothSpaces fencedSwitch).bus.mainMem 0x80003010 8 := by
    decide +kernel
  have hperms : 0b100 = if (runOps Env.inert bothSpaces fencedSwitch).hs.memStatus then
      (0b001 : BitVec 8) else 0b100 := by decide +kernel
  have hfetch := @miss_passes_mainMem Unit Env.inert _ .u64 _ _ _ hperms hmiss hwalk hset
  refine tablesKept_of_mainMem (runStates_cons_mainMem (load_passes (.inr rfl)) ?_)
  refine runStates_cons_mainMem writeSatp_passes_mainMem (runStates_cons_mainMem
    sfence_passes_mainMem (runStates_cons_mainMem hfetch ?_))
  exact List.forall_mem_singleton.mpr rfl

/-- A fetch after a switch and a fence, at the address of the second address space. -/
theorem access_current_fenced :
    tableAddress Env.inert 0x80002000 (runOps Env.inert bothSpaces fencedSwitch) =
      some 0xC0002000 := by
  have haccess : LastAccessAt Env.inert bothSpaces fencedSwitch (.fetch .u64 0x80002000)
      0x80002000 0xC0002000 := ⟨0b100, false, by decide +kernel, by decide +kernel⟩
  exact access_current rfl tablesKept_fencedSwitch (by decide) haccess

/-- A load, and a switch to the second address space without a fence. -/
private def unfencedSwitch : List (VmOp Unit) :=
  [.fetch .u64 0x80002000, .writeSatp secondSatp]

/-- … and of that without. -/
private theorem tablesKept_unfencedSwitch :
    TablesKept Env.inert firstSpace (unfencedSwitch ++ [.fetch .u64 0x80002000]) := by
  -- the fetch hits the entry of the load, and uses the PTE at 0x80001010 as well
  have hhit : tlbUsed 0x80002000 0b100 (runOps Env.inert firstSpace unfencedSwitch).hs =
      some 0x80001010 := by decide +kernel
  have hread : pmpRefusesFetch .u64 (runOps Env.inert firstSpace unfencedSwitch).hs 0x80001010 =
      false := by decide +kernel
  have hset : loadLe (runOps Env.inert firstSpace unfencedSwitch).bus.mainMem 0x80001010 8 ||| 0x40 =
      loadLe (runOps Env.inert firstSpace unfencedSwitch).bus.mainMem 0x80001010 8 := by
    decide +kernel
  have hperms : 0b100 = if (runOps Env.inert firstSpace unfencedSwitch).hs.memStatus then
      (0b001 : BitVec 8) else 0b100 := by decide +kernel
  have hfound : (tlbFind Env.inert (runOps Env.inert firstSpace unfencedSwitch) 0x80002000
      0b100).1 ≠ 0 := by decide +kernel
  have hfetch := fetch_passes_mainMem Env.inert (runOps Env.inert firstSpace unfencedSwitch) .u64
    0x80002000 0b100 hperms ?_ ?_ (fun hmiss => absurd hmiss hfound)
  · refine tablesKept_of_mainMem (runStates_cons_mainMem (load_passes (.inl rfl)) ?_)
    refine runStates_cons_mainMem writeSatp_passes_mainMem (runStates_cons_mainMem hfetch ?_)
    exact List.forall_mem_singleton.mpr rfl
  · rintro ⟨a, ha, ho⟩
    obtain rfl := Option.some.inj (hhit.symm.trans ha)
    exact Bool.noConfusion (hread.symm.trans ho.readRefused)
  · intro a ha
    obtain rfl := Option.some.inj (hhit.symm.trans ha)
    exact hset

/-- A fetch in an address space with an identifier of its own that does not map the
    address. -/
theorem access_stale_space :
    ¬ ∀ (s : Sys Unit) ops op va p, s.hs.tlb = tlbClear →
      TablesKept Env.inert s (ops ++ [op]) → AsidsApart (satpValues s (ops ++ [op])) →
      LastAccessAt Env.inert s ops op va p →
      tableAddress Env.inert va (runOps Env.inert s ops) = some p := by
  intro h
  have hapart : AsidsApart (satpValues firstSpace (unfencedSwitch ++ [.fetch .u64 0x80002000])) :=
    asidsApart_pair (by decide +kernel)
  have haddr := h firstSpace unfencedSwitch (.fetch .u64 0x80002000) 0x80002000 0x80002000
    rfl tablesKept_unfencedSwitch hapart ⟨0b100, false, by decide +kernel, by decide +kernel⟩
  have hnone : tableAddress Env.inert 0x80002000 (runOps Env.inert firstSpace unfencedSwitch) =
      none := by decide +kernel
  rw [hnone] at haddr
  cases haddr

end RvEmu
