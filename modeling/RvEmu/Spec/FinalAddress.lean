import RvEmu.Spec.FinalAccess

/-!
# Where an access goes

The physical address of an access to virtual memory, as the TLB, the page tables and the
mode have it, and RAM as the translation leaves it: unchanged but for A and D in the PTE
that it has used.
-/

namespace RvEmu

variable {δ : Type}

/-! ## The PTE that is used -/

section Marked

variable (env : Env δ) (isWrite : Bool) (a : BitVec 64) (s : Sys δ)

/-- The PTE at `a` as a translation sees it: one that it may not read counts as zero. -/
def usedPte : BitVec 64 :=
  if outOfRange env a || pmpRefusesFetch .u64 s.hs a then 0 else loadLe s.bus.mainMem a 8

/-- RAM with A, and for a write D, set in the PTE at `a`, where PMP permits it. A PTE that has
    every other bit set is left alone. -/
def markedRam : BitVec 64 → BitVec 8 :=
  if 0x80000000 ≤ a ∧ (~~~(usedPte env a s ||| (0b11#64 <<< 6)) != 0) = true ∧
      (outOfRange env a || pmpRefusesStore .u64 s.hs a) = false then
    storeLe s.bus.mainMem a (pteTouched (usedPte env a s) isWrite) 8
  else s.bus.mainMem

variable {env isWrite a s}

/-- A store of the touched PTE, where it is made at all. -/
theorem markedRam_eq {t : Sys δ} {pte : BitVec 64} (hmem : t.bus.mainMem = s.bus.mainMem)
    (hpmp : pmpRefusesStore .u64 t.hs a = pmpRefusesStore .u64 s.hs a)
    (hpte : 0x80000000 ≤ a → pte = usedPte env a s) :
    (if (~~~(pte ||| (0b11#64 <<< 6)) != 0) = true then
      (memStore env .u64 t a (pteTouched pte isWrite)).bus.mainMem else s.bus.mainMem) =
      markedRam env isWrite a s := by
  rw [memStore_pte, hmem, hpmp, markedRam]
  by_cases hram : 0x80000000 ≤ a
  · rw [hpte hram]
    by_cases htouch : (~~~(usedPte env a s ||| (0b11#64 <<< 6)) != 0) = true
    · simp only [htouch, hram, and_true, true_and, ↓reduceIte]
    · simp only [htouch, hram, false_and, and_false, Bool.false_eq_true, ↓reduceIte]
  · simp only [hram, and_false, false_and, ↓reduceIte, ite_self]

/-- A hit marks the PTE of its entry. -/
theorem tlbHit_marks (va : BitVec 64) (perms : BitVec 8) (i : Nat) (e : TLBEntry) :
    (tlbHit env s va perms i e).2.bus.mainMem =
      markedRam env (perms &&& 0b010 != 0) e.pteAddr s := by
  refine (tlbHit_mainMem env s va perms i e).trans (markedRam_eq ?_ ?_ fun hram => ?_)
  · exact memFetch_mainMem env .u64 s e.pteAddr
  · have hframe := memFetch_frame env s .u64 e.pteAddr
    exact pmpRefusesStore_congr hframe.pmp hframe.privmode
  · unfold usedPte
    split
    · next hrefused => rw [memFetch_refused hrefused]
    · next hok =>
      rw [memFetch_granted (Bool.eq_false_iff.mpr hok), phyMemFetch_ram hram]
      rfl

/-- The PTE of the leaf that a search finds is granted. -/
theorem walkPath_granted {memStatus : Bool} {va : BitVec 64} {n : Nat} {b : BitVec 64} {t : Sys δ}
    {l : Leaf} (h : walkPath env va memStatus n b s = (some l, t)) :
    (outOfRange env l.pteAddr ||
      pmpRefusesFetch .u64 { s.hs with memStatus := memStatus } l.pteAddr) = false := by
  induction n generalizing b s with
  | zero => cases h
  | succ i ih =>
    obtain ⟨hm, -, hround⟩ := walkPath_some env va h
    have hok := memFetch_ok hm
    rcases hround with ⟨-, hrest⟩ | ⟨-, rfl, -⟩
    · have hhs := (pteFetch_ok env hm).2.1
      have hgranted := ih hrest
      rw [hhs] at hgranted
      exact hgranted
    · exact hok

/-- A walk that translates marks the PTE of its leaf. -/
theorem pageTableWalk_marks {va : BitVec 64} {l : Leaf} (hl : (leafWalk env va s).1 = some l)
    (hpass : LeafPasses isWrite s l) :
    (pageTableWalk env s va isWrite).2.bus.mainMem = markedRam env isWrite l.pteAddr s := by
  have hwalk : leafWalk env va s = (some l, (leafWalk env va s).2) := Prod.ext hl rfl
  obtain ⟨hread, hhs⟩ := walkPath_leaf env va hwalk
  have hmem : (leafWalk env va s).2.bus.mainMem = s.bus.mainMem := walkPath_mainMem env va _ _ _ _
  have hgranted : (outOfRange env l.pteAddr || pmpRefusesFetch .u64 s.hs l.pteAddr) = false :=
    walkPath_granted hwalk
  have hno : leafFault (leafWalk env va s).2.hs isWrite s.hs.memStatus l.level l.pte = false := by
    rw [hhs]
    exact leafPasses_iff.mp hpass
  have hpmp : pmpRefusesStore .u64 (leafWalk env va s).2.hs l.pteAddr =
      pmpRefusesStore .u64 s.hs l.pteAddr := by
    exact pmpRefusesStore_congr (by rw [hhs]) (by rw [hhs])
  have hpte : 0x80000000 ≤ l.pteAddr → l.pte = usedPte env l.pteAddr s := by
    intro hram
    rw [usedPte, hgranted, if_neg Bool.false_ne_true]
    exact hread.pte hram
  refine Eq.trans ?_ (markedRam_eq hmem hpmp hpte)
  · rw [pageTableWalk_leaf env va isWrite hwalk, ← hmem]
    have hcases := walkLeaf_cases env va (leafWalk env va s).2 isWrite s.hs.memStatus l
    generalize walkLeaf env va isWrite s.hs.memStatus l.level l.pteAddr l.pte (leafWalk env va s).2
      = r at hcases
    cases hcases with
    | fault hfault => exact Bool.noConfusion (hno.symm.trans hfault)
    | refused _ htouch => rw [if_pos htouch]
    | untouched _ htouch =>
      rw [if_neg (by rw [htouch]; exact Bool.false_ne_true)]
      rfl
    | touched _ _ htouch ht =>
      rw [if_pos htouch, ← ht]
      rfl

end Marked

/-! ## The address and RAM -/

section Lands

variable (env : Env δ) (isWrite : Bool)

/-- RAM after a walk that translates. -/
def walkedRam (va : BitVec 64) (s : Sys δ) : BitVec 64 → BitVec 8 :=
  (leafWalk env va s).1.elim s.bus.mainMem fun l => markedRam env isWrite l.pteAddr s

/-- Where an access goes that is translated unless `skipped`, and the RAM that it finds there:
    to the address itself, to that of an entry, or to the one that the page tables give if no
    entry does. -/
inductive LandsAt (skipped : Bool) (s : Sys δ) (va : BitVec 64) :
    BitVec 64 → (BitVec 64 → BitVec 8) → Prop
  | untranslated (hskip : skipped = true) : LandsAt skipped s va va s.bus.mainMem
  | entry (i : Nat) (e : TLBEntry) (hskip : skipped = false)
    (he : tlbEntry (inEffectiveMode s).hs va (accessOf isWrite s).perms = some (i, e))
    (hok : hitRefused env (inEffectiveMode s) (accessOf isWrite s).perms e = false)
    (hne : e.address va i ≠ 0) :
    LandsAt skipped s va (e.address va i) (markedRam env isWrite e.pteAddr (inEffectiveMode s))
  | tables (p : BitVec 64) (hskip : skipped = false)
    (hno : NoHit env va (accessOf isWrite s).perms (inEffectiveMode s))
    (htables : TablesTranslate env va isWrite
      (tlbFind env (inEffectiveMode s) va (accessOf isWrite s).perms).2)
    (hp : tableAddress env va
      (tlbFind env (inEffectiveMode s) va (accessOf isWrite s).perms).2 = some p) :
    LandsAt skipped s va p
      (walkedRam env isWrite va (tlbFind env (inEffectiveMode s) va (accessOf isWrite s).perms).2)

/-- The translation of an access in the state `s`. -/
def accessTranslation (skipped : Bool) (s : Sys δ) (va : BitVec 64) :
    Option (BitVec 64) × Sys δ :=
  if skipped then (some va, s)
  else translate env (inEffectiveMode s) va (accessOf isWrite s).perms isWrite

variable {env isWrite} {s : Sys δ} {va : BitVec 64}

/-- A walk that accepts leaves RAM with its leaf marked. -/
theorem WalkAccepts.ram (h : WalkAccepts env va isWrite s) :
    (pageTableWalk env s va isWrite).2.bus.mainMem = walkedRam env isWrite va s := by
  unfold walkedRam
  rcases hl : (leafWalk env va s).1 with _ | l
  · exact pageTableWalk_none env va isWrite (Prod.ext hl rfl)
  · exact pageTableWalk_marks hl ((walkAccepts_iff h.pageFault hl).mp h).1

/-- Only a store asks for W. -/
theorem accessOf_perms_write : ((accessOf isWrite s).perms &&& 0b010 != 0) = isWrite := by
  unfold accessOf Access.ofFlags
  cases isWrite <;> cases s.hs.memStatus <;> rfl

variable {perms : BitVec 8}

/-- RAM after a translation by an entry. -/
theorem translate_entry_ram (hperms : (perms &&& 0b010 != 0) = isWrite) {i : Nat} {e : TLBEntry}
    (he : tlbEntry s.hs va perms = some (i, e)) (hok : hitRefused env s perms e = false)
    (hne : e.address va i ≠ 0) :
    (translate env s va perms isWrite).2.bus.mainMem = markedRam env isWrite e.pteAddr s := by
  have hhit : (tlbFind env s va perms).1 ≠ 0 := by
    rw [tlbFind_hit env he, tlbHit_fst, hok]
    exact hne
  rw [translate_of_hit hhit, tlbFind_hit env he]
  refine (tlbHit_marks va perms i e).trans ?_
  rw [hperms]

/-- RAM after a translation by the page tables. -/
theorem translate_tables_ram (hfault : s.hs.pageFault = false) (hno : NoHit env va perms s)
    (htables : TablesTranslate env va isWrite (tlbFind env s va perms).2) :
    (translate env s va perms isWrite).2.bus.mainMem =
      walkedRam env isWrite va (tlbFind env s va perms).2 := by
  by_cases hsatp : s.hs.csr.satp = 0
  · -- without translation there is no leaf
    have hleaf : (leafWalk env va s).1 = none := by
      unfold leafWalk
      rw [hsatp]
      rfl
    rw [tlbFind_bare env hsatp, walkedRam, hleaf]
    rcases translate_bare env hsatp va perms isWrite with h | ⟨-, -, h⟩ <;> rw [h]
    · rfl
    · rfl
  · have hmiss := (tlbFind_zero_iff hsatp).mpr hno
    have haccepts : WalkAccepts env va isWrite (tlbFind env s va perms).2 :=
      walkAccepts_iff_tables.mpr ⟨tlbFind_pageFault.trans hfault, htables⟩
    rw [← haccepts.ram]
    unfold translate
    dsimp only
    rw [if_pos hmiss, if_neg (by rw [haccepts.1, haccepts.2]; exact Bool.false_ne_true)]
    rfl

variable {skipped : Bool}

/-- An access goes where its translation says, in RAM as the translation leaves it. -/
theorem landsAt_iff (hfault : s.hs.pageFault = false) {p : BitVec 64} {m : BitVec 64 → BitVec 8} :
    LandsAt env isWrite skipped s va p m ↔
      (accessTranslation env isWrite skipped s va).1 = some p ∧
        (accessTranslation env isWrite skipped s va).2.bus.mainMem = m := by
  unfold accessTranslation
  cases skipped with
  | true =>
    constructor
    · intro h
      cases h with
      | untranslated => exact ⟨rfl, rfl⟩
      | entry _ _ h => cases h
      | tables _ h => cases h
    · rintro ⟨hp, rfl⟩
      obtain rfl := Option.some.inj hp
      exact .untranslated rfl
  | false =>
    have hbelow : (inEffectiveMode s).hs.pageFault = false := inEffectiveMode_pageFault.trans hfault
    rw [if_neg Bool.false_ne_true, translate_some_iff hbelow]
    constructor
    · intro h
      cases h with
      | untranslated h => cases h
      | entry i e _ he hok hne =>
        exact ⟨.inl ⟨i, e, he, hok, hne, rfl⟩,
          translate_entry_ram accessOf_perms_write he hok hne⟩
      | tables _ _ hno htables hp =>
        exact ⟨.inr ⟨hno, htables, hp⟩, translate_tables_ram hbelow hno htables⟩
    · rintro ⟨⟨i, e, he, hok, hne, rfl⟩ | ⟨hno, htables, hp⟩, rfl⟩
      · rw [translate_entry_ram accessOf_perms_write he hok hne]
        exact .entry i e rfl he hok hne
      · rw [translate_tables_ram hbelow hno htables]
        exact .tables p rfl hno htables hp

end Lands

/-! ## Loads and fetches -/

section Load

variable (env : Env δ) (w : Width) (s : Sys δ) (va : BitVec 64)

/-- Where `virt_mem_fetch` goes, and the RAM that it reads. -/
def FinalAddress : BitVec 64 → (BitVec 64 → BitVec 8) → Prop :=
  LandsAt env false (translationSkipped s) s va

/-- The hart as the final `mem_fetch` finds it: in the mode of the access, and with the flag of
    a load lost if an entry matched. -/
def finalHs : HartState :=
  if translationSkipped s then s.hs
  else { (inEffectiveMode s).hs with
    memStatus := s.hs.memStatus &&
      (tlbEntry (inEffectiveMode s).hs va (accessOf false s).perms).isNone }

/-- PMP and the memory map permit the access at `p`, where it goes. -/
structure Granted (p : BitVec 64) (m : BitVec 64 → BitVec 8) : Prop where
  address : FinalAddress env s va p m
  permitted : (outOfRange env p || pmpRefusesFetch w (finalHs s va) p) = false

/-- The word at `p` in RAM; a device is asked after the translation. -/
def finalWord (p : BitVec 64) (m : BitVec 64 → BitVec 8) : BitVec 64 :=
  if 0x80000000 ≤ p then loadLe m p w.bytes
  else (phyMemFetch env w (finalAccess env s va).2 p).1

variable {env w s va} {p : BitVec 64} {m : BitVec 64 → BitVec 8}

/-- The translation of a load or fetch, … -/
theorem finalAccess_eq :
    finalAccess env s va = accessTranslation env false (translationSkipped s) s va := by
  rw [finalAccess, accessTranslation, accessOf_perms_fetch]

/-- … where it leads, and the RAM that it leaves. -/
theorem finalAddress_iff (hfault : s.hs.pageFault = false) :
    FinalAddress env s va p m ↔
      (finalAccess env s va).1 = some p ∧ (finalAccess env s va).2.bus.mainMem = m := by
  rw [finalAccess_eq]
  exact landsAt_iff hfault

/-- The final access is checked in the mode and with the flag of `finalHs`. -/
theorem finalAccess_refuses (hp : (finalAccess env s va).1 = some p) (a : BitVec 64) :
    pmpRefusesFetch w (finalAccess env s va).2.hs a = pmpRefusesFetch w (finalHs s va) a := by
  cases hskip : translationSkipped s with
  | true => rw [finalAccess, finalHs, hskip, if_pos rfl, if_pos rfl]
  | false =>
    have hframe := translate_frame env (inEffectiveMode s) va false
      (if s.hs.memStatus then 0b001 else 0b100)
    have hkind : (finalAccess env s va).2.hs.memStatus = (finalHs s va).memStatus := by
      rw [finalAccess_translated hskip] at hp ⊢
      rw [translate_memStatus hp, finalHs, hskip, if_neg Bool.false_ne_true, accessOf_perms_fetch]
      rcases he : tlbEntry (inEffectiveMode s).hs va (if s.hs.memStatus then 0b001 else 0b100) with
        _ | ⟨i, e⟩
      · rw [tlbFind_miss env he, inEffectiveMode_memStatus]
        exact (Bool.and_true _).symm
      · rw [tlbFind_hit env he, tlbHit_memStatus]
        exact (Bool.and_false _).symm
    have hpmp : (finalAccess env s va).2.hs.pmp = (finalHs s va).pmp := by
      rw [finalAccess_translated hskip, finalHs, hskip]
      exact hframe.pmp
    have hpriv : (finalAccess env s va).2.hs.privmode = (finalHs s va).privmode := by
      rw [finalAccess_translated hskip, finalHs, hskip]
      exact hframe.privmode
    exact pmpRefusesFetch_congr hpmp hpriv hkind

/-- A load or fetch succeeds if it is granted somewhere. -/
theorem virtMemFetch_ok_granted (hfault : s.hs.pageFault = false) :
    AccessOk (virtMemFetch env w s va).2 ↔ ∃ p m, Granted env w s va p m := by
  rw [virtMemFetch_ok_iff]
  constructor
  · rintro ⟨-, p, hp, hok⟩
    rw [finalAccess_refuses hp] at hok
    exact ⟨p, _, (finalAddress_iff hfault).mpr ⟨hp, rfl⟩, hok⟩
  · rintro ⟨p, m, h⟩
    have hp := ((finalAddress_iff hfault).mp h.address).1
    refine ⟨hfault, p, hp, ?_⟩
    rw [finalAccess_refuses hp]
    exact h.permitted

/-- The value of a granted load. -/
theorem Granted.value (h : Granted env w s va p m) (hfault : s.hs.pageFault = false) :
    (virtMemFetch env w s va).1 = finalWord env w s va p m := by
  obtain ⟨hp, hm⟩ := (finalAddress_iff hfault).mp h.address
  have hok := h.permitted
  rw [← finalAccess_refuses hp] at hok
  rw [(virtMemFetch_final hp).1, memFetch_granted hok, finalWord]
  split
  · next hram =>
    rw [phyMemFetch_ram hram, ← hm]
    rfl
  · have hbus : ((finalAccess env s va).2.setMemStatus false).bus = (finalAccess env s va).2.bus :=
      rfl
    exact phyMemFetch_bus hbus p

/-- A load that faults gives zero. -/
theorem virtMemFetch_refused (hfault : s.hs.pageFault = false)
    (h : ¬ ∃ p m, Granted env w s va p m) : (virtMemFetch env w s va).1 = 0 := by
  rw [virtMemFetch_eq]
  rcases hp : (finalAccess env s va).1 with _ | p
  · rfl
  · cases hok : outOfRange env p || pmpRefusesFetch w (finalHs s va) p with
    | false => exact absurd ⟨p, _, (finalAddress_iff hfault).mpr ⟨hp, rfl⟩, hok⟩ h
    | true =>
      rw [← finalAccess_refuses hp] at hok
      show (memFetch env w (finalAccess env s va).2 p).1 = 0
      rw [memFetch_refused hok]

end Load

/-! ## Stores -/

/-- MPRV applies in M-mode. -/
def storeSkipped (s : Sys δ) : Bool := s.hs.privmode == 3 && !mprvActive s.hs.csr.mstatus

section Store

variable (env : Env δ) (w : Width) (s : Sys δ) (va data : BitVec 64)

/-- The address and the state of the last `mem_store` of `virt_mem_store`. -/
def storeAccess : Option (BitVec 64) × Sys δ := accessTranslation env true (storeSkipped s) s va

/-- Where `virt_mem_store` goes, and RAM before the store. -/
def StoreAddress : BitVec 64 → (BitVec 64 → BitVec 8) → Prop :=
  LandsAt env true (storeSkipped s) s va

/-- The hart as the final `mem_store` finds it. -/
def storeHs : HartState := if storeSkipped s then s.hs else (inEffectiveMode s).hs

/-- PMP and the memory map permit the store at `p`, where it goes. -/
structure StoreGranted (p : BitVec 64) (m : BitVec 64 → BitVec 8) : Prop where
  address : StoreAddress env s va p m
  permitted : (outOfRange env p || pmpRefusesStore w (storeHs s) p) = false

variable {env w s va} {p : BitVec 64} {m : BitVec 64 → BitVec 8}

/-- Where a store goes. -/
theorem storeAddress_iff (hfault : s.hs.pageFault = false) :
    StoreAddress env s va p m ↔
      (storeAccess env s va).1 = some p ∧ (storeAccess env s va).2.bus.mainMem = m :=
  landsAt_iff hfault

/-- A store below the MPRV test. -/
theorem virtMemStoreAt_eq (u : Sys δ) :
    virtMemStoreAt env w u va data =
      let r := translate env u va 0b010 true
      r.1.elim r.2 fun p => memStore env w r.2 p data := by
  unfold virtMemStoreAt
  split
  · next h => rw [h]; rfl
  · next h => rw [h]; rfl

/-- `virt_mem_store` ends in its final access; the mode is restored after it. -/
theorem virtMemStore_eq :
    virtMemStore env w s va data =
      ((storeAccess env s va).1.elim (storeAccess env s va).2 fun p =>
        memStore env w (storeAccess env s va).2 p data).setPrivmode s.hs.privmode := by
  unfold storeAccess accessTranslation storeSkipped inEffectiveMode virtMemStore
  by_cases hpriv : s.hs.privmode = 3
  · cases hmprv : mprvActive s.hs.csr.mstatus with
    | false =>
      have hkept : (memStore env w s va data).setPrivmode 3 = memStore env w s va data := by
        rw [← hpriv, ← (memStore_frame env s w va data).privmode]
        rfl
      simp only [hpriv, BEq.rfl, Bool.not_false, Bool.and_true, ↓reduceIte]
      exact hkept.symm
    | true =>
      simp only [hpriv, BEq.rfl, Bool.not_true, Bool.and_false, Bool.false_eq_true, ↓reduceIte,
        virtMemStoreAt_eq]
      rfl
  · have hbeq : (s.hs.privmode == 3) = false := by rw [beq_eq_false_iff_ne]; exact hpriv
    have hkept : (virtMemStoreAt env w s va data).setPrivmode s.hs.privmode =
        virtMemStoreAt env w s va data := by
      rw [← (virtMemStoreAt_frame env s w va data).privmode]
      rfl
    simp only [hpriv, hbeq, Bool.false_and, Bool.false_eq_true, ↓reduceIte]
    rw [← hkept, virtMemStoreAt_eq]
    rfl

/-- The final access is checked in the mode of `storeHs`. -/
theorem storeAccess_refuses (a : BitVec 64) :
    pmpRefusesStore w (storeAccess env s va).2.hs a = pmpRefusesStore w (storeHs s) a := by
  unfold storeAccess accessTranslation storeHs
  split
  · rfl
  · have hframe := translate_frame env (inEffectiveMode s) va true (accessOf true s).perms
    exact pmpRefusesStore_congr hframe.pmp hframe.privmode

/-- A granted store is one to physical memory. -/
theorem StoreGranted.stored (h : StoreGranted env w s va p m) (hfault : s.hs.pageFault = false) :
    (virtMemStore env w s va data).bus =
      (phyMemStore env w ((storeAccess env s va).2.setMemStatus false) p data).bus := by
  have hp := ((storeAddress_iff hfault).mp h.address).1
  have hok := h.permitted
  rw [← @storeAccess_refuses δ env w s va] at hok
  rw [virtMemStore_eq, hp]
  show (memStore env w (storeAccess env s va).2 p data).bus = _
  rw [memStore_granted data hok]

end Store

end RvEmu
