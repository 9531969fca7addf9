import RvEmu.Spec.PageCrossing

/-!
# The final access of a fetch

`virt_mem_fetch` translates its address, through the TLB or by a walk, and ends in one
`mem_fetch` at the result. M-mode skips the translation, but for loads under MPRV.
-/

namespace RvEmu

variable {δ : Type}

/-! ## When a walk translates -/

section Walk

variable {env : Env δ} {va : BitVec 64} {isWrite : Bool} {s : Sys δ}

/-- The page tables translate the address for the access, and PMP permits the update of A
    and D. -/
def TablesTranslate (env : Env δ) (va : BitVec 64) (isWrite : Bool) (s : Sys δ) : Prop :=
  satpLevels s.hs.csr.satp = 0 ∨
  ∃ l, (leafWalk env va s).1 = some l ∧ LeafPasses isWrite s l ∧ l.updateRefused s.hs = false

/-- A walk does not clear `page_fault`. -/
theorem WalkAccepts.pageFault (h : WalkAccepts env va isWrite s) : s.hs.pageFault = false := by
  by_cases hmode : satpLevels s.hs.csr.satp = 0
  · have hfault := h.1
    unfold pageTableWalk at hfault
    rw [hmode] at hfault
    exact hfault
  · obtain ⟨l, hl⟩ := h.leaf hmode
    have hflags := h.1.symm.trans (pageTableWalk_flags hl).1
    exact (Bool.or_eq_false_iff.mp hflags.symm).2

/-- A walk accepts if the tables translate. -/
theorem walkAccepts_iff_tables :
    WalkAccepts env va isWrite s ↔ s.hs.pageFault = false ∧ TablesTranslate env va isWrite s := by
  unfold TablesTranslate
  by_cases hmode : satpLevels s.hs.csr.satp = 0
  · have hwalk : (pageTableWalk env s va isWrite).2 = s.setMemStatus false := by
      unfold pageTableWalk
      rw [hmode]
      rfl
    rw [WalkAccepts, hwalk]
    exact ⟨fun h => ⟨h.1, .inl hmode⟩, fun h => ⟨h.1, rfl⟩⟩
  · constructor
    · intro h
      obtain ⟨l, hl⟩ := h.leaf hmode
      exact ⟨h.pageFault, .inr ⟨l, hl, (walkAccepts_iff h.pageFault hl).mp h⟩⟩
    · rintro ⟨hfault, h0 | ⟨l, hl, hpass⟩⟩
      · exact absurd h0 hmode
      · exact (walkAccepts_iff hfault hl).mpr hpass

end Walk

/-! ## When a lookup gives no address -/

section Lookup

variable (env : Env δ) (va : BitVec 64) (perms : BitVec 8) (s : Sys δ)

/-- No TLB entry gives an address: none matches, or the update of A and D through it is
    refused, or it maps the address to zero. -/
def NoHit : Prop :=
  ∀ i e, tlbEntry s.hs va perms = some (i, e) →
    hitRefused env s perms e = true ∨ e.address va i = 0

variable {env va perms s}

/-- The lookup fails without a hit. -/
theorem tlbFind_zero_iff (hsatp : s.hs.csr.satp ≠ 0) :
    (tlbFind env s va perms).1 = 0 ↔ NoHit env va perms s := by
  rcases he : tlbEntry s.hs va perms with _ | ⟨i, e⟩
  · rw [tlbFind_miss env he, if_neg hsatp]
    exact ⟨fun _ i e h => absurd (h.symm.trans he) (Option.some_ne_none _), fun _ => rfl⟩
  · rw [tlbFind_hit env he, tlbHit_fst]
    constructor
    · intro hzero i' e' h
      obtain ⟨rfl, rfl⟩ := Prod.mk.inj (Option.some.inj (he.symm.trans h))
      split at hzero
      · next hrefused => exact .inl hrefused
      · exact .inr hzero
    · intro h
      rcases h i e he with hrefused | hzero
      · exact if_pos hrefused
      · rw [hzero, ite_self]

/-- The address that an entry gives. -/
theorem tlbFind_gives {i : Nat} {e : TLBEntry} (he : tlbEntry s.hs va perms = some (i, e))
    (h : (tlbFind env s va perms).1 ≠ 0) :
    hitRefused env s perms e = false ∧ (tlbFind env s va perms).1 = e.address va i := by
  rw [tlbFind_hit env he, tlbHit_fst] at h ⊢
  split at h
  · exact absurd rfl h
  · next hok =>
    rw [if_neg hok]
    exact ⟨Bool.eq_false_iff.mpr hok, rfl⟩

/-- A load with a matching entry translates if the entry or the walk after it does. -/
theorem translate_of_entry {isWrite : Bool} {i : Nat} {e : TLBEntry}
    (he : tlbEntry s.hs va perms = some (i, e)) :
    (∃ p, (translate env s va perms isWrite).1 = some p) ↔
      (hitRefused env s perms e = false ∧ e.address va i ≠ 0) ∨
      (s.hs.pageFault = false ∧ TablesTranslate env va isWrite (tlbHit env s va perms i e).2) := by
  have hpf : (tlbHit env s va perms i e).2.hs.pageFault = s.hs.pageFault := by
    rw [← tlbFind_hit env he]
    exact tlbFind_pageFault
  rw [← hpf, ← walkAccepts_iff_tables]
  by_cases hzero : (tlbFind env s va perms).1 = 0
  · have hnone : ¬ (hitRefused env s perms e = false ∧ e.address va i ≠ 0) := by
      rintro ⟨hok, hne⟩
      rw [tlbFind_hit env he, tlbHit_fst, hok] at hzero
      exact hne hzero
    rw [or_iff_right hnone, ← tlbFind_hit env he]
    constructor
    · rintro ⟨p, hp⟩
      exact ((translate_of_miss hzero).mp hp).1
    · intro h
      exact ⟨_, (translate_of_miss hzero).mpr ⟨h, rfl⟩⟩
  · obtain ⟨hok, haddress⟩ := tlbFind_gives he hzero
    rw [haddress] at hzero
    refine iff_of_true ⟨_, congrArg Prod.fst (translate_of_hit ?_)⟩ (.inl ⟨hok, hzero⟩)
    rw [haddress]
    exact hzero

/-- A translation is that of an entry, or of the page tables if no entry gives an address. -/
theorem translate_some_iff {isWrite : Bool} (hfault : s.hs.pageFault = false) {p : BitVec 64} :
    (translate env s va perms isWrite).1 = some p ↔
      (∃ i e, tlbEntry s.hs va perms = some (i, e) ∧ hitRefused env s perms e = false ∧
        e.address va i ≠ 0 ∧ e.address va i = p) ∨
      (NoHit env va perms s ∧ TablesTranslate env va isWrite (tlbFind env s va perms).2 ∧
        tableAddress env va (tlbFind env s va perms).2 = some p) := by
  by_cases hsatp : s.hs.csr.satp = 0
  · -- without translation both sides have the address itself
    have hnone : tlbEntry s.hs va perms = none := if_pos hsatp
    have hmode : satpLevels s.hs.csr.satp = 0 := by rw [hsatp]; rfl
    have hleft : (translate env s va perms isWrite).1 = some va := by
      rcases translate_bare env hsatp va perms isWrite with h | ⟨-, hset, -⟩
      · rw [h]
      · exact Bool.noConfusion (hfault.symm.trans hset)
    have haddress : tableAddress env va s = some va := if_pos hmode
    rw [hleft, tlbFind_bare env hsatp, haddress]
    constructor
    · intro hp
      exact .inr ⟨fun i e h => absurd (h.symm.trans hnone) (Option.some_ne_none _), .inl hmode, hp⟩
    · rintro (⟨i, e, he, -⟩ | ⟨-, -, hp⟩)
      · exact absurd (he.symm.trans hnone) (Option.some_ne_none _)
      · exact hp
  · by_cases hmiss : (tlbFind env s va perms).1 = 0
    · have hno := (tlbFind_zero_iff hsatp).mp hmiss
      rw [translate_of_miss hmiss]
      constructor
      · rintro ⟨haccepts, rfl⟩
        exact .inr ⟨hno, (walkAccepts_iff_tables.mp haccepts).2, haccepts.address⟩
      · rintro (⟨i, e, he, hok, hne, -⟩ | ⟨-, htables, hp⟩)
        · rcases hno i e he with hrefused | hzero
          · exact Bool.noConfusion (hok.symm.trans hrefused)
          · exact absurd hzero hne
        · have haccepts : WalkAccepts env va isWrite (tlbFind env s va perms).2 :=
            walkAccepts_iff_tables.mpr ⟨tlbFind_pageFault.trans hfault, htables⟩
          exact ⟨haccepts, Option.some.inj (haccepts.address.symm.trans hp)⟩
    · rw [translate_of_hit hmiss]
      constructor
      · intro hp
        rcases he : tlbEntry s.hs va perms with _ | ⟨i, e⟩
        · rw [tlbFind_miss env he, if_neg hsatp] at hmiss
          exact absurd rfl hmiss
        · obtain ⟨hok, haddress⟩ := tlbFind_gives he hmiss
          rw [haddress] at hmiss hp
          exact .inl ⟨i, e, rfl, hok, hmiss, Option.some.inj hp⟩
      · rintro (⟨i, e, he, hok, -, rfl⟩ | ⟨hno, -⟩)
        · rw [tlbFind_hit env he, tlbHit_fst, hok]
          rfl
        · exact absurd ((tlbFind_zero_iff hsatp).mpr hno) hmiss

end Lookup

/-! ## The final access -/

section Final

variable (env : Env δ) (s : Sys δ) (va : BitVec 64)

/-- MPRV applies in M-mode, and to loads only. -/
def translationSkipped : Bool :=
  s.hs.privmode == 3 && !(s.hs.memStatus && mprvActive s.hs.csr.mstatus)

/-- The hart in the mode whose accesses are translated. -/
def inEffectiveMode : Sys δ :=
  if s.hs.privmode = 3 then s.setPrivmode (mstatusMpp s.hs.csr.mstatus) else s

/-- The address and the state of the last `mem_fetch` of `virt_mem_fetch`. -/
def finalAccess : Option (BitVec 64) × Sys δ :=
  if translationSkipped s then (some va, s)
  else translate env (inEffectiveMode s) va (if s.hs.memStatus then 0b001 else 0b100) false

variable {env s va} {w : Width}

/-- An access at a virtual address is one at the translation, … -/
theorem virtMemFetchAt_eq (w : Width) (u : Sys δ) :
    virtMemFetchAt env w u va =
      let r := translate env u va (if u.hs.memStatus then 0b001 else 0b100) false
      r.1.elim (0, r.2) (memFetch env w r.2) := by
  unfold virtMemFetchAt
  split
  · next h => rw [h]; rfl
  · next h => rw [h]; rfl

/-- `virt_mem_fetch` ends in its final access; the mode is restored after it. -/
theorem virtMemFetch_eq (w : Width) :
    virtMemFetch env w s va =
      let r := (finalAccess env s va).1.elim (0, (finalAccess env s va).2)
        (memFetch env w (finalAccess env s va).2)
      (r.1, r.2.setPrivmode s.hs.privmode) := by
  unfold finalAccess translationSkipped inEffectiveMode virtMemFetch
  -- M-mode without MPRV goes to the address itself, and only MPRV changes the mode
  by_cases hpriv : s.hs.privmode = 3
  · cases hmprv : s.hs.memStatus && mprvActive s.hs.csr.mstatus with
    | false =>
      have hkept : (memFetch env w s va).2.setPrivmode 3 = (memFetch env w s va).2 := by
        rw [← hpriv, ← (memFetch_frame env s w va).privmode]
        rfl
      simp only [hpriv, BEq.rfl, Bool.not_false, Bool.and_true, ↓reduceIte]
      exact Prod.ext rfl hkept.symm
    | true =>
      simp only [hpriv, BEq.rfl, Bool.not_true, Bool.and_false, Bool.false_eq_true,
        ↓reduceIte, virtMemFetchAt_eq]
      rfl
  · have hbeq : (s.hs.privmode == 3) = false := by rw [beq_eq_false_iff_ne]; exact hpriv
    have hkept : (virtMemFetchAt env w s va).2.setPrivmode s.hs.privmode =
        (virtMemFetchAt env w s va).2 := by
      rw [← (virtMemFetchAt_frame env s w va).privmode]
      rfl
    simp only [hpriv, hbeq, Bool.false_and, Bool.false_eq_true, ↓reduceIte]
    calc virtMemFetchAt env w s va
        _ = ((virtMemFetchAt env w s va).1,
              (virtMemFetchAt env w s va).2.setPrivmode s.hs.privmode) := Prod.ext rfl hkept.symm
        _ = _ := by rw [virtMemFetchAt_eq]

/-- … which is made as the final access. -/
theorem virtMemFetch_final {p : BitVec 64} (h : (finalAccess env s va).1 = some p) :
    (virtMemFetch env w s va).1 = (memFetch env w (finalAccess env s va).2 p).1 ∧
      (virtMemFetch env w s va).2.hs.memStatus =
        (memFetch env w (finalAccess env s va).2 p).2.hs.memStatus := by
  rw [virtMemFetch_eq, h]
  exact ⟨rfl, rfl⟩

/-- What is read depends on what the harts share. -/
theorem phyMemFetch_bus {t u : Sys δ} (hbus : t.bus = u.bus) (a : BitVec 64) :
    (phyMemFetch env w t a).1 = (phyMemFetch env w u a).1 := by
  unfold phyMemFetch
  rw [hbus]
  split
  · rfl
  · split
    · rfl
    · split <;> rfl

/-- A `mem_fetch` depends on PMP, the mode, the kind of access, and memory. -/
theorem memFetch_congr {t u : Sys δ} {a : BitVec 64} (hpmp : t.hs.pmp = u.hs.pmp)
    (hpriv : t.hs.privmode = u.hs.privmode) (hkind : t.hs.memStatus = u.hs.memStatus) :
    (memFetch env w t a).2.hs.memStatus = (memFetch env w u a).2.hs.memStatus ∧
      (t.bus = u.bus → (memFetch env w t a).1 = (memFetch env w u a).1) := by
  have hrefuses : pmpRefusesFetch w t.hs a = pmpRefusesFetch w u.hs a :=
    pmpRefusesFetch_congr hpmp hpriv hkind
  refine ⟨?_, fun hbus => ?_⟩
  · rw [(memFetch_flags env w t a).1, (memFetch_flags env w u a).1, hrefuses]
  · unfold memFetch
    rw [hrefuses]
    split
    · rfl
    · exact @phyMemFetch_bus δ env w (t.setMemStatus false) (u.setMemStatus false) hbus a

/-- MPRV changes the mode alone: not the one flag, … -/
theorem inEffectiveMode_memStatus : (inEffectiveMode s).hs.memStatus = s.hs.memStatus := by
  unfold inEffectiveMode
  split <;> rfl

/-- … and not the other. -/
theorem inEffectiveMode_pageFault : (inEffectiveMode s).hs.pageFault = s.hs.pageFault := by
  unfold inEffectiveMode
  split <;> rfl

/-- Where translation is not skipped, it is made in the effective mode. -/
theorem finalAccess_translated (h : translationSkipped s = false) :
    finalAccess env s va = translate env (inEffectiveMode s) va
      (if s.hs.memStatus then 0b001 else 0b100) false := by
  rw [finalAccess, h]
  rfl

/-- The flag of the final access: that of a load is lost in a hit. -/
theorem finalAccess_memStatus {p : BitVec 64} (h : (finalAccess env s va).1 = some p) :
    (finalAccess env s va).2.hs.memStatus = s.hs.memStatus ∨
    (s.hs.memStatus = true ∧ translationSkipped s = false ∧
      ∃ i e, tlbEntry (inEffectiveMode s).hs va 0b001 = some (i, e)) := by
  cases hskip : translationSkipped s with
  | true =>
    rw [finalAccess, hskip]
    exact .inl rfl
  | false =>
    rw [finalAccess_translated hskip] at h ⊢
    rw [translate_memStatus h]
    -- a miss keeps the flag, and a hit has cleared it
    rcases he : tlbEntry (inEffectiveMode s).hs va (if s.hs.memStatus then 0b001 else 0b100) with
      _ | ⟨i, e⟩
    · rw [tlbFind_miss env he]
      exact .inl inEffectiveMode_memStatus
    · rw [tlbFind_hit env he, tlbHit_memStatus]
      cases hload : s.hs.memStatus with
      | false => exact .inl rfl
      | true =>
        rw [hload, if_pos rfl] at he
        exact .inr ⟨rfl, rfl, i, e, he⟩

/-- A translation that gives an address keeps the flag. -/
theorem translate_keeps_pageFault {perms : BitVec 8} {isWrite : Bool} {p : BitVec 64}
    (h : (translate env s va perms isWrite).1 = some p) :
    (translate env s va perms isWrite).2.hs.pageFault = s.hs.pageFault := by
  by_cases hmiss : (tlbFind env s va perms).1 = 0
  · -- a walk that translates has found and left the flag clear
    have hbefore := ((translate_of_miss hmiss).mp h).1.pageFault
    rw [tlbFind_pageFault] at hbefore
    rw [translate_pageFault hbefore h, hbefore]
  · rw [translate_of_hit hmiss]
    exact tlbFind_pageFault

/-- A translation that succeeds keeps the flag. -/
theorem finalAccess_pageFault {p : BitVec 64} (h : (finalAccess env s va).1 = some p) :
    (finalAccess env s va).2.hs.pageFault = s.hs.pageFault := by
  cases hskip : translationSkipped s with
  | true =>
    rw [finalAccess, hskip]
    rfl
  | false =>
    rw [finalAccess_translated hskip] at h ⊢
    exact (translate_keeps_pageFault h).trans (@inEffectiveMode_pageFault δ s)

/-- A load without an address has faulted. -/
theorem virtMemFetch_faults (h : (finalAccess env s va).1 = none) :
    ¬ AccessOk (virtMemFetch env w s va).2 := by
  have hflags : AccessOk (virtMemFetch env w s va).2 ↔ AccessOk (finalAccess env s va).2 := by
    rw [virtMemFetch_eq, h]
    rfl
  -- only a translation can fail to give an address
  cases hskip : translationSkipped s with
  | true =>
    rw [finalAccess, hskip] at h
    cases h
  | false =>
    rw [hflags]
    rw [finalAccess_translated hskip] at h ⊢
    exact translate_none h

/-- A load succeeds if its final access is permitted. -/
theorem virtMemFetch_ok_iff :
    AccessOk (virtMemFetch env w s va).2 ↔ s.hs.pageFault = false ∧
      ∃ p, (finalAccess env s va).1 = some p ∧
        (outOfRange env p || pmpRefusesFetch w (finalAccess env s va).2.hs p) = false := by
  rcases hp : (finalAccess env s va).1 with _ | p
  · refine iff_of_false (virtMemFetch_faults hp) ?_
    rintro ⟨-, p, hp', -⟩
    exact absurd hp'.symm (Option.some_ne_none _)
  · have hflags := memFetch_flags env w (finalAccess env s va).2 p
    have hok : AccessOk (virtMemFetch env w s va).2 ↔
        (outOfRange env p || pmpRefusesFetch w (finalAccess env s va).2.hs p) = false ∧
          s.hs.pageFault = false := by
      rw [virtMemFetch_eq, hp, ← finalAccess_pageFault hp, ← hflags.1, ← hflags.2]
      rfl
    rw [hok]
    constructor
    · rintro ⟨hpermitted, hfault⟩
      exact ⟨hfault, p, rfl, hpermitted⟩
    · rintro ⟨hfault, p', hp', hpermitted⟩
      obtain rfl := Option.some.inj hp'
      exact ⟨hpermitted, hfault⟩

end Final

end RvEmu
