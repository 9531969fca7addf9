import RvEmu.Spec.FinalAccess

/-!
# The kind of access after a TLB hit

`virt_mem_fetch` ends in a `mem_fetch` at the translated address, which `mem_status` tells
whether to check for R or for X. The walk saves and restores the flag; a TLB hit leaves it
clear, so a load that hits is checked as an instruction fetch.
-/

namespace RvEmu

variable {δ : Type}

/-! ## The kind of the final access -/

section Kind

variable {env : Env δ} {s : Sys δ} {va : BitVec 64}

/-- An address for a load comes from an entry, or from the walk after an entry that gives
    none. -/
structure LoadHits (env : Env δ) (s : Sys δ) (va : BitVec 64) (i : Nat) (e : TLBEntry) : Prop where
  load : s.hs.memStatus = true
  translated : translationSkipped s = false
  entry : tlbEntry (inEffectiveMode s).hs va 0b001 = some (i, e)
  address : (hitRefused env (inEffectiveMode s) 0b001 e = false ∧ e.address va i ≠ 0) ∨
    (s.hs.pageFault = false ∧
      TablesTranslate env va false (tlbHit env (inEffectiveMode s) va 0b001 i e).2)

/-- Such a load is checked as an instruction fetch. -/
theorem LoadHits.final {i : Nat} {e : TLBEntry} (h : LoadHits env s va i e) :
    ∃ p, (finalAccess env s va).1 = some p ∧ (finalAccess env s va).2.hs.memStatus = false := by
  have haddress := h.address
  rw [← inEffectiveMode_pageFault] at haddress
  obtain ⟨p, hp⟩ := (translate_of_entry h.entry).mpr haddress
  rw [finalAccess_translated h.translated, h.load]
  refine ⟨p, hp, ?_⟩
  rw [if_pos rfl, translate_memStatus hp, tlbFind_hit env h.entry, tlbHit_memStatus]

/-- Every other access keeps its kind. -/
theorem kind_of_not_loadHits (hno : ¬ ∃ i e, LoadHits env s va i e) {p : BitVec 64}
    (h : (finalAccess env s va).1 = some p) :
    (finalAccess env s va).2.hs.memStatus = s.hs.memStatus := by
  rcases finalAccess_memStatus h with hkept | ⟨hload, htranslated, i, e, he⟩
  · exact hkept
  · rw [finalAccess_translated htranslated, hload, if_pos rfl] at h
    have haddress := (translate_of_entry he).mp ⟨p, h⟩
    rw [inEffectiveMode_pageFault] at haddress
    exact absurd ⟨i, e, hload, htranslated, he, haddress⟩ hno

/-! ## With and without an entry -/

theorem inEffectiveMode_setTlb (tlb : TLBStruct) :
    inEffectiveMode (s.setTlb tlb) = (inEffectiveMode s).setTlb tlb := by
  have hmode : (s.setTlb tlb).hs.privmode = s.hs.privmode := rfl
  unfold inEffectiveMode
  rw [hmode]
  split <;> rfl

theorem not_loadHits_clear : ¬ ∃ i e, LoadHits env (s.setTlb tlbClear) va i e := by
  rintro ⟨i, e, h⟩
  have hentry := h.entry
  rw [inEffectiveMode_setTlb] at hentry
  exact absurd (hentry.symm.trans (tlbEntry_clear rfl va _)) (Option.some_ne_none _)

theorem finalAccess_pmp : (finalAccess env s va).2.hs.pmp = s.hs.pmp := by
  have heff : (inEffectiveMode s).hs.pmp = s.hs.pmp := by
    unfold inEffectiveMode
    split <;> rfl
  unfold finalAccess
  split
  · rfl
  · exact (translate_frame env _ va false _).pmp.trans heff

theorem finalAccess_privmode : (finalAccess env s va).2.hs.privmode =
    if translationSkipped s then s.hs.privmode else (inEffectiveMode s).hs.privmode := by
  unfold finalAccess
  split
  · rfl
  · exact (translate_frame env _ va false _).privmode

/-- The final access is of the kind that `virt_mem_fetch` was entered with, and its result
    is the same with an empty TLB, where the address is the same. -/
structure KindKept (env : Env δ) (w : Width) (s : Sys δ) (va : BitVec 64) : Prop where
  kind : ∀ p, (finalAccess env s va).1 = some p →
    (finalAccess env s va).2.hs.memStatus = s.hs.memStatus
  uncached : ∀ p, (finalAccess env s va).1 = some p →
    (finalAccess env (s.setTlb tlbClear) va).1 = some p →
    (virtMemFetch env w s va).2.hs.memStatus =
        (virtMemFetch env w (s.setTlb tlbClear) va).2.hs.memStatus ∧
      ((finalAccess env s va).2.bus = (finalAccess env (s.setTlb tlbClear) va).2.bus →
        (virtMemFetch env w s va).1 = (virtMemFetch env w (s.setTlb tlbClear) va).1)

/-- The kind of access is kept but for the loads that hit the TLB. -/
theorem kindKept_iff (w : Width) :
    KindKept env w s va ↔ ¬ ∃ i e, LoadHits env s va i e := by
  constructor
  · rintro h ⟨i, e, hhits⟩
    obtain ⟨p, hp, hclear⟩ := hhits.final
    exact Bool.noConfusion (hclear.symm.trans ((h.kind p hp).trans hhits.load))
  · intro hno
    refine ⟨fun p hp => kind_of_not_loadHits hno hp, fun p hp hp₀ => ?_⟩
    have hkind : (finalAccess env s va).2.hs.memStatus =
        (finalAccess env (s.setTlb tlbClear) va).2.hs.memStatus :=
      (kind_of_not_loadHits hno hp).trans (kind_of_not_loadHits not_loadHits_clear hp₀).symm
    have hpmp : (finalAccess env s va).2.hs.pmp =
        (finalAccess env (s.setTlb tlbClear) va).2.hs.pmp :=
      finalAccess_pmp.trans (@finalAccess_pmp δ env (s.setTlb tlbClear) va).symm
    have hpriv : (finalAccess env s va).2.hs.privmode =
        (finalAccess env (s.setTlb tlbClear) va).2.hs.privmode := by
      rw [finalAccess_privmode, finalAccess_privmode, inEffectiveMode_setTlb]
      rfl
    obtain ⟨hvalue, hflag⟩ := @virtMemFetch_final δ env s va w p hp
    obtain ⟨hvalue₀, hflag₀⟩ := @virtMemFetch_final δ env (s.setTlb tlbClear) va w p hp₀
    obtain ⟨hflags, hvalues⟩ := @memFetch_congr δ env w _ _ p hpmp hpriv hkind
    rw [hvalue, hflag, hvalue₀, hflag₀]
    exact ⟨hflags, hvalues⟩

end Kind

/-- A gigapage, and PMP that permits everything but execution. -/
private def noExecute : Sys Unit :=
  let s := gigapage 0x2000000F
  let pmp := { s.hs.pmp with pmpcfg := Function.update (fun _ => 0) 0 0b00011011 }
  s.setHs { s.hs with pmp := syncExpPmp Env.inert pmp }

/-- After one load the page is in the TLB, and another load of it is refused. -/
theorem load_hit_checked_for_execute :
    let s := (virtMemFetch Env.inert .u64 (noExecute.setMemStatus true) 0x80002000).2
    s.hs.memStatus = false ∧
      (virtMemFetch Env.inert .u64 (s.setMemStatus true) 0x80002000).2.hs.memStatus = true ∧
      ¬ ∀ (t : Sys Unit) w va, KindKept Env.inert w t va := by
  refine ⟨by decide +kernel, by decide +kernel, fun h => ?_⟩
  have hkind := (h ((virtMemFetch Env.inert .u64 (noExecute.setMemStatus true)
    0x80002000).2.setMemStatus true) .u64 0x80002000).kind 0x80002000 (by decide +kernel)
  exact absurd hkind (by decide +kernel)

end RvEmu
