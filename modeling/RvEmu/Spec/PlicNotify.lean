import RvEmu.Spec.Plic

/-!
# Notification

`plic_chk` has to raise the external interrupt of exactly the contexts that have an
interrupt to take, and to touch nothing else.

## Key results

- `plicNotifyCtx_raised`: one notification raises one bit
- `plicTryInt_raised`: what the loop over the contexts raises
- `plicChk_notified`: what the loop over the sources raises
-/

namespace RvEmu

/-- The external-interrupt bit of the mode of a context. -/
def externalBit (ctx : Nat) : Nat := if ctx % 2 = 1 then 9 else 11

/-- The enable bit of a source below 32. -/
def PlicState.enabled (p : PlicState) (ctx source : Nat) : Bool :=
  (p.intEnRegs (0x20 * ctx)).getLsbD source

/-- The context may take the interrupt of `source`. -/
structure PlicState.Takes (p : PlicState) (ctx source : Nat) : Prop where
  pending : p.pending source = true
  enabled : p.enabled ctx source = true
  above : p.intPrioThres ctx < p.priority source

/-- The external interrupt of the context is to be raised. -/
structure PlicState.Notifies (p : PlicState) (ctx : Nat) : Prop where
  idle : p.intHandling ctx = false
  source : ∃ source < plicSourceCount, p.Takes ctx source

/-- The external interrupt of the context is pending in its hart. -/
def PlicState.External (p : PlicState) (ctx : Nat) : Prop :=
  (p.mip (BitVec.ofNat 16 (ctx / 2))).getLsbD (externalBit ctx) = true

/-- The external interrupts of the contexts that are to be notified have been raised. -/
structure Notified (machHartCount : BitVec 16) (p q : PlicState) : Prop where
  external : ∀ ctx < plicCtxCount machHartCount,
    q.External ctx ↔ p.External ctx ∨ p.Notifies ctx
  others : ∀ hart bit, (∀ ctx < plicCtxCount machHartCount,
      ¬ (hart = BitVec.ofNat 16 (ctx / 2) ∧ bit = externalBit ctx)) →
    (q.mip hart).getLsbD bit = (p.mip hart).getLsbD bit
  registers : { q with mip := p.mip } = p

/-! ## Raising sets of interrupts -/

/-- The external interrupts of the contexts in `S` have been raised, and nothing else has
    changed. -/
structure Raised (S : Nat → Prop) (p q : PlicState) : Prop where
  mip : ∀ hart bit, (q.mip hart).getLsbD bit = true ↔ (p.mip hart).getLsbD bit = true ∨
    ∃ ctx, S ctx ∧ hart = BitVec.ofNat 16 (ctx / 2) ∧ bit = externalBit ctx
  registers : { q with mip := p.mip } = p

section Raised

variable {S T : Nat → Prop} {p q r : PlicState}

/-- No context is notified, … -/
theorem Raised.refl (h : ∀ ctx, ¬ S ctx) : Raised S p p := by
  refine ⟨fun hart bit => ⟨Or.inl, ?_⟩, rfl⟩
  rintro (hbit | ⟨ctx, hctx, -⟩)
  · exact hbit
  · exact absurd hctx (h ctx)

/-- … the same contexts are notified … -/
theorem Raised.congr (hp : Raised S p q) (h : ∀ ctx, S ctx ↔ T ctx) : Raised T p q := by
  have hST : S = T := funext fun ctx => propext (h ctx)
  exact hST ▸ hp

/-- … or those of two steps. -/
theorem Raised.trans (hp : Raised S p q) (hq : Raised T q r) :
    Raised (fun ctx => S ctx ∨ T ctx) p r := by
  refine ⟨fun hart bit => ?_, ?_⟩
  · rw [hq.mip, hp.mip]
    constructor
    · rintro ((hbit | ⟨ctx, hctx, hat⟩) | ⟨ctx, hctx, hat⟩)
      · exact .inl hbit
      · exact .inr ⟨ctx, .inl hctx, hat⟩
      · exact .inr ⟨ctx, .inr hctx, hat⟩
    · rintro (hbit | ⟨ctx, hctx | hctx, hat⟩)
      · exact .inl (.inl hbit)
      · exact .inl (.inr ⟨ctx, hctx, hat⟩)
      · exact .inr ⟨ctx, hctx, hat⟩
  · have hregs := congrArg (fun t => { t with mip := p.mip }) hq.registers
    exact hregs.trans hp.registers

/-- A loop whose rounds raise interrupts raises those of all rounds. What a round raises
    may depend on the registers, which no round changes. -/
theorem Raised.foldl {α : Type} {f : PlicState → α → PlicState} {S : α → Nat → Prop}
    {p q : PlicState} {as : List α} (hq : { q with mip := p.mip } = p)
    (hstep : ∀ t, { t with mip := p.mip } = p → ∀ a ∈ as, Raised (S a) t (f t a)) :
    Raised (fun ctx => ∃ a ∈ as, S a ctx) q (as.foldl f q) := by
  induction as generalizing q with
  | nil => exact Raised.refl fun ctx ⟨a, ha, _⟩ => absurd ha List.not_mem_nil
  | cons a as ih =>
    -- `q` changes from round to round, its registers stay those of `p`
    have hhead := hstep q hq a List.mem_cons_self
    have hregs : { f q a with mip := p.mip } = p :=
      (congrArg (fun t => { t with mip := p.mip }) hhead.registers).trans hq
    have htail := ih hregs fun t ht b hb => hstep t ht b (List.mem_cons_of_mem a hb)
    refine (hhead.trans htail).congr fun ctx => ?_
    simp only [List.mem_cons, exists_eq_or_imp]

end Raised

/-! ## The loops of the PLIC -/

section Loops

variable {machHartCount : BitVec 16} {p : PlicState} {ctx : Nat}

/-- The hart of a context that fits in 16 bits. -/
theorem ctxHart_ofNat (hctx : ctx < 65536) :
    ctxHart (BitVec.ofNat 16 ctx) = BitVec.ofNat 16 (ctx / 2) := by
  have hmask : (~~~1 : BitVec 16).toNat / 2 = 2 ^ 15 - 1 := rfl
  have htwo : (2 : BitVec 16).toNat = 2 := rfl
  apply BitVec.eq_of_toNat_eq
  unfold ctxHart
  rw [BitVec.toNat_udiv, BitVec.toNat_and, htwo, Nat.and_div_two, hmask,
    Nat.and_two_pow_sub_one_eq_mod]
  simp only [BitVec.toNat_ofNat]
  omega

/-- The odd contexts are those of S-mode. -/
theorem getLsbD_zero_ofNat : (BitVec.ofNat 16 ctx).getLsbD 0 = decide (ctx % 2 = 1) := by
  rw [BitVec.getLsbD_ofNat, Nat.testBit_zero]
  rfl

/-- Setting one bit of a word. -/
theorem getLsbD_or_bit (word : BitVec 64) {k : Nat} (i : Nat) (hk : k < 64) :
    (word ||| 1#64 <<< k).getLsbD i = true ↔ word.getLsbD i = true ∨ i = k := by
  rw [BitVec.getLsbD_or, Bool.or_eq_true]
  by_cases hi : i < 64
  · rw [Bitmap.getLsbD_one_shiftLeft hi, decide_eq_true_iff]
  · have hne : i ≠ k := by omega
    rw [BitVec.getLsbD_of_ge _ i (Nat.le_of_not_lt hi), BitVec.getLsbD_of_ge _ i
      (Nat.le_of_not_lt hi)]
    simp only [hne, Bool.false_eq_true, or_false]

/-- The bit of an external interrupt. -/
theorem externalBit_lt : externalBit ctx < 64 := by
  unfold externalBit
  split <;> decide

/-- A notification sets the bit of the context. -/
theorem plicNotifyCtx_eq (hctx : ctx < 65536) : plicNotifyCtx p (BitVec.ofNat 16 ctx) =
    { p with
      mip := Function.update p.mip (BitVec.ofNat 16 (ctx / 2))
        (p.mip (BitVec.ofNat 16 (ctx / 2)) ||| 1#64 <<< externalBit ctx) } := by
  unfold plicNotifyCtx externalBit
  rw [ctxHart_ofNat hctx, getLsbD_zero_ofNat]
  by_cases hodd : ctx % 2 = 1
  · simp only [hodd, decide_true, if_true]
  · simp only [hodd, decide_false, if_false, Bool.false_eq_true]

/-- Notifying one context. -/
theorem plicNotifyCtx_raised (hctx : ctx < 65536) :
    Raised (fun i => i = ctx) p (plicNotifyCtx p (BitVec.ofNat 16 ctx)) := by
  rw [plicNotifyCtx_eq hctx]
  refine ⟨fun hart bit => ?_, rfl⟩
  rw [exists_eq_left]
  dsimp only
  by_cases hhart : hart = BitVec.ofNat 16 (ctx / 2)
  · subst hhart
    rw [Function.update_self, getLsbD_or_bit _ _ externalBit_lt, eq_self, true_and]
  · rw [Function.update_of_ne hhart]
    simp only [hhart, false_and, or_false]

/-- The contexts that have room in the 16-bit counter. -/
theorem lt_of_mem_contexts (hcount : machHartCount.toNat ≤ 32767)
    (hctx : ctx ∈ List.range (plicCtxCount machHartCount)) : ctx < 65536 := by
  rw [List.mem_range, plicCtxCount] at hctx
  omega

/-- The enable bit of a source for a context. -/
theorem plicFindEn_ofNat {source : Nat} (hctx : ctx < 65536) (hsource : source < plicSourceCount) :
    plicFindEn p (BitVec.ofNat 16 ctx) source = p.enabled ctx source := by
  rw [plicSourceCount] at hsource
  unfold plicFindEn PlicState.enabled
  rw [BitVec.toNat_ofNat, Nat.mod_eq_of_lt hctx, Nat.div_eq_of_lt (by omega),
    Nat.mod_eq_of_lt (by omega), Nat.add_zero]

/-- One round of the loop over the contexts, for a source that is pending. -/
theorem tryCtx_raised {source : Nat} (hsource : source < plicSourceCount)
    (hpend : p.pending source = true) (hctx : ctx < 65536) {t : PlicState}
    (ht : { t with mip := p.mip } = p) :
    Raised (fun i => i = ctx ∧ p.intHandling ctx = false ∧ p.Takes ctx source) t
      (if !t.intHandling ctx && t.intPrioThres ctx < p.intPrioRegs source &&
          plicFindEn t (BitVec.ofNat 16 ctx) source then
        plicNotifyCtx t (BitVec.ofNat 16 ctx)
      else t) := by
  have hhandling : t.intHandling ctx = p.intHandling ctx := by rw [← ht]
  have hthres : t.intPrioThres ctx = p.intPrioThres ctx := by rw [← ht]
  have henabled : t.enabled ctx source = p.enabled ctx source := by rw [← ht]; rfl
  rw [plicFindEn_ofNat hctx hsource, hhandling, hthres, henabled]
  split
  · next hgo =>
    simp only [Bool.and_eq_true, Bool.not_eq_true', decide_eq_true_eq] at hgo
    obtain ⟨⟨hidle, habove⟩, hen⟩ := hgo
    refine (plicNotifyCtx_raised hctx).congr fun i => ⟨fun hi => ?_, fun hi => hi.1⟩
    exact ⟨hi, hidle, hpend, hen, habove⟩
  · next hstop =>
    -- a context that takes the interrupt passes the three tests
    refine Raised.refl fun i ⟨_, hidle, htakes⟩ => hstop ?_
    have habove : p.intPrioThres ctx < p.intPrioRegs source := htakes.above
    rw [hidle, decide_eq_true habove, htakes.enabled]
    rfl

/-- The loop over the contexts raises the interrupts of those that take `source`. -/
theorem plicTryInt_raised (hcount : machHartCount.toNat ≤ 32767) {source : Nat}
    (hsource : source < plicSourceCount) :
    Raised (fun ctx => ctx < plicCtxCount machHartCount ∧ p.intHandling ctx = false ∧
      p.Takes ctx source) p (plicTryInt machHartCount (BitVec.ofNat 16 source) p) := by
  have hnat : (BitVec.ofNat 16 source).toNat = source := by
    rw [plicSourceCount] at hsource
    rw [BitVec.toNat_ofNat]
    omega
  unfold plicTryInt
  rw [hnat]
  by_cases hpend : p.pending source = true
  · have hgo : (p.intPendRegs (source / 32)).getLsbD (source % 32) = true := hpend
    rw [hgo]
    refine (Raised.foldl (p := p) rfl fun t ht ctx hctx =>
      tryCtx_raised hsource hpend (lt_of_mem_contexts hcount hctx) ht).congr fun ctx => ?_
    constructor
    · rintro ⟨i, hi, rfl, hnotify⟩
      exact ⟨List.mem_range.mp hi, hnotify⟩
    · rintro ⟨hctx, hnotify⟩
      exact ⟨ctx, List.mem_range.mpr hctx, rfl, hnotify⟩
  · have hstop : (p.intPendRegs (source / 32)).getLsbD (source % 32) = false :=
      Bool.eq_false_iff.mpr hpend
    rw [hstop]
    exact Raised.refl fun ctx hctx => hpend hctx.2.2.pending

/-- What a context takes depends on the registers alone. -/
theorem PlicState.takes_mip {mip : BitVec 16 → BitVec 64} {source : Nat} :
    PlicState.Takes { p with mip := mip } ctx source ↔ p.Takes ctx source :=
  ⟨fun h => ⟨h.pending, h.enabled, h.above⟩, fun h => ⟨h.pending, h.enabled, h.above⟩⟩

/-- The loop over the sources raises the interrupts of all contexts to be notified. -/
theorem plicChk_raised (hcount : machHartCount.toNat ≤ 32767) :
    Raised (fun ctx => ctx < plicCtxCount machHartCount ∧ p.Notifies ctx) p
      (plicChk machHartCount p) := by
  unfold plicChk plicTryIntAll
  refine (Raised.foldl (S := fun source ctx => ctx < plicCtxCount machHartCount ∧
    p.intHandling ctx = false ∧ p.Takes ctx source) (p := p) rfl
      fun t ht source hsource => ?_).congr fun ctx => ?_
  · refine (plicTryInt_raised hcount (List.mem_range.mp hsource)).congr fun ctx => ?_
    have htakes : p.Takes ctx source ↔ t.Takes ctx source := by rw [← ht, PlicState.takes_mip]
    have hhandling : p.intHandling ctx = t.intHandling ctx := by rw [← ht]
    rw [htakes, hhandling]
  · constructor
    · rintro ⟨source, hsource, hctx, hidle, htakes⟩
      exact ⟨hctx, hidle, source, List.mem_range.mp hsource, htakes⟩
    · rintro ⟨hctx, hidle, source, hsource, htakes⟩
      exact ⟨source, List.mem_range.mpr hsource, hctx, hidle, htakes⟩

/-- Contexts have different bits. -/
theorem context_inj {i j : Nat} (hi : i < 65536) (hj : j < 65536)
    (hhart : BitVec.ofNat 16 (i / 2) = BitVec.ofNat 16 (j / 2))
    (hbit : externalBit i = externalBit j) : i = j := by
  have hnat := congrArg BitVec.toNat hhart
  simp only [BitVec.toNat_ofNat] at hnat
  unfold externalBit at hbit
  split at hbit <;> split at hbit <;> omega

end Loops

/-- After `plic_chk`, exactly the external interrupts that were pending or are to be notified
    are pending; the other bits of `mip` and the registers keep their values. -/
theorem plicChk_notified (machHartCount : BitVec 16) (hcount : machHartCount.toNat ≤ 32767)
    (p : PlicState) : Notified machHartCount p (plicChk machHartCount p) := by
  have hraised := plicChk_raised (p := p) hcount
  refine ⟨fun ctx hctx => ?_, fun hart bit hother => ?_, hraised.registers⟩
  · unfold PlicState.External
    rw [hraised.mip]
    -- no other context has the same bit of the same hart
    refine or_congr_right ⟨?_, fun hnotify => ⟨ctx, ⟨hctx, hnotify⟩, rfl, rfl⟩⟩
    rintro ⟨i, ⟨hi, hnotify⟩, hhart, hbit⟩
    have hlt := lt_of_mem_contexts hcount (List.mem_range.mpr hctx)
    have hlt' := lt_of_mem_contexts hcount (List.mem_range.mpr hi)
    rw [context_inj hlt hlt' hhart hbit]
    exact hnotify
  · rw [Bool.eq_iff_iff, hraised.mip]
    refine or_iff_left ?_
    rintro ⟨ctx, ⟨hctx, -⟩, hat⟩
    exact hother ctx hctx hat

/-- Two harts; the second takes the UART interrupt in S-mode. -/
private def uartPending : PlicState :=
  let heap : PlicState := ⟨fun _ => 0, fun _ => 0, fun _ => 0, fun _ => 0, fun _ => false, 0,
    fun _ => 0⟩
  plicW 2 (0x2000 + 4 * 0x20 * 3) (1 <<< 10) (plicW 2 (4 * 10) 1
    { plicInit 2 heap with intPendRegs := fun _ => 1 <<< 10 })

/-- The UART's interrupt, for S-mode on the second hart. -/
theorem plicChk_notified_uart : (plicChk 2 uartPending).External 3 := by
  have hchk := plicChk_notified 2 (by decide) uartPending
  exact (hchk.external 3 (by decide)).mpr
    (.inr ⟨by decide +kernel, 10, by decide, by decide +kernel, by decide +kernel,
      by decide +kernel⟩)

end RvEmu
