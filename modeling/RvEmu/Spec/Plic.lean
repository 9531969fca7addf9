import RvEmu.ForStd.Bitmap
import RvEmu.ForStd.Scan
import RvEmu.Native.Plic

/-!
# Interrupt claims

A claim has to return the source with the highest priority among those that are pending
and enabled for the context. The loop of `plic_r` does not look at the pending bits.
-/

namespace RvEmu

/-! ## The registers as sets -/

/-- The pending bit of a source. -/
def PlicState.pending (p : PlicState) (source : Nat) : Bool := Bitmap.get p.intPendRegs source

/-- The priority of a source. -/
def PlicState.priority (p : PlicState) : Nat → BitVec 32 := p.intPrioRegs

/-- A source that the claim loop of a context may select. -/
def PlicState.Candidate (p : PlicState) (ctx : BitVec 16) : Nat → Prop :=
  Scan.Eligible p.priority (plicFindEn p ctx) 0 plicSourceCount

/-- A source that a claim by the context may return; there is no source 0. -/
structure PlicState.Claimable (p : PlicState) (ctx : BitVec 16) (source : Nat) : Prop where
  ne_zero : source ≠ 0
  pending : p.pending source = true
  candidate : p.Candidate ctx source

/-- What a claim has to return: the first of the claimable sources, or 0. -/
def PlicState.MustClaim (p : PlicState) (ctx : BitVec 16) (source : Nat) : Prop :=
  Scan.First p.priority (p.Claimable ctx) source ∨ (source = 0 ∧ ∀ i, ¬ p.Claimable ctx i)

/-- The claim register of a context. -/
def claimOffset (ctx : BitVec 16) : BitVec 64 := 0x200004#64 + ctx.setWidth 64 <<< 12

section Claim

variable (machHartCount : BitVec 16) (ctx : BitVec 16) (p : PlicState)

/-- The read of the claim register. -/
def claimRead : BitVec 32 × PlicState := plicR machHartCount (claimOffset ctx) p

/-- A claim returns the source that it has to, and clears its pending bit alone. -/
structure ClaimCorrect : Prop where
  returns : p.MustClaim ctx (claimRead machHartCount ctx p).1.toNat
  clears : ∀ i, (claimRead machHartCount ctx p).2.pending i =
    (p.pending i && !decide (i = (claimRead machHartCount ctx p).1.toNat ∧ i ≠ 0))

/-- The index of the claim register among the enable registers. -/
def claimEnIndex : Nat := (claimOffset ctx / 4).toNat - 0x2000 / 4

/-- With more than 2040 harts, the range of the enable registers reaches over the claim
    register. -/
abbrev Shadowed : Prop := claimEnIndex ctx < plicCtxCount machHartCount * (1024 / 8)

/-- Each source that the loop may select but a claim may not return is beaten by one that
    it may; if there is none, source 0 may win, which returns 0 as well. -/
def Covered : Prop :=
  ∀ j, p.Candidate ctx j → ¬ p.Claimable ctx j →
    (∃ i, p.Claimable ctx i ∧ Scan.Beats p.priority i j) ∨
      ((∀ i, ¬ p.Claimable ctx i) ∧ p.Candidate ctx 0 ∧ ¬ Scan.Beats p.priority j 0)

/-- The sources are covered; a claim register that is shadowed by an enable register reads
    as 0, and there is nothing to claim. -/
structure ClaimCondition : Prop where
  covered : ¬ Shadowed machHartCount ctx → Covered ctx p
  shadowed : Shadowed machHartCount ctx →
    p.intEnRegs (claimEnIndex ctx) = 0 ∧ ∀ i, ¬ p.Claimable ctx i

/-! ## The claim loop -/

variable {machHartCount ctx p}

theorem claimOffset_toNat : (claimOffset ctx).toNat = 0x200004 + 0x1000 * ctx.toNat := by
  have hctx := ctx.isLt
  unfold claimOffset
  simp only [BitVec.toNat_add, BitVec.toNat_shiftLeft, BitVec.toNat_setWidth, BitVec.toNat_ofNat,
    Nat.shiftLeft_eq]
  omega

theorem claimOffset_div : (claimOffset ctx / 4).toNat = 0x80001 + 0x400 * ctx.toNat := by
  rw [BitVec.toNat_udiv, claimOffset_toNat]
  show _ / 4 = _
  omega

theorem offsetToCtx_claimOffset : offsetToCtx (claimOffset ctx) = ctx.setWidth 64 := by
  have hctx := ctx.isLt
  have hbase : (0x200 : BitVec 64).toNat = 0x200 := rfl
  apply BitVec.eq_of_toNat_eq
  unfold offsetToCtx
  rw [BitVec.toNat_sub, BitVec.toNat_ushiftRight, claimOffset_toNat, BitVec.toNat_setWidth,
    Nat.shiftRight_eq_div_pow, hbase]
  omega

/-- The claim registers are at the second word of the page of their context. -/
theorem claimOffset_page : claimOffset ctx ≥ 0x200000 ∧ claimOffset ctx &&& 0xFFF = 4 := by
  have hctx := ctx.isLt
  constructor
  · show (0x200000 : Nat) ≤ (claimOffset ctx).toNat
    rw [claimOffset_toNat]
    omega
  · apply BitVec.eq_of_toNat_eq
    show (claimOffset ctx).toNat &&& (2 ^ 12 - 1) = 4
    rw [Nat.and_two_pow_sub_one_eq_mod, claimOffset_toNat]
    omega

/-- The claim registers lie behind the priorities and the pending bits. -/
theorem claimOffset_behind : ¬ (claimOffset ctx / 4).toNat < plicSourceCount ∧
    ¬ (0x1000 / 4 ≤ (claimOffset ctx / 4).toNat ∧
      (claimOffset ctx / 4).toNat < 0x1000 / 4 + (plicSourceCount + 31) / 32) := by
  rw [claimOffset_div, plicSourceCount]
  omega

/-- The loop finds the first candidate. -/
theorem claimLoop_eq :
    (List.range plicSourceCount).foldl (claimStep p ctx) (0, 0) =
      Scan.scan p.priority (plicFindEn p ctx) 0 plicSourceCount := rfl

theorem shadowed_iff : Shadowed machHartCount ctx ↔ 0x2000 / 4 ≤ (claimOffset ctx / 4).toNat ∧
    (claimOffset ctx / 4).toNat < 0x2000 / 4 + plicCtxCount machHartCount * (1024 / 8) := by
  unfold Shadowed claimEnIndex
  rw [claimOffset_div]
  omega

/-- A claim register that is not shadowed is read by the claim branch. -/
theorem claimRead_eq (h : ¬ Shadowed machHartCount ctx) :
    claimRead machHartCount ctx p = plicClaim (ctx.setWidth 64) p := by
  have hthres : ¬ (claimOffset ctx ≥ 0x200000 ∧ claimOffset ctx &&& 0xFFF = 0) := by
    rw [claimOffset_page.2]
    exact fun hzero => absurd hzero.2 (by decide)
  unfold claimRead plicR
  dsimp only
  rw [if_neg claimOffset_behind.1, if_neg claimOffset_behind.2, if_neg (mt shadowed_iff.mpr h),
    if_neg hthres, if_pos claimOffset_page, offsetToCtx_claimOffset]

/-- A shadowed claim register reads as the enable register. -/
theorem claimRead_shadowed (h : Shadowed machHartCount ctx) :
    claimRead machHartCount ctx p = (p.intEnRegs (claimEnIndex ctx), p) := by
  unfold claimRead plicR
  dsimp only
  rw [if_neg claimOffset_behind.1, if_neg claimOffset_behind.2, if_pos (shadowed_iff.mp h)]
  rfl

/-- The outcomes of the claim branch: a candidate that goes before the others is claimed,
    or nothing is. -/
theorem plicClaim_cases :
    (∃ i, i ≠ 0 ∧ Scan.First p.priority (p.Candidate ctx) i ∧
      (plicClaim (ctx.setWidth 64) p).1.toNat = i ∧
      (plicClaim (ctx.setWidth 64) p).2.intPendRegs = Bitmap.clear p.intPendRegs i) ∨
    ((Scan.First p.priority (p.Candidate ctx) 0 ∨ ∀ i, ¬ p.Candidate ctx i) ∧
      (plicClaim (ctx.setWidth 64) p).1.toNat = 0 ∧
      (plicClaim (ctx.setWidth 64) p).2.intPendRegs = p.intPendRegs) := by
  have hctx : (ctx.setWidth 64).setWidth 16 = ctx := by
    apply BitVec.eq_of_toNat_eq
    simp
  unfold plicClaim
  rw [hctx, claimLoop_eq]
  rcases Scan.scan_cases p.priority (plicFindEn p ctx) 0 plicSourceCount with
    ⟨i, hscan, hfirst⟩ | ⟨hscan, hnone⟩
  · rw [hscan]
    by_cases hi : i = 0
    · -- source 0 has won
      subst hi
      exact .inr ⟨.inl hfirst, rfl, rfl⟩
    · have hbound : i < 16 := hfirst.mem.bound
      refine .inl ⟨i, hi, hfirst, ?_, ?_⟩
      · simp only [ne_eq, hi, not_false_eq_true, ↓reduceIte, BitVec.toNat_ofNat]
        omega
      · simp only [ne_eq, hi, not_false_eq_true, ↓reduceIte]
        rfl
  · rw [hscan]
    exact .inr ⟨.inr hnone, rfl, rfl⟩

/-- The first candidate is what a claim has to return exactly if the others are covered. -/
theorem claimable_of_covered {i : Nat} (hfirst : Scan.First p.priority (p.Candidate ctx) i)
    (hi : i ≠ 0) : p.Claimable ctx i ↔ Covered ctx p := by
  constructor
  · intro hclaim j hj hnot
    refine .inl ⟨i, hclaim, hfirst.beats j hj fun hji => ?_⟩
    rw [hji] at hnot
    exact hnot hclaim
  · intro hcov
    by_contra hnot
    rcases hcov i hfirst.mem hnot with ⟨j, hj, hbeats⟩ | ⟨-, hzero, hbeats⟩
    · have hne : j ≠ i := fun hji => hnot (hji ▸ hj)
      exact hbeats.asymm (hfirst.beats j hj.candidate hne)
    · exact hbeats (hfirst.beats 0 hzero (Ne.symm hi))

/-- If all that the loop may select is pending, it is covered. -/
theorem covered_of_pending (h : ∀ j < plicSourceCount, 0 < p.priority j →
    plicFindEn p ctx j = true → j ≠ 0 ∧ p.pending j = true) : Covered ctx p := by
  intro j hj hnot
  obtain ⟨hne, hpend⟩ := h j hj.bound hj.key hj.ok
  exact absurd ⟨hne, hpend, hj⟩ hnot

/-- If the loop returns 0, there has to be nothing to claim. -/
theorem nothing_of_covered
    (h : Scan.First p.priority (p.Candidate ctx) 0 ∨ ∀ i, ¬ p.Candidate ctx i) :
    (∀ i, ¬ p.Claimable ctx i) ↔ Covered ctx p := by
  constructor
  · intro hnone j hj _
    rcases h with hfirst | hno
    · refine .inr ⟨hnone, hfirst.mem, fun hbeats => ?_⟩
      by_cases hj0 : j = 0
      · subst hj0
        exact hbeats.asymm hbeats
      · exact hbeats.asymm (hfirst.beats j hj hj0)
    · exact absurd hj (hno j)
  · intro hcov i hi
    rcases h with hfirst | hno
    · -- source 0 is a candidate that no claim may return
      rcases hcov 0 hfirst.mem fun hzero => hzero.ne_zero rfl with ⟨j, hj, hbeats⟩ | ⟨hnone, -⟩
      · exact hbeats.asymm (hfirst.beats j hj.candidate hj.ne_zero)
      · exact hnone i hi
    · exact hno i hi.candidate

/-- Claiming a source clears its bit. -/
theorem pending_clear {q : PlicState} {i : Nat} (h : q.intPendRegs = Bitmap.clear p.intPendRegs i)
    (j : Nat) : q.pending j = (p.pending j && !decide (j = i)) := by
  show Bitmap.get q.intPendRegs j = _
  rw [h, Bitmap.get_clear (by decide)]
  rfl

/-- A claim register that is shadowed. -/
theorem claimCorrect_shadowed (h : Shadowed machHartCount ctx) :
    ClaimCorrect machHartCount ctx p ↔
      p.intEnRegs (claimEnIndex ctx) = 0 ∧ ∀ i, ¬ p.Claimable ctx i := by
  have hread := claimRead_shadowed (p := p) h
  constructor
  · rintro ⟨hreturns, hclears⟩
    rw [hread] at hreturns hclears
    rcases hreturns with hfirst | ⟨hzero, hnone⟩
    · -- a source that is returned is still pending afterwards
      have hclear := hclears (p.intEnRegs (claimEnIndex ctx)).toNat
      rw [decide_eq_true ⟨rfl, hfirst.mem.ne_zero⟩, Bool.not_true, Bool.and_false] at hclear
      have hclear := hclear.symm.trans hfirst.mem.pending
      cases hclear
    · exact ⟨BitVec.eq_of_toNat_eq hzero, hnone⟩
  · rintro ⟨hzero, hnone⟩
    refine ⟨?_, fun i => ?_⟩
    · rw [hread, hzero]
      exact .inr ⟨rfl, hnone⟩
    · have hno : ¬ (i = (0 : BitVec 32).toNat ∧ i ≠ 0) := fun hi => hi.2 hi.1
      rw [hread, hzero, decide_eq_false hno, Bool.not_false, Bool.and_true]

/-- A claim that returns the source that the loop has found. -/
theorem claimCorrect_found {i : Nat} (hs : ¬ Shadowed machHartCount ctx) (hi : i ≠ 0)
    (hfirst : Scan.First p.priority (p.Candidate ctx) i)
    (hret : (plicClaim (ctx.setWidth 64) p).1.toNat = i)
    (hpend : (plicClaim (ctx.setWidth 64) p).2.intPendRegs = Bitmap.clear p.intPendRegs i) :
    ClaimCorrect machHartCount ctx p ↔ p.Claimable ctx i := by
  have hread := claimRead_eq (p := p) hs
  constructor
  -- source 0 is the only way to return 0 here, and `hi` excludes it
  · intro h
    have hreturns := h.returns
    rw [hread, hret] at hreturns
    rcases hreturns with hmust | ⟨hzero, -⟩
    · exact hmust.mem
    · exact absurd hzero hi
  · intro hclaim
    refine ⟨?_, fun j => ?_⟩
    · rw [hread, hret]
      exact .inl ⟨hclaim, fun j hj => hfirst.beats j hj.candidate⟩
    · rw [hread, hret, pending_clear hpend]
      congr 2
      exact decide_eq_decide.mpr ⟨fun h => ⟨h, h ▸ hi⟩, fun h => h.1⟩

/-- A claim that returns 0. -/
theorem claimCorrect_nothing (hs : ¬ Shadowed machHartCount ctx)
    (hret : (plicClaim (ctx.setWidth 64) p).1.toNat = 0)
    (hpend : (plicClaim (ctx.setWidth 64) p).2.intPendRegs = p.intPendRegs) :
    ClaimCorrect machHartCount ctx p ↔ ∀ i, ¬ p.Claimable ctx i := by
  have hread := claimRead_eq (p := p) hs
  constructor
  · intro h
    have hreturns := h.returns
    rw [hread, hret] at hreturns
    rcases hreturns with hmust | ⟨-, hnone⟩
    · exact absurd rfl hmust.mem.ne_zero
    · exact hnone
  · intro hnone
    refine ⟨?_, fun j => ?_⟩
    · rw [hread, hret]
      exact .inr ⟨rfl, hnone⟩
    · -- source 0 has no pending bit to clear
      have hno : ¬ (j = 0 ∧ j ≠ 0) := fun h => h.2 h.1
      rw [hread, hret, decide_eq_false hno, Bool.not_false, Bool.and_true]
      show Bitmap.get _ j = _
      rw [hpend]
      rfl

/-- A claim is correct exactly under the condition. -/
theorem claimCorrect_iff :
    ClaimCorrect machHartCount ctx p ↔ ClaimCondition machHartCount ctx p := by
  by_cases hs : Shadowed machHartCount ctx
  · rw [claimCorrect_shadowed hs]
    exact ⟨fun h => ⟨fun hn => absurd hs hn, fun _ => h⟩, fun h => h.shadowed hs⟩
  · have hcond : ClaimCondition machHartCount ctx p ↔ Covered ctx p :=
      ⟨fun h => h.covered hs, fun h => ⟨fun _ => h, fun hshadowed => absurd hshadowed hs⟩⟩
    rw [hcond]
    rcases @plicClaim_cases ctx p with ⟨i, hi, hfirst, hret, hpend⟩ | ⟨hwin, hret, hpend⟩
    · exact (claimCorrect_found hs hi hfirst hret hpend).trans (claimable_of_covered hfirst hi)
    · exact (claimCorrect_nothing hs hret hpend).trans (nothing_of_covered hwin)

end Claim

/-! ## Runs -/

/-- An interrupt sent by a device, or a claim by a context. -/
inductive PlicEvent where
  | sendInt (source : BitVec 16)
  | claim (ctx : BitVec 16)

section Runs

variable (machHartCount : BitVec 16)

def PlicEvent.step (p : PlicState) : PlicEvent → PlicState
  | sendInt source => plicSendInt machHartCount source p
  | claim ctx => (claimRead machHartCount ctx p).2

/-- The event sets the pending bit of `source`. -/
def PlicEvent.asserts (p : PlicState) (source : Nat) : PlicEvent → Bool
  | sendInt i => decide (source = i.toNat) && !p.pending source
  | claim _ => false

/-- The event claims `source`. -/
def PlicEvent.claims (p : PlicState) (source : Nat) : PlicEvent → Bool
  | sendInt _ => false
  | claim ctx => decide ((claimRead machHartCount ctx p).1.toNat = source)

/-- How often a run sets the pending bit of `source`. -/
def assertions (source : Nat) : PlicState → List PlicEvent → Nat
  | _, [] => 0
  | p, e :: es => (e.asserts p source).toNat + assertions source (e.step machHartCount p) es

/-- How often a run claims `source`. -/
def deliveries (source : Nat) : PlicState → List PlicEvent → Nat
  | _, [] => 0
  | p, e :: es =>
    (e.claims machHartCount p source).toNat + deliveries source (e.step machHartCount p) es

/-- Every claim of a run is made under the condition. -/
def ClaimsCovered : PlicState → List PlicEvent → Prop
  | _, [] => True
  | p, e :: es => (∀ ctx, e = .claim ctx → ClaimCondition machHartCount ctx p) ∧
      ClaimsCovered (e.step machHartCount p) es

variable {machHartCount}

/-- Notifying the contexts leaves the pending bits alone. -/
theorem plicTryInt_pending (source : BitVec 16) (p : PlicState) :
    (plicTryInt machHartCount source p).intPendRegs = p.intPendRegs := by
  unfold plicTryInt
  split
  · rfl
  · next hpend =>
    clear hpend
    dsimp only
    generalize p.intPrioRegs source.toNat = intPrio
    induction List.range (plicCtxCount machHartCount) generalizing p with
    | nil => rfl
    | cons i is ih =>
      rw [List.foldl_cons, ih]
      split <;> rfl

/-- Sending sets the bit of the source. -/
theorem plicSendInt_pending (source : BitVec 16) (p : PlicState) (i : Nat) :
    (plicSendInt machHartCount source p).pending i =
      (p.pending i || decide (i = source.toNat)) := by
  unfold plicSendInt
  dsimp only
  split
  · next hpend =>
    by_cases hi : i = source.toNat
    · have hset : p.pending i = true := hi ▸ hpend
      rw [hset, Bool.true_or]
    · rw [decide_eq_false hi, Bool.or_false]
  · show Bitmap.get (plicTryInt machHartCount source _).intPendRegs i = _
    rw [plicTryInt_pending]
    exact Bitmap.get_set (by decide) p.intPendRegs source.toNat i

/-- One step keeps the balance of a source: it is pending for every assertion that is not
    claimed yet. -/
theorem PlicEvent.balance {p : PlicState} {e : PlicEvent} {source : Nat} (hsource : source ≠ 0)
    (h : ∀ ctx, e = .claim ctx → ClaimCondition machHartCount ctx p) :
    (e.claims machHartCount p source).toNat + ((e.step machHartCount p).pending source).toNat =
      (e.asserts p source).toNat + (p.pending source).toNat := by
  cases e with
  | sendInt i =>
    show 0 + ((plicSendInt machHartCount i p).pending source).toNat = _
    rw [plicSendInt_pending, PlicEvent.asserts]
    cases p.pending source <;> cases decide (source = i.toNat) <;> rfl
  | claim ctx =>
    obtain ⟨hreturns, hclears⟩ := claimCorrect_iff.mpr (h ctx rfl)
    show (decide ((claimRead machHartCount ctx p).1.toNat = source)).toNat +
      ((claimRead machHartCount ctx p).2.pending source).toNat = 0 + (p.pending source).toNat
    rw [hclears source]
    by_cases hret : (claimRead machHartCount ctx p).1.toNat = source
    · -- the source that is returned was pending, and is not any more
      rw [hret] at hreturns
      have hpend : p.pending source = true := by
        rcases hreturns with hfirst | ⟨hzero, -⟩
        · exact hfirst.mem.pending
        · exact absurd hzero hsource
      rw [hret, hpend, decide_eq_true rfl, decide_eq_true ⟨rfl, hsource⟩]
      rfl
    · have hne : ¬ (source = (claimRead machHartCount ctx p).1.toNat ∧ source ≠ 0) :=
        fun hn => hret hn.1.symm
      rw [decide_eq_false hret, decide_eq_false hne, Bool.not_false, Bool.and_true]
      rfl

/-- In a run whose claims are covered, a source is claimed at most once for each time that
    its bit is set. -/
theorem deliveries_le {source : Nat} (hsource : source ≠ 0) (es : List PlicEvent) (p : PlicState)
    (h : ClaimsCovered machHartCount p es) :
    deliveries machHartCount source p es ≤
      assertions machHartCount source p es + (p.pending source).toNat := by
  induction es generalizing p with
  | nil => exact Nat.zero_le _
  | cons e es ih =>
    have hbalance := PlicEvent.balance hsource h.1
    have hrest := ih (e.step machHartCount p) h.2
    show (e.claims machHartCount p source).toNat + _ ≤ (e.asserts p source).toNat + _ + _
    omega

end Runs

/-- A claim returns and clears the right source exactly under the condition; in every run
    whose claims meet it, each assertion of a pending bit is claimed at most once. -/
theorem plic_claim_iff (machHartCount : BitVec 16) :
    (∀ p ctx, ClaimCorrect machHartCount ctx p ↔ ClaimCondition machHartCount ctx p) ∧
      ∀ p es source, source ≠ 0 → ClaimsCovered machHartCount p es →
        deliveries machHartCount source p es ≤
          assertions machHartCount source p es + (p.pending source).toNat :=
  ⟨fun _ _ => claimCorrect_iff, fun p es _ hsource h => deliveries_le hsource es p h⟩

/-- The reset PLIC of one hart, with a priority for source 10. -/
private def prioritized : PlicState :=
  let heap : PlicState := ⟨fun _ => 0, fun _ => 0, fun _ => 0, fun _ => 0, fun _ => false, 0,
    fun _ => 0⟩
  plicW 1 (4 * 10) 1 (plicInit 1 heap)

/-- The UART interrupt is sent, claimed by context 0, and sent again. -/
theorem plic_claim_uart :
    (∀ p ctx, ClaimCorrect 1 ctx p ↔ ClaimCondition 1 ctx p) ∧
      deliveries 1 10 prioritized [.sendInt 10, .claim 0, .sendInt 10] ≤
        assertions 1 10 prioritized [.sendInt 10, .claim 0, .sendInt 10] +
          (prioritized.pending 10).toNat := by
  obtain ⟨hclaim, hrun⟩ := plic_claim_iff 1
  refine ⟨hclaim, hrun _ _ _ (by decide) ⟨nofun, ⟨fun ctx hctx => ?_, ⟨nofun, trivial⟩⟩⟩⟩
  cases hctx
  exact ⟨fun _ => covered_of_pending (by decide +kernel), fun h => absurd h (by decide +kernel)⟩

/-- With nothing pending, a claim returns the highest enabled source. -/
theorem plic_claim_not_pending : ¬ ∀ (p : PlicState) (ctx : BitVec 16), ClaimCorrect 1 ctx p := by
  intro h
  have hreturns := (h prioritized 0).returns
  have hret : (claimRead 1 0 prioritized).1.toNat = 10 := by decide +kernel
  rw [hret] at hreturns
  rcases hreturns with hfirst | ⟨hzero, -⟩
  · exact absurd hfirst.mem.pending (by decide +kernel)
  · exact absurd hzero (by decide)

end RvEmu
