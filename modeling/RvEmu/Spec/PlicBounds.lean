import RvEmu.Spec.Plic

/-!
# The arrays of the interrupt controller

`plic_init` allocates one word of enable bits for each context, but the enable word of a
context is looked up 0x20 words behind that of the one before, and the contexts of the
memory-mapped accesses come from the offset alone. The elements that each function uses
are listed here; the lists are footprints of the functions in `Native`.

## Key results

- `plicTryInt_congr`, `plicR_congr`: nothing outside the lists is read
- `plicTryInt_frame`, `plicR_frame`, `plicW_frame`: nothing outside the lists is written
- `plicRCells_allocated`, `plicWCells_allocated`, `plicTryIntCells_allocated`: when the
  listed elements exist
-/

namespace RvEmu

/-! ## The elements -/

/-- An element of one of the arrays of `plic.cpp`. -/
inductive PlicCell where
  | prio (i : Nat)
  | pend (i : Nat)
  | en (i : Nat)
  | thres (i : Nat)
  | handling (i : Nat)
deriving DecidableEq

/-- The index is smaller than the number of elements that `plic_init` allocates. -/
def PlicCell.Allocated (machHartCount : BitVec 16) : PlicCell → Prop
  | prio i => i < plicSourceCount
  | pend i => i < (plicSourceCount + 31) / 32
  | en i => i < (plicSourceCount + 31) / 32 * plicCtxCount machHartCount
  | thres i => i < plicCtxCount machHartCount
  | handling i => i < plicCtxCount machHartCount

/-- What the element holds. -/
def PlicCell.value (p : PlicState) : PlicCell → BitVec 32
  | prio i => p.intPrioRegs i
  | pend i => p.intPendRegs i
  | en i => p.intEnRegs i
  | thres i => p.intPrioThres i
  | handling i => (BitVec.ofBool (p.intHandling i)).setWidth 32

/-- The element that `plic_find_en` uses. -/
def plicFindEnCell (ctx : BitVec 16) (source : Nat) : PlicCell :=
  .en (0x20 * ctx.toNat + source / 32)

/-- A round of the loop of `plic_try_int`; the tests stop at the first that fails. -/
def tryCtxCells (p : PlicState) (source i : Nat) : List PlicCell :=
  .handling i ::
    if p.intHandling i then []
    else .thres i ::
      if p.intPrioThres i < p.intPrioRegs source then [plicFindEnCell (BitVec.ofNat 16 i) source]
      else []

/-- `plic_try_int`. With more than 32767 harts the 16-bit counter starts over. -/
def plicTryIntCells (machHartCount : BitVec 16) (source : BitVec 16) (p : PlicState) :
    List PlicCell :=
  .pend (source.toNat / 32) ::
    if !(p.intPendRegs (source.toNat / 32)).getLsbD (source.toNat % 32) then []
    else .prio source.toNat ::
      (List.range (min (plicCtxCount machHartCount) 65536)).flatMap (tryCtxCells p source.toNat)

/-- A round of the claim loop. -/
def claimStepCells (p : PlicState) (ctx : BitVec 16) (highest : BitVec 32 × Nat) (i : Nat) :
    List PlicCell :=
  .prio i ::
    if p.intPrioRegs i > highest.1 then
      plicFindEnCell ctx i :: if plicFindEn p ctx i then [.prio i] else []
    else []

/-- The claim loop over some sources. -/
def claimLoopCells (p : PlicState) (ctx : BitVec 16) : List Nat → BitVec 32 × Nat → List PlicCell
  | [], _ => []
  | i :: sources, highest =>
    claimStepCells p ctx highest i ++
      claimLoopCells p ctx sources (claimStep p ctx highest i)

/-- The interrupt claim of `plic_r`. -/
def plicClaimCells (ctx : BitVec 64) (p : PlicState) : List PlicCell :=
  let source :=
    ((List.range plicSourceCount).foldl (claimStep p (ctx.setWidth 16)) (0, 0)).2
  claimLoopCells p (ctx.setWidth 16) (List.range plicSourceCount) (0, 0) ++
    if source ≠ 0 then [.handling ctx.toNat, .pend (source / 32)] else []

/-- `plic_r` -/
def plicRCells (machHartCount : BitVec 16) (offset : BitVec 64) (p : PlicState) :
    List PlicCell :=
  let roffset := (offset / 4).toNat
  if roffset < plicSourceCount then [.prio roffset]
  else if 0x1000 / 4 ≤ roffset ∧ roffset < 0x1000 / 4 + (plicSourceCount + 31) / 32 then
    [.pend (roffset - 0x1000 / 4)]
  else if 0x2000 / 4 ≤ roffset ∧
      roffset < 0x2000 / 4 + plicCtxCount machHartCount * (1024 / 8) then
    [.en (roffset - 0x2000 / 4)]
  else if offset ≥ 0x200000 ∧ offset &&& 0xFFF = 0 then [.thres (offsetToCtx offset).toNat]
  else if offset ≥ 0x200000 ∧ offset &&& 0xFFF = 4 then plicClaimCells (offsetToCtx offset) p
  else []

/-- `plic_w` -/
def plicWCells (machHartCount : BitVec 16) (offset : BitVec 64) : List PlicCell :=
  let roffset := (offset / 4).toNat
  (if roffset < plicSourceCount then [.prio roffset] else []) ++
  (if 0x1000 / 4 ≤ roffset ∧ roffset < 0x1000 / 4 + (plicSourceCount + 31) / 32 then
    [.pend (roffset - 0x1000 / 4)] else []) ++
  (if 0x2000 / 4 ≤ roffset ∧
      roffset < 0x2000 / 4 + plicCtxCount machHartCount * 0x20 then
    [.en (roffset - 0x2000 / 4)] else []) ++
  (if offset ≥ 0x200000 ∧ offset &&& 0xFFF = 0 then [.thres (offsetToCtx offset).toNat]
    else []) ++
  if offset ≥ 0x200000 ∧ offset &&& 0xFFF = 4 then [.handling (offsetToCtx offset).toNat]
  else []

/-- The states agree on the elements. -/
def AgreeOn (cells : List PlicCell) (p q : PlicState) : Prop :=
  ∀ c ∈ cells, c.value p = c.value q

section Agree

variable {c : PlicCell} {cells cells' : List PlicCell} {p q : PlicState}

/-- Agreement cell by cell, … -/
@[simp] theorem agreeOn_cons :
    AgreeOn (c :: cells) p q ↔ c.value p = c.value q ∧ AgreeOn cells p q :=
  List.forall_mem_cons

/-- … and list by list. -/
@[simp] theorem agreeOn_append :
    AgreeOn (cells ++ cells') p q ↔ AgreeOn cells p q ∧ AgreeOn cells' p q :=
  List.forall_mem_append

/-- The cell of `int_handling` holds its flag. -/
theorem handling_eq_of_value {i : Nat}
    (h : (PlicCell.handling i).value p = (PlicCell.handling i).value q) :
    p.intHandling i = q.intHandling i := by
  have hinj : ∀ a b : Bool,
      (BitVec.ofBool a).setWidth 32 = (BitVec.ofBool b).setWidth 32 → a = b := by decide
  exact hinj _ _ h

end Agree

section Write

variable {p : PlicState} {c : PlicCell} {j : Nat}

/-- A write changes no cell but its own: of the priorities, … -/
theorem value_writePrio {v : BitVec 32} (h : c ≠ .prio j) :
    c.value { p with intPrioRegs := Function.update p.intPrioRegs j v } = c.value p := by
  cases c with
  | prio i => exact Function.update_of_ne (fun hi => h (congrArg PlicCell.prio hi)) _ _
  | _ => rfl

/-- … of the pending bits, … -/
theorem value_writePend {v : BitVec 32} (h : c ≠ .pend j) :
    c.value { p with intPendRegs := Function.update p.intPendRegs j v } = c.value p := by
  cases c with
  | pend i => exact Function.update_of_ne (fun hi => h (congrArg PlicCell.pend hi)) _ _
  | _ => rfl

/-- … of the enable bits, … -/
theorem value_writeEn {v : BitVec 32} (h : c ≠ .en j) :
    c.value { p with intEnRegs := Function.update p.intEnRegs j v } = c.value p := by
  cases c with
  | en i => exact Function.update_of_ne (fun hi => h (congrArg PlicCell.en hi)) _ _
  | _ => rfl

/-- … of the thresholds … -/
theorem value_writeThres {v : BitVec 32} (h : c ≠ .thres j) :
    c.value { p with intPrioThres := Function.update p.intPrioThres j v } = c.value p := by
  cases c with
  | thres i => exact Function.update_of_ne (fun hi => h (congrArg PlicCell.thres hi)) _ _
  | _ => rfl

/-- … and of `int_handling`. -/
theorem value_writeHandling {v : Bool} (h : c ≠ .handling j) :
    c.value { p with intHandling := Function.update p.intHandling j v } = c.value p := by
  cases c with
  | handling i =>
    have hi : i ≠ j := fun hi => h (congrArg PlicCell.handling hi)
    simp only [PlicCell.value, Function.update_of_ne hi]
  | _ => rfl

end Write

/-! ## The lists are footprints -/

section Footprint

variable {machHartCount : BitVec 16} {p q : PlicState}

/-- `plic_find_en` reads one cell. -/
theorem plicFindEn_congr {ctx : BitVec 16} {source : Nat}
    (h : (plicFindEnCell ctx source).value p = (plicFindEnCell ctx source).value q) :
    plicFindEn p ctx source = plicFindEn q ctx source := by
  unfold plicFindEn
  exact congrArg (·.getLsbD (source % 32)) h

/-- The tests of a round of `plic_try_int` give the same answer. -/
theorem tryCtx_congr {source i : Nat} (hprio : p.intPrioRegs source = q.intPrioRegs source)
    (h : AgreeOn (tryCtxCells p source i) p q) :
    (!p.intHandling i && p.intPrioThres i < p.intPrioRegs source &&
        plicFindEn p (BitVec.ofNat 16 i) source) =
      (!q.intHandling i && q.intPrioThres i < q.intPrioRegs source &&
        plicFindEn q (BitVec.ofNat 16 i) source) := by
  unfold tryCtxCells at h
  rw [agreeOn_cons] at h
  obtain ⟨hhandling, h⟩ := h
  rw [← handling_eq_of_value hhandling]
  by_cases hidle : p.intHandling i
  · rw [hidle]
    rfl
  · rw [if_neg hidle, agreeOn_cons] at h
    obtain ⟨hthres, h⟩ := h
    have hthres : p.intPrioThres i = q.intPrioThres i := hthres
    rw [← hthres, ← hprio]
    by_cases habove : p.intPrioThres i < p.intPrioRegs source
    · rw [if_pos habove, agreeOn_cons] at h
      rw [plicFindEn_congr h.1]
    · simp only [habove, decide_false, Bool.and_false, Bool.false_and]

/-- A notification reads `mip` alone. -/
theorem plicNotifyCtx_mip_congr (ctx : BitVec 16) (hmip : p.mip = q.mip) :
    (plicNotifyCtx p ctx).mip = (plicNotifyCtx q ctx).mip := by
  unfold plicNotifyCtx
  dsimp only
  rw [hmip]

/-- Two runs of `plic_try_int` have the registers of `p` and of `q`, and the same `mip`. -/
structure SameMip (p q t u : PlicState) : Prop where
  left : { t with mip := p.mip } = p
  right : { u with mip := q.mip } = q
  mip : t.mip = u.mip

/-- A round of `plic_try_int` keeps this. -/
theorem tryCtx_sameMip {t u : PlicState} {source i : Nat} (htu : SameMip p q t u)
    (hprio : p.intPrioRegs source = q.intPrioRegs source)
    (h : AgreeOn (tryCtxCells p source i) p q) :
    SameMip p q
      (if !t.intHandling i && t.intPrioThres i < p.intPrioRegs source &&
          plicFindEn t (BitVec.ofNat 16 i) source then
        plicNotifyCtx t (BitVec.ofNat 16 i) else t)
      (if !u.intHandling i && u.intPrioThres i < q.intPrioRegs source &&
          plicFindEn u (BitVec.ofNat 16 i) source then
        plicNotifyCtx u (BitVec.ofNat 16 i) else u) := by
  have ht : (!t.intHandling i && t.intPrioThres i < p.intPrioRegs source &&
      plicFindEn t (BitVec.ofNat 16 i) source) = (!p.intHandling i &&
        p.intPrioThres i < p.intPrioRegs source &&
        plicFindEn p (BitVec.ofNat 16 i) source) := by
    rw [← htu.left]
    rfl
  have hu : (!u.intHandling i && u.intPrioThres i < q.intPrioRegs source &&
      plicFindEn u (BitVec.ofNat 16 i) source) = (!q.intHandling i &&
        q.intPrioThres i < q.intPrioRegs source &&
        plicFindEn q (BitVec.ofNat 16 i) source) := by
    rw [← htu.right]
    rfl
  rw [ht, hu, ← tryCtx_congr hprio h]
  split
  · exact ⟨htu.left, htu.right, plicNotifyCtx_mip_congr _ htu.mip⟩
  · exact htu

/-- The interrupts that `plic_try_int` raises depend on the listed elements alone. -/
theorem plicTryInt_congr (hcount : machHartCount.toNat ≤ 32767) {source : BitVec 16}
    (h : AgreeOn (plicTryIntCells machHartCount source p) p q) (hmip : p.mip = q.mip) :
    (plicTryInt machHartCount source p).mip = (plicTryInt machHartCount source q).mip := by
  have hrange : min (plicCtxCount machHartCount) 65536 = plicCtxCount machHartCount := by
    unfold plicCtxCount
    omega
  unfold plicTryIntCells at h
  rw [agreeOn_cons, hrange] at h
  obtain ⟨hpend, h⟩ := h
  have hpend : p.intPendRegs (source.toNat / 32) = q.intPendRegs (source.toNat / 32) := hpend
  unfold plicTryInt
  rw [← hpend]
  by_cases hstop : (!(p.intPendRegs (source.toNat / 32)).getLsbD (source.toNat % 32)) = true
  · rw [if_pos hstop, if_pos hstop]
    exact hmip
  · rw [if_neg hstop, agreeOn_cons] at h
    obtain ⟨hprio, h⟩ := h
    rw [if_neg hstop, if_neg hstop]
    refine (List.foldl_rel (r := SameMip p q) ⟨rfl, rfl, hmip⟩ ?_).mip
    intro i hi t u htu
    exact tryCtx_sameMip htu hprio fun c hc => h c (List.mem_flatMap.mpr ⟨i, hi, hc⟩)

/-- `plic_try_int` writes to no array. -/
theorem plicTryInt_frame (source : BitVec 16) (c : PlicCell) :
    c.value (plicTryInt machHartCount source p) = c.value p := by
  have hnotify : ∀ (t : PlicState) ctx, c.value (plicNotifyCtx t ctx) = c.value t := by
    intro t ctx
    cases c <;> rfl
  unfold plicTryInt
  split
  · rfl
  · dsimp only
    refine List.foldlRecOn (motive := fun t => c.value t = c.value p) _ _ rfl fun t ht i _ => ?_
    split
    · rw [hnotify, ht]
    · exact ht

/-- A round of the claim loop depends on the listed elements alone. -/
theorem claimStep_congr {ctx : BitVec 16} {highest : BitVec 32 × Nat} {i : Nat}
    (h : AgreeOn (claimStepCells p ctx highest i) p q) :
    claimStep p ctx highest i = claimStep q ctx highest i := by
  unfold claimStepCells at h
  rw [agreeOn_cons] at h
  obtain ⟨hprio, h⟩ := h
  have hprio : p.intPrioRegs i = q.intPrioRegs i := hprio
  unfold claimStep
  rw [← hprio]
  by_cases hhigher : p.intPrioRegs i > highest.1
  · rw [if_pos hhigher, agreeOn_cons] at h
    rw [plicFindEn_congr h.1]
  · rw [if_neg hhigher, if_neg hhigher]

/-- The loop of a claim reads the cells listed for it, … -/
theorem claimLoop_congr {ctx : BitVec 16} {sources : List Nat} {highest : BitVec 32 × Nat}
    (h : AgreeOn (claimLoopCells p ctx sources highest) p q) :
    sources.foldl (claimStep p ctx) highest = sources.foldl (claimStep q ctx) highest := by
  induction sources generalizing highest with
  | nil => rfl
  | cons i sources ih =>
    rw [claimLoopCells, agreeOn_append] at h
    rw [List.foldl_cons, List.foldl_cons, ← claimStep_congr h.1]
    exact ih h.2

/-- … and a claim reads no more. -/
theorem plicClaim_congr {ctx : BitVec 64} (h : AgreeOn (plicClaimCells ctx p) p q) :
    (plicClaim ctx p).1 = (plicClaim ctx q).1 := by
  unfold plicClaimCells at h
  rw [agreeOn_append] at h
  unfold plicClaim
  rw [← claimLoop_congr h.1]
  dsimp only
  split <;> rfl

/-- What `plic_r` returns depends on the listed elements alone. -/
theorem plicR_congr {offset : BitVec 64} (h : AgreeOn (plicRCells machHartCount offset p) p q) :
    (plicR machHartCount offset p).1 = (plicR machHartCount offset q).1 := by
  unfold plicRCells at h
  unfold plicR
  dsimp only at h ⊢
  split_ifs at h ⊢
  · exact (agreeOn_cons.mp h).1
  · exact (agreeOn_cons.mp h).1
  · exact (agreeOn_cons.mp h).1
  · exact (agreeOn_cons.mp h).1
  · exact plicClaim_congr h
  · rfl

/-- A claim writes to no element but the listed ones. -/
theorem plicClaim_frame {ctx : BitVec 64} {c : PlicCell} (h : c ∉ plicClaimCells ctx p) :
    c.value (plicClaim ctx p).2 = c.value p := by
  unfold plicClaimCells at h
  unfold plicClaim
  dsimp only at h ⊢
  split
  · next hsource =>
    rw [if_pos hsource, List.mem_append, not_or, List.mem_cons, List.mem_singleton, not_or] at h
    obtain ⟨_, hhandling, hpend⟩ := h
    exact (value_writePend hpend).trans ((value_writeHandling hhandling).trans (by cases c <;> rfl))
  · cases c <;> rfl

/-- `plic_r` writes to no element but the listed ones. -/
theorem plicR_frame {offset : BitVec 64} {c : PlicCell}
    (h : c ∉ plicRCells machHartCount offset p) :
    c.value (plicR machHartCount offset p).2 = c.value p := by
  unfold plicRCells at h
  unfold plicR
  dsimp only at h ⊢
  split_ifs at h ⊢ with _ _ _ _ hclaim
  · rfl
  · rfl
  · rfl
  · rfl
  · exact plicClaim_frame h
  · rfl

/-- A conditional write to one element. -/
theorem value_ite {P : Prop} [Decidable P] {c d : PlicCell} (h : c ∉ if P then [d] else [])
    (hwrite : c ≠ d → c.value q = c.value p) : c.value (if P then q else p) = c.value p := by
  by_cases hP : P
  · rw [if_pos hP, List.mem_singleton] at h
    rw [if_pos hP, hwrite h]
  · rw [if_neg hP]

/-- `plic_w` writes to no element but the listed ones. -/
theorem plicW_frame {offset : BitVec 64} (data : BitVec 32) {c : PlicCell}
    (h : c ∉ plicWCells machHartCount offset) :
    c.value (plicW machHartCount offset data p) = c.value p := by
  unfold plicWCells at h
  extract_lets roffset at h
  rw [List.mem_append, not_or, List.mem_append, not_or, List.mem_append, not_or,
    List.mem_append, not_or] at h
  obtain ⟨⟨⟨⟨hprio, hpend⟩, hen⟩, hthres⟩, hhandling⟩ := h
  have hnotify : ∀ (t : PlicState) ctx, c.value (plicNotifyFinishCtx t ctx) = c.value t := by
    intro t ctx
    cases c <;> rfl
  unfold plicW
  extract_lets p₁ p₂ p₃ p₄
  -- one conditional write after the other
  have h₁ : c.value p₁ = c.value p := value_ite hprio value_writePrio
  have h₂ : c.value p₂ = c.value p₁ := value_ite hpend value_writePend
  have h₃ : c.value p₃ = c.value p₂ := value_ite hen value_writeEn
  have h₄ : c.value p₄ = c.value p₃ := value_ite hthres value_writeThres
  refine (value_ite hhandling fun hne => ?_).trans (h₄.trans (h₃.trans (h₂.trans h₁)))
  rw [hnotify]
  exact value_writeHandling hne

end Footprint

/-! ## When the elements exist -/

/-- The context of a page behind the enable registers. -/
def pageCtx (offset : BitVec 64) : Nat := offset.toNat / 0x1000 - 0x200

/-- What keeps a read in bounds: the enable word is one of the first `2 * n`, the context has
    a threshold, and a claim that looks at an enable word looks at one of the first `2 * n`. -/
structure PlicReadFits (machHartCount : BitVec 16) (offset : BitVec 64) (p : PlicState) :
    Prop where
  enable : 0x2000 ≤ offset.toNat → offset.toNat < 0x2000 + 0x400 * machHartCount.toNat →
    offset.toNat < 0x2000 + 8 * machHartCount.toNat
  threshold : 0x200000 ≤ offset.toNat → 0x2000 + 0x400 * machHartCount.toNat ≤ offset.toNat →
    offset.toNat % 0x1000 = 0 → pageCtx offset < plicCtxCount machHartCount
  claim : 0x200000 ≤ offset.toNat → 0x2000 + 0x400 * machHartCount.toNat ≤ offset.toNat →
    offset.toNat % 0x1000 = 4 → (∀ i < plicSourceCount, p.intPrioRegs i = 0) ∨
      0x20 * pageCtx offset < plicCtxCount machHartCount

/-- What keeps a write in bounds. -/
structure PlicWriteFits (machHartCount : BitVec 16) (offset : BitVec 64) : Prop where
  enable : 0x2000 ≤ offset.toNat → offset.toNat < 0x2000 + 0x100 * machHartCount.toNat →
    offset.toNat < 0x2000 + 8 * machHartCount.toNat
  page : 0x200000 ≤ offset.toNat → offset.toNat % 0x1000 = 0 ∨ offset.toNat % 0x1000 = 4 →
    pageCtx offset < plicCtxCount machHartCount

/-- What keeps `plic_try_int` in bounds: the source is one of the 16, or at least not
    pending, and no context with an enable word behind the first `2 * n` is idle with a
    threshold below the priority. -/
structure PlicTryIntFits (machHartCount : BitVec 16) (source : BitVec 16) (p : PlicState) :
    Prop where
  word : source.toNat < 32
  exists_of_pending : p.pending source.toNat = true → source.toNat < plicSourceCount
  enable : p.pending source.toNat = true → ∀ i < min (plicCtxCount machHartCount) 65536,
    p.intHandling i = false → p.intPrioThres i < p.intPrioRegs source.toNat →
    0x20 * i < plicCtxCount machHartCount

section Bounds

variable {machHartCount : BitVec 16} {offset : BitVec 64} {p : PlicState}

/-- The reduced offset as a number. -/
theorem offset_div_toNat : (offset / 4).toNat = offset.toNat / 4 := by
  rw [BitVec.toNat_udiv]
  rfl

/-- The comparison with 0x200000 as one of numbers, … -/
theorem page_ge_iff : offset ≥ 0x200000 ↔ 0x200000 ≤ offset.toNat := by
  show (0x200000 : BitVec 64).toNat ≤ offset.toNat ↔ _
  rfl

/-- … and the lower bits of the offset as a remainder. -/
theorem page_and_iff {k : Nat} (hk : k < 0x1000) :
    offset &&& 0xFFF = BitVec.ofNat 64 k ↔ offset.toNat % 0x1000 = k := by
  rw [← BitVec.toNat_inj, BitVec.toNat_and, BitVec.toNat_ofNat]
  show offset.toNat &&& (2 ^ 12 - 1) = _ ↔ _
  rw [Nat.and_two_pow_sub_one_eq_mod]
  omega

/-- The context of a page. -/
theorem offsetToCtx_toNat (h : 0x200000 ≤ offset.toNat) :
    (offsetToCtx offset).toNat = pageCtx offset := by
  have hlt := offset.isLt
  have hbase : (0x200 : BitVec 64).toNat = 0x200 := rfl
  unfold offsetToCtx pageCtx
  rw [BitVec.toNat_sub, BitVec.toNat_ushiftRight, Nat.shiftRight_eq_div_pow, hbase]
  omega

/-- One word of enable bits is allocated for each context. -/
theorem en_allocated_iff {i : Nat} :
    (PlicCell.en i).Allocated machHartCount ↔ i < plicCtxCount machHartCount := by
  have hwords : (plicSourceCount + 31) / 32 = 1 := rfl
  rw [PlicCell.Allocated, hwords, Nat.one_mul]

/-- The enable bits of a context are within bounds as far as the first contexts go. -/
theorem plicFindEnCell_allocated_iff {ctx : BitVec 16} {source : Nat}
    (hsource : source < plicSourceCount) :
    (plicFindEnCell ctx source).Allocated machHartCount ↔
      0x20 * ctx.toNat < plicCtxCount machHartCount := by
  rw [plicSourceCount] at hsource
  rw [plicFindEnCell, en_allocated_iff, Nat.div_eq_of_lt (by omega), Nat.add_zero]

/-- A round of `plic_try_int` for a context that exists. -/
theorem tryCtxCells_allocated {source i : Nat} (hsource : source < plicSourceCount)
    (hi : i < min (plicCtxCount machHartCount) 65536) :
    (∀ c ∈ tryCtxCells p source i, c.Allocated machHartCount) ↔
      (p.intHandling i = false → p.intPrioThres i < p.intPrioRegs source →
        0x20 * i < plicCtxCount machHartCount) := by
  rw [Nat.lt_min] at hi
  have hword : (BitVec.ofNat 16 i).toNat = i := by
    rw [BitVec.toNat_ofNat, Nat.mod_eq_of_lt hi.2]
  unfold tryCtxCells
  rw [List.forall_mem_cons]
  refine (and_iff_right hi.1).trans ?_
  by_cases hbusy : p.intHandling i = true
  · rw [if_pos hbusy, hbusy]
    simp only [List.not_mem_nil, false_imp_iff, implies_true, Bool.true_eq_false]
  · rw [if_neg hbusy, List.forall_mem_cons]
    refine (and_iff_right hi.1).trans ?_
    rw [Bool.not_eq_true] at hbusy
    by_cases habove : p.intPrioThres i < p.intPrioRegs source
    · rw [if_pos habove, List.forall_mem_singleton, plicFindEnCell_allocated_iff hsource, hword]
      exact ⟨fun h _ _ => h, fun h => h hbusy habove⟩
    · rw [if_neg habove]
      simp only [List.not_mem_nil, false_imp_iff, implies_true, habove]

/-- Trying a source stays within bounds if and only if it fits. -/
theorem plicTryIntCells_allocated {source : BitVec 16} :
    (∀ c ∈ plicTryIntCells machHartCount source p, c.Allocated machHartCount) ↔
      PlicTryIntFits machHartCount source p := by
  have hpending : p.pending source.toNat =
      (p.intPendRegs (source.toNat / 32)).getLsbD (source.toNat % 32) := rfl
  have hword : (PlicCell.pend (source.toNat / 32)).Allocated machHartCount ↔
      source.toNat < 32 := by
    show source.toNat / 32 < 1 ↔ _
    omega
  unfold plicTryIntCells
  rw [List.forall_mem_cons, hword, ← hpending]
  by_cases hpend : p.pending source.toNat = true
  · rw [hpend]
    simp only [Bool.not_true, Bool.false_eq_true, if_false]
    rw [List.forall_mem_cons]
    constructor
    · rintro ⟨hlt, hsource, hloop⟩
      refine ⟨hlt, fun _ => hsource, fun _ i hi => ?_⟩
      refine (tryCtxCells_allocated hsource hi).mp fun c hc => hloop c ?_
      exact List.mem_flatMap.mpr ⟨i, List.mem_range.mpr hi, hc⟩
    · intro h
      have hsource := h.exists_of_pending hpend
      refine ⟨h.word, hsource, fun c hc => ?_⟩
      obtain ⟨i, hi, hc⟩ := List.mem_flatMap.mp hc
      have hi := List.mem_range.mp hi
      exact (tryCtxCells_allocated hsource hi).mpr (h.enable hpend i hi) c hc
  · rw [Bool.not_eq_true] at hpend
    rw [hpend]
    simp only [Bool.not_false, if_true, List.not_mem_nil, false_imp_iff, implies_true, and_true]
    constructor
    · intro hlt
      exact ⟨hlt, fun h => absurd h (by rw [hpend]; decide),
        fun h => absurd h (by rw [hpend]; decide)⟩
    · exact fun h => h.word

/-! ## The claim loop -/

variable {ctx : BitVec 16} {sources : List Nat} {highest : BitVec 32 × Nat}

/-- Where the enable word of the context exists, the whole loop is in bounds. -/
theorem claimLoopCells_allocated (hsources : ∀ i ∈ sources, i < plicSourceCount)
    (hctx : 0x20 * ctx.toNat < plicCtxCount machHartCount) :
    ∀ c ∈ claimLoopCells p ctx sources highest, c.Allocated machHartCount := by
  induction sources generalizing highest with
  | nil => exact fun c hc => absurd hc List.not_mem_nil
  | cons i sources ih =>
    rw [List.forall_mem_cons] at hsources
    have hi : (PlicCell.prio i).Allocated machHartCount := hsources.1
    have hen : (plicFindEnCell ctx i).Allocated machHartCount :=
      (plicFindEnCell_allocated_iff hsources.1).mpr hctx
    rw [claimLoopCells, List.forall_mem_append]
    refine ⟨?_, ih hsources.2⟩
    unfold claimStepCells
    rw [List.forall_mem_cons]
    refine ⟨hi, ?_⟩
    split_ifs
    · exact List.forall_mem_cons.mpr ⟨hen, List.forall_mem_singleton.mpr hi⟩
    · exact List.forall_mem_singleton.mpr hen
    · exact fun c hc => absurd hc List.not_mem_nil

/-- Sources without a priority are passed over. -/
theorem claimLoopCells_of_zero (hsources : ∀ i ∈ sources, i < plicSourceCount)
    (hzero : ∀ i ∈ sources, p.intPrioRegs i = 0) :
    ∀ c ∈ claimLoopCells p ctx sources highest, c.Allocated machHartCount := by
  induction sources generalizing highest with
  | nil => exact fun c hc => absurd hc List.not_mem_nil
  | cons i sources ih =>
    rw [List.forall_mem_cons] at hsources hzero
    have hlow : ¬ p.intPrioRegs i > highest.1 := by
      rw [hzero.1]
      exact BitVec.not_lt_zero
    rw [claimLoopCells, List.forall_mem_append]
    refine ⟨?_, ih hsources.2 hzero.2⟩
    unfold claimStepCells
    rw [if_neg hlow, List.forall_mem_singleton]
    exact hsources.1

/-- The first source with a priority is looked up among the enable words. -/
theorem mem_claimLoopCells (hhighest : highest.1 = 0) (h : ∃ i ∈ sources, p.intPrioRegs i ≠ 0) :
    ∃ i ∈ sources, plicFindEnCell ctx i ∈ claimLoopCells p ctx sources highest := by
  induction sources generalizing highest with
  | nil =>
    obtain ⟨i, hi, -⟩ := h
    exact absurd hi List.not_mem_nil
  | cons i sources ih =>
    rw [claimLoopCells]
    by_cases hi : p.intPrioRegs i > highest.1
    · refine ⟨i, List.mem_cons_self, List.mem_append_left _ ?_⟩
      unfold claimStepCells
      rw [if_pos hi]
      exact List.mem_cons_of_mem _ List.mem_cons_self
    · have hzero : p.intPrioRegs i = 0 := by
        rw [hhighest] at hi
        exact BitVec.eq_of_toNat_eq (Nat.eq_zero_of_not_pos hi)
      have hstep : claimStep p ctx highest i = highest := by
        unfold claimStep
        rw [if_neg hi]
      have hrest : ∃ j ∈ sources, p.intPrioRegs j ≠ 0 := by
        obtain ⟨j, hj, hne⟩ := h
        rcases List.mem_cons.mp hj with rfl | hj
        · exact absurd hzero hne
        · exact ⟨j, hj, hne⟩
      obtain ⟨j, hj, hmem⟩ := ih hhighest hrest
      rw [hstep]
      exact ⟨j, List.mem_cons_of_mem _ hj, List.mem_append_right _ hmem⟩

/-- The loop selects one of the sources. -/
theorem claimLoop_lt :
    ((List.range plicSourceCount).foldl (claimStep p ctx) (0, 0)).2 < plicSourceCount := by
  refine List.foldlRecOn (motive := fun b : BitVec 32 × Nat => b.2 < plicSourceCount) _ _
    (by decide) fun b hb i hi => ?_
  unfold claimStep
  split_ifs
  · exact List.mem_range.mp hi
  · exact hb
  · exact hb

/-- Without a priority nothing is claimed. -/
theorem claimLoop_of_zero (hzero : ∀ i ∈ sources, p.intPrioRegs i = 0) :
    sources.foldl (claimStep p ctx) (0, 0) = (0, 0) := by
  refine List.foldlRecOn (motive := fun b => b = (0, 0)) _ _ rfl fun b hb i hi => ?_
  rw [hb, claimStep, hzero i hi]
  exact if_neg BitVec.not_lt_zero

omit ctx in
/-- A claim is in bounds if no source has a priority, or the enable word of the context
    exists. -/
theorem plicClaimCells_allocated {ctx : BitVec 64} (hctx : ctx.toNat < 65536) :
    (∀ c ∈ plicClaimCells ctx p, c.Allocated machHartCount) ↔
      (∀ i < plicSourceCount, p.intPrioRegs i = 0) ∨
        0x20 * ctx.toNat < plicCtxCount machHartCount := by
  have hctx16 : (ctx.setWidth 16).toNat = ctx.toNat := by
    rw [BitVec.toNat_setWidth, Nat.mod_eq_of_lt hctx]
  have hrange : ∀ i ∈ List.range plicSourceCount, i < plicSourceCount :=
    fun i hi => List.mem_range.mp hi
  unfold plicClaimCells
  dsimp only
  rw [List.forall_mem_append]
  constructor
  · rintro ⟨hloop, -⟩
    by_contra hnot
    rw [not_or] at hnot
    obtain ⟨hprio, hen⟩ := hnot
    push Not at hprio
    obtain ⟨i, hi, hne⟩ := hprio
    obtain ⟨j, hj, hmem⟩ := @mem_claimLoopCells p (ctx.setWidth 16) _ (0, 0) rfl
      ⟨i, List.mem_range.mpr hi, hne⟩
    have halloc := (plicFindEnCell_allocated_iff (hrange j hj)).mp (hloop _ hmem)
    rw [hctx16] at halloc
    exact hen halloc
  · rintro (hzero | hen)
    · have hzero' : ∀ i ∈ List.range plicSourceCount, p.intPrioRegs i = 0 :=
        fun i hi => hzero i (hrange i hi)
      refine ⟨claimLoopCells_of_zero hrange hzero', ?_⟩
      rw [claimLoop_of_zero hzero', if_neg (not_not.mpr rfl)]
      exact fun c hc => absurd hc List.not_mem_nil
    · refine ⟨claimLoopCells_allocated hrange (by rw [hctx16]; exact hen), ?_⟩
      split_ifs
      · have hctx' : ctx.toNat < plicCtxCount machHartCount := by omega
        refine List.forall_mem_cons.mpr ⟨hctx', List.forall_mem_singleton.mpr ?_⟩
        have hlt := @claimLoop_lt p (ctx.setWidth 16)
        exact Nat.div_lt_of_lt_mul (hlt.trans_le (by decide))
      · exact fun c hc => absurd hc List.not_mem_nil

/-- The register of the threshold … -/
theorem page_zero_iff : offset &&& 0xFFF = 0 ↔ offset.toNat % 0x1000 = 0 :=
  page_and_iff (by decide)

/-- … and that of the claim. -/
theorem page_four_iff : offset &&& 0xFFF = 4 ↔ offset.toNat % 0x1000 = 4 :=
  page_and_iff (by decide)

/-- A read stays within bounds if and only if it fits, … -/
theorem plicRCells_allocated (hoffset : offset < 0x4000000) :
    (∀ c ∈ plicRCells machHartCount offset p, c.Allocated machHartCount) ↔
      PlicReadFits machHartCount offset p := by
  have hlt : offset.toNat < 0x4000000 := hoffset
  have hsources : plicSourceCount = 16 := rfl
  have hctxs : plicCtxCount machHartCount = 2 * machHartCount.toNat := rfl
  unfold plicRCells
  dsimp only
  simp only [offset_div_toNat, page_ge_iff, page_zero_iff, page_four_iff]
  split_ifs with hprio hpend hen hthres hclaim
  · rw [List.forall_mem_singleton]
    refine iff_of_true hprio ⟨fun _ _ => ?_, fun _ _ => ?_, fun _ _ => ?_⟩ <;> omega
  · rw [List.forall_mem_singleton]
    refine iff_of_true ?_ ⟨fun _ _ => ?_, fun _ _ => ?_, fun _ _ => ?_⟩
    · show _ < 1
      omega
    all_goals omega
  · rw [List.forall_mem_singleton, en_allocated_iff]
    constructor
    · intro h
      refine ⟨fun _ _ => ?_, fun _ _ => ?_, fun _ _ => ?_⟩ <;> omega
    · intro h
      have henable := h.enable
      omega
  · rw [List.forall_mem_singleton, offsetToCtx_toNat hthres.1]
    constructor
    · intro h
      refine ⟨fun _ _ => ?_, fun _ _ _ => h, fun _ _ _ => ?_⟩ <;> omega
    · intro h
      exact h.threshold hthres.1 (by omega) hthres.2
  · have hpage : pageCtx offset < 65536 := by
      unfold pageCtx
      omega
    have hctx := lt_of_eq_of_lt (offsetToCtx_toNat hclaim.1) hpage
    rw [plicClaimCells_allocated hctx, offsetToCtx_toNat hclaim.1]
    constructor
    · intro h
      refine ⟨fun _ _ => ?_, fun _ _ _ => ?_, fun _ _ _ => h⟩ <;> omega
    · intro h
      exact h.claim hclaim.1 (by omega) hclaim.2
  · refine iff_of_true (fun c hc => absurd hc List.not_mem_nil)
      ⟨fun _ _ => ?_, fun _ _ _ => ?_, fun _ _ _ => ?_⟩ <;> omega

/-- A list of at most one element. -/
theorem ite_allocated_iff {P : Prop} [Decidable P] {c : PlicCell} :
    (∀ d ∈ (if P then [c] else []), d.Allocated machHartCount) ↔
      (P → c.Allocated machHartCount) := by
  split_ifs with hP
  · rw [List.forall_mem_singleton]
    exact ⟨fun h _ => h, fun h => h hP⟩
  · exact iff_of_true (fun d hd => absurd hd List.not_mem_nil) fun h => absurd h hP

/-- … and so does a write. -/
theorem plicWCells_allocated :
    (∀ c ∈ plicWCells machHartCount offset, c.Allocated machHartCount) ↔
      PlicWriteFits machHartCount offset := by
  have hsources : plicSourceCount = 16 := rfl
  have hctxs : plicCtxCount machHartCount = 2 * machHartCount.toNat := rfl
  unfold plicWCells
  dsimp only
  simp only [List.forall_mem_append, ite_allocated_iff]
  rw [offset_div_toNat, page_ge_iff, page_zero_iff, page_four_iff, en_allocated_iff]
  constructor
  · rintro ⟨⟨⟨_, hen⟩, hthres⟩, hhandling⟩
    refine ⟨fun _ _ => ?_, fun hge hpage => ?_⟩
    · omega
    · rw [offsetToCtx_toNat hge] at hthres hhandling
      exact hpage.elim (fun h => hthres ⟨hge, h⟩) fun h => hhandling ⟨hge, h⟩
  · intro h
    have henable := h.enable
    refine ⟨⟨⟨⟨fun hprio => hprio, fun hpend => ?_⟩, fun hen => ?_⟩, fun hthres => ?_⟩,
      fun hhandling => ?_⟩
    · show _ < 1
      omega
    · omega
    · rw [offsetToCtx_toNat hthres.1]
      exact h.page hthres.1 (.inl hthres.2)
    · rw [offsetToCtx_toNat hhandling.1]
      exact h.page hhandling.1 (.inr hhandling.2)

end Bounds

/-! ## All accesses -/

/-- A read and a write at the offset, and a call of `plic_try_int`, use only elements that
    exist. -/
structure PlicInBounds (machHartCount : BitVec 16) (offset : BitVec 64) (source : BitVec 16)
    (p : PlicState) : Prop where
  read : ∀ c ∈ plicRCells machHartCount offset p, c.Allocated machHartCount
  write : ∀ c ∈ plicWCells machHartCount offset, c.Allocated machHartCount
  tryInt : ∀ c ∈ plicTryIntCells machHartCount source p, c.Allocated machHartCount

/-- What keeps all three in bounds. -/
structure PlicFits (machHartCount : BitVec 16) (offset : BitVec 64) (source : BitVec 16)
    (p : PlicState) : Prop where
  read : PlicReadFits machHartCount offset p
  write : PlicWriteFits machHartCount offset
  tryInt : PlicTryIntFits machHartCount source p

/-- The indices of a read and a write at any offset of the window, and of any call of
    `plic_try_int`, are in bounds exactly if the condition holds. -/
theorem plicInBounds_iff (machHartCount : BitVec 16) (offset : BitVec 64)
    (hoffset : offset < 0x4000000) (source : BitVec 16) (p : PlicState) :
    PlicInBounds machHartCount offset source p ↔ PlicFits machHartCount offset source p := by
  constructor
  · intro h
    exact ⟨(plicRCells_allocated hoffset).mp h.read, plicWCells_allocated.mp h.write,
      plicTryIntCells_allocated.mp h.tryInt⟩
  · intro h
    exact ⟨(plicRCells_allocated hoffset).mpr h.read, plicWCells_allocated.mpr h.write,
      plicTryIntCells_allocated.mpr h.tryInt⟩

/-- One hart, and nothing pending. -/
private def oneHart : PlicState :=
  plicInit 1 ⟨fun _ => 0, fun _ => 0, fun _ => 0, fun _ => 0, fun _ => false, 0, fun _ => 0⟩

/-- M-mode of the only hart reads its first enable word. -/
theorem plicInBounds_iff_firstWord : PlicInBounds 1 0x2000 10 oneHart :=
  (plicInBounds_iff 1 0x2000 (by decide) 10 oneHart).mpr
    { read := ⟨by decide, by decide, by decide⟩
      write := ⟨by decide, by decide⟩
      tryInt := ⟨by decide, by decide, by decide⟩ }

/-- The first enable word of S-mode of the only hart is behind the two that exist. -/
theorem plicInBounds_secondContext : ¬ PlicInBounds 1 0x2080 10 oneHart := by
  intro h
  have hread := h.read (.en 0x20) (by decide)
  exact absurd hread (by unfold PlicCell.Allocated; decide)

end RvEmu
