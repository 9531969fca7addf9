import Mathlib.Logic.Equiv.Fin.Basic
import RvEmu.Spec.PmpMachine
import RvEmu.Spec.WalkPermission

/-!
# PMP checks as a search for an entry

Both checks on the expanded table look for the first entry that takes part and covers
the address, or one of the two ends of the range. Before that comes a shortcut for
tables that permit everything somewhere in the whole address space. For a single
address the shortcut never changes the verdict, and the check of one byte is the check
of a range whose ends are the same.
-/

namespace RvEmu

variable {δ : Type}

/-! ## Verdicts -/

/-- The bit of `L0000XWR` that permits an access. -/
def Access.permBit : Access → Nat
  | .load => 0 | .store => 1 | .fetch => 2

/-- The verdict that the one-byte accessors draw from the result of `chk_pmp_exp`. -/
def pmpByteFaults (k : Access) (privmode : BitVec 2) (pmpState : BitVec 16) : Bool :=
  (pmpState == 0xFFF0 && privmode ≤ 1) || !pmpState.getLsbD (6 + k.permBit)

/-- The verdict that the accessors draw from the result of a check of a range. -/
def pmpRangeFaults (k : Access) (privmode : BitVec 2) (pmpState : BitVec 8) : Bool :=
  pmpState == 0xF7 || (pmpState == 0xFF && privmode < 3) || !pmpState.getLsbD k.permBit

section Verdicts

variable (hs : HartState) (w : Width) (addr : BitVec 64)

/-- The byte accessors test the result of `chk_pmp_exp`, for a fetch … -/
theorem pmpRefusesFetch_u8 :
    pmpRefusesFetch .u8 hs addr =
      pmpByteFaults (.ofFlags false hs.memStatus) hs.privmode (chkPmpExp hs.pmp hs.privmode addr) := by
  simp only [pmpRefusesFetch, pmpByteFaults]
  cases hs.memStatus <;> simp [Access.ofFlags, Access.permBit]

/-- … and for a store, … -/
theorem pmpRefusesStore_u8 :
    pmpRefusesStore .u8 hs addr =
      pmpByteFaults .store hs.privmode (chkPmpExp hs.pmp hs.privmode addr) := rfl

/-- … the templates that of `chk_pmp_range_exp`, for a fetch … -/
theorem templateRefusesFetch_eq :
    templateRefusesFetch w hs addr =
      pmpRangeFaults (.ofFlags false hs.memStatus) hs.privmode
        (chkPmpRangeExp hs.pmp hs.privmode addr (addr + BitVec.ofNat 64 w.bytes - 1)) := by
  simp only [templateRefusesFetch, pmpRangeFaults]
  cases hs.memStatus <;> simp [Access.ofFlags, Access.permBit]

/-- … and for a store. -/
theorem templateRefusesStore_eq :
    templateRefusesStore w hs addr =
      pmpRangeFaults .store hs.privmode
        (chkPmpRangeExp hs.pmp hs.privmode addr (addr + BitVec.ofNat 64 w.bytes - 1)) := rfl

end Verdicts

/-! ## The search -/

section Search

variable (p : PmpState) (privmode : BitVec 2)

/-- The first entry, in the order of priority, that takes part in a check and satisfies
    `f`. -/
def PmpState.firstActive (f : ExpPMP → Bool) : Option (Fin 16) :=
  Fin.find? fun i => (p.pmpExpanded i).active privmode && f (p.pmpExpanded i)

variable {p privmode}

/-- The first active entry with a property has none before it, … -/
theorem firstActive_eq_some {f : ExpPMP → Bool} {i : Fin 16} :
    p.firstActive privmode f = some i ↔
      ((p.pmpExpanded i).active privmode = true ∧ f (p.pmpExpanded i) = true) ∧
        ∀ j < i, (p.pmpExpanded j).active privmode = true → f (p.pmpExpanded j) = false := by
  simp only [PmpState.firstActive, Fin.find?_eq_some_iff, Bool.and_eq_true]
  refine and_congr_right fun _ => forall₂_congr fun j _ => ?_
  cases (p.pmpExpanded j).active privmode <;> simp

/-- … and without one no active entry has the property. -/
theorem firstActive_eq_none {f : ExpPMP → Bool} :
    p.firstActive privmode f = none ↔
      ∀ j, (p.pmpExpanded j).active privmode = true → f (p.pmpExpanded j) = false := by
  simp only [PmpState.firstActive, Fin.find?_eq_none_iff]
  refine forall_congr' fun j => ?_
  cases (p.pmpExpanded j).active privmode <;> simp

variable (p privmode)

/-- The loop finds the first active entry that covers the byte, … -/
theorem chkPmpExpLoop_eq (addr : BitVec 64) :
    chkPmpExpLoop p privmode addr (List.finRange 16) =
      (p.firstActive privmode (·.covers addr)).elim (0xFFF0 : BitVec 16) fun i =>
        ((p.pmpExpanded i).lxwr.setWidth 16 <<< 6) + BitVec.ofNat 16 i := by
  rw [PmpState.firstActive, Fin.find?_eq_find?_finRange]
  induction List.finRange 16 with
  | nil => rfl
  | cons i l ih =>
    simp only [chkPmpExpLoop, List.find?_cons, ih]
    cases (p.pmpExpanded i).active privmode && (p.pmpExpanded i).covers addr <;> rfl

/-- The entry contains an end of the range. -/
def ExpPMP.coversEnd (addrl addrh : BitVec 64) (e : ExpPMP) : Bool :=
  e.covers addrl || e.covers addrh

/-- … and the loop for a range the first one that covers either end. -/
theorem chkPmpRangeExpLoop_eq (addrl addrh : BitVec 64) :
    chkPmpRangeExpLoop p privmode addrl addrh (List.finRange 16) =
      (p.firstActive privmode (ExpPMP.coversEnd addrl addrh)).elim (0xFF : BitVec 8) fun i =>
        if (p.pmpExpanded i).covers addrl && (p.pmpExpanded i).covers addrh then
          (p.pmpExpanded i).lxwr
        else 0xF7 := by
  rw [PmpState.firstActive, Fin.find?_eq_find?_finRange]
  -- the loop stops at the entry that the search finds
  induction List.finRange 16 with
  | nil => rfl
  | cons i l ih =>
    simp only [chkPmpRangeExpLoop, List.find?_cons, ih]
    cases (p.pmpExpanded i).active privmode
    · rfl
    · cases hl : (p.pmpExpanded i).covers addrl <;> cases hh : (p.pmpExpanded i).covers addrh <;>
        simp [ExpPMP.coversEnd, hl, hh]

end Search

/-! ## Verdicts of the search -/

section Verdict

variable (k : Access) (p : PmpState) (privmode : BitVec 2)

/-- The permissions stand above the number of the entry. -/
theorem pmpByteFaults_entry (lxwr : BitVec 8) (i : Fin 16) :
    pmpByteFaults k privmode ((lxwr.setWidth 16 <<< 6) + BitVec.ofNat 16 i) =
      !lxwr.getLsbD k.permBit := by
  -- the number takes the low four bits and never fills bits 15:6
  have hentry : ∀ (lxwr : BitVec 8) (i : Fin 16),
      (lxwr.setWidth 16 <<< 6) + BitVec.ofNat 16 i ≠ 0xFFF0 ∧
        ∀ k : Access, ((lxwr.setWidth 16 <<< 6) + BitVec.ofNat 16 i).getLsbD (6 + k.permBit) =
          lxwr.getLsbD k.permBit := by
    refine fun lxwr i => ⟨?_, fun k => ?_⟩
    · revert lxwr i
      decide +kernel
    · revert lxwr i
      cases k <;> decide +kernel
  obtain ⟨hne, hbit⟩ := hentry lxwr i
  rw [pmpByteFaults, beq_false_of_ne hne, hbit, Bool.false_and, Bool.false_or]

/-- Without an entry one byte is granted in modes 2 and 3 alone. -/
theorem pmpByteFaults_none : pmpByteFaults k privmode 0xFFF0 = decide (privmode ≤ 1) := by
  cases k <;> revert privmode <;> decide

/-- Without an entry a range is granted in M-mode alone. -/
theorem pmpRangeFaults_none : pmpRangeFaults k privmode 0xFF = decide (privmode < 3) := by
  cases k <;> revert privmode <;> decide

/-- One byte is granted by the entry found, and below M-mode only by one. -/
theorem pmpByteFaults_loop (addr : BitVec 64) :
    pmpByteFaults k privmode (chkPmpExpLoop p privmode addr (List.finRange 16)) =
      (p.firstActive privmode (·.covers addr)).elim (decide (privmode ≤ 1)) fun i =>
        !(p.pmpExpanded i).lxwr.getLsbD k.permBit := by
  rw [chkPmpExpLoop_eq]
  cases p.firstActive privmode (·.covers addr) with
  | none => exact pmpByteFaults_none k privmode
  | some i => exact pmpByteFaults_entry k privmode _ i

/-- The bits between L and XWR are clear in the enabled entries. -/
def PmpState.Masked (p : PmpState) : Prop :=
  ∀ i, (p.pmpExpanded i).enable = true → (p.pmpExpanded i).lxwr &&& 0b01111000 = 0

/-- The results for no entry and for a boundary are not permissions. -/
theorem pmpRangeFaults_entry {lxwr : BitVec 8} (h : lxwr &&& 0b01111000 = 0) :
    pmpRangeFaults k privmode lxwr = !lxwr.getLsbD k.permBit := by
  have hcross : lxwr ≠ 0xF7 := by
    rintro rfl
    exact absurd h (by decide)
  have hnone : lxwr ≠ 0xFF := by
    rintro rfl
    exact absurd h (by decide)
  rw [pmpRangeFaults, beq_false_of_ne hcross, beq_false_of_ne hnone]
  exact (Bool.false_or _).trans (Bool.false_or _)

/-- A range is granted by the entry found, if both ends are in it. -/
theorem pmpRangeFaults_loop (hp : p.Masked) (addrl addrh : BitVec 64) :
    pmpRangeFaults k privmode (chkPmpRangeExpLoop p privmode addrl addrh (List.finRange 16)) =
      (p.firstActive privmode (ExpPMP.coversEnd addrl addrh)).elim (decide (privmode < 3)) fun i =>
        !((p.pmpExpanded i).covers addrl && (p.pmpExpanded i).covers addrh &&
          (p.pmpExpanded i).lxwr.getLsbD k.permBit) := by
  rw [chkPmpRangeExpLoop_eq]
  cases hfirst : p.firstActive privmode (ExpPMP.coversEnd addrl addrh) with
  | none => exact pmpRangeFaults_none k privmode
  | some i =>
    have hact := (firstActive_eq_some.mp hfirst).1.1
    have hmask := hp i (Bool.and_eq_true_iff.mp hact).1
    show pmpRangeFaults k privmode (if _ then _ else _) = _
    -- 0xF7 stands for a range with one end outside
    cases hboth : (p.pmpExpanded i).covers addrl && (p.pmpExpanded i).covers addrh with
    | true =>
      rw [if_pos rfl, pmpRangeFaults_entry k privmode hmask]
      show _ = !(_ && _ && _)
      rw [hboth, Bool.true_and]
    | false =>
      show _ = !(_ && _ && _)
      rw [hboth]
      rfl

end Verdict

/-! ## The shortcut -/

/-- An enabled entry for the whole address space that permits everything. -/
structure ExpPMP.WholeRwx (e : ExpPMP) : Prop where
  enable : e.enable = true
  lbound : e.lbound = 0
  ubound : e.ubound = 0xffffffffffffffff
  lxwr : e.lxwr = 0b111

/-- An enabled entry that withholds a permission, or is locked. -/
structure ExpPMP.Restricts (e : ExpPMP) : Prop where
  enable : e.enable = true
  lxwr : e.lxwr ≠ 0b111

/-- An entry for the whole space covers every address but the last. -/
theorem ExpPMP.WholeRwx.covers {e : ExpPMP} (h : e.WholeRwx) {addr : BitVec 64}
    (haddr : addr < 0xffffffffffffffff) : e.covers addr = true := by
  rw [ExpPMP.covers, h.lbound, h.ubound, Bool.and_eq_true, decide_eq_true_eq, decide_eq_true_eq]
  exact ⟨Nat.zero_le addr.toNat, haddr⟩

/-- An unlocked entry, which is what RWX without L says, takes part below M-mode. -/
theorem active_of_enable {e : ExpPMP} {privmode : BitVec 2} (h : e.enable = true)
    (hpriv : privmode ≠ 3) : e.active privmode = true := by
  have hne : (privmode != 3) = true := bne_iff_ne.mpr hpriv
  rw [ExpPMP.active, h, hne]
  rfl

/-- An active entry is enabled. -/
theorem enable_of_active {e : ExpPMP} {privmode : BitVec 2} (h : e.active privmode = true) :
    e.enable = true := (Bool.and_eq_true_iff.mp h).1

/-- How one entry changes the summary. -/
theorem PmpSummary.add_iff (acc : PmpSummary) (e : ExpPMP) (a : BitVec 64) :
    ((acc.add e).1 = true ↔ acc.1 = true ∨ e.WholeRwx) ∧
      ((acc.add e).2.2 < a ↔ acc.2.2 < a ∧ (e.Restricts → e.ubound < a)) ∧
      (a < (acc.add e).2.1 ↔ a < acc.2.1 ∧ (e.Restricts → a < e.lbound)) := by
  obtain ⟨all, lo, hi⟩ := acc
  unfold PmpSummary.add
  -- an entry that is off changes nothing, one with RWX can set the first component,
  -- and any other one widens the bounds
  cases hen : e.enable with
  | false =>
    have hnot : ¬ e.Restricts := fun h => Bool.noConfusion (hen.symm.trans h.enable)
    have hwhole : ¬ e.WholeRwx := fun h => Bool.noConfusion (hen.symm.trans h.enable)
    simp [hnot, hwhole]
  | true =>
    by_cases hrwx : e.lxwr = 0b111
    · have hnot : ¬ e.Restricts := fun h => h.lxwr hrwx
      have hwhole : e.WholeRwx ↔ e.lbound = 0 ∧ e.ubound = 0xffffffffffffffff :=
        ⟨fun h => ⟨h.lbound, h.ubound⟩, fun h => ⟨hen, h.1, h.2, hrwx⟩⟩
      simp [hrwx, hnot, hwhole]
    · have hin : e.Restricts := ⟨hen, hrwx⟩
      have hwhole : ¬ e.WholeRwx := fun h => hrwx h.lxwr
      have hrwx' : (e.lxwr == 0b111) = false := beq_false_of_ne hrwx
      simp only [hrwx', hwhole, hin, Bool.and_false, Bool.or_false, Bool.not_false, Bool.and_true,
        decide_eq_true_eq, or_false, forall_const, ↓reduceIte, true_and]
      constructor
      · split <;> bv_omega
      · split <;> bv_omega

/-- What the summary of some entries says about them. -/
theorem PmpSummary.foldl_iff (l : List ExpPMP) (acc : PmpSummary) (a : BitVec 64) :
    ((l.foldl PmpSummary.add acc).1 = true ↔ acc.1 = true ∨ ∃ e ∈ l, e.WholeRwx) ∧
      ((l.foldl PmpSummary.add acc).2.2 < a ↔
        acc.2.2 < a ∧ ∀ e ∈ l, e.Restricts → e.ubound < a) ∧
      (a < (l.foldl PmpSummary.add acc).2.1 ↔
        a < acc.2.1 ∧ ∀ e ∈ l, e.Restricts → a < e.lbound) := by
  induction l generalizing acc with
  | nil => simp
  | cons e l ih =>
    obtain ⟨hall, hhi, hlo⟩ := ih (acc.add e)
    obtain ⟨hall', hhi', hlo'⟩ := acc.add_iff e a
    rw [List.foldl_cons, hall, hhi, hlo, hall', hhi', hlo']
    simp only [List.mem_cons, exists_eq_or_imp, forall_eq_or_imp, or_assoc, and_assoc, and_self]

/-- The test for the shortcut. -/
def PmpState.shortcut (p : PmpState) (addrl addrh : BitVec 64) : Bool :=
  p.pmpAllEnabled && (addrl > p.maxUbound || addrh < p.minLbound)

section Synced

variable (env : Env δ) (p : PmpState)

/-- The shortcut in terms of the entries: one permits everything everywhere, and those
    that restrict lie on one side of the range. -/
theorem shortcut_iff (addrl addrh : BitVec 64) :
    (syncExpPmp env p).shortcut addrl addrh = true ↔
      (∃ i, ((syncExpPmp env p).pmpExpanded i).WholeRwx) ∧
        ((0 < addrl ∧ ∀ i, ((syncExpPmp env p).pmpExpanded i).Restricts →
            ((syncExpPmp env p).pmpExpanded i).ubound < addrl) ∨
          (addrh < 0xffffffffffffffff ∧ ∀ i, ((syncExpPmp env p).pmpExpanded i).Restricts →
            addrh < ((syncExpPmp env p).pmpExpanded i).lbound)) := by
  -- the summary starts from the bounds of no entry at all
  have hall := (PmpSummary.foldl_iff ((List.finRange 16).map (expandPmp env p))
    (false, 0xffffffffffffffff, 0) addrl).1
  have hhi := (PmpSummary.foldl_iff ((List.finRange 16).map (expandPmp env p))
    (false, 0xffffffffffffffff, 0) addrl).2.1
  have hlo := (PmpSummary.foldl_iff ((List.finRange 16).map (expandPmp env p))
    (false, 0xffffffffffffffff, 0) addrh).2.2
  simp only [List.mem_map, List.mem_finRange, true_and, exists_exists_eq_and,
    forall_exists_index, forall_apply_eq_imp_iff, Bool.false_eq_true, false_or] at hall hhi hlo
  rw [PmpState.shortcut, Bool.and_eq_true, Bool.or_eq_true, decide_eq_true_iff,
    decide_eq_true_iff, syncExpPmp_eq]
  exact and_congr hall (or_congr hhi hlo)

/-- Under the shortcut only entries that permit everything cover an address of the
    range. -/
theorem lxwr_of_shortcut {addrl addrh addr : BitVec 64} {i : Fin 16}
    (h : (syncExpPmp env p).shortcut addrl addrh = true) (hl : addrl ≤ addr) (hh : addr ≤ addrh)
    (hen : ((syncExpPmp env p).pmpExpanded i).enable = true)
    (hcov : ((syncExpPmp env p).pmpExpanded i).covers addr = true) :
    ((syncExpPmp env p).pmpExpanded i).lxwr = 0b111 := by
  by_contra hne
  rw [ExpPMP.covers, Bool.and_eq_true, decide_eq_true_eq, decide_eq_true_eq] at hcov
  rcases ((shortcut_iff env p addrl addrh).mp h).2 with ⟨-, hside⟩ | ⟨-, hside⟩
  · have := hside i ⟨hen, hne⟩
    bv_omega
  · have := hside i ⟨hen, hne⟩
    bv_omega

/-- `sync_exp_pmp` expands entry by entry. -/
theorem syncExpPmp_entry_eq (i : Fin 16) :
    (syncExpPmp env p).pmpExpanded i = expandPmp env p i := by
  rw [syncExpPmp_eq]
  rfl

/-- In M-mode, where locked entries alone take part, the search finds nothing. -/
theorem firstActive_shortcut_machine {addrl addrh : BitVec 64} {f : ExpPMP → Bool}
    (h : (syncExpPmp env p).shortcut addrl addrh = true)
    (hf : ∀ e, f e = true → ∃ x, addrl ≤ x ∧ x ≤ addrh ∧ e.covers x = true) :
    (syncExpPmp env p).firstActive 3 f = none := by
  rw [firstActive_eq_none]
  intro j hact
  rw [active_machine, Bool.and_eq_true] at hact
  by_contra htrue
  obtain ⟨x, hl, hh, hcov⟩ := hf _ (Bool.eq_true_of_not_eq_false htrue)
  have hrwx := lxwr_of_shortcut env p h hl hh hact.1 hcov
  rw [syncExpPmp_entry_eq] at hact hrwx
  exact expandPmp_locked_lxwr hact.1 hact.2 hrwx

/-- Below M-mode it finds an entry that permits everything. -/
theorem firstActive_shortcut_user {privmode : BitVec 2} {addrl addrh : BitVec 64}
    {f : ExpPMP → Bool} (hpriv : privmode ≠ 3)
    (h : (syncExpPmp env p).shortcut addrl addrh = true)
    (hf : ∀ e, f e = true → ∃ x, addrl ≤ x ∧ x ≤ addrh ∧ e.covers x = true)
    (hwhole : ∀ e : ExpPMP, e.WholeRwx → f e = true) :
    ∃ i, (syncExpPmp env p).firstActive privmode f = some i ∧
      ((syncExpPmp env p).pmpExpanded i).lxwr = 0b111 := by
  obtain ⟨w, hw⟩ := ((shortcut_iff env p addrl addrh).mp h).1
  -- the entry for everything is found if no other is
  cases hfirst : (syncExpPmp env p).firstActive privmode f with
  | none =>
    have hfalse := firstActive_eq_none.mp hfirst w (active_of_enable hw.enable hpriv)
    rw [hwhole _ hw] at hfalse
    cases hfalse
  | some i =>
    obtain ⟨⟨hact, htrue⟩, -⟩ := firstActive_eq_some.mp hfirst
    obtain ⟨x, hl, hh, hcov⟩ := hf _ htrue
    exact ⟨i, rfl, lxwr_of_shortcut env p h hl hh (enable_of_active hact) hcov⟩

/-! ## One address -/

/-- The shortcut, or else the loop, for a byte … -/
theorem chkPmpExp_eq (q : PmpState) (privmode : BitVec 2) (addr : BitVec 64) :
    chkPmpExp q privmode addr =
      if q.shortcut addr addr then 0b111#16 <<< 6
      else chkPmpExpLoop q privmode addr (List.finRange 16) := rfl

/-- … and for a range. -/
theorem chkPmpRangeExp_eq (q : PmpState) (privmode : BitVec 2) (addrl addrh : BitVec 64) :
    chkPmpRangeExp q privmode addrl addrh =
      if q.shortcut addrl addrh then 0b111
      else chkPmpRangeExpLoop q privmode addrl addrh (List.finRange 16) := rfl

/-- The shortcut grants one byte … -/
theorem pmpByteFaults_shortcut (k : Access) (privmode : BitVec 2) :
    pmpByteFaults k privmode (0b111#16 <<< 6) = false := by
  cases k <;> revert privmode <;> decide

/-- … and a range. -/
theorem pmpRangeFaults_shortcut (k : Access) (privmode : BitVec 2) :
    pmpRangeFaults k privmode 0b111 = false := by
  cases k <;> revert privmode <;> decide

/-- All three permissions. -/
theorem getLsbD_permBit_rwx (k : Access) : (0b111 : BitVec 8).getLsbD k.permBit = true := by
  cases k <;> rfl

/-- For a single address the shortcut gives the verdict of the search. -/
theorem pmp_shortcut_sound (k : Access) (privmode : BitVec 2) {addr : BitVec 64}
    (haddr : addr < 0xffffffffffffffff) :
    pmpByteFaults k privmode (chkPmpExp (syncExpPmp env p) privmode addr) =
      pmpByteFaults k privmode
        (chkPmpExpLoop (syncExpPmp env p) privmode addr (List.finRange 16)) := by
  rw [chkPmpExp_eq]
  split
  · next hcut =>
    have hf (e : ExpPMP) (he : e.covers addr = true) :
        ∃ x, addr ≤ x ∧ x ≤ addr ∧ e.covers x = true :=
      ⟨addr, BitVec.le_refl addr, BitVec.le_refl addr, he⟩
    rw [pmpByteFaults_shortcut, pmpByteFaults_loop]
    -- in M-mode the search finds nothing, below it an entry with RWX: both grant
    by_cases hpriv : privmode = 3
    · subst hpriv
      rw [firstActive_shortcut_machine env p hcut hf]
      rfl
    · obtain ⟨i, hfirst, hrwx⟩ :=
        firstActive_shortcut_user env p hpriv hcut hf fun e he => he.covers haddr
      rw [hfirst]
      show false = !_
      rw [hrwx, getLsbD_permBit_rwx]
      rfl
  · rfl

end Synced

/-- A table with a restricted page below an entry for everything. -/
private def shortcutTable : PmpState :=
  let p := (resetState 0).pmp
  { p with
    pmpcfg := Function.update (Function.update p.pmpcfg 0 0b00010001) 1 0b00011111
    pmpaddr := Function.update (Function.update p.pmpaddr 0 0x20000400) 1 (BitVec.allOnes 64) }

/-- A load in S-mode. -/
theorem pmp_shortcut_sound_load :
    pmpByteFaults .load 1 (chkPmpExp (syncExpPmp Env.inert shortcutTable) 1 0x80002000) =
      pmpByteFaults .load 1 (chkPmpExpLoop (syncExpPmp Env.inert shortcutTable) 1 0x80002000
        (List.finRange 16)) :=
  pmp_shortcut_sound Env.inert shortcutTable .load 1 (by decide)

/-! ## One byte -/

/-- The same expanded table and summary. -/
structure PmpState.SameTable (p q : PmpState) : Prop where
  expanded : p.pmpExpanded = q.pmpExpanded
  summary : p.summary = q.summary

/-- The expanded table is the one of reset, or `sync_exp_pmp` has made it from some
    registers. -/
def PmpState.Expanded (env : Env δ) (p : PmpState) : Prop :=
  (∃ hartid, p.SameTable (resetState hartid).pmp) ∨ ∃ q, p.SameTable (syncExpPmp env q)

/-- `sync_exp_pmp` keeps L and XWR of a configuration byte alone. -/
theorem syncExpPmp_masked (env : Env δ) (p : PmpState) : (syncExpPmp env p).Masked := by
  intro i hen
  rw [syncExpPmp_entry_eq] at hen ⊢
  unfold expandPmp at hen ⊢
  by_cases hmode : (p.pmpcfg i &&& 0b11000) >>> 3 = 0
  · simp only [if_pos hmode] at hen
    cases hen
  · simp only [if_neg hmode]
    rw [BitVec.and_assoc]
    exact BitVec.and_zero

/-- What `sync_exp_pmp` leaves is expanded, … -/
theorem expanded_syncExpPmp (env : Env δ) (p : PmpState) : (syncExpPmp env p).Expanded env :=
  .inr ⟨p, rfl, rfl⟩

/-- … and has no permission bits beside R, W, X and L. -/
theorem PmpState.Expanded.masked {env : Env δ} {p : PmpState} (h : p.Expanded env) : p.Masked := by
  intro i hen
  rcases h with ⟨hartid, h⟩ | ⟨q, h⟩
  · rw [h.expanded] at hen
    cases hen
  · rw [h.expanded] at hen ⊢
    exact syncExpPmp_masked env q i hen

/-- The check of one address and that of a range of one byte. -/
theorem pmpByteFaults_eq_range {p : PmpState} (hp : p.Masked) (k : Access) {privmode : BitVec 2}
    (hpriv : privmode ≠ 2) (addr : BitVec 64) :
    pmpByteFaults k privmode (chkPmpExp p privmode addr) =
      pmpRangeFaults k privmode (chkPmpRangeExp p privmode addr addr) := by
  rw [chkPmpExp_eq, chkPmpRangeExp_eq]
  split
  · rw [pmpByteFaults_shortcut, pmpRangeFaults_shortcut]
  -- both ends of the range are the byte
  · have hends : ExpPMP.coversEnd addr addr = (·.covers addr) :=
      funext fun e => Bool.or_self (e.covers addr)
    rw [pmpByteFaults_loop, pmpRangeFaults_loop k p privmode hp, hends]
    cases hfirst : p.firstActive privmode (·.covers addr) with
    | none =>
      -- the two verdicts for no entry differ in mode 2 alone
      show decide (privmode ≤ 1) = decide (privmode < 3)
      clear hfirst
      revert privmode
      decide
    | some i =>
      have hcov := (firstActive_eq_some.mp hfirst).1.2
      show (!_) = !(_ && _ && _)
      rw [hcov, Bool.true_and, Bool.true_and]

/-- The byte specialisations of the accessors are the templates at one byte, if the
    table has been expanded; there is no privilege mode 2. -/
theorem byte_accessors_eq (env : Env δ) (s : Sys δ) (hpriv : s.hs.privmode ≠ 2)
    (hp : s.hs.pmp.Expanded env) (addr data : BitVec 64) :
    memFetch env .u8 s addr = memFetchTemplate env .u8 s addr ∧
      memStore env .u8 s addr data = memStoreTemplate env .u8 s addr data := by
  have hend : addr + BitVec.ofNat 64 Width.u8.bytes - 1 = addr := BitVec.add_sub_cancel addr 1
  have hfetch : pmpRefusesFetch .u8 s.hs addr = templateRefusesFetch .u8 s.hs addr := by
    rw [pmpRefusesFetch_u8, templateRefusesFetch_eq, hend]
    exact pmpByteFaults_eq_range hp.masked _ hpriv addr
  have hstore : pmpRefusesStore .u8 s.hs addr = templateRefusesStore .u8 s.hs addr := by
    rw [pmpRefusesStore_u8, templateRefusesStore_eq, hend]
    exact pmpByteFaults_eq_range hp.masked _ hpriv addr
  rw [memFetch, memFetchTemplate, memStore, memStoreTemplate, hfetch, hstore]
  exact ⟨rfl, rfl⟩

/-- Everything below 0x80001000 is readable. -/
private def readableBelow : PmpState :=
  { (resetState 0).pmp with
    pmpcfg := Function.update (fun _ => 0) 0 0b00001001
    pmpaddr := Function.update (fun _ => 0) 0 0x20000400 }

/-- S-mode about to load, with the table expanded. -/
private def syncedLoad : Sys Unit :=
  ⟨{ resetState 0 with
    privmode := 1, memStatus := true, pmp := syncExpPmp Env.inert readableBelow }, Bus.inert⟩

/-- A byte that may be loaded and not stored. -/
theorem byte_accessors_eq_synced :
    memFetch Env.inert .u8 syncedLoad 0x80000000 =
        memFetchTemplate Env.inert .u8 syncedLoad 0x80000000 ∧
      memStore Env.inert .u8 syncedLoad 0x80000000 7 =
        memStoreTemplate Env.inert .u8 syncedLoad 0x80000000 7 := by
  have hpmp : syncedLoad.hs.pmp.Expanded Env.inert := by
    dsimp only [syncedLoad]
    exact expanded_syncExpPmp Env.inert readableBelow
  exact byte_accessors_eq Env.inert syncedLoad (by decide) hpmp 0x80000000 7

end RvEmu
