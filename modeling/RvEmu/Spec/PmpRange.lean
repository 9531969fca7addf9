import RvEmu.Spec.PmpCheck

/-!
# PMP checks of ranges

`chk_pmp_range_exp` looks at the two ends of a range. Its search is that of
`chk_pmp_range` on the registers, but its shortcut grants a range that crosses the
boundary of an entry which permits everything. Neither of the two sees an entry that
lies strictly inside the range.
-/

namespace RvEmu

variable {δ : Type}

/-! ## The check on the registers -/

section Raw

variable (env : Env δ) (p : PmpState) (privmode : BitVec 2) (addrl addrh : BitVec 64)

/-- The tests of `chk_pmp_range` on `pmpcfg` are those that `sync_exp_pmp` has made. -/
theorem cfg_tests (cfg : BitVec 8) :
    (cfg &&& 0b11000 = 0 ↔ (cfg &&& 0b11000) >>> 3 = 0) ∧
      (cfg >>> 3) &&& (0b11 : BitVec 8) = (cfg &&& 0b11000) >>> 3 ∧
      (cfg &&& (1#8 <<< 7) = 0 ↔ (cfg >>> 7 == 1) = false) := by
  revert cfg
  decide +kernel

/-- The search on the registers is the search on the table made from them. -/
theorem chkPmpRangeLoop_eq (l : List (Fin 16)) :
    chkPmpRangeLoop env (syncExpPmp env p) privmode addrl addrh l =
      chkPmpRangeExpLoop (syncExpPmp env p) privmode addrl addrh l := by
  -- both loops skip the same entries and test the same bounds, so an entry decides both alike
  induction l with
  | nil => rfl
  | cons i l ih =>
    obtain ⟨hoff, hmode, hlock⟩ := cfg_tests (p.pmpcfg i)
    have hcfg : (syncExpPmp env p).pmpcfg i = p.pmpcfg i := by
      rw [syncExpPmp_eq]
      rfl
    have hbounds (m : BitVec 8) : pmpBounds env (syncExpPmp env p) i m = pmpBounds env p i m := by
      rw [syncExpPmp_eq]
      rfl
    simp only [chkPmpRangeLoop, chkPmpRangeExpLoop, ih, syncExpPmp_entry_eq, hcfg, hbounds,
      hmode, hoff, hlock, expandPmp]
    by_cases h : (p.pmpcfg i &&& 0b11000) >>> 3 = 0
    · rw [if_pos h, if_pos h]
      rfl
    · rw [if_neg h, if_neg h]
      have hactive : ¬ (privmode = 3 ∧ (p.pmpcfg i >>> 7 == 1) = false) ↔
          (true && (privmode != 3 || p.pmpcfg i >>> 7 == 1)) = true := by
        cases p.pmpcfg i >>> 7 == 1 <;> simp
      simp only [ExpPMP.active, ExpPMP.covers, ← hactive, ite_not]
      rfl

theorem chkPmpRange_eq :
    chkPmpRange env (syncExpPmp env p) privmode addrl addrh =
      chkPmpRangeExpLoop (syncExpPmp env p) privmode addrl addrh (List.finRange 16) :=
  chkPmpRangeLoop_eq env p privmode addrl addrh _

end Raw

/-! ## Ranges that cross a boundary -/

/-- Below M-mode, with an entry that permits everything everywhere and none that
    restricts on one side of the range, the first entry that contains an end of the range
    does not contain the other. -/
structure CrossesRwx (p : PmpState) (privmode : BitVec 2) (addrl addrh : BitVec 64) : Prop where
  user : privmode ≠ 3
  whole : ∃ i, (p.pmpExpanded i).WholeRwx
  clear : (∀ i, (p.pmpExpanded i).Restricts → (p.pmpExpanded i).ubound < addrl) ∨
    ∀ i, (p.pmpExpanded i).Restricts → addrh < (p.pmpExpanded i).lbound
  crossed : ∃ i, (p.pmpExpanded i).enable = true ∧
    (p.pmpExpanded i).covers addrl ≠ (p.pmpExpanded i).covers addrh ∧
    ∀ j < i, (p.pmpExpanded j).enable = true →
      (p.pmpExpanded j).covers addrl = false ∧ (p.pmpExpanded j).covers addrh = false

section Crossing

variable (env : Env δ) (p : PmpState) {privmode : BitVec 2} {addrl addrh : BitVec 64}

theorem coversEnd_inside (hle : addrl ≤ addrh) (e : ExpPMP) (h : e.coversEnd addrl addrh = true) :
    ∃ x, addrl ≤ x ∧ x ≤ addrh ∧ e.covers x = true := by
  rcases Bool.or_eq_true_iff.mp h with h | h
  · exact ⟨addrl, BitVec.le_refl addrl, hle, h⟩
  · exact ⟨addrh, hle, BitVec.le_refl addrh, h⟩

theorem shortcut_iff_clear (htop : addrh < 0xffffffffffffffff) :
    (syncExpPmp env p).shortcut addrl addrh = true ↔
      (∃ i, ((syncExpPmp env p).pmpExpanded i).WholeRwx) ∧
        ((∀ i, ((syncExpPmp env p).pmpExpanded i).Restricts →
            ((syncExpPmp env p).pmpExpanded i).ubound < addrl) ∨
          ∀ i, ((syncExpPmp env p).pmpExpanded i).Restricts →
            addrh < ((syncExpPmp env p).pmpExpanded i).lbound) := by
  rw [shortcut_iff]
  refine and_congr_right fun _ => ⟨fun h => h.imp (·.2) (·.2), fun h => ?_⟩
  rcases h with h | h
  · by_cases hpos : 0 < addrl
    · exact .inl ⟨hpos, h⟩
    · -- a range from 0 on has nothing below it, so nothing restricts
      refine .inr ⟨htop, fun i hi => absurd (h i hi) ?_⟩
      bv_omega
  · exact .inr ⟨htop, h⟩

/-- Below M-mode the search meets the first entry that contains an end. -/
theorem firstActive_coversEnd {q : PmpState} (hpriv : privmode ≠ 3) {i : Fin 16}
    (hen : (q.pmpExpanded i).enable = true)
    (hend : (q.pmpExpanded i).coversEnd addrl addrh = true)
    (hfirst : ∀ j < i, (q.pmpExpanded j).enable = true →
      (q.pmpExpanded j).covers addrl = false ∧ (q.pmpExpanded j).covers addrh = false) :
    q.firstActive privmode (ExpPMP.coversEnd addrl addrh) = some i := by
  rw [firstActive_eq_some]
  refine ⟨⟨active_of_enable hen hpriv, hend⟩, fun j hj hact => ?_⟩
  obtain ⟨hl, hh⟩ := hfirst j hj (enable_of_active hact)
  rw [ExpPMP.coversEnd, hl, hh]
  rfl

/-- The first entry that contains an end is the only candidate for a crossing. -/
theorem crossed_iff {q : PmpState} (hpriv : privmode ≠ 3) {i : Fin 16}
    (hfirst : q.firstActive privmode (ExpPMP.coversEnd addrl addrh) = some i) :
    (∃ j, (q.pmpExpanded j).enable = true ∧
        (q.pmpExpanded j).covers addrl ≠ (q.pmpExpanded j).covers addrh ∧
        ∀ j' < j, (q.pmpExpanded j').enable = true →
          (q.pmpExpanded j').covers addrl = false ∧ (q.pmpExpanded j').covers addrh = false) ↔
      (q.pmpExpanded i).covers addrl ≠ (q.pmpExpanded i).covers addrh := by
  obtain ⟨⟨hact, -⟩, hbefore⟩ := firstActive_eq_some.mp hfirst
  constructor
  -- an entry with one end inside contains an end, so it is the first one that does
  · rintro ⟨j, hen, hne, hfirst'⟩
    have hend : (q.pmpExpanded j).coversEnd addrl addrh = true := by
      rw [ExpPMP.coversEnd]
      cases hl : (q.pmpExpanded j).covers addrl
      · rw [hl] at hne
        rw [← Bool.not_eq_false, Bool.false_or]
        exact hne.symm
      · rfl
    obtain rfl := Option.some.inj
      (hfirst.symm.trans (firstActive_coversEnd hpriv hen hend hfirst'))
    exact hne
  · intro hne
    refine ⟨i, enable_of_active hact, hne, fun j hj hen => ?_⟩
    exact Bool.or_eq_false_iff.mp (hbefore j hj (active_of_enable hen hpriv))

/-- Under the shortcut every range is granted, and by the search only one with both ends
    in the entry found. -/
theorem grantsBoth_iff {l h : Bool} (hend : (l || h) = true) :
    (∀ _ : Access, false = !(l && h)) ↔ l = h := by
  cases l <;> cases h
  · cases hend
  · exact iff_of_false (fun hgrant => Bool.noConfusion (hgrant .load)) Bool.noConfusion
  · exact iff_of_false (fun hgrant => Bool.noConfusion (hgrant .load)) Bool.noConfusion
  · exact iff_of_true (fun _ => rfl) rfl

/-- The checks of a range on the table and on the registers lead to the same verdict on
    every kind of access, unless the range crosses the boundary of an entry that permits
    everything, under the shortcut. -/
theorem pmp_range_agrees_iff (hle : addrl ≤ addrh) (htop : addrh < 0xffffffffffffffff) :
    (∀ k, pmpRangeFaults k privmode (chkPmpRangeExp (syncExpPmp env p) privmode addrl addrh) =
        pmpRangeFaults k privmode (chkPmpRange env (syncExpPmp env p) privmode addrl addrh)) ↔
      ¬ CrossesRwx (syncExpPmp env p) privmode addrl addrh := by
  have hmasked := syncExpPmp_masked env p
  rw [chkPmpRange_eq, chkPmpRangeExp_eq]
  by_cases hcut : (syncExpPmp env p).shortcut addrl addrh = true
  · obtain ⟨hwhole, hclear⟩ := (shortcut_iff_clear env p htop).mp hcut
    simp only [if_pos hcut, pmpRangeFaults_shortcut, pmpRangeFaults_loop _ _ _ hmasked]
    by_cases hpriv : privmode = 3
    · -- only locked entries take part in M-mode, and the shortcut is past all of them
      subst hpriv
      refine iff_of_true (fun k => ?_) fun h => h.user rfl
      rw [firstActive_shortcut_machine env p hcut (coversEnd_inside hle)]
      rfl
    · obtain ⟨i, hfirst, hrwx⟩ := firstActive_shortcut_user env p hpriv hcut
        (coversEnd_inside hle) fun e he => Bool.or_eq_true_iff.mpr (.inr (he.covers htop))
      have hcross := crossed_iff hpriv hfirst
      have hcrosses : CrossesRwx (syncExpPmp env p) privmode addrl addrh ↔
          ((syncExpPmp env p).pmpExpanded i).covers addrl ≠
            ((syncExpPmp env p).pmpExpanded i).covers addrh :=
        ⟨fun h => hcross.mp h.crossed, fun h => ⟨hpriv, hwhole, hclear, hcross.mpr h⟩⟩
      rw [hcrosses, not_not, hfirst]
      simp only [Option.elim_some, hrwx, getLsbD_permBit_rwx, Bool.and_true]
      exact grantsBoth_iff (firstActive_eq_some.mp hfirst).1.2
  · rw [if_neg hcut]
    refine iff_of_true (fun k => rfl) fun h => hcut ?_
    exact (shortcut_iff_clear env p htop).mpr ⟨h.whole, h.clear⟩

end Crossing

/-- Entry 0 with `cfg` up to 0x80001000 and above it an entry that permits everything. -/
private def rangeTable (cfg : BitVec 8) : PmpState :=
  let p := (resetState 0).pmp
  { p with
    pmpcfg := Function.update (Function.update p.pmpcfg 0 cfg) 1 0b00011111
    pmpaddr := Function.update (Function.update p.pmpaddr 0 0x20000400) 1 (BitVec.allOnes 64) }

/-- A doubleword below the boundary, in S-mode. -/
theorem pmp_range_agrees_below :
    (∀ k, pmpRangeFaults k 1
          (chkPmpRangeExp (syncExpPmp Env.inert (rangeTable 0b00001111)) 1 0x80000FF8 0x80000FFF) =
        pmpRangeFaults k 1
          (chkPmpRange Env.inert (syncExpPmp Env.inert (rangeTable 0b00001111)) 1 0x80000FF8
            0x80000FFF)) ↔
      ¬ CrossesRwx (syncExpPmp Env.inert (rangeTable 0b00001111)) 1 0x80000FF8 0x80000FFF :=
  pmp_range_agrees_iff Env.inert (rangeTable 0b00001111) (by decide) (by decide)

/-- A doubleword across the boundary is granted by the table, and faults by the
    registers. -/
theorem pmp_range_crossing_granted :
    ¬ ∀ (p : PmpState) privmode addrl addrh k,
      (∀ i, p.pmpaddr i ≠ 0xffffffffffffffff → ffsll (~~~p.pmpaddr i) + 1 < 64) →
      privmode ≠ 2 → addrl ≤ addrh → addrh < 0xffffffffffffffff →
      pmpRangeFaults k privmode (chkPmpRangeExp (syncExpPmp Env.inert p) privmode addrl addrh) =
        pmpRangeFaults k privmode
          (chkPmpRange Env.inert (syncExpPmp Env.inert p) privmode addrl addrh) := by
  intro h
  have hsame := h (rangeTable 0b00001111) 1 0x80000FFC 0x80001003 .load (by decide +kernel)
    (by decide) (by decide) (by decide)
  revert hsame
  decide +kernel

/-! ## Entries inside a range -/

/-- The ends of the range are in an entry that permits the access, and no entry of higher
    priority contains one of them; or no entry does at all, in M-mode. -/
def EndsPermitted (p : PmpState) (privmode : BitVec 2) (k : Access) (addrl addrh : BitVec 64) :
    Prop :=
  (privmode = 3 ∧ p.firstActive privmode (ExpPMP.coversEnd addrl addrh) = none) ∨
  ∃ i, p.firstActive privmode (ExpPMP.coversEnd addrl addrh) = some i ∧
    (p.pmpExpanded i).covers addrl = true ∧ (p.pmpExpanded i).covers addrh = true ∧
    (p.pmpExpanded i).lxwr.getLsbD k.permBit = true

/-- Entry `i` is the first to contain the byte at `addr`, it refuses the access, and it
    contains no end of the range. -/
structure RefusesInside (p : PmpState) (privmode : BitVec 2) (k : Access)
    (addrl addrh : BitVec 64) (i : Fin 16) (addr : BitVec 64) : Prop where
  low : addrl ≤ addr
  high : addr ≤ addrh
  first : p.firstActive privmode (·.covers addr) = some i
  inside : (p.pmpExpanded i).coversEnd addrl addrh = false
  refuses : (p.pmpExpanded i).lxwr.getLsbD k.permBit = false

section Inside

variable (env : Env δ) (p : PmpState) {privmode : BitVec 2} {addrl addrh : BitVec 64}

/-- An entry that contains both ends contains the range. -/
theorem covers_between {e : ExpPMP} {addr : BitVec 64} (hl : e.covers addrl = true)
    (hh : e.covers addrh = true) (hlow : addrl ≤ addr) (hhigh : addr ≤ addrh) :
    e.covers addr = true := by
  rw [ExpPMP.covers, Bool.and_eq_true, decide_eq_true_eq, decide_eq_true_eq] at hl hh ⊢
  exact ⟨BitVec.le_trans hl.1 hlow, Nat.lt_of_le_of_lt hhigh hh.2⟩

theorem shortcut_mono {q : PmpState} {addr : BitVec 64} (h : q.shortcut addrl addrh = true)
    (hlow : addrl ≤ addr) (hhigh : addr ≤ addrh) : q.shortcut addr addr = true := by
  rw [PmpState.shortcut, Bool.and_eq_true, Bool.or_eq_true, decide_eq_true_iff,
    decide_eq_true_iff] at h ⊢
  refine ⟨h.1, h.2.imp (fun h => ?_) fun h => ?_⟩
  · exact Nat.lt_of_lt_of_le h hlow
  · exact Nat.lt_of_le_of_lt hhigh h

/-- An entry that refuses an access to a byte of the range rules out the shortcut. -/
theorem not_shortcut_of_refuses {k : Access} {i : Fin 16} {addr : BitVec 64}
    (h : RefusesInside (syncExpPmp env p) privmode k addrl addrh i addr) {lo hi : BitVec 64}
    (hlo : lo ≤ addr) (hhi : addr ≤ hi) : ¬ (syncExpPmp env p).shortcut lo hi = true := by
  intro hcut
  obtain ⟨⟨hact, hcov⟩, -⟩ := firstActive_eq_some.mp h.first
  have hrwx := lxwr_of_shortcut env p hcut hlo hhi (enable_of_active hact) hcov
  have hrefuses := h.refuses
  rw [hrwx, getLsbD_permBit_rwx] at hrefuses
  cases hrefuses

/-- What the search grants to a range. -/
theorem endsPermitted_iff (k : Access)
    (hcut : ¬ (syncExpPmp env p).shortcut addrl addrh = true) :
    pmpRangeFaults k privmode (chkPmpRangeExp (syncExpPmp env p) privmode addrl addrh) = false ↔
      EndsPermitted (syncExpPmp env p) privmode k addrl addrh := by
  rw [chkPmpRangeExp_eq, if_neg hcut, pmpRangeFaults_loop k _ privmode (syncExpPmp_masked env p)]
  unfold EndsPermitted
  cases (syncExpPmp env p).firstActive privmode (ExpPMP.coversEnd addrl addrh) with
  | none =>
    have hmachine : decide (privmode < 3) = false ↔ privmode = 3 := by
      revert privmode
      decide
    simp only [Option.elim_none, hmachine, and_true, reduceCtorEq, false_and, exists_false, or_false]
  | some i =>
    simp only [Option.elim_some, Bool.not_eq_false', Bool.and_eq_true, reduceCtorEq, and_false,
      false_or, Option.some.injEq, exists_eq_left', and_assoc]

/-- What the search refuses to a byte. -/
theorem byteRefused_iff (k : Access) {addr : BitVec 64}
    (hcut : ¬ (syncExpPmp env p).shortcut addr addr = true) :
    pmpByteFaults k privmode (chkPmpExp (syncExpPmp env p) privmode addr) = true ↔
      (privmode ≤ 1 ∧ (syncExpPmp env p).firstActive privmode (·.covers addr) = none) ∨
      ∃ i, (syncExpPmp env p).firstActive privmode (·.covers addr) = some i ∧
        ((syncExpPmp env p).pmpExpanded i).lxwr.getLsbD k.permBit = false := by
  rw [chkPmpExp_eq, if_neg hcut, pmpByteFaults_loop]
  cases (syncExpPmp env p).firstActive privmode (·.covers addr) with
  | none =>
    simp only [Option.elim_none, decide_eq_true_eq, and_true, reduceCtorEq, false_and, exists_false,
      or_false]
  | some i =>
    simp only [Option.elim_some, Bool.not_eq_true', reduceCtorEq, and_false, false_or,
      Option.some.injEq, exists_eq_left']

/-- A byte that is refused within a range whose ends are permitted is refused by an entry
    inside the range. -/
theorem refusesInside_of_byteRefused {q : PmpState} {k : Access} {addr : BitVec 64} {i : Fin 16}
    (hends : EndsPermitted q privmode k addrl addrh) (hlow : addrl ≤ addr) (hhigh : addr ≤ addrh)
    (hfirst : q.firstActive privmode (·.covers addr) = some i)
    (hrefuses : (q.pmpExpanded i).lxwr.getLsbD k.permBit = false) :
    RefusesInside q privmode k addrl addrh i addr := by
  obtain ⟨⟨hacti, -⟩, hbeforei⟩ := firstActive_eq_some.mp hfirst
  rcases hends with ⟨-, hnone⟩ | ⟨j, hj, hl, hh, hbit⟩
  · exact ⟨hlow, hhigh, hfirst, firstActive_eq_none.mp hnone i hacti, hrefuses⟩
  · obtain ⟨⟨hactj, -⟩, hbeforej⟩ := firstActive_eq_some.mp hj
    have hcovj := covers_between hl hh hlow hhigh
    -- the entry of the byte comes before that of the ends, which contains the byte too
    rcases lt_trichotomy i j with hij | hij | hij
    · exact ⟨hlow, hhigh, hfirst, hbeforej i hij hacti, hrefuses⟩
    · rw [hij, hbit] at hrefuses
      cases hrefuses
    · rw [hbeforei j hij hactj] at hcovj
      cases hcovj

/-- Some entry contains a byte of a range whose ends are permitted, below M-mode. -/
theorem EndsPermitted.firstActive_ne_none {q : PmpState} {k : Access} {addr : BitVec 64}
    (hends : EndsPermitted q privmode k addrl addrh) (hlow : addrl ≤ addr) (hhigh : addr ≤ addrh)
    (hpriv : privmode ≤ 1) : q.firstActive privmode (·.covers addr) ≠ none := by
  intro hnone
  rcases hends with ⟨rfl, -⟩ | ⟨j, hj, hl, hh, -⟩
  · exact absurd hpriv (by decide)
  · have hfalse := firstActive_eq_none.mp hnone j (firstActive_eq_some.mp hj).1.1
    rw [covers_between hl hh hlow hhigh] at hfalse
    cases hfalse

/-- A range is granted only if each of its bytes is, unless an entry strictly inside the
    range refuses what the entry of the ends permits. -/
theorem pmp_range_sound_iff (k : Access) :
    (pmpRangeFaults k privmode (chkPmpRangeExp (syncExpPmp env p) privmode addrl addrh) = false →
        ∀ addr, addrl ≤ addr → addr ≤ addrh →
          pmpByteFaults k privmode (chkPmpExp (syncExpPmp env p) privmode addr) = false) ↔
      ¬ (EndsPermitted (syncExpPmp env p) privmode k addrl addrh ∧
        ∃ i addr, RefusesInside (syncExpPmp env p) privmode k addrl addrh i addr) := by
  constructor
  · rintro hsound ⟨hends, i, addr, h⟩
    have hrange := (endsPermitted_iff env p k (not_shortcut_of_refuses env p h h.low h.high)).mpr hends
    have hgranted := hsound hrange addr h.low h.high
    have hrefused := (byteRefused_iff env p k
      (not_shortcut_of_refuses env p h (BitVec.le_refl _) (BitVec.le_refl _))).mpr
        (.inr ⟨i, h.first, h.refuses⟩)
    rw [hgranted] at hrefused
    cases hrefused
  · intro hno hgrant addr hlow hhigh
    by_contra hfault
    -- neither the byte nor, then, the range is granted by the shortcut
    have hcut : ¬ (syncExpPmp env p).shortcut addr addr = true := by
      intro hcut
      rw [chkPmpExp_eq, if_pos hcut, pmpByteFaults_shortcut] at hfault
      exact hfault rfl
    have hends := (endsPermitted_iff env p k fun h => hcut (shortcut_mono h hlow hhigh)).mp hgrant
    rw [Bool.not_eq_false, byteRefused_iff env p k hcut] at hfault
    rcases hfault with ⟨hpriv, hnone⟩ | ⟨i, hfirst, hrefuses⟩
    · exact hends.firstActive_ne_none hlow hhigh hpriv hnone
    · exact hno ⟨hends, i, addr, refusesInside_of_byteRefused hends hlow hhigh hfirst hrefuses⟩

end Inside

/-- Entry 0 withholds the word at 0x80001004, entry 2 permits everything up to
    0x80002000. -/
private def insideTable : PmpState :=
  let p := (resetState 0).pmp
  { p with
    pmpcfg := Function.update (Function.update p.pmpcfg 0 0b00010000) 2 0b00001111
    pmpaddr := Function.update (Function.update p.pmpaddr 0 0x20000401) 2 0x20000800 }

/-- The misaligned doubleword at 0x80001002 may be loaded, the byte at 0x80001004 in it
    may not. -/
theorem pmp_range_skips_inside :
    ¬ ∀ (p : PmpState) privmode k (w : Width) a, privmode ≠ 2 →
      a ≤ a + BitVec.ofNat 64 w.bytes - 1 →
      pmpRangeFaults k privmode (chkPmpRangeExp (syncExpPmp Env.inert p) privmode a
        (a + BitVec.ofNat 64 w.bytes - 1)) = false →
      ∀ addr, a ≤ addr → addr ≤ a + BitVec.ofNat 64 w.bytes - 1 →
        pmpByteFaults k privmode (chkPmpExp (syncExpPmp Env.inert p) privmode addr) = false := by
  intro h
  have hbyte := h insideTable 1 .load .u64 0x80001002 (by decide) (by decide) (by decide +kernel)
    0x80001004 (by decide) (by decide)
  revert hbyte
  decide +kernel

end RvEmu
