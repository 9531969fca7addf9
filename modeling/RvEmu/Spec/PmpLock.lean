import RvEmu.Spec.PmpSync

/-!
# Locked PMP entries

The L bit of a PMP entry protects the entry itself, and `pmp_lockedaddr` the
address registers it depends on. The invariant `LockInv` ties the two arrays and
the expanded table together; with it no step changes a locked entry, as long as
`pmpcfg` is only accessed through the two CSRs that exist for 16 entries.
-/

namespace RvEmu

variable {δ : Type}

/-- The L bit of entry `i`. -/
def PmpState.Locked (p : PmpState) (i : Fin 16) : Prop := (p.pmpcfg i).getLsbD 7 = true

instance (p : PmpState) (i : Fin 16) : Decidable (p.Locked i) :=
  inferInstanceAs (Decidable (_ = true))

/-- The address registers that a locked entry depends on are locked. -/
structure PmpState.Guarded (p : PmpState) (i : Fin 16) : Prop where
  addr : p.Locked i → p.pmpLockedaddr i = true
  prev : p.Locked i → p.mode i = 1 → i ≠ 0 → p.pmpLockedaddr (i - 1) = true

/-- Every locked entry has its addresses locked and is expanded. -/
structure LockInv (env : Env δ) (p : PmpState) : Prop where
  guarded : ∀ i, p.Guarded i
  table : ∀ i, p.Locked i → p.pmpExpanded i = expandPmp env p i

/-- Entry `i` and what it depends on are the same in `p` and `q`. -/
structure SameEntry (p q : PmpState) (i : Fin 16) : Prop where
  cfg : q.pmpcfg i = p.pmpcfg i
  addr : q.pmpaddr i = p.pmpaddr i
  prev : p.mode i = 1 → i ≠ 0 → q.pmpaddr (i - 1) = p.pmpaddr (i - 1)
  expanded : q.pmpExpanded i = p.pmpExpanded i

/-- An entry is the same as before, … -/
theorem SameEntry.refl (p : PmpState) (i : Fin 16) : SameEntry p p i :=
  ⟨rfl, rfl, fun _ _ => rfl, rfl⟩

/-- … also in its mode, … -/
theorem SameEntry.mode {p q : PmpState} {i : Fin 16} (h : SameEntry p q i) :
    q.mode i = p.mode i := by
  rw [PmpState.mode, h.cfg, PmpState.mode]

/-- … and over two steps. -/
theorem SameEntry.trans {p q r : PmpState} {i : Fin 16} (h : SameEntry p q i)
    (h' : SameEntry q r i) : SameEntry p r i :=
  ⟨h'.cfg.trans h.cfg, h'.addr.trans h.addr,
    fun hm h0 => (h'.prev (h.mode.trans hm) h0).trans (h.prev hm h0),
    h'.expanded.trans h.expanded⟩

/-- The expansion of an entry depends on what `SameEntry` compares. -/
theorem SameEntry.expandPmp_eq {p q : PmpState} {i : Fin 16} (h : SameEntry p q i)
    (env : Env δ) : expandPmp env q i = expandPmp env p i := by
  have hbounds : pmpBounds env q i (p.mode i) = pmpBounds env p i (p.mode i) := by
    by_cases htor : p.mode i = 1
    · by_cases h0 : i = 0
      · simp only [pmpBounds, h0, ↓reduceIte, h0 ▸ h.addr]
      · simp only [pmpBounds, htor, h0, ↓reduceIte, h.addr, h.prev htor h0]
    · simp only [pmpBounds, if_neg htor, h.addr]
  unfold PmpState.mode at hbounds
  simp only [expandPmp, h.cfg, h.expanded, hbounds]

/-! ## One round of `pmpcfg_rw` -/

/-- What the rounds of `pmpcfg_rw` keep, from `p` to `q`. -/
structure CfgStep (p q : PmpState) : Prop where
  addr : q.pmpaddr = p.pmpaddr
  table : q.pmpExpanded = p.pmpExpanded
  locked : ∀ i, p.Locked i → q.pmpcfg i = p.pmpcfg i
  lockedaddr : ∀ i, p.pmpLockedaddr i = true → q.pmpLockedaddr i = true
  guarded : (∀ i, p.Guarded i) → ∀ i, q.Guarded i

/-- A step that writes nothing, … -/
theorem CfgStep.refl (p : PmpState) : CfgStep p p :=
  ⟨rfl, rfl, fun _ _ => rfl, fun _ h => h, fun h => h⟩

/-- … and two steps. -/
theorem CfgStep.trans {p q r : PmpState} (h : CfgStep p q) (h' : CfgStep q r) : CfgStep p r where
  addr := h'.addr.trans h.addr
  table := h'.table.trans h.table
  locked i hl := by
    have hq : q.Locked i := by rw [PmpState.Locked, h.locked i hl]; exact hl
    rw [h'.locked i hq, h.locked i hl]
  lockedaddr i hl := h'.lockedaddr i (h.lockedaddr i hl)
  guarded hg := h'.guarded (h.guarded hg)

/-- Writing an entry that is not locked, and locking the addresses that the new
    value asks for. -/
theorem cfgStep_write {p q : PmpState} {k : Fin 16} (hk : ¬ p.Locked k) {b : BitVec 8}
    (hcfg : q.pmpcfg = Function.update p.pmpcfg k b) (haddr : q.pmpaddr = p.pmpaddr)
    (htable : q.pmpExpanded = p.pmpExpanded)
    (hmono : ∀ i, p.pmpLockedaddr i = true → q.pmpLockedaddr i = true)
    (hnew : q.Guarded k) : CfgStep p q where
  addr := haddr
  table := htable
  locked i hl := by
    -- a locked entry is not the one that is written
    have hne : i ≠ k := by
      rintro rfl
      exact hk hl
    rw [hcfg, Function.update_of_ne hne]
  lockedaddr := hmono
  guarded hg i := by
    by_cases hi : i = k
    · rw [hi]
      exact hnew
    · have hsame : q.pmpcfg i = p.pmpcfg i := by rw [hcfg, Function.update_of_ne hi]
      refine ⟨fun hl => ?_, fun hl hm h0 => ?_⟩
      · rw [PmpState.Locked, hsame] at hl
        exact hmono i ((hg i).addr hl)
      · rw [PmpState.Locked, hsame] at hl
        rw [PmpState.mode, hsame] at hm
        exact hmono (i - 1) ((hg i).prev hl hm h0)

section Rounds

variable (env : Env δ) (wvalue : BitVec 64) (funct : BitVec 2) (start : Nat)

/-- A TOR entry, in the two forms in which the mode is tested. -/
theorem tor_of_mode {b : BitVec 8} (h : (b &&& 0b11000) >>> 3 = 1) : b &&& 0b11000 = 0b01000 := by
  revert b
  decide

/-- The entry before another one. -/
theorem fin_sub_one {k : Nat} (hk : k < 16) (h0 : k ≠ 0) :
    (⟨k, hk⟩ : Fin 16) - 1 = ⟨k - 1, Nat.lt_of_le_of_lt (Nat.sub_le k 1) hk⟩ := by
  apply Fin.ext
  rw [Fin.sub_def]
  change (16 - 1 + k) % 16 = k - 1
  omega

/-- The bytes within the array, … -/
theorem cfgByte_of_lt (p : PmpState) {k : Nat} (hk : k < 16) :
    p.cfgByte k = p.pmpcfg ⟨k, hk⟩ := dif_pos hk

/-- … and its flags. -/
theorem setLocked_of_lt (p : PmpState) {k : Nat} (hk : k < 16) :
    p.setLocked k =
      { p with pmpLockedaddr := Function.update p.pmpLockedaddr ⟨k, hk⟩ true } := dif_pos hk

/-- Locking an address changes no register. -/
theorem setLocked_frame (p : PmpState) {k : Nat} (hk : k < 16) :
    (p.setLocked k).pmpcfg = p.pmpcfg ∧ (p.setLocked k).pmpaddr = p.pmpaddr ∧
      (p.setLocked k).pmpExpanded = p.pmpExpanded := by
  rw [setLocked_of_lt p hk]
  exact ⟨rfl, rfl, rfl⟩

/-- Locking an address locks no other and unlocks none. -/
theorem setLocked_mono (p : PmpState) {k : Nat} (hk : k < 16) (i : Fin 16)
    (h : p.pmpLockedaddr i = true) : (p.setLocked k).pmpLockedaddr i = true := by
  rw [setLocked_of_lt p hk]
  by_cases hi : i = ⟨k, hk⟩
  · rw [hi]
    exact Function.update_self ..
  · exact (Function.update_of_ne hi _ _).trans h

/-- The flag that is set. -/
theorem setLocked_self (p : PmpState) {k : Nat} (hk : k < 16) :
    (p.setLocked k).pmpLockedaddr ⟨k, hk⟩ = true := by
  rw [setLocked_of_lt p hk]
  exact Function.update_self ..

/-- The end of one round: lock the addresses that the written value asks for. -/
theorem cfgStep_lock (p : PmpState) {k : Nat} (hk : k < 16) (hlock : ¬ p.Locked ⟨k, hk⟩)
    (q : PmpState) (hq : ∃ b, q = { p with pmpcfg := Function.update p.pmpcfg ⟨k, hk⟩ b })
    (readval : BitVec 64) :
    CfgStep p (if (q.cfgByte k).getLsbD 7 then
      if q.cfgByte k &&& 0b11000 = 0b01000 ∧ k ≠ 0 then
        (readval, (q.setLocked k).setLocked (k - 1))
      else (readval, q.setLocked k)
    else (readval, q)).2 := by
  obtain ⟨b, hq⟩ := hq
  have hself : q.pmpcfg ⟨k, hk⟩ = b := by
    rw [hq]
    exact Function.update_self ..
  have hnew : q.cfgByte k = b := (cfgByte_of_lt q hk).trans hself
  have hk' : k - 1 < 16 := by omega
  have hcfg : q.pmpcfg = Function.update p.pmpcfg ⟨k, hk⟩ b := congrArg (·.pmpcfg) hq
  have haddr : q.pmpaddr = p.pmpaddr := congrArg (·.pmpaddr) hq
  have htable : q.pmpExpanded = p.pmpExpanded := congrArg (·.pmpExpanded) hq
  have hlocked : q.pmpLockedaddr = p.pmpLockedaddr := congrArg (·.pmpLockedaddr) hq
  obtain ⟨hc, ha, ht⟩ := setLocked_frame q hk
  have hmono (i : Fin 16) (hi : p.pmpLockedaddr i = true) :
      (q.setLocked k).pmpLockedaddr i = true := setLocked_mono q hk i (hlocked ▸ hi)
  rw [hnew]
  split
  · next hb =>
    split
    · next htor =>
      obtain ⟨hc', ha', ht'⟩ := setLocked_frame (q.setLocked k) hk'
      refine cfgStep_write hlock ((hc'.trans hc).trans hcfg) ((ha'.trans ha).trans haddr)
        ((ht'.trans ht).trans htable) (fun i hi => setLocked_mono _ hk' i (hmono i hi)) ?_
      refine ⟨fun _ => setLocked_mono _ hk' _ (setLocked_self q hk), fun _ _ h0 => ?_⟩
      rw [fin_sub_one hk htor.2]
      exact setLocked_self _ hk'
    · next htor =>
      refine cfgStep_write hlock (hc.trans hcfg) (ha.trans haddr) (ht.trans htable) hmono ?_
      -- the mode that was tested is the mode of the entry
      refine ⟨fun _ => setLocked_self q hk, fun _ hm h0 => absurd ⟨?_, ?_⟩ htor⟩
      · have hself' : (q.setLocked k).pmpcfg ⟨k, hk⟩ = b := by rw [hc, hself]
        rw [PmpState.mode, hself'] at hm
        exact tor_of_mode hm
      · rintro rfl
        exact h0 rfl
  · next hb =>
    refine cfgStep_write hlock hcfg haddr htable (fun i hi => hlocked ▸ hi) ?_
    have hunlocked : ¬ q.Locked ⟨k, hk⟩ := by
      rw [PmpState.Locked, hself]
      exact hb
    exact ⟨fun hl => absurd hl hunlocked, fun hl => absurd hl hunlocked⟩

/-- One byte of a write to `pmpcfg`. -/
theorem pmpcfgStep_cfgStep (acc : BitVec 64 × PmpState) {i : Nat} (hk : start + i < 16) :
    CfgStep acc.2 (pmpcfgStep env wvalue funct start acc i).2 := by
  obtain ⟨readval, p⟩ := acc
  unfold pmpcfgStep
  dsimp only
  rw [cfgByte_of_lt p hk]
  generalize ((wvalue >>> (8 * i)) &&& 0xFF).setWidth 8 = writeval
  generalize readval ||| _ = readval'
  -- a locked byte is skipped; any other one is replaced by one of four values
  by_cases hlock : (p.pmpcfg ⟨start + i, hk⟩).getLsbD 7 = true
  · rw [if_pos hlock]
    exact .refl p
  · rw [if_neg hlock]
    refine cfgStep_lock p hk hlock _ ?_ readval'
    split
    · exact ⟨_, dif_pos hk⟩
    · exact ⟨_, dif_pos hk⟩
    · exact ⟨_, dif_pos hk⟩
    · exact ⟨p.pmpcfg ⟨start + i, hk⟩, by rw [Function.update_eq_self]⟩

/-- The rounds of one access to `pmpcfg0` or `pmpcfg2`. -/
theorem foldl_cfgStep (hstart : start ≤ 8) (l : List Nat) (hl : ∀ i ∈ l, i < 8)
    (acc : BitVec 64 × PmpState) :
    CfgStep acc.2 (l.foldl (pmpcfgStep env wvalue funct start) acc).2 := by
  induction l generalizing acc with
  | nil => exact .refl acc.2
  | cons i l ih =>
    have hi : i < 8 := hl i List.mem_cons_self
    have hk : start + i < 16 := by omega
    exact (pmpcfgStep_cfgStep env wvalue funct start acc hk).trans
      (ih (fun j hj => hl j (List.mem_cons_of_mem i hj)) _)

end Rounds

/-! ## One instruction -/

/-- From `p` to `q` the invariant is kept, and so is every locked entry. -/
def KeepsLocks (env : Env δ) (p q : PmpState) : Prop :=
  LockInv env p → LockInv env q ∧ ∀ i, p.Locked i → SameEntry p q i

/-- Nothing changes, and locked entries stay. -/
theorem KeepsLocks.refl (env : Env δ) (p : PmpState) : KeepsLocks env p p :=
  fun h => ⟨h, fun i _ => .refl p i⟩

/-- `sync_exp_pmp` leaves the registers alone and expands every entry. -/
theorem syncExpPmp_entry (env : Env δ) (p : PmpState) (i : Fin 16) :
    (syncExpPmp env p).pmpcfg = p.pmpcfg ∧ (syncExpPmp env p).pmpaddr = p.pmpaddr ∧
      (syncExpPmp env p).pmpLockedaddr = p.pmpLockedaddr ∧
      (syncExpPmp env p).pmpExpanded i = expandPmp env p i := by
  rw [syncExpPmp_eq]
  exact ⟨rfl, rfl, rfl, rfl⟩

/-- An access to `pmpcfg`: some rounds, and the expansion of every entry. -/
theorem CfgStep.keepsLocks {p q : PmpState} (h : CfgStep p q) (env : Env δ) :
    KeepsLocks env p (syncExpPmp env q) := by
  intro hp
  refine ⟨⟨fun i => ?_, fun i _ => ?_⟩, fun i hl => ?_⟩
  · obtain ⟨hcfg, -, hlocked, -⟩ := syncExpPmp_entry env q i
    obtain ⟨haddr, hprev⟩ := h.guarded hp.guarded i
    refine ⟨?_, ?_⟩
    · rw [PmpState.Locked, hcfg, hlocked]
      exact haddr
    · rw [PmpState.Locked, PmpState.mode, hcfg, hlocked]
      exact hprev
  · have hsync := congrArg (·.pmpExpanded i) (syncExpPmp_inSync env q)
    obtain ⟨-, -, -, hexp⟩ := syncExpPmp_entry env (syncExpPmp env q) i
    exact hsync.symm.trans hexp
  -- the expanded entry of a locked one is made from registers that have not changed
  · have hsame : SameEntry p q i :=
      ⟨h.locked i hl, congrFun h.addr i, fun _ _ => congrFun h.addr (i - 1), congrFun h.table i⟩
    obtain ⟨hcfg, haddr, -, hexp⟩ := syncExpPmp_entry env q i
    refine ⟨(congrFun hcfg i).trans hsame.cfg, (congrFun haddr i).trans hsame.addr,
      fun hm h0 => (congrFun haddr (i - 1)).trans (hsame.prev hm h0), ?_⟩
    rw [hexp, hsame.expandPmp_eq env, hp.table i hl]

/-- A write to an address register that is not locked. -/
theorem keepsLocks_writeAddr (env : Env δ) (p : PmpState) {i : Fin 16} (v : BitVec 64)
    (hi : p.pmpLockedaddr i = false) : KeepsLocks env p (p.writeAddr i v) := by
  intro hp
  -- `i` is not locked, so the addresses of locked entries stay
  have hkept (j : Fin 16) (hj : p.pmpLockedaddr j = true) :
      (p.writeAddr i v).pmpaddr j = p.pmpaddr j := by
    have hne : j ≠ i := by
      rintro rfl
      rw [hj] at hi
      cases hi
    exact Function.update_of_ne hne v p.pmpaddr
  have hsame (j : Fin 16) (hl : p.Locked j) : SameEntry p (p.writeAddr i v) j :=
    ⟨rfl, hkept j ((hp.guarded j).addr hl),
      fun hm h0 => hkept (j - 1) ((hp.guarded j).prev hl hm h0), rfl⟩
  refine ⟨⟨fun j => ?_, fun j hl => ?_⟩, hsame⟩
  · exact ⟨(hp.guarded j).addr, (hp.guarded j).prev⟩
  · exact (hp.table j hl).trans ((hsame j hl).expandPmp_eq env).symm

/-- Accesses to `pmpcfg` go to the two CSRs that exist for 16 entries. -/
def PlainPmpcfg (s : Sys δ) : Prop :=
  AccessesPmpcfg s → (decode32 s.hs.inst).csrno = 0x3A0 ∨ (decode32 s.hs.inst).csrno = 0x3A2

/-- No instruction changes a locked entry. -/
theorem decodeExc_keepsLocks (env : Env δ) {s : Sys δ} (h : PlainPmpcfg s) :
    KeepsLocks env s.hs.pmp (decodeExc env s).2.hs.pmp := by
  rcases decodeExc_config env s with
    hc | ⟨d, t, hd, hsys, hc, ht, hpriv, ⟨hnum, hp⟩ | ⟨ptr, v, hw, hcsr⟩⟩
  · have hpmp : (decodeExc env s).2.hs.pmp = s.hs.pmp := congrArg Prod.fst hc
    rw [hpmp]
    exact .refl env _
  · rw [hp]
    unfold pmpcfgRw
    split
    · have hpmp := congrArg Prod.fst ((createException_config t.hs .illinst
        (t.hs.inst.signExtend 64)).trans ht.config)
      have hpmp' : (t.createException .illinst (t.hs.inst.signExtend 64)).2.hs.pmp = s.hs.pmp := hpmp
      rw [hpmp']
      exact .refl env _
    · next hodd =>
      -- `pmpcfg_rw` reaches the first or the last eight entries
      have hstart : ((4 * (d.csrno - 0x3A0)).setWidth 8).toNat ≤ 8 := by
        obtain ⟨rfl, haccess⟩ := hd.accessesPmpcfg hsys hc hpriv hnum.1 hnum.2
          (Bool.eq_false_iff.mpr hodd)
        rcases h haccess with hn | hn <;> rw [hn] <;> decide
      rw [← ht.pmp]
      exact (foldl_cfgStep env _ _ _ hstart (List.range 8) (fun i hi => List.mem_range.mp hi)
        (0, t.hs.pmp)).keepsLocks env
  · have hpmp := congrArg Prod.fst hcsr
    -- of the CSRs behind a pointer only `pmpaddr` belongs to the PMP
    cases ptr
    case pmpaddr i =>
      have hset : (decodeExc env s).2.hs.pmp = s.hs.pmp.writeAddr i v := by
        rw [← ht.pmp]
        exact hpmp
      rw [hset]
      exact keepsLocks_writeAddr env _ v hw.unlocked
    all_goals
      have hsame : (decodeExc env s).2.hs.pmp = s.hs.pmp := hpmp.trans ht.pmp
      rw [hsame]
      exact .refl env _

/-! ## Runs -/

/-- A step of a run in which `pmpcfg` is only accessed as `pmpcfg0` and `pmpcfg2`. -/
def PlainStep (env : Env δ) (t u : Sys δ) : Prop :=
  HartStep env t u ∧ ∀ s, Fetches env t s → PlainPmpcfg s

/-- So they do in a step of a run. -/
theorem PlainStep.keepsLocks {env : Env δ} {t u : Sys δ} (h : PlainStep env t u) :
    KeepsLocks env t.hs.pmp u.hs.pmp := by
  obtain ⟨hstep, hplain⟩ := h
  -- the fetch keeps the PMP, and the other harts do not touch it
  cases hstep with
  | cycle hrun =>
    rcases cycle_config env t with hc | ⟨s, hf, hs, hc⟩
    · have hpmp : (cycle env t).2.hs.pmp = t.hs.pmp := congrArg Prod.fst hc
      rw [hpmp]
      exact .refl env _
    · have hfetch : s.hs.pmp = t.hs.pmp := congrArg Prod.fst hs
      have hpmp : (cycle env t).2.hs.pmp = (decodeExc env s).2.hs.pmp := congrArg Prod.fst hc
      rw [hpmp, ← hfetch]
      exact decodeExc_keepsLocks env (hplain s hf)
  | others bus mip chkInt => exact .refl env _

/-- A run keeps the locked entries of its first state. -/
theorem plainSteps_keepsLocks {env : Env δ} {t u : Sys δ}
    (h : Relation.ReflTransGen (PlainStep env) t u) : KeepsLocks env t.hs.pmp u.hs.pmp := by
  induction h with
  | refl => exact .refl env _
  | tail _ hstep ih =>
    intro ht
    obtain ⟨hb, hsame⟩ := ih ht
    obtain ⟨hc, hsame'⟩ := hstep.keepsLocks hb
    refine ⟨hc, fun i hl => (hsame i hl).trans (hsame' i ?_)⟩
    rw [PmpState.Locked, (hsame i hl).cfg]
    exact hl

/-- Reset locks nothing. -/
theorem hartInit_lockInv (env : Env δ) (hartid : BitVec 16) :
    LockInv env (hartInit env hartid).pmp := by
  have hlock (i : Fin 16) : ¬ (hartInit env hartid).pmp.Locked i := by
    have hcfg : (hartInit env hartid).pmp.pmpcfg = Function.update (fun _ => 0) 0 0b00011111 := rfl
    rw [PmpState.Locked, hcfg]
    by_cases hi : i = 0
    · rw [hi, Function.update_self]
      decide
    · rw [Function.update_of_ne hi]
      decide
  exact ⟨fun i => ⟨fun h => absurd h (hlock i), fun h => absurd h (hlock i)⟩,
    fun i h => absurd h (hlock i)⟩

/-- In every run from reset in which `pmpcfg` is only accessed as `pmpcfg0` and
    `pmpcfg2`, an entry that is locked never changes again. -/
theorem pmp_lock_permanent (env : Env δ) (hartid : BitVec 16) (bus : Bus δ) (t u : Sys δ)
    (i : Fin 16) (ht : Relation.ReflTransGen (PlainStep env) ⟨hartInit env hartid, bus⟩ t)
    (hu : Relation.ReflTransGen (PlainStep env) t u) (hlock : t.hs.pmp.Locked i) :
    SameEntry t.hs.pmp u.hs.pmp i :=
  have hinv := (plainSteps_keepsLocks ht (hartInit_lockInv env hartid)).1
  (plainSteps_keepsLocks hu hinv).2 i hlock

/-- The cycles of a hart that accesses `pmpcfg`, if at all, as `pmpcfg0` or
    `pmpcfg2`. -/
theorem plainSteps_runCycles {env : Env δ} (hsig : env.sigMode = false) {s : Sys δ} {m n : Nat}
    (h : ∀ k < n, let inst := (fetchedAfter env (m + k) s).hs.inst
      (decode32 inst).opFun = .system →
        (decode32 inst).csrno = 0x3A0 ∨ (decode32 inst).csrno = 0x3A2) :
    Relation.ReflTransGen (PlainStep env) (runCycles env m s) (runCycles env (m + n) s) := by
  induction n with
  | zero => exact .refl
  | succ n ih =>
    refine (ih fun k hk => h k (Nat.lt_succ_of_lt hk)).tail ⟨.cycle _ (cycle_fst hsig _), ?_⟩
    intro u hf haccess
    obtain rfl : fetchedAfter env (m + n) s = u := congrArg Prod.snd hf.1
    exact h n (Nat.lt_succ_self n) haccess.system

/-- M-mode code that locks entry 1 as TOR, and then tries to undo it. -/
private def lockProgram : List (BitVec 32) := [
  0x000092B7, -- lui x5, 9
  0x80028293, -- addi x5, x5, -2048
  0x3A029073, -- csrrw x0, pmpcfg0, x5
  0x3A001073] -- csrrw x0, pmpcfg0, x0

private def lockRun (n : Nat) : Sys Unit := runCycles Env.inert n (boot lockProgram)

/-- A locked TOR entry. -/
theorem pmp_lock_permanent_tor : SameEntry (lockRun 6).hs.pmp (lockRun 7).hs.pmp 1 :=
  pmp_lock_permanent Env.inert 0 (programBus lockProgram) (lockRun 6) (lockRun 7) 1
    (plainSteps_runCycles (m := 0) (n := 6) rfl (by decide +kernel))
    (plainSteps_runCycles (m := 6) (n := 1) rfl (by decide +kernel)) (by decide +kernel)

end RvEmu
