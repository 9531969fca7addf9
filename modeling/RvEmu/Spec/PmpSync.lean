import RvEmu.Spec.Run
import RvEmu.Spec.CsrAccess

/-!
# The expanded PMP table

The checks on memory accesses do not read the PMP registers but a table that
`sync_exp_pmp` derives from them. An access to `pmpcfg` brings the table up to
date; reset and writes to `pmpaddr` do not. The table is up to date after every
run that has accessed `pmpcfg` and since then has not moved the bounds of an
enabled entry by a write to `pmpaddr`.
-/

namespace RvEmu

variable {δ : Type}

/-! ## What `sync_exp_pmp` computes -/

section Sync

variable (env : Env δ) (p : PmpState)

/-- `pmp_all_enabled`, `min_lbound` and `max_ubound`. -/
abbrev PmpSummary := Bool × BitVec 64 × BitVec 64

/-- The contribution of one expanded entry to the summary. -/
def PmpSummary.add (acc : PmpSummary) (e : ExpPMP) : PmpSummary :=
  if e.enable then
    let isRwx := e.lxwr == 0b111
    (acc.1 || (e.lbound == 0 && e.ubound == 0xffffffffffffffff && isRwx),
      if e.lbound < acc.2.1 && !isRwx then e.lbound else acc.2.1,
      if e.ubound > acc.2.2 && !isRwx then e.ubound else acc.2.2)
  else acc

/-- Replace everything that is derived from the PMP registers. -/
def PmpState.withTable (p : PmpState) (table : Fin 16 → ExpPMP) (summary : PmpSummary) :
    PmpState :=
  { p with
    pmpExpanded := table
    pmpAllEnabled := summary.1, minLbound := summary.2.1, maxUbound := summary.2.2 }

/-- The summary of `p`. -/
def PmpState.summary (p : PmpState) : PmpSummary := (p.pmpAllEnabled, p.minLbound, p.maxUbound)

/-- One entry is expanded, and added to the summary. -/
theorem syncPmpEntry_eq (i : Fin 16) :
    syncPmpEntry env p i =
      p.withTable (Function.update p.pmpExpanded i (expandPmp env p i))
        (p.summary.add (expandPmp env p i)) := by
  simp only [syncPmpEntry, PmpSummary.add, PmpState.summary]
  generalize expandPmp env p i = e
  -- the nested tests of the source, one case for each outcome
  cases e.enable with
  | false => rfl
  | true =>
    simp only [↓reduceIte]
    generalize (e.lxwr == 0b111) = isRwx
    generalize (e.lbound == 0 && e.ubound == 0xffffffffffffffff) = all
    by_cases hl : e.lbound < p.minLbound
    all_goals by_cases hu : e.ubound > p.maxUbound
    all_goals cases isRwx <;> cases all <;> simp [hl, hu, PmpState.withTable]

/-- What one round leaves alone. -/
theorem expandPmp_syncPmpEntry (i j : Fin 16) :
    expandPmp env (syncPmpEntry env p i) j = expandPmp env p j := by
  rw [syncPmpEntry_eq]
  by_cases hji : j = i
  · subst hji
    simp only [expandPmp, PmpState.withTable, Function.update_self]
    split
    · rfl
    · rfl
  · simp only [expandPmp, PmpState.withTable, Function.update_of_ne hji]
    rfl

/-- The loop over some entries expands these and adds them to the summary. -/
theorem foldl_syncPmpEntry (l : List (Fin 16)) :
    ∃ table, (∀ j ∈ l, table j = expandPmp env p j) ∧ (∀ j, j ∉ l → table j = p.pmpExpanded j) ∧
      l.foldl (syncPmpEntry env) p =
        p.withTable table ((l.map (expandPmp env p)).foldl PmpSummary.add p.summary) := by
  -- induction on the entries still to be expanded, from any table
  induction l generalizing p with
  | nil => exact ⟨p.pmpExpanded, nofun, fun _ _ => rfl, rfl⟩
  | cons i l ih =>
    -- expanding an entry changes no register, so the others expand as before
    have hexp : expandPmp env (syncPmpEntry env p i) = expandPmp env p :=
      funext (expandPmp_syncPmpEntry env p i)
    obtain ⟨table, hin, hout, hfold⟩ := ih (syncPmpEntry env p i)
    rw [hexp] at hin hfold
    have hcell (j : Fin 16) : (syncPmpEntry env p i).pmpExpanded j =
        Function.update p.pmpExpanded i (expandPmp env p i) j := by
      rw [syncPmpEntry_eq]
      rfl
    refine ⟨table, fun j hj => ?_, fun j hj => ?_, ?_⟩
    · by_cases hl : j ∈ l
      · exact hin j hl
      · obtain rfl : j = i := (List.mem_cons.mp hj).resolve_right hl
        rw [hout j hl, hcell, Function.update_self]
    · rw [hout j fun hl => hj (List.mem_cons_of_mem i hl), hcell]
      exact Function.update_of_ne (fun hji => hj (List.mem_cons.mpr (.inl hji))) _ _
    · rw [List.foldl_cons, hfold, List.map_cons, List.foldl_cons, syncPmpEntry_eq]
      rfl

/-- `sync_exp_pmp` expands every entry. -/
theorem syncExpPmp_eq :
    syncExpPmp env p =
      p.withTable (expandPmp env p)
        (((List.finRange 16).map (expandPmp env p)).foldl PmpSummary.add
          (false, 0xffffffffffffffff, 0)) := by
  obtain ⟨table, hin, -, hfold⟩ := foldl_syncPmpEntry env
    { p with pmpAllEnabled := false, minLbound := 0xffffffffffffffff, maxUbound := 0 }
    (List.finRange 16)
  have htable : table = expandPmp env p := funext fun j => hin j (List.mem_finRange j)
  rw [syncExpPmp, hfold, htable]
  rfl

/-- The table is what `sync_exp_pmp` would make it. -/
def PmpState.InSync (p : PmpState) : Prop := syncExpPmp env p = p

/-- `sync_exp_pmp` brings the table up to date. -/
theorem syncExpPmp_inSync : (syncExpPmp env p).InSync env := by
  have hexp : expandPmp env (syncExpPmp env p) = expandPmp env p := by
    funext j
    rw [syncExpPmp_eq]
    simp only [expandPmp, PmpState.withTable]
    split
    · rfl
    · rfl
  rw [PmpState.InSync, syncExpPmp_eq env (syncExpPmp env p), hexp]
  rw [syncExpPmp_eq]
  rfl

/-- `pmpaddr[i] = v` -/
def PmpState.writeAddr (p : PmpState) (i : Fin 16) (v : BitVec 64) : PmpState :=
  { p with pmpaddr := Function.update p.pmpaddr i v }

/-- The address matching mode of an entry; 0 is off. -/
def PmpState.mode (p : PmpState) (i : Fin 16) : BitVec 8 := (p.pmpcfg i &&& 0b11000) >>> 3

/-- Writing `v` to `pmpaddr[i]` moves the bounds of an enabled entry: of entry
    `i`, or of a TOR entry after it. -/
def PmpState.MovesBounds (i : Fin 16) (v : BitVec 64) : Prop :=
  ∃ j, p.mode j ≠ 0 ∧ pmpBounds env (p.writeAddr i v) j (p.mode j) ≠ pmpBounds env p j (p.mode j)

/-- A write that moves no bounds keeps the table up to date. -/
theorem PmpState.InSync.writeAddr {p : PmpState} (h : p.InSync env) {i : Fin 16} {v : BitVec 64}
    (hv : ¬ p.MovesBounds env i v) : (p.writeAddr i v).InSync env := by
  -- no enabled entry has other bounds, so the table would be made the same
  have hexp : expandPmp env (p.writeAddr i v) = expandPmp env p := by
    funext j
    by_cases hmode : p.mode j = 0
    · have hp : expandPmp env p j = { p.pmpExpanded j with enable := false } := if_pos hmode
      rw [hp]
      exact if_pos hmode
    · have hbounds : pmpBounds env (p.writeAddr i v) j (p.mode j) =
          pmpBounds env p j (p.mode j) := by
        by_contra hne
        exact hv ⟨j, hmode, hne⟩
      have hcfg : (p.writeAddr i v).pmpcfg = p.pmpcfg := rfl
      have hw : (p.writeAddr i v).pmpExpanded = p.pmpExpanded := rfl
      unfold PmpState.mode at hbounds
      simp only [expandPmp, hcfg, hw, hbounds]
  have hsync := congrArg (·.writeAddr i v) h
  rw [PmpState.InSync, syncExpPmp_eq, hexp]
  rw [syncExpPmp_eq] at hsync
  exact hsync

/-- A write that moves bounds of an enabled entry leaves the table out of date. -/
theorem PmpState.InSync.writeAddr_iff {p : PmpState} (h : p.InSync env) (i : Fin 16)
    (v : BitVec 64) : (p.writeAddr i v).InSync env ↔ ¬ p.MovesBounds env i v := by
  refine ⟨?_, h.writeAddr env⟩
  rintro hw ⟨j, hmode, hne⟩
  -- the table holds the bounds of before, and would have to hold the new ones
  have hold : p.pmpExpanded j = expandPmp env p j := by
    have hsync := congrArg (·.pmpExpanded j) h
    simp only [syncExpPmp_eq] at hsync
    exact hsync.symm
  have hnew : p.pmpExpanded j = expandPmp env (p.writeAddr i v) j := by
    have hsync := congrArg (·.pmpExpanded j) hw
    simp only [syncExpPmp_eq] at hsync
    exact hsync.symm
  have hl := congrArg ExpPMP.lbound (hold.symm.trans hnew)
  have hu := congrArg ExpPMP.ubound (hold.symm.trans hnew)
  have hmode' : ¬ (p.pmpcfg j &&& 0b11000) >>> 3 = 0 := hmode
  have hcfg : (p.writeAddr i v).pmpcfg = p.pmpcfg := rfl
  simp only [expandPmp, hcfg, if_neg hmode'] at hl hu
  exact hne (Prod.ext hl.symm hu.symm)

end Sync

/-! ## Verdicts -/

/-- The PMP checks give every access the same verdict by `p` as by `q`: a load,
    an instruction fetch (`memStatus` tells them apart) or a store of any width,
    to any address, in any mode. -/
def SameVerdict (p q : PmpState) : Prop :=
  ∀ (w : Width) (hs : HartState) (addr : BitVec 64),
    pmpRefusesFetch w { hs with pmp := p } addr = pmpRefusesFetch w { hs with pmp := q } addr ∧
    pmpRefusesStore w { hs with pmp := p } addr = pmpRefusesStore w { hs with pmp := q } addr

/-- A table in sync gives the verdict of a fresh one. -/
theorem PmpState.InSync.sameVerdict {env : Env δ} {p : PmpState} (h : p.InSync env) :
    SameVerdict p (syncExpPmp env p) := by
  intro w hs addr
  rw [h]
  exact ⟨rfl, rfl⟩

/-! ## The instructions that write PMP registers -/

/-- The hart is about to access an even `pmpcfg` CSR, and may do so. -/
structure AccessesPmpcfg (s : Sys δ) : Prop where
  instLen : s.hs.instLen = 32
  system : (decode32 s.hs.inst).opFun = .system
  low : 0x3A0 ≤ (decode32 s.hs.inst).csrno
  high : (decode32 s.hs.inst).csrno < 0x3B0
  even : (decode32 s.hs.inst).csrno.getLsbD 0 = false
  privmode : s.hs.privmode = 3

/-- The hart is about to write `v` to `pmpaddr[i]`. -/
structure WritesPmpaddr (s : Sys δ) (i : Fin 16) (v : BitVec 64) : Prop where
  instLen : s.hs.instLen = 32
  system : (decode32 s.hs.inst).opFun = .system
  number : csrFromAddr (decode32 s.hs.inst).csrno = some (.pmpaddr i)
  privmode : s.hs.privmode = 3
  unlocked : s.hs.pmp.pmpLockedaddr i = false
  needed : csrWriteNeeded (decode32 s.hs.inst) ((decode32 s.hs.inst).csrOperand s.hs) = true
  value : v = csrWritten ((decode32 s.hs.inst).funct3.setWidth 2) false (s.hs.pmp.pmpaddr i)
    ((decode32 s.hs.inst).csrOperand s.hs)

/-- An access to `pmpcfg` is none of the other instructions under the opcode. -/
theorem AccessesPmpcfg.execSystem_eq {s : Sys δ} (h : AccessesPmpcfg s) (env : Env δ) :
    execSystem env (decode32 s.hs.inst) s = execCsr env (decode32 s.hs.inst) s := by
  have hlow := h.low
  refine execSystem_of_number env s (decode32_cebreak _) (csrno_decode32 h.system) ?_ ?_
  · -- the other numbers are all smaller
    intro hmem
    simp only [plainNumbers, List.mem_cons, List.not_mem_nil, or_false] at hmem
    bv_omega
  · exact funct7_ne_sfence hlow

/-- An access to `pmpcfg` gets to `pmpcfg_rw`. -/
theorem AccessesPmpcfg.execCsr_eq {s : Sys δ} (h : AccessesPmpcfg s) (env : Env δ) :
    ∃ t, t.hs.pmp = s.hs.pmp ∧ execCsr env (decode32 s.hs.inst) s =
      trap (pmpcfgRw env t (decode32 s.hs.inst).csrno (decode32 s.hs.inst).rd
        ((decode32 s.hs.inst).csrOperand s.hs) ((decode32 s.hs.inst).funct3.setWidth 2)) := by
  have hlow := h.low
  have hhigh := h.high
  have hcsrno : (decode32 s.hs.inst).imm.setWidth 12 = (decode32 s.hs.inst).csrno := rfl
  have hpriv : ¬ (decode32 s.hs.inst).csrno.extractLsb' 8 2 > s.hs.privmode := by
    rw [h.privmode]
    generalize (decode32 s.hs.inst).csrno.extractLsb' 8 2 = level
    revert level
    decide
  simp only [execCsr, hcsrno, hpriv, ↓reduceIte]
  generalize (decode32 s.hs.inst).csrno = csrno at hlow hhigh
  have htime : csrno ≠ 0xC01 := by bv_omega
  have hro0 : chkRo0Csr csrno = false := by
    simp only [chkRo0Csr, Bool.or_eq_false_iff, Bool.and_eq_false_iff, decide_eq_false_iff_not,
      beq_eq_false_iff_ne]
    bv_omega
  have hcounter : ¬ (csrno = 0x306 ∨ csrno = 0x106 ∨ csrno = 0x320) := by bv_omega
  simp only [htime, hro0, hcounter, hlow, hhigh, Bool.false_eq_true, and_self, ↓reduceIte]
  refine ⟨_, ?_, rfl⟩
  rfl

/-- An access to `pmpcfg` is one by `pmpcfg_rw`, … -/
theorem AccessesPmpcfg.decodeExc_eq {s : Sys δ} (h : AccessesPmpcfg s) (env : Env δ) :
    ∃ t, t.hs.pmp = s.hs.pmp ∧ decodeExc env s =
      pmpcfgRw env t (decode32 s.hs.inst).csrno (decode32 s.hs.inst).rd
        ((decode32 s.hs.inst).csrOperand s.hs) ((decode32 s.hs.inst).funct3.setWidth 2) := by
  obtain ⟨t, hpmp, ht⟩ := h.execCsr_eq env
  refine ⟨t, hpmp, ?_⟩
  rw [decodeExc_of_len32 env h.instLen, execute_system env h.system, h.execSystem_eq env, ht]
  rfl

/-- … which leaves the table in sync. -/
theorem decodeExc_pmpcfg (env : Env δ) {s : Sys δ} (h : AccessesPmpcfg s) :
    (decodeExc env s).2.hs.pmp.InSync env := by
  obtain ⟨t, -, ht⟩ := h.decodeExc_eq env
  have heven := h.even
  rw [ht]
  simp only [pmpcfgRw, heven]
  exact syncExpPmp_inSync env _

/-- The numbers of the address registers. -/
theorem csrFromAddr_pmpaddr {n : BitVec 12} {i : Fin 16} (h : csrFromAddr n = some (.pmpaddr i)) :
    0x3B0 ≤ n ∧ n < 0x3B0 + 16 := by
  unfold csrFromAddr at h
  split at h
  case h_24 =>
    by_cases hn : 0x3B0 ≤ n ∧ n < 0x3B0 + 16
    · exact hn
    · rw [if_neg hn] at h
      cases h
  all_goals cases h

/-- An address register is not an alias. -/
theorem csrAlias_pmpaddr {n : BitVec 12} {i : Fin 16}
    (h : csrFromAddr (csrAlias n) = some (.pmpaddr i)) : csrAlias n = n ∧ n ≠ 0x144 := by
  obtain ⟨hlow, -⟩ := csrFromAddr_pmpaddr h
  unfold csrAlias at hlow ⊢
  by_cases h₁ : (n == 0x100) = true
  · rw [if_pos h₁] at hlow
    exact absurd hlow (by decide)
  · by_cases h₂ : (n == 0x104) = true
    · rw [if_neg h₁, if_pos h₂] at hlow
      exact absurd hlow (by decide)
    · by_cases h₃ : (n == 0x144) = true
      · rw [if_neg h₁, if_neg h₂, if_pos h₃] at hlow
        exact absurd hlow (by decide)
      · rw [if_neg h₁, if_neg h₂, if_neg h₃]
        exact ⟨rfl, fun hn => h₃ (beq_iff_eq.mpr hn)⟩

/-- The numbers of the PMP registers say that they belong to M-mode. -/
theorem privmode_of_pmp_csrno {n : BitVec 12} {privmode : BitVec 2} (hlow : 0x3A0 ≤ n)
    (hhigh : n < 0x3C0) (hpriv : n.extractLsb' 8 2 ≤ privmode) : privmode = 3 := by
  have hlevel : n.extractLsb' 8 2 = 3 := by
    apply BitVec.eq_of_toNat_eq
    have hl : 0x3A0 ≤ n.toNat := BitVec.le_def.mp hlow
    have hh : n.toNat < 0x3C0 := BitVec.lt_def.mp hhigh
    rw [BitVec.extractLsb'_toNat, Nat.shiftRight_eq_div_pow]
    change n.toNat / 2 ^ 8 % 2 ^ 2 = 3
    omega
  rw [hlevel] at hpriv
  revert privmode
  decide

/-- A CSR instruction that writes an address register. -/
theorem CsrWrite.writesPmpaddr {s : Sys δ} {d : Decoded} {i : Fin 16} {v : BitVec 64}
    (hd : Decodes s d) (hsys : d.opFun = .system) (hc : d.cebreak = false)
    (hpriv : d.csrno.extractLsb' 8 2 ≤ s.hs.privmode)
    (h : CsrWrite d d.csrno (d.csrOperand s.hs) s (.pmpaddr i) v) : WritesPmpaddr s i v := by
  obtain ⟨hlen, rfl⟩ := hd.len32 hsys hc
  obtain ⟨halias, hsip⟩ := csrAlias_pmpaddr h.number
  have hnum := h.number
  rw [halias] at hnum
  obtain ⟨hlow, hhigh⟩ := csrFromAddr_pmpaddr hnum
  have hvalue := h.value
  rw [beq_false_of_ne hsip] at hvalue
  have hlow' : 0x3A0 ≤ (decode32 s.hs.inst).csrno := BitVec.le_trans (by decide) hlow
  exact ⟨hlen, hsys, hnum, privmode_of_pmp_csrno hlow' hhigh hpriv, h.unlocked, h.needed, hvalue⟩

/-- A CSR instruction that gets to `pmpcfg_rw`, for an even register. -/
theorem Decodes.accessesPmpcfg {s : Sys δ} {d : Decoded} (hd : Decodes s d)
    (hsys : d.opFun = .system) (hc : d.cebreak = false)
    (hpriv : d.csrno.extractLsb' 8 2 ≤ s.hs.privmode) (hlow : 0x3A0 ≤ d.csrno)
    (hhigh : d.csrno < 0x3B0) (heven : d.csrno.getLsbD 0 = false) :
    d = decode32 s.hs.inst ∧ AccessesPmpcfg s := by
  obtain ⟨hlen, rfl⟩ := hd.len32 hsys hc
  have hhigh' : (decode32 s.hs.inst).csrno < 0x3C0 := BitVec.lt_trans hhigh (by decide)
  exact ⟨rfl, hlen, hsys, hlow, hhigh, heven, privmode_of_pmp_csrno hlow hhigh' hpriv⟩

/-- An instruction leaves the PMP alone, brings the table up to date, or writes
    an address register. -/
theorem decodeExc_pmp (env : Env δ) (s : Sys δ) :
    (decodeExc env s).2.hs.pmp = s.hs.pmp ∨ (decodeExc env s).2.hs.pmp.InSync env ∨
    ∃ i v, WritesPmpaddr s i v ∧ (decodeExc env s).2.hs.pmp = s.hs.pmp.writeAddr i v := by
  rcases decodeExc_config env s with h | ⟨d, t, hd, hsys, hc, ht, hpriv, ⟨-, hp⟩ | ⟨ptr, v, hw, h⟩⟩
  · exact .inl (congrArg Prod.fst h)
  · rw [hp]
    unfold pmpcfgRw
    split
    · exact .inl (congrArg Prod.fst ((createException_config t.hs _ _).trans ht.config))
    · exact .inr (.inl (syncExpPmp_inSync env _))
  · have hpmp := congrArg Prod.fst h
    cases ptr
    case pmpaddr i =>
      refine .inr (.inr ⟨i, v, hw.writesPmpaddr hd hsys hc hpriv, ?_⟩)
      rw [← ht.pmp]
      exact hpmp
    all_goals exact .inl (hpmp.trans ht.pmp)

/-! ## Runs -/

/-- The states of runs that have accessed an even `pmpcfg` CSR and since then
    have not moved the bounds of an enabled entry by a write to `pmpaddr`. -/
inductive PmpSynced (env : Env δ) : Sys δ → Prop
  | access (t s : Sys δ) (hf : Fetches env t s) (h : AccessesPmpcfg s) :
    PmpSynced env (cycle env t).2
  | cycle (t : Sys δ) (h : PmpSynced env t)
    (hstep : ∀ s i v, Fetches env t s → WritesPmpaddr s i v → ¬ s.hs.pmp.MovesBounds env i v) :
    PmpSynced env (cycle env t).2
  | others (s : Sys δ) (h : PmpSynced env s) (bus : Bus δ) (mip : BitVec 64) (chkInt : Bool) :
    PmpSynced env ⟨{ s.hs with csr := { s.hs.csr with mip := mip }, chkInt := chkInt }, bus⟩

/-- A cycle changes the PMP by its instruction alone. -/
theorem cycle_pmp {env : Env δ} {t s : Sys δ} (h : Fetches env t s) :
    (cycle env t).2.hs.pmp = (decodeExc env s).2.hs.pmp := by
  rw [cycle_of_fetches h]
  exact congrArg Prod.fst (cycleEnd_config _)

/-- In a synced run the table is in sync. -/
theorem PmpSynced.inSync {env : Env δ} {s : Sys δ} (h : PmpSynced env s) :
    s.hs.pmp.InSync env := by
  induction h with
  | access t s hf h =>
    rw [cycle_pmp hf]
    exact decodeExc_pmpcfg env h
  | cycle t h hstep ih =>
    rcases cycle_config env t with hc | ⟨s, hf, hs, hc⟩
    · have hpmp : (RvEmu.cycle env t).2.hs.pmp = t.hs.pmp := congrArg Prod.fst hc
      rwa [hpmp]
    · have hfetch : s.hs.pmp = t.hs.pmp := congrArg Prod.fst hs
      have hpmp : (RvEmu.cycle env t).2.hs.pmp = (decodeExc env s).2.hs.pmp := congrArg Prod.fst hc
      rw [← hfetch] at ih
      rw [hpmp]
      rcases decodeExc_pmp env s with hp | hp | ⟨i, v, hw, hp⟩
      · rwa [hp]
      · exact hp
      · rw [hp]
        exact ih.writeAddr env (hstep s i v hf hw)
  | others s h bus mip chkInt ih => exact ih

/-- In every run the table gives the verdicts of the registers, from the first
    access to an even `pmpcfg` CSR on, as long as no write to `pmpaddr` moves
    the bounds of an enabled entry. -/
theorem pmp_verdict_synced (env : Env δ) (s : Sys δ) (h : PmpSynced env s) :
    SameVerdict s.hs.pmp (syncExpPmp env s.hs.pmp) := h.inSync.sameVerdict

/-- The first instruction of the program at 0x80000000 accesses `pmpcfg0`. -/
theorem pmp_verdict_synced_pmpcfg0 :
    let s := runCycles Env.inert 4 (boot [0x3A002073]) -- csrrs x0, pmpcfg0, x0
    SameVerdict s.hs.pmp (syncExpPmp Env.inert s.hs.pmp) := by
  have hf : Fetches Env.inert (runCycles Env.inert 3 (boot [0x3A002073]))
      (fetchedAfter Env.inert 3 (boot [0x3A002073])) :=
    fetches_fetchedAfter rfl (by decide +kernel)
  have haccess : AccessesPmpcfg (fetchedAfter Env.inert 3 (boot [0x3A002073])) :=
    ⟨by decide +kernel, by decide +kernel, by decide +kernel, by decide +kernel,
      by decide +kernel, by decide +kernel⟩
  exact pmp_verdict_synced Env.inert _ (.access _ _ hf haccess)

/-- M-mode code that returns to S-mode without an access to `pmpcfg`. -/
private def unsyncedProgram : List (BitVec 32) := [
  0x00C40293, -- addi x5, x8, 12
  0x34129073, -- csrrw x0, mepc, x5
  instMret]

/-- The hart in S-mode, with no instruction executed there yet. -/
private def unsyncedState : Sys Unit := runCycles Env.inert 6 (boot unsyncedProgram)

/-- The table from before refuses the fetch, … -/
private theorem unsyncedState_stale :
    pmpRefusesFetch .u32 { unsyncedState.hs with pmp := unsyncedState.hs.pmp }
      unsyncedState.hs.pc = true := by
  decide +kernel

/-- … which a fresh one permits. -/
private theorem unsyncedState_fresh :
    pmpRefusesFetch .u32
      { unsyncedState.hs with pmp := syncExpPmp Env.inert unsyncedState.hs.pmp }
      unsyncedState.hs.pc = false := by
  decide +kernel

/-- S-mode may not fetch its first instruction, which entry 0 as reset leaves it
    permits. -/
theorem pmp_verdict_unsynced :
    ¬ ∀ s, Reachable Env.inert s → SameVerdict s.hs.pmp (syncExpPmp Env.inert s.hs.pmp) := by
  intro h
  have hreach : Reachable Env.inert unsyncedState := reachable_runCycles rfl 0 _ 6
  have hfetch := (h unsyncedState hreach .u32 unsyncedState.hs unsyncedState.hs.pc).1
  rw [unsyncedState_stale, unsyncedState_fresh] at hfetch
  exact Bool.noConfusion hfetch

end RvEmu
