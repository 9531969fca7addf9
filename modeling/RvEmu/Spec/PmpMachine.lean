import RvEmu.Spec.PmpSync

/-!
# Machine mode and the PMP

In M-mode only locked entries take part in a check. `pmp_all_enabled` and the
hull [`min_lbound`, `max_ubound`] come from locked and unlocked entries alike,
but the shortcut they allow never changes a verdict: a range outside the hull
meets no locked entry, and what meets no entry is permitted in M-mode.
-/

namespace RvEmu

variable {δ : Type}

/-! ## The hull -/

/-- `e` is enabled and within the hull of `acc`. -/
def PmpSummary.Bounds (acc : PmpSummary) (e : ExpPMP) : Prop :=
  acc.2.1 ≤ e.lbound ∧ e.ubound ≤ acc.2.2

/-- The hull grows, and takes in every entry that is not unlocked RWX. -/
theorem PmpSummary.add_bounds (acc : PmpSummary) (e : ExpPMP) :
    (∀ x, acc.Bounds x → (acc.add e).Bounds x) ∧
      (e.enable = true → e.lxwr ≠ 0b111 → (acc.add e).Bounds e) := by
  obtain ⟨all, lo, hi⟩ := acc
  unfold PmpSummary.add
  -- only an enabled entry without RWX moves the bounds
  cases e.enable with
  | false => exact ⟨fun x hx => hx, fun h => absurd h Bool.false_ne_true⟩
  | true =>
    by_cases hrwx : e.lxwr = 0b111
    · simp only [hrwx, beq_self_eq_true, Bool.not_true, Bool.and_false, Bool.false_eq_true,
        ↓reduceIte]
      exact ⟨fun x hx => hx, fun _ h => absurd rfl h⟩
    · have hrwx' : (e.lxwr == 0b111) = false := beq_false_of_ne hrwx
      simp only [hrwx', Bool.not_false, Bool.and_true, Bounds, decide_eq_true_eq, ↓reduceIte]
      refine ⟨fun x hx => ⟨?_, ?_⟩, fun _ _ => ⟨?_, ?_⟩⟩
      all_goals split <;> bv_omega

/-- What the hull of some entries bounds, and the hull of more entries. -/
theorem PmpSummary.foldl_bounds (l : List ExpPMP) (acc : PmpSummary) :
    (∀ x, acc.Bounds x → (l.foldl PmpSummary.add acc).Bounds x) ∧
      ∀ e ∈ l, e.enable = true → e.lxwr ≠ 0b111 → (l.foldl PmpSummary.add acc).Bounds e := by
  induction l generalizing acc with
  | nil => exact ⟨fun _ hx => hx, nofun⟩
  | cons e l ih =>
    obtain ⟨hmono, hmem⟩ := ih (acc.add e)
    obtain ⟨hadd, hself⟩ := acc.add_bounds e
    refine ⟨fun x hx => hmono x (hadd x hx), fun x hx => ?_⟩
    rcases List.mem_cons.mp hx with rfl | hx
    · exact fun hen hrwx => hmono x (hself hen hrwx)
    · exact hmem x hx

/-- The expanded permissions keep the L bit. -/
theorem expandPmp_locked_lxwr {env : Env δ} {p : PmpState} {i : Fin 16}
    (hen : (expandPmp env p i).enable = true) (hlock : (expandPmp env p i).lock = true) :
    (expandPmp env p i).lxwr ≠ 0b111 := by
  unfold expandPmp at hen hlock ⊢
  by_cases hmode : (p.pmpcfg i &&& 0b11000) >>> 3 = 0
  · simp only [if_pos hmode] at hen
    cases hen
  · simp only [if_neg hmode] at hlock ⊢
    generalize p.pmpcfg i = cfg at hlock
    revert cfg
    decide

/-- The hull takes in every locked entry. -/
theorem syncExpPmp_bounds (env : Env δ) (p : PmpState) (i : Fin 16)
    (hen : ((syncExpPmp env p).pmpExpanded i).enable = true)
    (hlock : ((syncExpPmp env p).pmpExpanded i).lock = true) :
    (syncExpPmp env p).minLbound ≤ ((syncExpPmp env p).pmpExpanded i).lbound ∧
      ((syncExpPmp env p).pmpExpanded i).ubound ≤ (syncExpPmp env p).maxUbound := by
  rw [syncExpPmp_eq] at hen hlock ⊢
  have hmem : expandPmp env p i ∈ (List.finRange 16).map (expandPmp env p) :=
    List.mem_map.mpr ⟨i, List.mem_finRange i, rfl⟩
  exact (PmpSummary.foldl_bounds _ (false, 0xffffffffffffffff, 0)).2 _ hmem hen
    (expandPmp_locked_lxwr hen hlock)

/-! ## Machine mode checks -/

/-- What an enabled locked entry covers and permits. -/
def ExpPMP.lockedPart (e : ExpPMP) : Option (BitVec 64 × BitVec 64 × BitVec 8) :=
  if e.enable ∧ e.lock then some (e.lbound, e.ubound, e.lxwr) else none

/-- The enabled locked entries of two expanded tables agree. -/
def LockedAgree (p q : PmpState) : Prop :=
  ∀ i, (p.pmpExpanded i).lockedPart = (q.pmpExpanded i).lockedPart

/-- Entries with the same locked part are the same to a check in M-mode. -/
theorem lockedPart_eq {e f : ExpPMP} (h : e.lockedPart = f.lockedPart) :
    e.active 3 = f.active 3 ∧
      (e.active 3 = true → e.lxwr = f.lxwr ∧ ∀ addr, e.covers addr = f.covers addr) := by
  obtain ⟨en, lo, lb, ub, lx⟩ := e
  obtain ⟨en', lo', lb', ub', lx'⟩ := f
  cases en <;> cases lo <;> cases en' <;> cases lo' <;>
    simp_all [ExpPMP.lockedPart, ExpPMP.active, ExpPMP.covers]

/-- M-mode sees the locked entries alone, for a byte … -/
theorem chkPmpExpLoop_agree {p q : PmpState} (h : LockedAgree p q) (addr : BitVec 64)
    (l : List (Fin 16)) : chkPmpExpLoop p 3 addr l = chkPmpExpLoop q 3 addr l := by
  induction l with
  | nil => rfl
  | cons i l ih =>
    obtain ⟨hact, hsame⟩ := lockedPart_eq (h i)
    simp only [chkPmpExpLoop, ← hact, ih]
    cases hi : (p.pmpExpanded i).active 3 with
    | false => rfl
    | true =>
      obtain ⟨hlxwr, hcovers⟩ := hsame hi
      rw [hlxwr, hcovers addr]

/-- … and for a range. -/
theorem chkPmpRangeExpLoop_agree {p q : PmpState} (h : LockedAgree p q) (addrl addrh : BitVec 64)
    (l : List (Fin 16)) :
    chkPmpRangeExpLoop p 3 addrl addrh l = chkPmpRangeExpLoop q 3 addrl addrh l := by
  induction l with
  | nil => rfl
  | cons i l ih =>
    obtain ⟨hact, hsame⟩ := lockedPart_eq (h i)
    simp only [chkPmpRangeExpLoop, ← hact, ih]
    cases hi : (p.pmpExpanded i).active 3 with
    | false => rfl
    | true =>
      obtain ⟨hlxwr, hcovers⟩ := hsame hi
      rw [hlxwr, hcovers addrl, hcovers addrh]

/-- An address outside the hull is not covered by an entry within it. -/
theorem covers_of_outside {lo hi addr : BitVec 64} {e : ExpPMP}
    (hb : lo ≤ e.lbound ∧ e.ubound ≤ hi) (h : hi < addr ∨ addr < lo) : e.covers addr = false := by
  have hout : ¬ (e.lbound ≤ addr ∧ addr < e.ubound) := by bv_omega
  simpa only [ExpPMP.covers, Bool.and_eq_false_iff, decide_eq_false_iff_not, ← not_and_or] using hout

/-- In M-mode only locked entries take part. -/
theorem active_machine (e : ExpPMP) : e.active 3 = (e.enable && e.lock) := rfl

section Synced

variable (env : Env δ) (p : PmpState)

/-- An entry that takes part in M-mode covers nothing outside the hull. -/
theorem covers_outside {addr : BitVec 64}
    (h : (syncExpPmp env p).maxUbound < addr ∨ addr < (syncExpPmp env p).minLbound) (i : Fin 16)
    (hact : ((syncExpPmp env p).pmpExpanded i).active 3 = true) :
    ((syncExpPmp env p).pmpExpanded i).covers addr = false := by
  rw [active_machine, Bool.and_eq_true] at hact
  exact covers_of_outside (syncExpPmp_bounds env p i hact.1 hact.2) h

/-- Outside of all entries none covers the byte. -/
theorem chkPmpExpLoop_outside {addr : BitVec 64}
    (h : (syncExpPmp env p).maxUbound < addr ∨ addr < (syncExpPmp env p).minLbound)
    (l : List (Fin 16)) : chkPmpExpLoop (syncExpPmp env p) 3 addr l = 0xFFF0 := by
  induction l with
  | nil => rfl
  | cons i l ih =>
    simp only [chkPmpExpLoop, ih]
    cases hact : ((syncExpPmp env p).pmpExpanded i).active 3 with
    | false => rfl
    | true =>
      rw [covers_outside env p h i hact]
      rfl

/-- Both ends of a range outside the hull are outside it on the same side. -/
theorem chkPmpRangeExpLoop_outside {addrl addrh : BitVec 64} (hle : addrl ≤ addrh)
    (h : (syncExpPmp env p).maxUbound < addrl ∨ addrh < (syncExpPmp env p).minLbound)
    (l : List (Fin 16)) : chkPmpRangeExpLoop (syncExpPmp env p) 3 addrl addrh l = 0xFF := by
  -- both ends lie on the same side of the entries
  have hlow : (syncExpPmp env p).maxUbound < addrl ∨ addrl < (syncExpPmp env p).minLbound :=
    h.imp_right fun hlt => by bv_omega
  have hhigh : (syncExpPmp env p).maxUbound < addrh ∨ addrh < (syncExpPmp env p).minLbound :=
    h.imp_left fun hlt => by bv_omega
  induction l with
  | nil => rfl
  | cons i l ih =>
    simp only [chkPmpRangeExpLoop, ih]
    cases hact : ((syncExpPmp env p).pmpExpanded i).active 3 with
    | false => rfl
    | true =>
      rw [covers_outside env p hlow i hact, covers_outside env p hhigh i hact]
      rfl

/-- In M-mode the shortcut stands for a check that no entry matches. -/
theorem chkPmpExp_machine (addr : BitVec 64) :
    let a := chkPmpExpLoop (syncExpPmp env p) 3 addr (List.finRange 16)
    chkPmpExp (syncExpPmp env p) 3 addr = a ∨
      a = 0xFFF0 ∧ chkPmpExp (syncExpPmp env p) 3 addr = 0b111#16 <<< 6 := by
  intro a
  unfold chkPmpExp
  split
  · next hcut =>
    simp only [Bool.and_eq_true, Bool.or_eq_true, decide_eq_true_eq] at hcut
    exact .inr ⟨chkPmpExpLoop_outside env p hcut.2 _, rfl⟩
  · exact .inl rfl

/-- The same of the check of a range. -/
theorem chkPmpRangeExp_machine {addrl addrh : BitVec 64} (hle : addrl ≤ addrh) :
    let a := chkPmpRangeExpLoop (syncExpPmp env p) 3 addrl addrh (List.finRange 16)
    chkPmpRangeExp (syncExpPmp env p) 3 addrl addrh = a ∨
      a = 0xFF ∧ chkPmpRangeExp (syncExpPmp env p) 3 addrl addrh = 0b111 := by
  intro a
  unfold chkPmpRangeExp
  split
  · next hcut =>
    simp only [Bool.and_eq_true, Bool.or_eq_true, decide_eq_true_eq] at hcut
    exact .inr ⟨chkPmpRangeExpLoop_outside env p hle hcut.2 _, rfl⟩
  · exact .inl rfl

end Synced

/-! ## Verdicts -/

/-- `hs` with the PMP registers `p`, just expanded. -/
def Sys.withSynced (env : Env δ) (s : Sys δ) (p : PmpState) : Sys δ :=
  s.setHs { s.hs with pmp := syncExpPmp env p }

section Verdict

variable (env : Env δ) (w : Width) {p q : PmpState} (s : Sys δ) (addr : BitVec 64)

/-- The range of an access within RAM and the devices does not wrap around. -/
theorem range_le (hmem : env.machMemSize < 0x8000000000000000)
    (hrange : outOfRange env addr = false) : addr ≤ addr + BitVec.ofNat 64 w.bytes - 1 := by
  simp only [outOfRange, Bool.or_eq_false_iff, decide_eq_false_iff_not, BitVec.not_lt] at hrange
  cases w <;> simp only [Width.bytes] <;> bv_omega

/-- Two results that differ from `a` at most by the shortcut `d` for `c`. -/
theorem eq_of_shortcut {α β : Type} {x y a c d : α} (hx : x = a ∨ a = c ∧ x = d)
    (hy : y = a ∨ a = c ∧ y = d) (f : α → β) (hf : f c = f d) : f x = f y := by
  rcases hx with rfl | ⟨rfl, rfl⟩ <;> rcases hy with rfl | ⟨hc, rfl⟩
  · rfl
  · rw [hc, hf]
  · exact hf.symm
  · rfl

/-- The tests of `mem_fetch` in M-mode on the result of a check, for one byte, … -/
def byteRefusesFetch (load : Bool) (x : BitVec 16) : Bool :=
  (load && !x.getLsbD 6) || !(load || x.getLsbD 8)

/-- … and for a range, which also must not cross the bounds of an entry. -/
def rangeRefusesFetch (load : Bool) (x : BitVec 8) : Bool :=
  x == 0xF7 || (load && !x.getLsbD 0) || !(load || x.getLsbD 2)

/-- The tests of `mem_store` in M-mode on the result of a check of a range. -/
def rangeRefusesStore (x : BitVec 8) : Bool := x == 0xF7 || !x.getLsbD 1

/-- The tests of a fetch in M-mode, … -/
theorem pmpRefusesFetch_machine (hs : HartState) (hpriv : hs.privmode = 3) :
    pmpRefusesFetch w hs addr = if w = .u8 then
      byteRefusesFetch hs.memStatus (chkPmpExp hs.pmp 3 addr)
    else rangeRefusesFetch hs.memStatus
      (chkPmpRangeExp hs.pmp 3 addr (addr + BitVec.ofNat 64 w.bytes - 1)) := by
  have hlow : ¬ (3#2 ≤ 1#2) := by decide
  have hirr : ¬ (3#2 < 3#2) := by decide
  cases w <;>
    simp [pmpRefusesFetch, templateRefusesFetch, byteRefusesFetch, rangeRefusesFetch, hpriv, hlow,
      hirr]

/-- … and of a store. -/
theorem pmpRefusesStore_machine (hs : HartState) (hpriv : hs.privmode = 3) :
    pmpRefusesStore w hs addr = if w = .u8 then !(chkPmpExp hs.pmp 3 addr).getLsbD 7
    else rangeRefusesStore (chkPmpRangeExp hs.pmp 3 addr (addr + BitVec.ofNat 64 w.bytes - 1)) := by
  have hlow : ¬ (3#2 ≤ 1#2) := by decide
  have hirr : ¬ (3#2 < 3#2) := by decide
  cases w <;>
    simp [pmpRefusesStore, templateRefusesStore, rangeRefusesStore, hpriv, hlow, hirr]

/-- Two tables whose locked entries agree refuse the same accesses in M-mode. -/
theorem pmpRefuses_machine (hmem : env.machMemSize < 0x8000000000000000)
    (h : LockedAgree (syncExpPmp env p) (syncExpPmp env q)) (hpriv : s.hs.privmode = 3)
    (hrange : outOfRange env addr = false) :
    pmpRefusesFetch w (s.withSynced env p).hs addr =
        pmpRefusesFetch w (s.withSynced env q).hs addr ∧
      pmpRefusesStore w (s.withSynced env p).hs addr =
        pmpRefusesStore w (s.withSynced env q).hs addr := by
  -- an address within the memory map leaves room for the access
  have hle := range_le env w addr hmem hrange
  have hp := chkPmpExp_machine env p addr
  have hq := chkPmpExp_machine env q addr
  have hp' := chkPmpRangeExp_machine env p hle
  have hq' := chkPmpRangeExp_machine env q hle
  simp only [chkPmpExpLoop_agree h] at hp
  simp only [chkPmpRangeExpLoop_agree h] at hp'
  rw [pmpRefusesFetch_machine w addr (s.withSynced env p).hs hpriv,
    pmpRefusesFetch_machine w addr (s.withSynced env q).hs hpriv,
    pmpRefusesStore_machine w addr (s.withSynced env p).hs hpriv,
    pmpRefusesStore_machine w addr (s.withSynced env q).hs hpriv]
  -- one byte is checked by `chk_pmp_exp`, a wider access by `chk_pmp_range_exp`
  split
  · refine ⟨eq_of_shortcut hp hq (byteRefusesFetch s.hs.memStatus) ?_,
      eq_of_shortcut hp hq (fun x => !x.getLsbD 7) rfl⟩
    cases s.hs.memStatus <;> rfl
  · refine ⟨eq_of_shortcut hp' hq' (rangeRefusesFetch s.hs.memStatus) ?_,
      eq_of_shortcut hp' hq' rangeRefusesStore rfl⟩
    cases s.hs.memStatus <;> rfl

/-- The PMP registers take no part in the access itself. -/
theorem phyMemFetch_withSynced (p : PmpState) :
    phyMemFetch env w (s.withSynced env p) addr =
      ((phyMemFetch env w s addr).1, (phyMemFetch env w s addr).2.withSynced env p) := by
  unfold phyMemFetch
  split
  · rfl
  · split
    · rfl
    · split <;> rfl

/-- Physical memory does not depend on the PMP. -/
theorem phyMemStore_withSynced (p : PmpState) (data : BitVec 64) :
    phyMemStore env w (s.withSynced env p) addr data =
      (phyMemStore env w s addr data).withSynced env p := by
  unfold phyMemStore
  split
  · rfl
  · split <;> rfl

/-- In M-mode two PMP configurations, each just expanded, whose enabled locked
    entries agree give every access the same result. The bound on the memory size
    is what `new` can allocate. -/
theorem pmp_machine_locked_only (hmem : env.machMemSize < 0x8000000000000000)
    (h : LockedAgree (syncExpPmp env p) (syncExpPmp env q)) (hpriv : s.hs.privmode = 3)
    (data : BitVec 64) :
    memFetch env w (s.withSynced env q) addr =
        ((memFetch env w (s.withSynced env p) addr).1,
          (memFetch env w (s.withSynced env p) addr).2.withSynced env q) ∧
      memStore env w (s.withSynced env q) addr data =
        (memStore env w (s.withSynced env p) addr data).withSynced env q := by
  -- an address that is out of range is refused before the PMP is asked
  cases hrange : outOfRange env addr with
  | true =>
    simp only [memFetch, memStore, hrange, Bool.true_or, ↓reduceIte]
    exact ⟨rfl, rfl⟩
  | false =>
    obtain ⟨hfetch, hstore⟩ := pmpRefuses_machine env w s addr hmem h hpriv hrange
    simp only [memFetch, memStore, hrange, Bool.false_or, ← hfetch, ← hstore]
    refine ⟨?_, ?_⟩
    · split
      · rfl
      · have hset (r : PmpState) : (s.withSynced env r).setMemStatus false =
            (s.setMemStatus false).withSynced env r := rfl
        rw [hset, hset, phyMemFetch_withSynced, phyMemFetch_withSynced]
        rfl
    · split
      · rfl
      · have hset (r : PmpState) : (s.withSynced env r).setMemStatus false =
            (s.setMemStatus false).withSynced env r := rfl
        rw [hset, hset, phyMemStore_withSynced, phyMemStore_withSynced]
        rfl

end Verdict

/-- Entry 1 locked as a read-only NA4 region, with entry 0 as `pmpcfg0` and the
    address of entry 0 say. -/
private def machineTable (cfg : BitVec 8) (addr : BitVec 64) : PmpState :=
  let p := (resetState 0).pmp
  { p with
    pmpcfg := Function.update (Function.update p.pmpcfg 1 0b10010001) 0 cfg
    pmpaddr := Function.update (Function.update p.pmpaddr 1 0x20000400) 0 addr }

/-- The whole address space unlocked, which makes the shortcut apply, or nothing. -/
theorem pmp_machine_locked_only_shortcut :
    let s : Sys Unit := ⟨resetState 0, Bus.inert⟩
    let p := machineTable 0b00011111 (BitVec.allOnes 64)
    let q := machineTable 0 0
    memFetch Env.inert .u64 (s.withSynced Env.inert q) 0x80001000 =
        ((memFetch Env.inert .u64 (s.withSynced Env.inert p) 0x80001000).1,
          (memFetch Env.inert .u64 (s.withSynced Env.inert p) 0x80001000).2.withSynced
            Env.inert q) ∧
      memStore Env.inert .u64 (s.withSynced Env.inert q) 0x80001000 7 =
        (memStore Env.inert .u64 (s.withSynced Env.inert p) 0x80001000 7).withSynced
          Env.inert q :=
  pmp_machine_locked_only Env.inert .u64 ⟨resetState 0, Bus.inert⟩ 0x80001000 (by decide)
    (by unfold LockedAgree; decide +kernel) rfl 7

end RvEmu
