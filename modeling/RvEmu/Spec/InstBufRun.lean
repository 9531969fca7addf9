import RvEmu.Spec.CodePage
import RvEmu.Spec.InstBuf

/-!
# Transparency of the instruction buffer

As long as code and page tables stay as they are, the buffer holds the halfword behind
the one at the physical address of the instruction before. Whether a fetch at the pc
would find it there too is a matter of the page that the pc is in, which may be another
one, and of the PMP, which is not asked again.
-/

namespace RvEmu

variable {δ : Type}

/-! ## Instruction fetches -/

section Fetch

variable (env : Env δ) (s : Sys δ) (va : BitVec 64)

/-- The physical address of code, by the page tables. -/
def codeAddress : Option (BitVec 64) :=
  if s.hs.privmode = 3 then some va else tableAddress env va s

variable {env s va}

/-- The translation of an instruction fetch; MPRV does not apply to it. -/
theorem finalAccess_fetch (hkind : s.hs.memStatus = false) :
    finalAccess env s va =
      if s.hs.privmode = 3 then (some va, s) else translate env s va 0b100 false := by
  unfold finalAccess translationSkipped inEffectiveMode
  rw [hkind]
  by_cases hpriv : s.hs.privmode = 3
  · rw [if_pos hpriv, hpriv]
    rfl
  · have hbeq : (s.hs.privmode == 3) = false := beq_eq_false_iff_ne.mpr hpriv
    rw [if_neg hpriv, if_neg hpriv, hbeq]
    rfl

/-- The read of the word itself touches neither memory nor the TLB. -/
theorem virtMemFetch_translated (w : Width) :
    (virtMemFetch env w s va).2.bus.mainMem = (finalAccess env s va).2.bus.mainMem ∧
      (virtMemFetch env w s va).2.hs.tlb = (finalAccess env s va).2.hs.tlb := by
  rw [virtMemFetch_eq]
  rcases (finalAccess env s va).1 with _ | p
  · exact ⟨rfl, rfl⟩
  · exact ⟨memFetch_mainMem env w _ p, memFetch_tlb env _ w p⟩

/-- While the TLB agrees with the tables, fetches are made at the address they give. -/
theorem codeAddress_of_fetch (hkind : s.hs.memStatus = false) (hok : TlbOk env s)
    (hfind : SameTables env s (tlbFind env s va 0b100).2) {p : BitVec 64}
    (h : (finalAccess env s va).1 = some p) : codeAddress env s va = some p := by
  rw [finalAccess_fetch hkind] at h
  unfold codeAddress
  split at h
  · next hpriv =>
    rw [if_pos hpriv]
    exact h
  · next hpriv =>
    rw [if_neg hpriv]
    exact hok.translate hfind h

/-- The address of code depends on the mode and the tables. -/
theorem codeAddress_congr {t : Sys δ} (h : SameTables env s t)
    (hpriv : t.hs.privmode = s.hs.privmode) : codeAddress env t va = codeAddress env s va := by
  rw [codeAddress, hpriv, tableAddress_congr h, codeAddress]

end Fetch

/-! ## Runs -/

/-- The lookup of the pc in a cycle. -/
def fetchLookup (env : Env δ) (s : Sys δ) : Sys δ := (tlbFind env (fetchStart s) s.hs.pc 0b100).2

/-- A cycle that modifies neither code, the page tables, `satp` nor the PMP: not up to
    the lookup of the pc, not up to the fetch, not up to its end, and the tables not in
    any state in which it uses them. What it leaves in the buffer is code, in RAM. -/
structure QuietCycle (env : Env δ) (code : BitVec 64 → Prop) (s : Sys δ) : Prop where
  lookup : s.hs.instbuf = 0 → SameTables env s (fetchLookup env s)
  fetched : SameCode env code s (fetch env (s.setReg 0 0)).2
  kept : SameCode env code s (cycle env s).2
  tlb : Relation.ReflTransGen (fun t u => TlbStep env t u ∧ SameTables env t u) s (cycle env s).2
  buffered : s.hs.instbuf = 0 → (cycle env s).2.hs.instbuf ≠ 0 →
    ∀ p, codeAddress env s s.hs.pc = some p → 0x80000000 ≤ p ∧ code (p + 2) ∧ code (p + 3)

/-- The states of a run that modifies neither code, the page tables, `satp` nor the PMP,
    from one with an empty buffer and a TLB that agrees with the tables. -/
inductive QuietRun (env : Env δ) (code : BitVec 64 → Prop) : Sys δ → Prop
  | start (s : Sys δ) (hbuf : s.hs.instbuf = 0) (htlb : SinceClear env s) : QuietRun env code s
  | cycle {s : Sys δ} (h : QuietRun env code s) (hgo : (cycle env s).1 = true)
    (hquiet : QuietCycle env code s) : QuietRun env code (cycle env s).2
  | others {s : Sys δ} (h : QuietRun env code s) (bus : Bus δ) (mip : BitVec 64) (chkInt : Bool)
    (hkept : SameCode env code s
      ⟨{ s.hs with csr := { s.hs.csr with mip := mip }, chkInt := chkInt }, bus⟩) :
    QuietRun env code ⟨{ s.hs with csr := { s.hs.csr with mip := mip }, chkInt := chkInt }, bus⟩

/-- A fetch of the pc from memory raises no fault, and finds what is in the buffer. -/
def BufferTransparent (env : Env δ) (s : Sys δ) : Prop :=
  AccessOk (fetchedWord env s).2 ∧ (fetchedWord env s).1.setWidth 16 = s.hs.instbuf

/-- The second halfword of a word of RAM. -/
def secondHalf (mem : BitVec 64 → BitVec 8) (p : BitVec 64) : BitVec 16 :=
  (loadLe mem p 4 >>> 16).setWidth 16

/-- The buffer holds the halfword in RAM behind the instruction before the pc, whose page has
    been fetched from. -/
structure Buffered (env : Env δ) (code : BitVec 64 → Prop) (s : Sys δ) : Prop where
  pageFault : s.hs.pageFault = false
  memory : ∃ p, codeAddress env s (s.hs.pc - 2) = some p ∧ 0x80000000 ≤ p ∧ code (p + 2) ∧
    code (p + 3) ∧ s.hs.instbuf = secondHalf s.bus.mainMem p
  accessed : s.hs.privmode ≠ 3 → ∀ l, tableLeaf env (s.hs.pc - 2) s = some l →
    0x80000000 ≤ l.pteAddr → Accessed env code s l

/-- The pc is in the page of the halfword before it, whose PTE, if it has one, is in RAM. -/
structure InPage (env : Env δ) (s : Sys δ) : Prop where
  same : SamePage (s.hs.pc - 2) s.hs.pc
  ram : s.hs.privmode ≠ 3 → ∀ l, tableLeaf env s.hs.pc s = some l → 0x80000000 ≤ l.pteAddr

/-- The tables have the halfword before the pc at `p`, and a fetch of the pc is granted at `q`;
    and in another page the halfword at `q` in the RAM `m` that the translation leaves is the
    one behind `p`. -/
structure Continues (env : Env δ) (s : Sys δ) (p q : BitVec 64) (m : BitVec 64 → BitVec 8) :
    Prop where
  before : codeAddress env s (s.hs.pc - 2) = some p
  granted : Granted env .u32 (fetchStart s) s.hs.pc q m
  across : ¬ InPage env s →
    (finalWord env .u32 (fetchStart s) s.hs.pc q m).setWidth 16 = secondHalf s.bus.mainMem p

section Run

variable {env : Env δ} {code : BitVec 64 → Prop}

/-- The bits of the second halfword, … -/
theorem secondHalf_getLsbD (mem : BitVec 64 → BitVec 8) (p : BitVec 64) {i : Nat} (hi : i < 16) :
    (secondHalf mem p).getLsbD i =
      (if i < 8 then mem (p + 2) else mem (p + 3)).getLsbD (i % 8) := by
  rw [secondHalf, BitVec.getLsbD_setWidth, decide_eq_true hi, Bool.true_and,
    BitVec.getLsbD_ushiftRight, loadLe_getLsbD mem p (by decide) (by omega)]
  have hmod : (16 + i) % 8 = i % 8 := by omega
  rw [hmod]
  -- bits 16 to 31 of the word are in its bytes 2 and 3
  split
  · have hdiv : (16 + i) / 8 = 2 := by omega
    rw [hdiv]
    rfl
  · have hdiv : (16 + i) / 8 = 3 := by omega
    rw [hdiv]
    rfl

/-- … which depends on two bytes. -/
theorem secondHalf_congr {m m' : BitVec 64 → BitVec 8} {p : BitVec 64}
    (h2 : m' (p + 2) = m (p + 2)) (h3 : m' (p + 3) = m (p + 3)) :
    secondHalf m' p = secondHalf m p := by
  apply BitVec.eq_of_getLsbD_eq
  intro i hi
  rw [secondHalf_getLsbD m' p hi, secondHalf_getLsbD m p hi, h2, h3]

/-- The second halfword of a word is the first of the word that overlaps it. -/
theorem secondHalf_eq (m : BitVec 64 → BitVec 8) (p : BitVec 64) :
    secondHalf m p = (loadLe m (p + 2) 4).setWidth 16 := by
  apply BitVec.eq_of_getLsbD_eq
  intro i hi
  rw [secondHalf_getLsbD m p hi, BitVec.getLsbD_setWidth, decide_eq_true hi, Bool.true_and,
    loadLe_getLsbD m (p + 2) (by decide) (by omega)]
  split
  · have hdiv : i / 8 = 0 := by omega
    rw [hdiv]
    exact congrArg (fun a => (m a).getLsbD (i % 8)) (BitVec.add_zero (p + 2)).symm
  · have hdiv : i / 8 = 1 := by omega
    rw [hdiv, BitVec.add_assoc]
    rfl

/-- A run of the TLB continues one from an empty TLB. -/
theorem SinceClear.steps {s t : Sys δ} (h : SinceClear env s)
    (hsteps : Relation.ReflTransGen (fun t u => TlbStep env t u ∧ SameTables env t u) s t) :
    SinceClear env t := by
  induction hsteps with
  | refl => exact h
  | tail _ hstep ih => exact ih.step hstep.1 hstep.2

/-- The start of a fetch leaves the tables alone, … -/
theorem sameTables_fetchStart (s : Sys δ) : SameTables env s (fetchStart s) :=
  sameTables_of_bus rfl rfl rfl

/-- … and is part of the run. -/
theorem SinceClear.fetchStart {s : Sys δ} (h : SinceClear env s) :
    SinceClear env (RvEmu.fetchStart s) :=
  h.step (.other s _ rfl) (sameTables_fetchStart s)

/-- A fetch of a run is made at the address that the tables give for the pc. -/
theorem SinceClear.codeAddress {s : Sys δ} (h : SinceClear env s)
    (hlookup : SameTables env s (fetchLookup env s)) {p : BitVec 64}
    (hp : (finalAccess env (RvEmu.fetchStart s) s.hs.pc).1 = some p) :
    RvEmu.codeAddress env (RvEmu.fetchStart s) s.hs.pc = some p := by
  have hfind : SameTables env (RvEmu.fetchStart s) (fetchLookup env s) :=
    (sameTables_fetchStart s).symm.trans hlookup
  exact codeAddress_of_fetch rfl h.fetchStart.tlbOk hfind hp

/-- The first fetch from a page leaves its leaf accessed. -/
theorem Fills.accessed {s f : Sys δ} (h : Fills env s f) (htlb : SinceClear env s)
    (hlookup : SameTables env s (fetchLookup env s)) (hsame : SameCode env code s f) {p : BitVec 64}
    (hp : FinalAddress env (fetchStart s) s.hs.pc p f.bus.mainMem)
    (haddr : codeAddress env (fetchStart s) s.hs.pc = some p) (hne : p ≠ 0)
    (hpriv : s.hs.privmode ≠ 3) {l : Leaf} (hl : tableLeaf env s.hs.pc f = some l)
    (hram : 0x80000000 ≤ l.pteAddr) : Accessed env code f l := by
  have hok : TlbOk env (fetchStart s) := htlb.fetchStart.tlbOk
  have htables : SameTables env (fetchStart s) f :=
    (sameTables_fetchStart s).symm.trans hsame.tables
  -- the leaf before the fetch is the same but for A and D
  obtain ⟨l', hl', hclear⟩ := htables.symm.tableLeaf hl
  have hptr : l'.pteAddr = l.pteAddr := (congrArg Leaf.pteAddr hclear :)
  have hpte : l'.pte ||| (0b11#64 <<< 6) = l.pte ||| (0b11#64 <<< 6) :=
    or_of_clearAD (congrArg Leaf.pte hclear :)
  rw [← hptr] at hram
  have hfind : SameTables env (fetchStart s) (fetchLookup env s) :=
    (sameTables_fetchStart s).symm.trans hlookup
  have hmode : (fetchStart s).hs.privmode ≠ 3 := hpriv
  have hne' : l'.address s.hs.pc ≠ 0 := by
    rw [codeAddress, if_neg hmode, tableAddress_of_leaf hl'] at haddr
    rw [Option.some.inj haddr]
    exact hne
  have hread := fetch_reads_leaf hok hl' hne' rfl hmode hram hfind hp
  obtain ⟨-, hmem, hstore⟩ := fetch_marks_leaf hok hl' hne' rfl hmode hram hread hp
  refine ⟨?_, fun _ htouch => ?_⟩
  · have hrefuses : pmpRefusesFetch .u64 { f.hs with memStatus := false } l.pteAddr =
        pmpRefusesFetch .u64 (fetchStart s).hs l.pteAddr :=
      pmpRefusesFetch_congr hsame.pmp h.privmode rfl
    rw [hrefuses, ← hptr]
    exact hread
  · rw [← hpte] at htouch
    rw [hmem, ← hptr]
    exact markedRam_set hram ((tablePath_read hl').2.2 hram) hread htouch (hstore htouch)

/-- What a cycle that fills the buffer establishes. -/
theorem Buffers.buffered {s : Sys δ} (h : Buffers env s (cycle env s).2) (htlb : SinceClear env s)
    (hquiet : QuietCycle env code s) (hbuf : (cycle env s).2.hs.instbuf ≠ 0) :
    Buffered env code (cycle env s).2 := by
  have hok : AccessOk (fetchedWord env s).2 := h.fills.fetched
  have hpf : (fetchStart s).hs.pageFault = false := (virtMemFetch_ok_iff.mp hok).1
  have hkept : SameCode env code (fetch env (s.setReg 0 0)).2 (cycle env s).2 :=
    hquiet.fetched.symm.trans hquiet.kept
  have hlookup := hquiet.lookup h.empty
  -- the word came from the address `p`, the TLB being current
  obtain ⟨p, m, hgranted⟩ := (virtMemFetch_ok_granted hpf).mp hok
  obtain ⟨hp, hm⟩ := (finalAddress_iff hpf).mp hgranted.address
  have haddr := htlb.codeAddress hlookup hp
  have haddr' : codeAddress env s s.hs.pc = some p := by
    rw [← haddr]
    exact (codeAddress_congr (sameTables_fetchStart s) rfl).symm
  obtain ⟨hram, h2, h3⟩ := hquiet.buffered h.empty hbuf p haddr'
  have hmem : m = (fetch env (s.setReg 0 0)).2.bus.mainMem := by
    rw [h.fills.bus, ← hm]
    exact (@virtMemFetch_translated δ env (fetchStart s) s.hs.pc .u32).1.symm
  rw [hmem] at hgranted
  -- the parcel in the buffer is two bytes behind the pc of that fetch
  have hback : (cycle env s).2.hs.pc - 2 = s.hs.pc := by
    rw [h.pc, BitVec.add_sub_cancel]
  refine ⟨h.pageFault, ⟨p, ?_, hram, h2, h3, ?_⟩, fun hpriv l hl hptr => ?_⟩
  · rw [hback, codeAddress_congr hquiet.kept.tables h.privmode]
    exact haddr'
  · have hread : (fetchedWord env s).1 = loadLe (fetch env (s.setReg 0 0)).2.bus.mainMem p 4 :=
      (hgranted.value hpf).trans (if_pos hram)
    rw [h.instbuf, hread]
    -- what has been written since is not code
    exact (secondHalf_congr (hkept.ram _ h2) (hkept.ram _ h3)).symm
  · rw [h.privmode] at hpriv
    rw [hback] at hl
    obtain ⟨l', hl', hclear⟩ := hkept.tables.symm.tableLeaf hl
    have hptr' : l'.pteAddr = l.pteAddr := (congrArg Leaf.pteAddr hclear :)
    have hne : p ≠ 0 := by
      rintro rfl
      exact absurd hram (by decide)
    have hacc := h.fills.accessed htlb hlookup hquiet.fetched hgranted.address haddr hne hpriv hl'
      (by rw [hptr']; exact hptr)
    exact hacc.mono hkept (h.privmode.trans h.fills.privmode.symm) hclear.symm

/-- The TLB has agreed with the tables throughout. -/
theorem QuietRun.sinceClear {s : Sys δ} (h : QuietRun env code s) : SinceClear env s := by
  induction h with
  | start s _ htlb => exact htlb
  | cycle _ _ hquiet ih => exact ih.steps hquiet.tlb
  | others _ bus mip chkInt hkept ih => exact ih.step (.other _ _ rfl) hkept.tables

/-- The invariant of a run. -/
theorem QuietRun.buffered {s : Sys δ} (h : QuietRun env code s) (hbuf : s.hs.instbuf ≠ 0) :
    Buffered env code s := by
  induction h with
  | start s hempty _ => exact absurd hempty hbuf
  | cycle hrun hgo hquiet _ =>
    rcases cycle_buffers env _ hgo with hempty | hfills
    · exact absurd hempty hbuf
    · exact hfills.buffered hrun.sinceClear hquiet hbuf
  | others hrun bus mip chkInt hkept ih =>
    obtain ⟨hfault, ⟨p, hp, hram, h2, h3, hmem⟩, hacc⟩ := ih hbuf
    refine ⟨hfault, ⟨p, ?_, hram, h2, h3, ?_⟩, fun hpriv l hl hptr => ?_⟩
    · exact (codeAddress_congr hkept.tables rfl).trans hp
    · exact hmem.trans (secondHalf_congr (hkept.ram _ h2) (hkept.ram _ h3)).symm
    · obtain ⟨l', hl', hclear⟩ := hkept.tables.symm.tableLeaf hl
      have hptr' : l'.pteAddr = l.pteAddr := (congrArg Leaf.pteAddr hclear :)
      exact (hacc hpriv l' hl' (by rw [hptr']; exact hptr)).mono hkept rfl hclear.symm

/-- The addresses between the halfword before the pc and the pc lie in one page. -/
theorem SamePage.steps {x : BitVec 64} (h : SamePage (x - 2) x) :
    SamePage (x - 2) (x - 2 + 1) ∧ SamePage (x - 2 + 1) (x - 2 + 1 + 1) ∧ x - 2 + 1 + 1 = x := by
  have hnat := congrArg BitVec.toNat h
  have hpc : x - 2 + 1 + 1 = x := by bv_omega
  simp only [BitVec.toNat_ushiftRight, Nat.shiftRight_eq_div_pow] at hnat
  have h1 : (x - 2 + 1).toNat / 2 ^ 12 = (x - 2).toNat / 2 ^ 12 := by bv_omega
  refine ⟨BitVec.eq_of_toNat_eq ?_, BitVec.eq_of_toNat_eq ?_, hpc⟩
  · simpa only [BitVec.toNat_ushiftRight, Nat.shiftRight_eq_div_pow] using h1
  · rw [hpc]
    simpa only [BitVec.toNat_ushiftRight, Nat.shiftRight_eq_div_pow] using hnat.trans h1.symm

/-- Within a page, code goes on behind `p`. -/
theorem codeAddress_inPage {s : Sys δ} (h : SamePage (s.hs.pc - 2) s.hs.pc) {p : BitVec 64}
    (hp : codeAddress env s (s.hs.pc - 2) = some p) : codeAddress env s s.hs.pc = some (p + 2) := by
  obtain ⟨h1, h2, hpc⟩ := h.steps
  unfold codeAddress at hp ⊢
  split at hp
  · next hpriv =>
    rw [if_pos hpriv, ← Option.some.inj hp, BitVec.sub_add_cancel]
  · next hpriv =>
    have haddr := tableAddress_succ h2 (tableAddress_succ h1 hp)
    rw [hpc, BitVec.add_assoc] at haddr
    rw [if_neg hpriv]
    exact haddr

/-- Within a page whose leaf has been used, a fetch of the pc goes on where the fetch before it
    was, and finds the code as it is. -/
theorem InPage.lands_leaf {s : Sys δ} (hpage : InPage env s) (hrun : QuietRun env code s)
    (hbuf : s.hs.instbuf ≠ 0) (hpriv : s.hs.privmode ≠ 3) {l : Leaf}
    (hl : tableLeaf env s.hs.pc s = some l) {q : BitVec 64} {m : BitVec 64 → BitVec 8}
    (hq : FinalAddress env (fetchStart s) s.hs.pc q m) :
    codeAddress env s s.hs.pc = some q ∧ ∀ a, code a → m a = s.bus.mainMem a := by
  have hok : TlbOk env (fetchStart s) := hrun.sinceClear.fetchStart.tlbOk
  have hmode : (fetchStart s).hs.privmode ≠ 3 := hpriv
  have hl' : tableLeaf env s.hs.pc (fetchStart s) = some l :=
    (tablePath_setHs env s.hs.pc _ _ s (fetchStart s).hs).trans hl
  have hram := hpage.ram hpriv l hl
  have hnext : codeAddress env s s.hs.pc = some (l.address s.hs.pc) := by
    rw [codeAddress, if_neg hpriv, tableAddress_of_leaf hl]
  -- the leaf is that of the halfword before, which has been fetched
  have hbefore : tableLeaf env (s.hs.pc - 2) s = some l :=
    tableLeaf_samePage env _ (fun k hk => (hpage.same.shift (by omega)).symm) hl
  have hsame : SameCode env code s (fetchStart s) :=
    ⟨sameTables_fetchStart s, rfl, fun _ _ => rfl⟩
  have hacc : Accessed env code (fetchStart s) l :=
    ((hrun.buffered hbuf).accessed hpriv l hbefore hram).mono hsame rfl rfl
  have hne : l.address s.hs.pc ≠ 0 := by
    obtain ⟨p, hp, hlow, -⟩ := (hrun.buffered hbuf).memory
    have hp' := codeAddress_inPage hpage.same hp
    have hpl : l.address s.hs.pc = p + 2 := Option.some.inj (hnext.symm.trans hp')
    have hlt := Leaf.address_lt s.hs.pc (tableLeaf_level env _ hl)
    intro hzero
    have hlt' := Leaf.address_lt (s.hs.pc - 2) (tableLeaf_level env _ hl)
    rw [codeAddress, if_neg hpriv, tableAddress_of_leaf hbefore] at hp
    rw [Option.some.inj hp] at hlt'
    rw [hpl] at hzero
    bv_omega
  obtain ⟨rfl, rfl, -⟩ := fetch_marks_leaf hok hl' hne rfl hmode hram hacc.read hq
  refine ⟨hnext, fun a ha => ?_⟩
  exact hacc.markedRam_code ((tablePath_read hl').2.2 hram) rfl ha

/-- Within a page, a fetch of the pc goes on where the fetch before it was, and finds the code
    as it is. -/
theorem InPage.lands {s : Sys δ} (hpage : InPage env s) (hrun : QuietRun env code s)
    (hbuf : s.hs.instbuf ≠ 0) {p q : BitVec 64} {m : BitVec 64 → BitVec 8}
    (hp : codeAddress env s (s.hs.pc - 2) = some p)
    (hq : FinalAddress env (fetchStart s) s.hs.pc q m) :
    q = p + 2 ∧ ∀ a, code a → m a = s.bus.mainMem a := by
  have hnext := codeAddress_inPage hpage.same hp
  suffices h : codeAddress env s s.hs.pc = some q ∧ ∀ a, code a → m a = s.bus.mainMem a from
    ⟨Option.some.inj (h.1.symm.trans hnext), h.2⟩
  by_cases hpriv : s.hs.privmode = 3
  · have hskip : translationSkipped (fetchStart s) = true := by
      rw [translationSkipped, show (fetchStart s).hs.privmode = 3 from hpriv]
      rfl
    unfold FinalAddress at hq
    rw [hskip] at hq
    cases hq with
    | untranslated => exact ⟨if_pos hpriv, fun _ _ => rfl⟩
    | entry _ _ h => cases h
    | tables _ h => cases h
  · rcases hl : tableLeaf env s.hs.pc s with _ | l
    · have hl' : tableLeaf env s.hs.pc (fetchStart s) = none :=
        (tablePath_setHs env s.hs.pc _ _ s (fetchStart s).hs).trans hl
      obtain ⟨haddr, rfl⟩ := fetch_without_leaf hrun.sinceClear.fetchStart.tlbOk hl' rfl hpriv hq
      rw [tableAddress_congr (sameTables_fetchStart s)] at haddr
      exact ⟨(if_neg hpriv).trans haddr, fun _ _ => rfl⟩
    · exact hpage.lands_leaf hrun hbuf hpriv hl hq

/-- The buffer is transparent where a fetch of the pc is granted in the page of the code before
    it, or at a place that continues this code. -/
theorem instbuf_transparent_iff {s : Sys δ} (h : QuietRun env code s) (hbuf : s.hs.instbuf ≠ 0) :
    BufferTransparent env s ↔ ∃ p q m, Continues env s p q m := by
  -- `p` is where the buffered parcel came from, `q` where a fetch would read now
  obtain ⟨hfault, ⟨p, hp, hlow, h2, h3, hmem⟩, -⟩ := h.buffered hbuf
  have hpf : (fetchStart s).hs.pageFault = false := hfault
  constructor
  · rintro ⟨hok, hword⟩
    obtain ⟨q, m, hgranted⟩ := (virtMemFetch_ok_granted hpf).mp hok
    refine ⟨p, q, m, hp, hgranted, fun _ => ?_⟩
    rw [← hgranted.value hpf, ← hmem]
    exact hword
  · rintro ⟨p', q, m, hc⟩
    obtain rfl := Option.some.inj (hp.symm.trans hc.before)
    refine ⟨(virtMemFetch_ok_granted hpf).mpr ⟨q, m, hc.granted⟩, ?_⟩
    have hvalue := hc.granted.value hpf
    rw [show (fetchedWord env s).1 = _ from hvalue, hmem]
    by_cases hpage : InPage env s
    · obtain ⟨rfl, hm⟩ := hpage.lands h hbuf hp hc.granted.address
      -- a refused fetch is excluded, so the word is in RAM
      have hram : 0x80000000 ≤ p + 2 := by
        have hrange := (Bool.or_eq_false_iff.mp hc.granted.permitted).1
        have hfirst := of_decide_eq_false (Bool.or_eq_false_iff.mp hrange).1
        bv_omega
      rw [finalWord, if_pos hram]
      exact (secondHalf_eq m p).symm.trans (secondHalf_congr (hm _ h2) (hm _ h3))
    · exact hc.across hpage

end Run

/-! ## Code across a page boundary -/

/-- A compressed instruction that computes with an immediate. -/
structure AtOpImm (m : Sys δ) : Prop where
  instLen : m.hs.instLen = 16
  decodes : ∃ d, decode16 m.hs.inst = some d ∧ d.opFun = .opImm

/-- An instruction on registers touches neither memory nor the TLB. -/
theorem AtOpImm.decodeExc {m : Sys δ} (h : AtOpImm m) (env : Env δ) :
    (RvEmu.decodeExc env m).2.bus = m.bus ∧ (RvEmu.decodeExc env m).2.hs.tlb = m.hs.tlb ∧
      (RvEmu.decodeExc env m).2.hs.config = m.hs.config := by
  obtain ⟨d, hd, hop⟩ := h.decodes
  have hdecodes : Decodes m d := .inl ⟨h.instLen, hd⟩
  have hexec : execute env d (m.withInst d.inst m.hs.instLen) =
      writeback d (m.withInst d.inst m.hs.instLen)
        (some (opImmValue d ((m.withInst d.inst m.hs.instLen).hs.regs d.rs1))) := by
    rw [execute, hop]
  rw [decodeExc_of_decodes env hdecodes, hexec]
  exact ⟨rfl, rfl, rfl⟩

section EmptyTlb

variable {env : Env δ} {s : Sys δ} (hclear : s.hs.tlb = tlbClear) (hsatp : s.hs.csr.satp ≠ 0)
include hclear hsatp

/-- An empty TLB has no entry for the pc. -/
theorem tlbFind_tlbClear : tlbFind env (fetchStart s) s.hs.pc 0b100 = (0, fetchStart s) := by
  have hmiss : tlbEntry (fetchStart s).hs s.hs.pc 0b100 = none :=
    @tlbEntry_clear (fetchStart s).hs hclear _ _
  rw [tlbFind_miss env hmiss]
  exact congrArg (·, fetchStart s) (if_neg hsatp)

/-- With an empty TLB a fetch from memory leaves what its walk leaves. -/
theorem fetch_walked (hbuf : s.hs.instbuf = 0) (hpriv : s.hs.privmode ≠ 3) :
    (fetch env (s.setReg 0 0)).2.bus.mainMem =
        (pageTableWalk env (fetchStart s) s.hs.pc false).2.bus.mainMem ∧
      (fetch env (s.setReg 0 0)).2.hs.tlb =
        (pageTableWalk env (fetchStart s) s.hs.pc false).2.hs.tlb := by
  let walked := (pageTableWalk env (fetchStart s) s.hs.pc false).2
  -- the lookup finds nothing and writes nothing
  have htrans : (finalAccess env (fetchStart s) s.hs.pc).2.bus.mainMem = walked.bus.mainMem ∧
      (finalAccess env (fetchStart s) s.hs.pc).2.hs.tlb = walked.hs.tlb := by
    have hno : (fetchStart s).hs.privmode ≠ 3 := hpriv
    rw [finalAccess_fetch rfl, if_neg hno]
    simp only [translate, tlbFind_tlbClear hclear hsatp, ↓reduceIte]
    split
    · exact ⟨rfl, rfl⟩
    · exact ⟨rfl, rfl⟩
  obtain ⟨hmem, htlb⟩ := @virtMemFetch_translated δ env (fetchStart s) s.hs.pc .u32
  have hinst : fetchInst env (s.setReg 0 0) = (fetchedWord env s).2.setHs
      { (fetchedWord env s).2.hs with inst := (fetchedWord env s).1.setWidth 32 } := if_pos hbuf
  rw [fetch_bus, fetch_tlb, hinst]
  exact ⟨hmem.trans htrans.1, htlb.trans htrans.2⟩

end EmptyTlb

/-- A cycle with an empty TLB that fetches such an instruction by a walk to a PTE with A
    set. -/
theorem quietCycle_opImm {env : Env Unit} (hsig : env.sigMode = false) {s : Sys Unit} {a : BitVec 64}
    (hclear : s.hs.tlb = tlbClear) (hsatp : s.hs.csr.satp ≠ 0) (hbuf : s.hs.instbuf = 0)
    (hpriv : s.hs.privmode ≠ 3)
    (hused : walkUsed env s.hs.pc (fetchStart s) = some a)
    (hset : loadLe s.bus.mainMem a 8 ||| 0x40 = loadLe s.bus.mainMem a 8)
    (hexc : (fetch env (s.setReg 0 0)).1 = .noexc) (hop : AtOpImm (fetch env (s.setReg 0 0)).2)
    (hram : ∀ p, codeAddress env s s.hs.pc = some p → 0x80000000 ≤ p) :
    QuietCycle env (fun _ => True) s := by
  let walked := (pageTableWalk env (fetchStart s) s.hs.pc false).2
  obtain ⟨hfetched, htlb⟩ := @fetch_walked _ env s hclear hsatp hbuf hpriv
  -- the walk writes A, which is set already
  have hwalk : walked.bus.mainMem = s.bus.mainMem :=
    (pageTableWalk_keepsRam env s.hs.pc false (fetchStart s)).eq_of_set fun b hb => by
      rw [← Option.some.inj (hused.symm.trans hb)]
      exact hset
  have hfetched := hfetched.trans hwalk
  have hcycle : (cycle env s).2 = cycleEnd (decodeExc env (fetch env (s.setReg 0 0)).2).2 := by
    rw [cycle_of_fetches ⟨Prod.ext hexc rfl, fun hhalt => by rw [hsig] at hhalt; cases hhalt.1⟩]
  obtain ⟨hbus, htlb', hconfig⟩ := hop.decodeExc env
  have hmem : (cycle env s).2.bus.mainMem = s.bus.mainMem := by
    rw [hcycle, cycleEnd_bus, hbus]
    exact hfetched
  have hcycled : (cycle env s).2.hs.config = s.hs.config := by
    rw [hcycle, cycleEnd_config, hconfig]
    exact fetch_config env (s.setReg 0 0)
  have hwalked : SameTables env s walked :=
    sameTables_of_bus (pageTableWalk_frame env (fetchStart s) s.hs.pc false).satp hwalk rfl
  have hkept : SameTables env s (cycle env s).2 :=
    sameTables_of_bus (congrArg Prod.snd hcycled) hmem rfl
  refine ⟨?_, ⟨?_, ?_, fun b _ => congrFun hfetched b⟩, ⟨hkept, congrArg Prod.fst hcycled,
    fun b _ => congrFun hmem b⟩, ?_, fun _ _ p hp => ⟨hram p hp, trivial, trivial⟩⟩
  · intro _
    rw [fetchLookup, tlbFind_tlbClear hclear hsatp]
    exact sameTables_fetchStart s
  · exact sameTables_of_bus (congrArg Prod.snd (fetch_config env (s.setReg 0 0))) hfetched rfl
  · exact congrArg Prod.fst (fetch_config env (s.setReg 0 0))
  · -- the steps of the cycle on the TLB: the start of the fetch, its walk, and the rest
    refine .tail (.tail (.single ⟨.other s (fetchStart s) rfl, sameTables_fetchStart s⟩)
      ⟨.walk (fetchStart s) s.hs.pc false, ?_⟩) ⟨.other walked _ ?_, ?_⟩
    · exact (sameTables_fetchStart s).symm.trans hwalked
    · rw [hcycle, cycleEnd_tlb, htlb', htlb]
    · exact hwalked.symm.trans hkept

/-- S-mode at `pc`, with one page of 2 MiB at 0x80000000 and nothing mapped behind it. RAM
    holds two C.NOPs at 0x80100000, and two across the end of the page. -/
private def nops (pc : BitVec 64) : Sys Unit :=
  (mapped fun a => if a = 0x80001010 then 0x20000801 else if a = 0x80002000 then 0x200000CF
    else if a = 0x80100000 then 0x00010001 else if a = 0x801FFFF8 then 0x1000000000000
    else if a = 0x80200000 then 0x0001 else 0).setPc pc

/-- One cycle of `C.NOP` is a quiet run. -/
private theorem quietRun_nops {pc : BitVec 64} (h : pc = 0x80100000 ∨ pc = 0x801FFFFE) :
    QuietRun Env.inert (fun _ => True) (cycle Env.inert (nops pc)).2 := by
  refine .cycle (.start _ rfl (.clear _ rfl)) (cycle_fst rfl _) ?_
  have hleaf : walkUsed Env.inert pc (fetchStart (nops pc)) = some 0x80002000 := by
    rcases h with rfl | rfl <;> decide +kernel
  have hset : loadLe (nops pc).bus.mainMem 0x80002000 8 ||| 0x40 =
      loadLe (nops pc).bus.mainMem 0x80002000 8 := by
    rcases h with rfl | rfl <;> decide +kernel
  have hexc : (fetch Env.inert ((nops pc).setReg 0 0)).1 = .noexc := by
    rcases h with rfl | rfl <;> decide +kernel
  have hinst : (fetch Env.inert ((nops pc).setReg 0 0)).2.hs.inst = 0x0001 ∧
      (fetch Env.inert ((nops pc).setReg 0 0)).2.hs.instLen = 16 := by
    rcases h with rfl | rfl <;> decide +kernel
  have hnop : AtOpImm (fetch Env.inert ((nops pc).setReg 0 0)).2 := by
    refine ⟨hinst.2, ?_⟩
    rw [hinst.1]
    exact Option.map_eq_some_iff.mp (by decide : (decode16 0x0001).map (·.opFun) = some .opImm)
  have haddr : codeAddress Env.inert (nops pc) pc = some pc := by
    rcases h with rfl | rfl <;> decide +kernel
  have hsatp : (nops pc).hs.csr.satp ≠ 0 := by rcases h with rfl | rfl <;> decide
  have hpriv : (nops pc).hs.privmode ≠ 3 := by rcases h with rfl | rfl <;> decide
  refine quietCycle_opImm rfl rfl hsatp rfl hpriv hleaf hset hexc hnop fun p hp => ?_
  obtain rfl := Option.some.inj (haddr.symm.trans hp)
  rcases h with rfl | rfl <;> decide

/-- The second of two instructions within a page. -/
theorem instbuf_transparent_nops :
    BufferTransparent Env.inert (cycle Env.inert (nops 0x80100000)).2 := by
  have hwhere : FinalAddress Env.inert (fetchStart (cycle Env.inert (nops 0x80100000)).2) 0x80100002
      0x80100002 (finalAccess Env.inert (fetchStart (cycle Env.inert (nops 0x80100000)).2)
        0x80100002).2.bus.mainMem :=
    (finalAddress_iff (by decide +kernel)).mpr ⟨by decide +kernel, rfl⟩
  have hpc : (cycle Env.inert (nops 0x80100000)).2.hs.pc = 0x80100002 := by decide +kernel
  have hpage : InPage Env.inert (cycle Env.inert (nops 0x80100000)).2 := by
    refine ⟨by decide +kernel, fun _ l hl => ?_⟩
    have hleaf : ((tableLeaf Env.inert (cycle Env.inert (nops 0x80100000)).2.hs.pc
        (cycle Env.inert (nops 0x80100000)).2).all fun l => 0x80000000 ≤ l.pteAddr) = true := by
      decide +kernel
    rw [hl] at hleaf
    exact of_decide_eq_true hleaf
  rw [← hpc] at hwhere
  exact (instbuf_transparent_iff (quietRun_nops (.inl rfl)) (by decide +kernel)).mpr
    ⟨0x80100000, _, _, by decide +kernel, ⟨hwhere, by decide +kernel⟩, fun hno => absurd hpage hno⟩

/-- The second of two instructions is taken from the buffer where its page is not mapped. -/
theorem instbuf_crosses_into_unmapped_page :
    ¬ ∀ (code : BitVec 64 → Prop) (s : Sys Unit), QuietRun Env.inert code s →
      s.hs.instbuf ≠ 0 → BufferTransparent Env.inert s := by
  intro h
  have hok := (h _ _ (quietRun_nops (.inr rfl)) (by decide +kernel)).1
  have hfault : (fetchedWord Env.inert (cycle Env.inert (nops 0x801FFFFE)).2).2.hs.pageFault =
      true := by decide +kernel
  exact Bool.noConfusion (hok.2.symm.trans hfault)

end RvEmu
