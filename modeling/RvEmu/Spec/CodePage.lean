import RvEmu.Spec.FinalAddress

/-!
# The page of the code

A fetch below M-mode sets A in the PTE of its page, which may itself lie in the code. As
long as the TLB agrees with the tables, the first fetch from a page sets the bit in the leaf
of the tables, so that a later fetch from the page finds the code as it was.
-/

namespace RvEmu

variable {δ : Type}

/-! ## The leaf in RAM -/

/-- A leaf is valid, and lies in memory. -/
theorem tablePath_read {env : Env δ} {va : BitVec 64} {n : Nat} {a : BitVec 64} {s : Sys δ}
    {l : Leaf} (h : tablePath env va n a s = some l) :
    outOfRange env l.pteAddr = false ∧ pteInvalid l.pte = false ∧
      (0x80000000 ≤ l.pteAddr → l.pte = loadLe s.bus.mainMem l.pteAddr 8) := by
  induction n generalizing a s with
  | zero => cases h
  | succ i ih =>
    simp only [tablePath] at h
    split at h
    · cases h
    · next hv =>
      obtain ⟨hrange, hvalid⟩ := Bool.or_eq_false_iff.mp (Bool.eq_false_iff.mpr hv)
      split at h
      · obtain ⟨hr, hv', hpte⟩ := ih h
        rw [phyMemFetch_mainMem] at hpte
        exact ⟨hr, hv', hpte⟩
      · cases h
        refine ⟨hrange, hvalid, fun hram => ?_⟩
        rw [phyMemFetch_ram hram]
        rfl

/-- The PTE without A and D decides whether A and D are written back. -/
theorem or_of_clearAD {x y : BitVec 64} (h : x &&& ~~~0xC0 = y &&& ~~~0xC0) :
    x ||| (0b11#64 <<< 6) = y ||| (0b11#64 <<< 6) := by
  apply BitVec.eq_of_getLsbD_eq
  intro i hi
  have hbit := congrArg (·.getLsbD i) h
  have hmask : (0b11#64 <<< 6 : BitVec 64) = 0xC0 := by decide
  simp only [BitVec.getLsbD_and, BitVec.getLsbD_not, hi, decide_true, Bool.true_and] at hbit
  rw [hmask, BitVec.getLsbD_or, BitVec.getLsbD_or]
  cases hC : (0xC0 : BitVec 64).getLsbD i with
  | true => rw [Bool.or_true, Bool.or_true]
  | false =>
    rw [hC, Bool.not_false, Bool.and_true, Bool.and_true] at hbit
    rw [hbit]

/-! ## What a fetch does to its page -/

section Fetch

variable {env : Env δ} {s : Sys δ} {va q : BitVec 64} {m : BitVec 64 → BitVec 8} {l : Leaf}

/-- A fetch below M-mode goes through an entry or the tables. -/
theorem FinalAddress.fetch_cases (h : FinalAddress env s va q m) (hkind : s.hs.memStatus = false)
    (hpriv : s.hs.privmode ≠ 3) :
    (∃ i e, tlbEntry s.hs va 0b100 = some (i, e) ∧ hitRefused env s 0b100 e = false ∧
      e.address va i ≠ 0 ∧ q = e.address va i ∧ m = markedRam env false e.pteAddr s) ∨
    (NoHit env va 0b100 s ∧ TablesTranslate env va false (tlbFind env s va 0b100).2 ∧
      tableAddress env va (tlbFind env s va 0b100).2 = some q ∧
      m = walkedRam env false va (tlbFind env s va 0b100).2) := by
  have hperms : (accessOf false s).perms = 0b100 := by rw [accessOf_perms_fetch, hkind]; rfl
  have hmode : inEffectiveMode s = s := if_neg hpriv
  unfold FinalAddress at h
  cases h with
  | untranslated hskip =>
    have hno : translationSkipped s = false := by
      rw [translationSkipped, beq_eq_false_iff_ne.mpr hpriv, Bool.false_and]
    exact Bool.noConfusion (hskip.symm.trans hno)
  | entry i e _ he hok hne =>
    rw [hperms, hmode] at he hok
    rw [hmode]
    exact .inl ⟨i, e, he, hok, hne, rfl, rfl⟩
  | tables _ _ hno htables hp =>
    rw [hperms, hmode] at hno htables hp ⊢
    exact .inr ⟨hno, htables, hp, rfl⟩

/-- A hit whose PTE can be read is refused if A is to be set and may not be. -/
theorem hitRefused_eq {perms : BitVec 8} {e : TLBEntry} (hram : 0x80000000 ≤ e.pteAddr)
    (hread : (outOfRange env e.pteAddr || pmpRefusesFetch .u64 s.hs e.pteAddr) = false) :
    hitRefused env s perms e =
      (~~~(loadLe s.bus.mainMem e.pteAddr 8 ||| (0b11#64 <<< 6)) != 0 &&
        (outOfRange env e.pteAddr || pmpRefusesStore .u64 s.hs e.pteAddr)) := by
  unfold hitRefused
  dsimp only
  rw [memFetch_granted hread, phyMemFetch_ram hram, (memStore_flags env .u64 _ e.pteAddr _).1]
  rfl

/-- A hit that is refused at a PTE that can be read has only cleared the flag. -/
theorem tlbHit_refused {perms : BitVec 8} {i : Nat} {e : TLBEntry} (hram : 0x80000000 ≤ e.pteAddr)
    (hread : (outOfRange env e.pteAddr || pmpRefusesFetch .u64 s.hs e.pteAddr) = false)
    (h : hitRefused env s perms e = true) :
    (tlbHit env s va perms i e).2 = s.setMemStatus false := by
  obtain ⟨htouch, hstore⟩ := Bool.and_eq_true_iff.mp h
  unfold tlbHit
  dsimp only
  rw [htouch, Bool.true_and, if_pos rfl, if_pos hstore]
  rw [memFetch_granted hread, phyMemFetch_ram hram] at hstore ⊢
  rw [(memStore_flags env .u64 _ e.pteAddr _).1] at hstore
  rw [memStore_refused _ hstore]
  rfl

/-- A hit for a fetch that is accepted although its PTE cannot be read has overwritten it. -/
theorem tlbHit_overwrites {i : Nat} {e : TLBEntry} (hram : 0x80000000 ≤ e.pteAddr)
    (hread : (outOfRange env e.pteAddr || pmpRefusesFetch .u64 s.hs e.pteAddr) = true)
    (h : hitRefused env s 0b100 e = false) :
    (tlbHit env s va 0b100 i e).2.bus.mainMem =
      storeLe s.bus.mainMem e.pteAddr (pteTouched 0 false) 8 := by
  have hstore : (outOfRange env e.pteAddr || pmpRefusesStore .u64 s.hs e.pteAddr) = false := by
    have htouch : (~~~(0#64 ||| (0b11#64 <<< 6)) != 0) = true := by decide
    unfold hitRefused at h
    dsimp only at h
    rw [memFetch_refused hread, (memStore_flags env .u64 _ e.pteAddr _).1] at h
    change (~~~(0#64 ||| (0b11#64 <<< 6)) != 0 &&
      (outOfRange env e.pteAddr || pmpRefusesStore .u64 s.hs e.pteAddr)) = false at h
    rw [htouch, Bool.true_and] at h
    exact h
  have hused : usedPte env e.pteAddr s = 0 := if_pos hread
  refine (tlbHit_marks va 0b100 i e).trans ?_
  rw [markedRam, hused]
  exact if_pos ⟨hram, by decide, hstore⟩

/-- Without a leaf a fetch goes where the tables say, and marks nothing. -/
theorem fetch_without_leaf (hok : TlbOk env s) (hl : tableLeaf env va s = none)
    (hkind : s.hs.memStatus = false) (hpriv : s.hs.privmode ≠ 3) (h : FinalAddress env s va q m) :
    tableAddress env va s = some q ∧ m = s.bus.mainMem := by
  have hno (i : Nat) (e : TLBEntry) : tlbEntry s.hs va 0b100 ≠ some (i, e) := by
    intro he
    obtain ⟨l', hl', -⟩ := hok.hit he
    exact Option.some_ne_none l' (hl'.symm.trans hl)
  rcases h.fetch_cases hkind hpriv with ⟨i, e, he, -⟩ | ⟨-, -, hq, hm⟩
  · exact absurd he (hno i e)
  · have hmiss : tlbEntry s.hs va 0b100 = none :=
      Option.eq_none_iff_forall_ne_some.mpr fun ⟨i, e⟩ => hno i e
    rw [tlbFind_miss env hmiss] at hq hm
    refine ⟨hq, ?_⟩
    -- a walk would have found the leaf
    rcases hwalk : (leafWalk env va s).1 with _ | l'
    · rw [hm, walkedRam]
      exact congrArg (fun o => o.elim s.bus.mainMem fun l => markedRam env false l.pteAddr s) hwalk
    · have hpath : leafWalk env va s = (some l', _) := Prod.ext hwalk rfl
      have hleaf := tablePath_of_walkPath env va hpath
      exact absurd (hleaf.symm.trans hl) (Option.some_ne_none l')

variable (hok : TlbOk env s) (hl : tableLeaf env va s = some l)
include hok hl

/-- An entry that matches is that of the leaf, and gives the address of the tables. -/
theorem tlbEntry_of_leaf {perms : BitVec 8} {i : Nat} {e : TLBEntry}
    (he : tlbEntry s.hs va perms = some (i, e)) :
    e.pteAddr = l.pteAddr ∧ e.address va i = l.address va := by
  obtain ⟨l', hl', -, hlevel, rfl, -⟩ := hok.hit he
  obtain rfl := Option.some.inj (hl.symm.trans hl')
  rw [← hlevel]
  exact ⟨rfl, leafEntry_address (tableLeaf_level env va hl)⟩

variable (hne : l.address va ≠ 0)
include hne

/-- A fetch that may read the PTE of its page goes where the tables say, and marks it. -/
theorem fetch_marks_leaf (hkind : s.hs.memStatus = false) (hpriv : s.hs.privmode ≠ 3)
    (hram : 0x80000000 ≤ l.pteAddr)
    (hread : (outOfRange env l.pteAddr || pmpRefusesFetch .u64 s.hs l.pteAddr) = false)
    (h : FinalAddress env s va q m) :
    q = l.address va ∧ m = markedRam env false l.pteAddr s ∧
      ((~~~(l.pte ||| (0b11#64 <<< 6)) != 0) = true →
        (outOfRange env l.pteAddr || pmpRefusesStore .u64 s.hs l.pteAddr) = false) := by
  have hpte := (tablePath_read hl).2.2 hram
  -- what a walk from this state does
  have hwalk (htables : TablesTranslate env va false s) (hq : tableAddress env va s = some q)
      (hm : m = walkedRam env false va s) : q = l.address va ∧ m = markedRam env false l.pteAddr s ∧
        ((~~~(l.pte ||| (0b11#64 <<< 6)) != 0) = true →
          (outOfRange env l.pteAddr || pmpRefusesStore .u64 s.hs l.pteAddr) = false) := by
    rcases htables with h0 | ⟨l', hl', -, hupdate⟩
    · exact absurd h0 (tableLeaf_levels hl)
    · have hpath : leafWalk env va s = (some l', _) := Prod.ext hl' rfl
      have hleaf := tablePath_of_walkPath env va hpath
      obtain rfl := Option.some.inj (hl.symm.trans hleaf)
      refine ⟨?_, ?_, fun htouch => ?_⟩
      · rw [tableAddress_of_leaf hl] at hq
        exact (Option.some.inj hq).symm
      · rw [hm, walkedRam, hl']
        rfl
      · rw [Leaf.updateRefused, htouch, Bool.true_and] at hupdate
        rw [(Bool.or_eq_false_iff.mp hread).1, hupdate]
        rfl
  rcases h.fetch_cases hkind hpriv with ⟨i, e, he, hhit, -, rfl, rfl⟩ | ⟨hno, htables, hq, hm⟩
  · obtain ⟨hptr, haddress⟩ := tlbEntry_of_leaf hok hl he
    rw [hptr]
    refine ⟨haddress, rfl, fun htouch => ?_⟩
    rw [hitRefused_eq (by rw [hptr]; exact hram) (by rw [hptr]; exact hread), hptr, ← hpte, htouch,
      Bool.true_and] at hhit
    exact hhit
  · have hself : s.setMemStatus false = s := by rw [← hkind]; rfl
    rcases he : tlbEntry s.hs va 0b100 with _ | ⟨i, e⟩
    · rw [tlbFind_miss env he] at htables hq hm
      exact hwalk htables hq hm
    · obtain ⟨hptr, haddress⟩ := tlbEntry_of_leaf hok hl he
      rcases hno i e he with hrefused | hzero
      -- the lookup has read the PTE, and nothing else
      · have hlookup : (tlbFind env s va 0b100).2 = s := by
          rw [tlbFind_hit env he, tlbHit_refused (by rw [hptr]; exact hram)
            (by rw [hptr]; exact hread) hrefused, hself]
        rw [hlookup] at htables hq hm
        exact hwalk htables hq hm
      · exact absurd (haddress.symm.trans hzero) hne

omit hok hne in
/-- A walk of a fetch that finds the leaf may read its PTE. -/
theorem leaf_readable_of_walk {t : Sys δ} (hframe : MemFrame s t) (htables : SameTables env s t)
    (hkind : t.hs.memStatus = s.hs.memStatus) (hwalk : TablesTranslate env va false t) :
    (outOfRange env l.pteAddr || pmpRefusesFetch .u64 s.hs l.pteAddr) = false := by
  rcases hwalk with h0 | ⟨l', hl', -⟩
  · rw [hframe.satp] at h0
    exact absurd h0 (tableLeaf_levels hl)
  · have hpath : leafWalk env va t = (some l', _) := Prod.ext hl' rfl
    obtain ⟨l'', hl'', hsame⟩ := htables.tableLeaf hl
    obtain rfl := Option.some.inj (hl''.symm.trans (tablePath_of_walkPath env va hpath))
    have hptr : l''.pteAddr = l.pteAddr := (congrArg Leaf.pteAddr hsame :)
    have hgranted := walkPath_granted hpath
    rw [hptr, pmpRefusesFetch_congr hframe.pmp hframe.privmode hkind] at hgranted
    exact hgranted

/-- Where the lookup leaves the tables alone, a fetch has read the PTE of its page. -/
theorem fetch_reads_leaf (hkind : s.hs.memStatus = false) (hpriv : s.hs.privmode ≠ 3)
    (hram : 0x80000000 ≤ l.pteAddr) (hlookup : SameTables env s (tlbFind env s va 0b100).2)
    (h : FinalAddress env s va q m) :
    (outOfRange env l.pteAddr || pmpRefusesFetch .u64 s.hs l.pteAddr) = false := by
  have hframe := tlbFind_frame env s va 0b100
  rcases h.fetch_cases hkind hpriv with ⟨i, e, he, hhit, -, -, -⟩ | ⟨hno, htables, -, -⟩
  · by_contra hrefused
    rw [Bool.not_eq_false] at hrefused
    -- the hit has overwritten the PTE, which is that of a leaf no longer
    obtain ⟨hptr, -⟩ := tlbEntry_of_leaf hok hl he
    rw [← hptr] at hrefused hram
    obtain ⟨l', hl', hsame⟩ := hlookup.tableLeaf hl
    have hptr' : l'.pteAddr = e.pteAddr := (congrArg Leaf.pteAddr hsame :).trans hptr.symm
    obtain ⟨-, hvalid, hpte⟩ := tablePath_read hl'
    rw [hpte (by rw [hptr']; exact hram), tlbFind_hit env he, tlbHit_overwrites hram hrefused hhit,
      hptr', loadLe_storeLe] at hvalid
    exact absurd hvalid (by decide)
  · refine leaf_readable_of_walk hl hframe hlookup ?_ htables
    rcases he : tlbEntry s.hs va 0b100 with _ | ⟨i, e⟩
    · rw [tlbFind_miss env he]
    · rcases hno i e he with - | hzero
      · rw [tlbFind_hit env he]
        exact (tlbHit_memStatus env i e).trans hkind.symm
      · exact absurd ((tlbEntry_of_leaf hok hl he).2.symm.trans hzero) hne

end Fetch

/-! ## Code that stays as it is -/

/-- Neither code, the page tables, `satp` nor the PMP differ. -/
structure SameCode (env : Env δ) (code : BitVec 64 → Prop) (s t : Sys δ) : Prop where
  tables : SameTables env s t
  pmp : t.hs.pmp = s.hs.pmp
  ram : ∀ a, code a → t.bus.mainMem a = s.bus.mainMem a

/-- A fetch may read the leaf, and A is set in it if it is code and A is ever written back. -/
structure Accessed (env : Env δ) (code : BitVec 64 → Prop) (s : Sys δ) (l : Leaf) : Prop where
  read : (outOfRange env l.pteAddr ||
    pmpRefusesFetch .u64 { s.hs with memStatus := false } l.pteAddr) = false
  set : code l.pteAddr → (~~~(l.pte ||| (0b11#64 <<< 6)) != 0) = true →
    (s.bus.mainMem l.pteAddr).getLsbD 6 = true

section Code

variable {env : Env δ} {code : BitVec 64 → Prop} {s t : Sys δ} {l l' : Leaf}

theorem SameCode.symm (h : SameCode env code s t) : SameCode env code t s :=
  ⟨h.tables.symm, h.pmp.symm, fun a ha => (h.ram a ha).symm⟩

theorem SameCode.trans {u : Sys δ} (h : SameCode env code s t) (h' : SameCode env code t u) :
    SameCode env code s u :=
  ⟨h.tables.trans h'.tables, h'.pmp.trans h.pmp, fun a ha => (h'.ram a ha).trans (h.ram a ha)⟩

/-- What stays as it is stays accessed. -/
theorem Accessed.mono (h : Accessed env code s l) (hsame : SameCode env code s t)
    (hpriv : t.hs.privmode = s.hs.privmode) (hl : l'.clearAD = l.clearAD) :
    Accessed env code t l' := by
  have hptr : l'.pteAddr = l.pteAddr := (congrArg Leaf.pteAddr hl :)
  have hpte : l'.pte ||| (0b11#64 <<< 6) = l.pte ||| (0b11#64 <<< 6) :=
    or_of_clearAD (congrArg Leaf.pte hl :)
  refine ⟨?_, fun hcode htouch => ?_⟩
  · have hrefuses : pmpRefusesFetch .u64 { t.hs with memStatus := false } l.pteAddr =
        pmpRefusesFetch .u64 { s.hs with memStatus := false } l.pteAddr :=
      pmpRefusesFetch_congr hsame.pmp hpriv rfl
    rw [hptr, hrefuses]
    exact h.read
  · rw [hpte] at htouch
    rw [hptr] at hcode ⊢
    rw [hsame.ram _ hcode]
    exact h.set hcode htouch

theorem loadLe_getLsbD (mem : BitVec 64 → BitVec 8) (p : BitVec 64) {n i : Nat} (hn : n ≤ 8)
    (hi : i < 8 * n) :
    (loadLe mem p n).getLsbD i = (mem (p + BitVec.ofNat 64 (i / 8))).getLsbD (i % 8) := by
  have hbit := congrArg (·.getLsbD (i % 8)) (loadLe_byte mem p hn (Nat.div_lt_of_lt_mul hi))
  have hmod : i % 8 < 8 := Nat.mod_lt _ (by decide)
  simpa only [BitVec.getLsbD_setWidth, BitVec.getLsbD_ushiftRight, hmod, decide_true,
    Bool.true_and, Nat.div_add_mod] using hbit

/-- Setting A changes the first byte of a PTE alone. -/
theorem storeLe_accessed (mem : BitVec 64 → BitVec 8) (a : BitVec 64) {b : BitVec 64} (hb : b ≠ a) :
    storeLe mem a (pteTouched (loadLe mem a 8) false) 8 b = mem b := by
  unfold storeLe
  split
  · next hk =>
    have hpos : (b - a).toNat ≠ 0 := by
      intro h0
      have hzero : b - a = 0#64 := BitVec.eq_of_toNat_eq h0
      exact hb (by rw [← BitVec.sub_add_cancel b a, hzero, BitVec.zero_add])
    have hbyte := loadLe_byte mem a (Nat.le_refl 8) hk
    have haddr : a + BitVec.ofNat 64 (b - a).toNat = b := by
      rw [BitVec.ofNat_toNat, BitVec.setWidth_eq, BitVec.add_comm, BitVec.sub_add_cancel]
    rw [haddr] at hbyte
    rw [← hbyte]
    apply BitVec.eq_of_getLsbD_eq
    intro i hi
    -- bit 6 lies in the first byte
    have hmask : (0x40 : BitVec 64).getLsbD (8 * (b - a).toNat + i) = false := by
      have hsmall : ∀ j < 64, 8 ≤ j → (0x40 : BitVec 64).getLsbD j = false := by decide
      exact hsmall _ (by omega) (by omega)
    have hmask' : adMask false = 0x40 := rfl
    simp only [pteTouched_eq, hmask', BitVec.getLsbD_setWidth, BitVec.getLsbD_ushiftRight,
      BitVec.getLsbD_or, hmask, Bool.or_false]
  · rfl

/-- A fetch from the page of a leaf that is accessed finds the code as it was. -/
theorem Accessed.markedRam_code (h : Accessed env code s l)
    (hpte : l.pte = loadLe s.bus.mainMem l.pteAddr 8) (hkind : s.hs.memStatus = false)
    {b : BitVec 64} (hb : code b) : markedRam env false l.pteAddr s b = s.bus.mainMem b := by
  have hhs : { s.hs with memStatus := false } = s.hs := by rw [← hkind]
  have hread := h.read
  rw [hhs] at hread
  have hused : usedPte env l.pteAddr s = l.pte := by
    rw [usedPte, hread, if_neg Bool.false_ne_true, hpte]
  unfold markedRam
  split
  · next hmark =>
    obtain ⟨-, htouch, -⟩ := hmark
    rw [hused] at htouch ⊢
    by_cases hbyte : b = l.pteAddr
    · -- the byte that holds A is code
      have hset := h.set (hbyte ▸ hb) htouch
      have hbit : l.pte.getLsbD 6 = true := by
        rw [hpte, loadLe_getLsbD _ _ (by decide) (by decide)]
        have hfirst := congrArg (fun a => (s.bus.mainMem a).getLsbD 6) (BitVec.add_zero l.pteAddr)
        exact hfirst.trans hset
      have hkept : pteTouched l.pte false = l.pte := by
        apply BitVec.eq_of_getLsbD_eq
        intro i hi
        have hmask : ∀ j < 64, j ≠ 6 → (adMask false).getLsbD j = false := by decide
        rw [pteTouched_eq, BitVec.getLsbD_or]
        by_cases h6 : i = 6
        · rw [h6, hbit, Bool.true_or]
        · rw [hmask i hi h6, Bool.or_false]
      rw [hkept, hpte, storeLe_loadLe]
    · rw [hpte]
      exact storeLe_accessed s.bus.mainMem l.pteAddr hbyte
  · rfl

/-- The first fetch from a page sets A. -/
theorem markedRam_set (hram : 0x80000000 ≤ l.pteAddr)
    (hpte : l.pte = loadLe s.bus.mainMem l.pteAddr 8)
    (hread : (outOfRange env l.pteAddr || pmpRefusesFetch .u64 s.hs l.pteAddr) = false)
    (htouch : (~~~(l.pte ||| (0b11#64 <<< 6)) != 0) = true)
    (hstore : (outOfRange env l.pteAddr || pmpRefusesStore .u64 s.hs l.pteAddr) = false) :
    (markedRam env false l.pteAddr s l.pteAddr).getLsbD 6 = true := by
  have hused : usedPte env l.pteAddr s = l.pte := by
    rw [usedPte, hread, if_neg Bool.false_ne_true, hpte]
  rw [markedRam, hused, if_pos ⟨hram, htouch, hstore⟩]
  have hzero : (l.pteAddr - l.pteAddr).toNat = 0 := by rw [BitVec.sub_self]; rfl
  simp only [storeLe, hzero, Nat.zero_lt_succ, ↓reduceIte, Nat.mul_zero, BitVec.ushiftRight_zero,
    pteTouched_eq, BitVec.getLsbD_setWidth, BitVec.getLsbD_or]
  have hA : (adMask false).getLsbD 6 = true := rfl
  rw [hA, Bool.or_true]
  rfl

end Code

end RvEmu
