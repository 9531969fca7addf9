import RvEmu.Spec.TlbCycle

/-!
# Pages

All addresses of one page of 4 KiB hit the same TLB entry and have the same leaf, so
that within a page addresses translate one after the other. The exception is a page
that the TLB maps to physical address zero, which `tlb_find` takes for a miss.
-/

namespace RvEmu

variable {δ : Type}

/-- Two addresses of one page of 4 KiB. -/
def SamePage (va va' : BitVec 64) : Prop := va' >>> 12 = va >>> 12

instance (va va' : BitVec 64) : Decidable (SamePage va va') :=
  inferInstanceAs (Decidable (_ = _))

/-- Two addresses in one page have the same bits from the page number on, … -/
theorem SamePage.shift {va va' : BitVec 64} (h : SamePage va va') {k : Nat} (hk : 12 ≤ k) :
    va' >>> k = va >>> k := by
  have hsplit : k = 12 + (k - 12) := by omega
  rw [hsplit, BitVec.shiftRight_add, BitVec.shiftRight_add, h]

/-- … and the same page of each size. -/
theorem SamePage.mask {va va' : BitVec 64} (h : SamePage va va') (i : Nat) :
    va' &&& pageMask (12 + 9 * i) = va &&& pageMask (12 + 9 * i) :=
  BitVec.and_allOnes_shiftLeft_congr (h.shift (Nat.le_add_right 12 (9 * i)))

/-- The next address, if it is in the same page. -/
theorem SamePage.toNat_succ {va : BitVec 64} (h : SamePage va (va + 1)) :
    (va + 1).toNat = va.toNat + 1 ∧ va.toNat % 4096 < 4095 := by
  have hnat := congrArg BitVec.toNat h
  have hone : (1 : BitVec 64).toNat = 1 := rfl
  simp only [BitVec.toNat_ushiftRight, Nat.shiftRight_eq_div_pow, BitVec.toNat_add, hone] at hnat ⊢
  omega

/-- The page offset of the next address. -/
theorem SamePage.offset_succ {va : BitVec 64} (h : SamePage va (va + 1)) {k : Nat} (hk : 12 ≤ k)
    (hk64 : k ≤ 64) : (va + 1) &&& ~~~pageMask k = (va &&& ~~~pageMask k) + 1 := by
  obtain ⟨hsucc, hlow⟩ := h.toNat_succ
  have hpow : 2 ^ k = 4096 * 2 ^ (k - 12) := by
    rw [show (4096 : Nat) = 2 ^ 12 from rfl, ← Nat.pow_add]
    congr 1
    omega
  -- within a page the low twelve bits take the carry
  have hstep : (va.toNat + 1) % 2 ^ k = va.toNat % 2 ^ k + 1 := by
    have hmod : (va.toNat + 1) % 4096 = va.toNat % 4096 + 1 := by omega
    have hdiv : (va.toNat + 1) / 4096 = va.toNat / 4096 := by omega
    rw [hpow, Nat.mod_mul, Nat.mod_mul, hmod, hdiv]
    omega
  have hlt : va.toNat % 2 ^ k + 1 < 2 ^ 64 := by
    rw [← hstep]
    exact Nat.lt_of_lt_of_le (Nat.mod_lt _ (Nat.two_pow_pos k))
      (Nat.pow_le_pow_right (by decide) hk64)
  apply BitVec.eq_of_toNat_eq
  calc ((va + 1) &&& ~~~pageMask k).toNat = (va.toNat + 1) % 2 ^ k := by
        rw [pageMask, BitVec.toNat_and_not_allOnes_shiftLeft _ hk64, BitVec.toNat_setWidth, hsucc]
    _ = va.toNat % 2 ^ k + 1 := hstep
    _ = ((va &&& ~~~pageMask k) + 1).toNat := by
        rw [BitVec.toNat_add, pageMask, BitVec.toNat_and_not_allOnes_shiftLeft _ hk64,
          BitVec.toNat_setWidth]
        exact (Nat.mod_eq_of_lt hlt).symm

/-! ## Lookups -/

section Lookup

variable {hs : HartState} {va va' : BitVec 64} {perms : BitVec 8}

/-- An entry matches both or neither, … -/
theorem tlbMatches_samePage (h : SamePage va va') {i : Nat} (hi : i < 6) (e : TLBEntry) :
    tlbMatches hs va' perms i e = tlbMatches hs va perms i e := by
  have hk : 12 + 9 * i < 64 := by omega
  have hpage : (va' ^^^ e.virtPage < 1#64 <<< (12 + 9 * i)) ↔
      (va ^^^ e.virtPage < 1#64 <<< (12 + 9 * i)) := by
    rw [BitVec.lt_one_shiftLeft_iff hk, BitVec.lt_one_shiftLeft_iff hk,
      BitVec.ushiftRight_xor_distrib, BitVec.ushiftRight_xor_distrib,
      h.shift (Nat.le_add_right 12 (9 * i))]
  unfold tlbMatches
  rw [decide_eq_decide.mpr hpage]

/-- … so that the lookup finds the same one. -/
theorem tlbLookup_samePage (h : SamePage va va') {n : Nat} (hn : n ≤ 6) :
    tlbLookup hs va' perms n = tlbLookup hs va perms n := by
  induction n with
  | zero => rfl
  | succ i ih =>
    have hprobe : tlbProbe hs.tlb va' i = tlbProbe hs.tlb va i := by
      rw [tlbProbe, h.mask, tlbProbe]
    simp only [tlbLookup, hprobe, tlbMatches_samePage h (Nat.lt_of_succ_le hn),
      ih (Nat.le_of_succ_le hn)]

/-- All addresses of a page hit the same entry. -/
theorem tlbEntry_samePage (h : SamePage va va') :
    tlbEntry hs va' perms = tlbEntry hs va perms := by
  have hsize := hs.tlb.maxEntrySize.isLt
  rw [tlbEntry, tlbLookup_samePage h (by omega), tlbEntry]

end Lookup

/-! ## Addresses -/

/-- The next byte in the page has the next physical address, by an entry … -/
theorem TLBEntry.address_succ {va : BitVec 64} (h : SamePage va (va + 1)) (e : TLBEntry) {i : Nat}
    (hi : i < 6) : e.address (va + 1) i = e.address va i + 1 := by
  have hk : 12 + 9 * i ≤ 64 := by omega
  rw [TLBEntry.address, TLBEntry.address, ← BitVec.not_allOnes_shiftLeft hk]
  rw [show ~~~(BitVec.allOnes 64 <<< (12 + 9 * i)) = ~~~pageMask (12 + 9 * i) from rfl,
    h.offset_succ (Nat.le_add_right 12 (9 * i)) hk, BitVec.add_assoc]

/-- … and by a leaf. -/
theorem Leaf.address_succ {va : BitVec 64} (h : SamePage va (va + 1)) {l : Leaf}
    (hl : l.level < 5) : l.address (va + 1) = l.address va + 1 := by
  rw [Leaf.address, Leaf.address, h.offset_succ (Nat.le_add_right 12 (9 * l.level)) (by omega),
    BitVec.add_assoc, BitVec.add_assoc, BitVec.add_comm 1]

/-- Physical page numbers have 44 bits. -/
theorem ptePpn_lt (pte : BitVec 64) : (ptePpn pte).toNat < 0x100000000000000 := by
  have hle : (pte &&& 0x3FFFFFFFFFFC00).toNat ≤ 0x3FFFFFFFFFFC00 := by
    rw [BitVec.toNat_and]
    exact Nat.and_le_right
  rw [ptePpn, BitVec.toNat_shiftLeft, Nat.shiftLeft_eq]
  omega

/-- The offset in a page of any size. -/
theorem pageOffset_lt (va : BitVec 64) {i : Nat} (hi : i < 6) :
    (va &&& ~~~pageMask (12 + 9 * i)).toNat < 0x200000000000000 := by
  rw [pageMask, BitVec.toNat_and_not_allOnes_shiftLeft _ (by omega), BitVec.toNat_setWidth]
  have hpow : 2 ^ (12 + 9 * i) ≤ 2 ^ 57 := Nat.pow_le_pow_right (by decide) (by omega)
  exact Nat.lt_of_lt_of_le (Nat.mod_lt _ (Nat.two_pow_pos (12 + 9 * i))) hpow

/-- The address of a leaf has less than 58 bits. -/
theorem Leaf.address_lt (va : BitVec 64) {l : Leaf} (hl : l.level < 5) :
    (l.address va).toNat < 0x400000000000000 := by
  have hoffset := pageOffset_lt va (Nat.lt_succ_of_lt hl)
  have hpage := ptePpn_lt l.pte
  rw [Leaf.address, BitVec.toNat_add]
  omega

/-! ## Walks -/

section Walk

variable {env : Env δ} {s : Sys δ} {va va' : BitVec 64}

/-- The entry that is added for a leaf is the same, … -/
theorem leafEntry_samePage (h : SamePage va va') (pteAddr pte : BitVec 64) (i : Nat) :
    leafEntry va' pteAddr pte i = leafEntry va pteAddr pte i := by
  rw [leafEntry, h.mask, leafEntry]

/-- … and so are what a leaf leaves … -/
theorem walkLeaf_samePage (h : SamePage va va') (isWrite memStatus : Bool) (i : Nat)
    (pteAddr pte : BitVec 64) :
    (walkLeaf env va' isWrite memStatus i pteAddr pte s).2 =
      (walkLeaf env va isWrite memStatus i pteAddr pte s).2 := by
  simp only [walkLeaf, leafEntry_samePage h]
  split
  · rfl
  · split <;> split <;> rfl

/-- … and what the whole walk leaves. -/
theorem walkLoop_samePage (h : SamePage va va') (isWrite memStatus : Bool) (n : Nat)
    (a : BitVec 64) :
    (walkLoop env va' isWrite memStatus n a s).2 = (walkLoop env va isWrite memStatus n a s).2 := by
  induction n generalizing a s with
  | zero => rfl
  | succ i ih =>
    -- the indices of all levels lie above the page offset
    have hindex : pteAddrAt a va' i = pteAddrAt a va i := by
      rw [pteAddrAt, h.shift (Nat.le_add_left 12 (9 * i)), pteAddrAt]
    simp only [walkLoop, hindex]
    split
    · rfl
    · split
      · rfl
      · split
        · exact ih _
        · exact walkLeaf_samePage h isWrite memStatus i _ _

/-- The walks for all addresses of a page do the same. -/
theorem pageTableWalk_samePage (h : SamePage va va') (isWrite : Bool) :
    (pageTableWalk env s va' isWrite).2 = (pageTableWalk env s va isWrite).2 := by
  unfold pageTableWalk
  split
  · rfl
  · exact walkLoop_samePage h isWrite _ _ _

/-- What the tables give for the next address of a page. -/
theorem tableAddress_succ (h : SamePage va (va + 1)) {p : BitVec 64}
    (hp : tableAddress env va s = some p) : tableAddress env (va + 1) s = some (p + 1) := by
  by_cases hmode : satpLevels s.hs.csr.satp = 0
  · rw [tableAddress, if_pos hmode] at hp ⊢
    rw [Option.some.inj hp]
  · rw [tableAddress, if_neg hmode, Option.map_eq_some_iff] at hp
    obtain ⟨l, hl, rfl⟩ := hp
    have hnext : tableLeaf env (va + 1) s = some l :=
      tableLeaf_samePage env va (fun k hk => h.shift (by omega)) hl
    rw [tableAddress_of_leaf hnext, Leaf.address_succ h (tableLeaf_level env va hl)]

end Walk

/-! ## Translations -/

section Translate

variable {env : Env δ} {s : Sys δ} {va : BitVec 64} {perms : BitVec 8}

/-- The TLB maps the address to physical address zero, which `tlb_find` takes for a
    miss. -/
def NullHit (env : Env δ) (s : Sys δ) (va : BitVec 64) (perms : BitVec 8) : Prop :=
  ∃ i e, tlbEntry s.hs va perms = some (i, e) ∧ hitRefused env s perms e = false ∧
    e.address va i = 0

/-- The TLB holds physical page numbers. -/
def TlbPhysical (s : Sys δ) : Prop := ∀ i, ∃ pte, (s.hs.tlb.tlbEntries i).phyPage = ptePpn pte

/-- An empty TLB, … -/
theorem tlbPhysical_clear (h : s.hs.tlb = tlbClear) : TlbPhysical s := by
  intro i
  rw [h]
  exact ⟨0, rfl⟩

/-- … and a step of the TLB. -/
theorem TlbPhysical.step {t : Sys δ} (h : TlbPhysical s) (hstep : TlbStep env s t) :
    TlbPhysical t := by
  have hkept (htlb : t.hs.tlb = s.hs.tlb) : TlbPhysical t := by
    intro i
    rw [htlb]
    exact h i
  -- only a walk that finds a leaf adds an entry
  cases hstep with
  | find va perms => exact hkept (tlbFind_tlb env s va perms)
  | walk va isWrite =>
    rcases pageTableWalk_tlb env s va isWrite with htlb | ⟨l, -, -, htlb⟩
    · exact hkept htlb
    · intro i
      rw [htlb, tlbAdd_entries]
      split
      · exact ⟨l.pte, rfl⟩
      · exact h i
  | clear _ htlb => exact tlbPhysical_clear htlb
  | other _ htlb => exact hkept htlb

/-- The TLB of every reachable state does. -/
theorem Reachable.tlbPhysical (h : Reachable env s) : TlbPhysical s :=
  h.tlbInvariant env s (fun _ ht => tlbPhysical_clear ht) fun _ _ hstep ht => ht.step hstep

/-- An entry that is found is one of the table. -/
theorem tlbEntry_lt {hs : HartState} {i : Nat} {e : TLBEntry} (h : tlbEntry hs va perms = some (i, e)) :
    i < 6 ∧ ∃ j, e = hs.tlb.tlbEntries j := by
  unfold tlbEntry at h
  split at h
  · cases h
  · obtain ⟨hi, he, -⟩ := tlbLookup_matches h
    have hsize := hs.tlb.maxEntrySize.isLt
    exact ⟨by omega, _, he⟩

/-- A hit composes the sum of the page and the offset. -/
theorem TlbPhysical.address (h : TlbPhysical s) {i : Nat} {e : TLBEntry}
    (he : tlbEntry s.hs va perms = some (i, e)) :
    (e.address va i).toNat =
        e.phyPage.toNat + (va &&& ~~~pageMask (12 + 9 * i)).toNat ∧
      (e.address va i).toNat < 0x400000000000000 := by
  obtain ⟨hi, j, rfl⟩ := tlbEntry_lt he
  obtain ⟨pte, hpte⟩ := h j
  have hpage := ptePpn_lt pte
  have hoffset := pageOffset_lt va hi
  rw [TLBEntry.address, ← BitVec.not_allOnes_shiftLeft (by omega)]
  rw [show ~~~(BitVec.allOnes 64 <<< (12 + 9 * i)) = ~~~pageMask (12 + 9 * i) from rfl,
    BitVec.toNat_add, hpte]
  omega

/-- Behind a hit the translation is that of the entry. -/
theorem translate_of_hit {isWrite : Bool} (h : (tlbFind env s va perms).1 ≠ 0) :
    translate env s va perms isWrite =
      (some (tlbFind env s va perms).1, (tlbFind env s va perms).2) := if_neg h

/-- After a miss, a translation succeeds where the walk does. -/
theorem translate_of_miss {isWrite : Bool} (h : (tlbFind env s va perms).1 = 0) {p : BitVec 64} :
    (translate env s va perms isWrite).1 = some p ↔
      WalkAccepts env va isWrite (tlbFind env s va perms).2 ∧
        (pageTableWalk env (tlbFind env s va perms).2 va isWrite).1 = p := by
  simp only [translate, if_pos h, WalkAccepts]
  -- the flags of the walk decide
  split
  · next hfault =>
    refine iff_of_false (fun hp => by cases hp) ?_
    rintro ⟨⟨hpf, hm⟩, -⟩
    rw [hpf, hm] at hfault
    cases hfault
  · next hok =>
    have hflags := Bool.or_eq_false_iff.mp (Bool.eq_false_iff.mpr hok)
    rw [Option.some_inj, and_iff_right hflags]

/-- A walk that is refused gives no address. -/
theorem translate_of_refused {isWrite : Bool} (h : (tlbFind env s va perms).1 = 0)
    (hwalk : ¬ WalkAccepts env va isWrite (tlbFind env s va perms).2) :
    translate env s va perms isWrite =
      (none, (pageTableWalk env (tlbFind env s va perms).2 va isWrite).2) := by
  unfold translate
  dsimp only
  rw [if_pos h, if_pos]
  rw [Bool.or_eq_true_iff]
  by_contra hflags
  rw [not_or, Bool.not_eq_true, Bool.not_eq_true] at hflags
  exact hwalk hflags

/-- A walk gets the flag of the lookup back. -/
theorem translate_memStatus {isWrite : Bool} {p : BitVec 64}
    (h : (translate env s va perms isWrite).1 = some p) :
    (translate env s va perms isWrite).2.hs.memStatus =
      (tlbFind env s va perms).2.hs.memStatus := by
  unfold translate at h ⊢
  dsimp only at h ⊢
  split at h
  · next hmiss =>
    rw [if_pos hmiss]
    split at h
    · cases h
    · next hflags => rw [if_neg hflags]; rfl
  · next hhit => rw [if_neg hhit]

/-- Within a page the next address translates to the next physical address. -/
theorem translate_succ (h : SamePage va (va + 1)) (hsatp : s.hs.csr.satp ≠ 0)
    (hphys : TlbPhysical s) (hnull : ¬ NullHit env s va perms) {isWrite : Bool} {p : BitVec 64}
    (hp : (translate env s va perms isWrite).1 = some p) :
    (translate env s (va + 1) perms isWrite).1 = some (p + 1) := by
  -- both lookups miss in the same state, and the walks do the same
  have hmiss (h0 : (tlbFind env s va perms).1 = 0) (h1 : (tlbFind env s (va + 1) perms).1 = 0)
      (hsame : (tlbFind env s (va + 1) perms).2 = (tlbFind env s va perms).2) :
      (translate env s (va + 1) perms isWrite).1 = some (p + 1) := by
    obtain ⟨haccepts, rfl⟩ := (translate_of_miss h0).mp hp
    have hnext : WalkAccepts env (va + 1) isWrite (tlbFind env s (va + 1) perms).2 := by
      unfold WalkAccepts
      rw [hsame, pageTableWalk_samePage h]
      exact haccepts
    refine (translate_of_miss h1).mpr ⟨hnext, ?_⟩
    have haddr := hnext.address
    rw [hsame] at haddr ⊢
    exact Option.some.inj (haddr.symm.trans (tableAddress_succ h haccepts.address))
  rcases he : tlbEntry s.hs va perms with _ | ⟨i, e⟩
  · have he' : tlbEntry s.hs (va + 1) perms = none := (tlbEntry_samePage h).trans he
    have h0 := tlbFind_miss env he
    have h1 := tlbFind_miss env he'
    rw [if_neg hsatp] at h0 h1
    exact hmiss (congrArg Prod.fst h0) (congrArg Prod.fst h1) (by rw [h0, h1])
  · have he' : tlbEntry s.hs (va + 1) perms = some (i, e) := (tlbEntry_samePage h).trans he
    have h0 := tlbFind_hit env he
    have h1 := tlbFind_hit env he'
    have hf0 := @tlbHit_fst δ env s va perms i e
    have hf1 := @tlbHit_fst δ env s (va + 1) perms i e
    cases hrefused : hitRefused env s perms e with
    | true =>
      rw [if_pos hrefused] at hf0 hf1
      exact hmiss (by rw [h0, hf0]) (by rw [h1, hf1]) (by rw [h0, h1, tlbHit_snd])
    | false =>
      have hno : ¬ hitRefused env s perms e = true := by rw [hrefused]; exact Bool.false_ne_true
      rw [if_neg hno] at hf0 hf1
      have hne : e.address va i ≠ 0 := fun hz => hnull ⟨i, e, he, hrefused, hz⟩
      have hnext := TLBEntry.address_succ h e (tlbEntry_lt he).1
      have hne' : e.address (va + 1) i ≠ 0 := by
        have hlt := (hphys.address he).2
        have hpos : (e.address va i).toNat ≠ 0 := fun hz => hne (BitVec.eq_of_toNat_eq hz)
        intro hz
        rw [hnext] at hz
        have hsum := congrArg BitVec.toNat hz
        rw [BitVec.toNat_add] at hsum
        change (_ + 1) % 2 ^ 64 = 0 at hsum
        omega
      rw [translate_of_hit (by rw [h0, hf0]; exact hne), h0, hf0] at hp
      rw [translate_of_hit (by rw [h1, hf1]; exact hne'), h1, hf1, hnext]
      rw [Option.some.inj hp]

end Translate

end RvEmu
