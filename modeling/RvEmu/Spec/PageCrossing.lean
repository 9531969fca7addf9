import RvEmu.Spec.Page
import RvEmu.Spec.TlbPermission

/-!
# Accesses that cross a page boundary

The accessors translate the address of the first byte and access that many bytes of
physical memory from there on. This is a translation byte by byte as long as the access
stays within a page; across a page boundary it is one only if the next page happens to
be mapped right behind the first.
-/

namespace RvEmu

variable {δ : Type}

section Access

variable (env : Env δ) (w : Width) (isWrite : Bool) (s : Sys δ) (va data : BitVec 64)

/-- A load, instruction fetch or store below M-mode. -/
def accessAt : Sys δ :=
  if isWrite then virtMemStoreAt env w s va data else (virtMemFetchAt env w s va).2

/-- The state in which the physical access is made. -/
def translated : Sys δ := (translate env s va (accessOf isWrite s).perms isWrite).2

/-- The address that a byte translates to. -/
def byteAddress : Option (BitVec 64) :=
  (translate env s va (accessOf isWrite s).perms isWrite).1

/-- PMP and the memory map permit the physical access at `p`. -/
def accessPermitted (t : Sys δ) (p : BitVec 64) : Bool :=
  !(outOfRange env p || if isWrite then pmpRefusesStore w t.hs p else pmpRefusesFetch w t.hs p)

/-- The access raises no fault. -/
def AccessOk (t : Sys δ) : Prop := t.hs.memStatus = false ∧ t.hs.pageFault = false

instance (t : Sys δ) : Decidable (AccessOk t) := inferInstanceAs (Decidable (_ ∧ _))

/-- Byte `i` of an access to RAM is the one at `p`: a load returns the byte there, and a store
    leaves that byte of `data`. -/
def ByteMoved (i : Nat) (p : BitVec 64) : Prop :=
  if isWrite then
    (accessAt env w isWrite s va data).bus.mainMem p = (data >>> (8 * i)).setWidth 8
  else ((virtMemFetchAt env w s va).1 >>> (8 * i)).setWidth 8 =
    (translated env isWrite s va).bus.mainMem p

/-- Byte `i` of an access without a fault, which is made at the translation `p` of its
    first byte, is the byte at the translation of its own address, in RAM as the translation
    leaves it; a device takes the access as a whole. An access with a byte that does not
    translate faults, and changes neither RAM after the translation nor the registers. -/
structure PageByPage : Prop where
  bytes : AccessOk (accessAt env w isWrite s va data) →
    ∃ p, byteAddress env isWrite s va = some p ∧
      ∀ i < w.bytes, byteAddress env isWrite s (va + BitVec.ofNat 64 i) =
        some (p + BitVec.ofNat 64 i) ∧
        (0x80000000 ≤ p → ByteMoved env w isWrite s va data i (p + BitVec.ofNat 64 i))
  others : AccessOk (accessAt env w isWrite s va data) → ∀ a,
    (∀ i < w.bytes, byteAddress env isWrite s (va + BitVec.ofNat 64 i) ≠ some a) →
    (accessAt env w isWrite s va data).bus.mainMem a =
      (translated env isWrite s va).bus.mainMem a
  fault : (∃ i < w.bytes, byteAddress env isWrite s (va + BitVec.ofNat 64 i) = none) →
    ¬ AccessOk (accessAt env w isWrite s va data) ∧
      (accessAt env w isWrite s va data).bus.mainMem = (translated env isWrite s va).bus.mainMem ∧
      (accessAt env w isWrite s va data).hs.regs = s.hs.regs

/-- The bytes of an access at `p` lie in one page, or the next page is mapped right
    behind; and no byte with another one after it in its page is mapped to physical
    address zero by the TLB. -/
structure Contiguous (p : BitVec 64) : Prop where
  crossing : ∀ i, i + 1 < w.bytes →
    ¬ SamePage (va + BitVec.ofNat 64 i) (va + BitVec.ofNat 64 i + 1) →
    byteAddress env isWrite s (va + BitVec.ofNat 64 i + 1) = some (p + BitVec.ofNat 64 i + 1)
  inPage : ∀ i, i + 1 < w.bytes →
    SamePage (va + BitVec.ofNat 64 i) (va + BitVec.ofNat 64 i + 1) →
    ¬ NullHit env s (va + BitVec.ofNat 64 i) (accessOf isWrite s).perms

end Access

section Access

variable {env : Env δ} {w : Width} {isWrite : Bool} {s : Sys δ} {va data : BitVec 64}

/-- The lookup keeps the flag. -/
theorem tlbFind_pageFault {perms : BitVec 8} :
    (tlbFind env s va perms).2.hs.pageFault = s.hs.pageFault := by
  rcases he : tlbEntry s.hs va perms with _ | ⟨i, e⟩
  · rw [tlbFind_miss env he]
  · have hread := (memFetch_flags env .u64 s e.pteAddr).2
    rw [tlbFind_hit env he]
    rcases tlbHit_cases env s va perms i e with h | ⟨b, h⟩ <;> rw [h]
    · exact hread
    · exact ((memStore_flags env .u64 _ e.pteAddr _).2).trans hread

/-- A translation that succeeds leaves no page fault. -/
theorem translate_pageFault {perms : BitVec 8} (hfault : s.hs.pageFault = false) {p : BitVec 64}
    (hp : (translate env s va perms isWrite).1 = some p) :
    (translate env s va perms isWrite).2.hs.pageFault = false := by
  simp only [translate] at hp ⊢
  -- after a miss the flag is that of the walk, after a hit that of before
  split at hp
  · next hmiss =>
    rw [if_pos hmiss]
    split at hp
    · cases hp
    · next hflags =>
      rw [if_neg hflags]
      exact (Bool.or_eq_false_iff.mp (Bool.eq_false_iff.mpr hflags)).1
  · next hhit =>
    rw [if_neg hhit]
    exact tlbFind_pageFault.trans hfault

/-- A translation that fails leaves a fault. -/
theorem translate_none {perms : BitVec 8} (hp : (translate env s va perms isWrite).1 = none) :
    ¬ AccessOk (translate env s va perms isWrite).2 := by
  simp only [translate] at hp ⊢
  split at hp
  · next hmiss =>
    rw [if_pos hmiss]
    split at hp
    · next hflags =>
      rw [if_pos hflags]
      -- there is no address only if the walk has set a flag
      rintro ⟨hm, hpf⟩
      rw [hm, hpf] at hflags
      cases hflags
    · cases hp
  · cases hp

/-- The permission that a load or fetch asks for. -/
theorem accessOf_perms_fetch :
    (accessOf false s).perms = if s.hs.memStatus then 0b001 else 0b100 := by
  unfold accessOf Access.ofFlags
  cases s.hs.memStatus <;> rfl

/-- Without a translation the access ends there. -/
theorem accessAt_none (hp : byteAddress env isWrite s va = none) :
    accessAt env w isWrite s va data = translated env isWrite s va := by
  unfold byteAddress at hp
  unfold accessAt translated
  cases isWrite with
  | true =>
    rw [show (accessOf true s).perms = 0b010 from rfl] at hp ⊢
    rw [if_pos rfl, virtMemStoreAt]
    split
    · next h => rw [h]
    · next h =>
      rw [h] at hp
      cases hp
  | false =>
    rw [accessOf_perms_fetch] at hp ⊢
    rw [if_neg Bool.false_ne_true, virtMemFetchAt]
    split
    · next h => rw [h]
    · next h =>
      rw [h] at hp
      cases hp

/-- The physical access is made at the translation of the first byte. -/
theorem accessAt_some {p : BitVec 64} (hp : byteAddress env isWrite s va = some p) :
    accessAt env w isWrite s va data =
      if isWrite then memStore env w (translated env isWrite s va) p data
      else (memFetch env w (translated env isWrite s va) p).2 := by
  unfold byteAddress at hp
  unfold accessAt translated
  cases isWrite with
  | true =>
    rw [show (accessOf true s).perms = 0b010 from rfl] at hp ⊢
    rw [if_pos rfl, if_pos rfl, virtMemStoreAt]
    split
    · next h =>
      rw [h] at hp
      cases hp
    · next h =>
      rw [h] at hp ⊢
      rw [Option.some.inj hp]
  | false =>
    rw [accessOf_perms_fetch] at hp ⊢
    rw [if_neg Bool.false_ne_true, if_neg Bool.false_ne_true, virtMemFetchAt]
    split
    · next h =>
      rw [h] at hp
      cases hp
    · next h =>
      rw [h] at hp ⊢
      rw [Option.some.inj hp]

/-- An access whose first byte translates succeeds if the physical access is permitted. -/
theorem accessOk_iff (hfault : s.hs.pageFault = false) {p : BitVec 64}
    (hp : byteAddress env isWrite s va = some p) :
    AccessOk (accessAt env w isWrite s va data) ↔
      accessPermitted env w isWrite (translated env isWrite s va) p = true := by
  have hpf : (translated env isWrite s va).hs.pageFault = false := translate_pageFault hfault hp
  rw [accessAt_some hp, AccessOk, accessPermitted, Bool.not_eq_true']
  cases isWrite with
  | true =>
    have hflags := memStore_flags env w (translated env true s va) p data
    rw [if_pos rfl, if_pos rfl, hflags.1, hflags.2, and_iff_left hpf]
  | false =>
    have hflags := memFetch_flags env w (translated env false s va) p
    rw [if_neg Bool.false_ne_true, if_neg Bool.false_ne_true, hflags.1, hflags.2, and_iff_left hpf]

/-- An access without a fault has translated its first byte. -/
theorem AccessOk.byteAddress (h : AccessOk (accessAt env w isWrite s va data)) :
    ∃ p, RvEmu.byteAddress env isWrite s va = some p := by
  rcases hp : RvEmu.byteAddress env isWrite s va with _ | p
  · rw [accessAt_none hp] at h
    exact absurd h (translate_none hp)
  · exact ⟨p, rfl⟩

/-- An access that is refused changes nothing after the translation. -/
theorem accessAt_refused (h : ¬ AccessOk (accessAt env w isWrite s va data))
    (hfault : s.hs.pageFault = false) :
    (accessAt env w isWrite s va data).bus.mainMem = (translated env isWrite s va).bus.mainMem := by
  rcases hp : byteAddress env isWrite s va with _ | p
  · rw [accessAt_none hp]
  · rw [accessOk_iff hfault hp, accessPermitted, Bool.not_eq_true', Bool.not_eq_false] at h
    rw [accessAt_some hp]
    cases isWrite with
    | true =>
      rw [if_pos rfl] at h ⊢
      -- a store that is refused stores nothing, and a load never does
      rw [memStore_refused data h]
      rfl
    | false =>
      rw [if_neg Bool.false_ne_true]
      exact memFetch_mainMem env w _ p

/-- An access keeps the registers. -/
theorem accessAt_regs : (accessAt env w isWrite s va data).hs.regs = s.hs.regs := by
  unfold accessAt
  split
  · exact (virtMemStoreAt_frame env s w va data).regs
  · exact (virtMemFetchAt_frame env s w va).regs

/-- Translations are physical addresses, of less than 58 bits. -/
theorem byteAddress_lt (hmode : satpLevels s.hs.csr.satp ≠ 0) (hphys : TlbPhysical s)
    {p : BitVec 64} (hp : byteAddress env isWrite s va = some p) : p.toNat < 0x400000000000000 := by
  unfold byteAddress at hp
  by_cases hhit : (tlbFind env s va (accessOf isWrite s).perms).1 = 0
  · obtain ⟨haccepts, rfl⟩ := (translate_of_miss hhit).mp hp
    have hkept : satpLevels (tlbFind env s va (accessOf isWrite s).perms).2.hs.csr.satp ≠ 0 := by
      rw [(tlbFind_frame env s va _).satp]
      exact hmode
    -- a walk combines a PPN of 44 bits with an offset
    have haddr := haccepts.address
    rw [tableAddress, if_neg hkept, Option.map_eq_some_iff] at haddr
    obtain ⟨l, hl, hp⟩ := haddr
    rw [← hp]
    exact l.address_lt va (tableLeaf_level env va hl)
  · rw [translate_of_hit hhit] at hp
    -- an entry of the TLB was made by a walk
    have hp := Option.some.inj hp
    rcases he : tlbEntry s.hs va (accessOf isWrite s).perms with _ | ⟨i, e⟩
    · have hsatp : s.hs.csr.satp ≠ 0 := fun h0 => hmode (by rw [h0]; rfl)
      rw [tlbFind_miss env he] at hhit
      exact absurd (if_neg hsatp) hhit
    · rw [tlbFind_hit env he, tlbHit_fst] at hhit hp
      split at hp
      · next hrefused => exact absurd (if_pos hrefused) hhit
      · rw [← hp]
        exact (hphys.address he).2

/-- The access of a byte after a byte that the TLB maps to physical address zero. -/
theorem byteAddress_nullHit {perms : BitVec 8} (h : SamePage va (va + 1))
    (hnull : NullHit env s va perms) :
    (translate env s (va + 1) perms isWrite).1 = some 1 := by
  obtain ⟨i, e, he, hrefused, haddr⟩ := hnull
  have he' : tlbEntry s.hs (va + 1) perms = some (i, e) := (tlbEntry_samePage h).trans he
  have hnext : (tlbFind env s (va + 1) perms).1 = 1 := by
    rw [tlbFind_hit env he', tlbHit_fst, hrefused, if_neg Bool.false_ne_true,
      TLBEntry.address_succ h e (tlbEntry_lt he).1, haddr]
    rfl
  rw [translate_of_hit (by rw [hnext]; decide), hnext]

/-- The address of the byte after. -/
theorem add_ofNat_succ (x : BitVec 64) (i : Nat) :
    x + BitVec.ofNat 64 (i + 1) = x + BitVec.ofNat 64 i + 1 := by
  rw [BitVec.ofNat_add, BitVec.add_assoc]
  rfl

/-- A permitted access ends before the address space does. -/
theorem accessPermitted_ne_zero (hmode : satpLevels s.hs.csr.satp ≠ 0) (hphys : TlbPhysical s)
    {p : BitVec 64} (hp : byteAddress env isWrite s va = some p)
    (hpermitted : accessPermitted env w isWrite (translated env isWrite s va) p = true) {i : Nat}
    (hi : i < w.bytes) : p + BitVec.ofNat 64 i ≠ 0 := by
  intro hzero
  have hrange := (Bool.or_eq_false_iff.mp ((Bool.not_eq_true' _).mp hpermitted)).1
  have hlow := of_decide_eq_false (Bool.or_eq_false_iff.mp hrange).1
  have hlt := byteAddress_lt hmode hphys hp
  have hi8 : i < 8 := by
    have hw : w.bytes ≤ 8 := by cases w <;> decide
    omega
  have hsum := congrArg BitVec.toNat hzero
  rw [BitVec.toNat_add, BitVec.toNat_ofNat] at hsum
  have hpos : 0x1000 ≤ p.toNat := BitVec.not_lt.mp hlow
  change (p.toNat + i % 2 ^ 64) % 2 ^ 64 = 0 at hsum
  omega

/-- If each byte of a permitted access is mapped right behind the one before, the next page
    is. -/
theorem contiguous_of_bytes (hmode : satpLevels s.hs.csr.satp ≠ 0) (hphys : TlbPhysical s)
    {p : BitVec 64} (hp : byteAddress env isWrite s va = some p)
    (hpermitted : accessPermitted env w isWrite (translated env isWrite s va) p = true)
    (hbytes : ∀ i < w.bytes,
      byteAddress env isWrite s (va + BitVec.ofNat 64 i) = some (p + BitVec.ofNat 64 i)) :
    Contiguous env w isWrite s va p := by
  have hsucc (i : Nat) (hi : i + 1 < w.bytes) :
      byteAddress env isWrite s (va + BitVec.ofNat 64 i + 1) =
        some (p + BitVec.ofNat 64 i + 1) := by
    rw [← add_ofNat_succ, ← add_ofNat_succ]
    exact hbytes (i + 1) hi
  refine ⟨fun i hi _ => hsucc i hi, fun i hi hsame hnull => ?_⟩
  -- the byte after the null hit is at physical address 1, but `p` is not below 0x1000
  have hone := (byteAddress_nullHit hsame hnull).symm.trans (hsucc i hi)
  have hcancel := congrArg (· - 1) (Option.some.inj hone)
  simp only [BitVec.add_sub_cancel] at hcancel
  exact accessPermitted_ne_zero hmode hphys hp hpermitted (Nat.lt_of_succ_lt hi) hcancel.symm

/-- The bytes of an access to contiguous pages, by induction along the access. -/
theorem bytes_of_contiguous (hmode : satpLevels s.hs.csr.satp ≠ 0) (hphys : TlbPhysical s)
    {p : BitVec 64} (hp : byteAddress env isWrite s va = some p)
    (hc : Contiguous env w isWrite s va p) {i : Nat} (hi : i < w.bytes) :
    byteAddress env isWrite s (va + BitVec.ofNat 64 i) = some (p + BitVec.ofNat 64 i) := by
  have hsatp : s.hs.csr.satp ≠ 0 := fun h0 => hmode (by rw [h0]; rfl)
  induction i with
  | zero =>
    rw [show BitVec.ofNat 64 0 = 0#64 from rfl, BitVec.add_zero, BitVec.add_zero]
    exact hp
  | succ i ih =>
    rw [add_ofNat_succ, add_ofNat_succ]
    by_cases hsame : SamePage (va + BitVec.ofNat 64 i) (va + BitVec.ofNat 64 i + 1)
    · exact translate_succ hsame hsatp hphys (hc.inPage i hi hsame) (ih (Nat.lt_of_succ_lt hi))
    · exact hc.crossing i hi hsame

/-- The value of a load is read at the translation of its first byte. -/
theorem virtMemFetchAt_some {p : BitVec 64} (hp : byteAddress env false s va = some p) :
    (virtMemFetchAt env w s va).1 = (memFetch env w (translated env false s va) p).1 := by
  unfold byteAddress at hp
  unfold translated
  rw [accessOf_perms_fetch] at hp ⊢
  rw [virtMemFetchAt]
  split
  · next h =>
    rw [h] at hp
    cases hp
  · next h =>
    rw [h] at hp ⊢
    rw [Option.some.inj hp]

/-- Byte `i` of a permitted access to RAM is the byte `i` places behind its first one. -/
theorem byteMoved_of_permitted {p : BitVec 64} (hp : byteAddress env isWrite s va = some p)
    (hpermitted : accessPermitted env w isWrite (translated env isWrite s va) p = true)
    (hram : 0x80000000 ≤ p) {i : Nat} (hi : i < w.bytes) :
    ByteMoved env w isWrite s va data i (p + BitVec.ofNat 64 i) := by
  have hw : w.bytes ≤ 8 := by cases w <;> decide
  have hgranted := (Bool.not_eq_true' _).mp hpermitted
  unfold ByteMoved
  cases isWrite with
  | true =>
    rw [if_pos rfl] at hgranted
    rw [if_pos rfl, accessAt_some hp, if_pos rfl, memStore_granted data hgranted,
      phyMemStore_ram data hram]
    simp only [storeLe, offset_toNat p (Nat.lt_of_lt_of_le hi hw), hi, ↓reduceIte]
  | false =>
    rw [if_neg Bool.false_ne_true] at hgranted
    rw [if_neg Bool.false_ne_true, virtMemFetchAt_some hp, memFetch_granted hgranted,
      phyMemFetch_ram hram]
    exact loadLe_byte _ p hw hi

/-- An access changes no byte of RAM behind or before its own. -/
theorem accessAt_others {p : BitVec 64} (hp : byteAddress env isWrite s va = some p)
    {a : BitVec 64} (ha : ∀ i < w.bytes, p + BitVec.ofNat 64 i ≠ a) :
    (accessAt env w isWrite s va data).bus.mainMem a =
      (translated env isWrite s va).bus.mainMem a := by
  rw [accessAt_some hp]
  cases isWrite with
  | false =>
    rw [if_neg Bool.false_ne_true]
    exact congrFun (memFetch_mainMem env w _ p) a
  | true =>
    rw [if_pos rfl]
    cases hok : outOfRange env p || pmpRefusesStore w (translated env true s va).hs p with
    | true =>
      rw [memStore_refused data hok]
      rfl
    | false =>
      rw [memStore_granted data hok]
      by_cases hram : 0x80000000 ≤ p
      · -- the distance of `a` from `p` would make it one of the bytes
        have hout : ¬ (a - p).toNat < w.bytes := by
          intro hlt
          refine ha _ hlt ?_
          rw [BitVec.ofNat_toNat, BitVec.setWidth_eq, BitVec.add_comm, BitVec.sub_add_cancel]
        rw [phyMemStore_ram data hram]
        exact if_neg hout
      · rw [phyMemStore_device data hram]
        rfl

/-- An access is translated page by page if it stays within a page or the next page is
    mapped right behind. -/
theorem pageByPage_iff (hmode : satpLevels s.hs.csr.satp ≠ 0) (hfault : s.hs.pageFault = false)
    (hphys : TlbPhysical s) :
    PageByPage env w isWrite s va data ↔
      ∀ p, byteAddress env isWrite s va = some p →
        accessPermitted env w isWrite (translated env isWrite s va) p = true →
        Contiguous env w isWrite s va p := by
  constructor
  · intro hrules p hp hpermitted
    obtain ⟨p', hp', hbytes⟩ := hrules.bytes ((accessOk_iff hfault hp).mpr hpermitted)
    obtain rfl := Option.some.inj (hp.symm.trans hp')
    exact contiguous_of_bytes hmode hphys hp hpermitted fun i hi => (hbytes i hi).1
  · intro hcontig
    have haddress (hok : AccessOk (accessAt env w isWrite s va data)) :
        ∃ p, byteAddress env isWrite s va = some p ∧
          accessPermitted env w isWrite (translated env isWrite s va) p = true ∧
          ∀ i < w.bytes, byteAddress env isWrite s (va + BitVec.ofNat 64 i) =
            some (p + BitVec.ofNat 64 i) := by
      obtain ⟨p, hp⟩ := hok.byteAddress
      have hpermitted := (accessOk_iff hfault hp).mp hok
      have hc := hcontig p hp hpermitted
      exact ⟨p, hp, hpermitted, fun i hi => bytes_of_contiguous hmode hphys hp hc hi⟩
    refine ⟨fun hok => ?_, fun hok a ha => ?_, fun ⟨i, hi, hnone⟩ => ?_⟩
    · obtain ⟨p, hp, hpermitted, hall⟩ := haddress hok
      exact ⟨p, hp, fun i hi =>
        ⟨hall i hi, fun hram => byteMoved_of_permitted hp hpermitted hram hi⟩⟩
    · obtain ⟨p, hp, -, hall⟩ := haddress hok
      refine accessAt_others hp fun i hi heq => ha i hi ?_
      rw [hall i hi, heq]
    · -- a byte that is not mapped rules out that the access has succeeded
      have hno : ¬ AccessOk (accessAt env w isWrite s va data) := by
        intro hok
        obtain ⟨p, -, -, hall⟩ := haddress hok
        rw [hall i hi] at hnone
        cases hnone
      exact ⟨hno, accessAt_refused hno hfault, accessAt_regs⟩

end Access

/-- An empty TLB has no entry. -/
theorem tlbEntry_clear {hs : HartState} (h : hs.tlb = tlbClear) (va : BitVec 64) (perms : BitVec 8) :
    tlbEntry hs va perms = none := by
  have hlookup : ∀ n, tlbLookup hs va perms n = none := by
    intro n
    induction n with
    | zero => rfl
    | succ i ih =>
      -- an entry without permissions matches nothing
      have hno : tlbMatches hs va perms i (tlbProbe hs.tlb va i) = false := by
        have hinvalid : ((tlbProbe tlbClear va i).permissions != 0) = false := rfl
        rw [h, tlbMatches, hinvalid]
        simp only [Bool.and_false, Bool.false_and]
      rw [tlbLookup, if_neg (by rw [hno]; exact Bool.false_ne_true), ih]
  unfold tlbEntry
  split
  · rfl
  · exact hlookup _

/-- A load where one page of 2 MiB at 0x80000000 is mapped, and nothing behind it. -/
private def megapage : Sys Unit :=
  (mapped fun a => if a = 0x80001010 then 0x20000801 else if a = 0x80002000 then 0x200000CF
    else 0).setMemStatus true

/-- A load within a page. -/
theorem pageByPage_load : PageByPage Env.inert .u64 false megapage 0x80001000 0 := by
  refine (pageByPage_iff (by decide) rfl (tlbPhysical_clear rfl)).mpr fun p _ _ => ⟨?_, ?_⟩
  · intro i hi hcross
    have hsame : ∀ i < 7, SamePage (0x80001000 + BitVec.ofNat 64 i)
        (0x80001000 + BitVec.ofNat 64 i + 1) := by decide
    exact absurd (hsame i (Nat.lt_of_succ_lt_succ hi)) hcross
  · rintro i hi - ⟨j, e, he, -⟩
    rw [tlbEntry_clear rfl] at he
    cases he

/-- A load that runs into an unmapped page does not fault. -/
theorem load_crosses_into_unmapped_page :
    ¬ ∀ (s : Sys Unit) w isWrite va data, satpLevels s.hs.csr.satp ≠ 0 → s.hs.pageFault = false →
      TlbPhysical s → PageByPage Env.inert w isWrite s va data := by
  intro h
  have hrules := h megapage .u64 false 0x801FFFFC 0 (by decide) rfl (tlbPhysical_clear rfl)
  exact (hrules.fault ⟨4, by decide, by decide +kernel⟩).1 ⟨by decide +kernel, by decide +kernel⟩

end RvEmu
