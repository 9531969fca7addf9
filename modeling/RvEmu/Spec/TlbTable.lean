import Mathlib.Data.FinEnum
import RvEmu.ForStd.Table
import RvEmu.Spec.TlbCycle

/-!
# The TLB as a table

`tlb_add` keeps a hash table of translations, a counter for each page size, and the
largest size in use, which are updated one insertion at a time. They agree with the
entries whatever is inserted, so that a lookup that starts at the largest size in use
sees every entry for its address.

## Key results

- `TlbRep`: what the slots, the counters and `max_entry_size` say about each other
- `tlbAdd_rep`: `tlb_add` keeps it
- `tlb_representation`: it holds of every TLB that walks and `tlb_clear` make
-/

namespace RvEmu

variable {δ : Type}

/-! ## The invariant -/

/-- Whether `tlb_find` may use the entry. -/
def TLBEntry.Live (e : TLBEntry) : Prop := e.permissions ≠ 0

instance (e : TLBEntry) : Decidable e.Live := inferInstanceAs (Decidable (_ ≠ _))

/-- The bits of the page offset. -/
def TLBEntry.offsetBits (e : TLBEntry) : Nat := 12 + 9 * e.size.val

/-- The address is on the page of the entry. -/
def TLBEntry.Covers (e : TLBEntry) (va : BitVec 64) : Prop :=
  va &&& pageMask e.offsetBits = e.virtPage

instance (e : TLBEntry) (va : BitVec 64) : Decidable (e.Covers va) :=
  inferInstanceAs (Decidable (_ = _))

/-- An entry in its slot, for a page that is aligned on both sides. -/
structure TLBEntry.Placed (e : TLBEntry) (i : BitVec 6) : Prop where
  slot : tlbHash e.virtPage = i
  size : e.size.val ≤ 4
  virtPage : e.virtPage &&& ~~~pageMask e.offsetBits = 0
  phyPage : e.phyPage &&& ~~~pageMask e.offsetBits = 0

/-- The number of live entries of a size. -/
def TLBStruct.liveCount (tlb : TLBStruct) (n : Fin 6) : Nat :=
  (Finset.univ.filter fun i => (tlb.tlbEntries i).Live ∧ (tlb.tlbEntries i).size = n).card

/-- What the parts of the TLB say about each other. -/
structure TlbRep (tlb : TLBStruct) : Prop where
  placed : ∀ i, (tlb.tlbEntries i).Live → (tlb.tlbEntries i).Placed i
  counted : ∀ n, (tlb.sizeCount n).toNat = tlb.liveCount n
  largest : (∃ n, tlb.sizeCount n > 0) → IsGreatest {n | tlb.sizeCount n > 0} tlb.maxEntrySize
  none : (∀ n, tlb.sizeCount n = 0) → tlb.maxEntrySize = 0

/-! ## Insertion -/

/-- The class under which an entry is counted. -/
private def liveSize (e : TLBEntry) : Option (Fin 6) := if e.Live then some e.size else none

/-- The live entries and their sizes, … -/
private theorem liveSize_iff (e : TLBEntry) (n : Fin 6) :
    liveSize e = some n ↔ e.Live ∧ e.size = n := by
  unfold liveSize
  split
  · next h => rw [Option.some.injEq, and_iff_right h]
  · next h => exact ⟨fun hn => (Option.noConfusion rfl (heq_of_eq hn)), fun hn => absurd hn.1 h⟩

/-- … counted. -/
private theorem liveCount_eq (tlb : TLBStruct) (n : Fin 6) :
    tlb.liveCount n = Table.count liveSize tlb.tlbEntries n := by
  unfold TLBStruct.liveCount Table.count
  exact congrArg Finset.card (Finset.filter_congr fun i _ => (liveSize_iff _ n).symm)

/-- The counters after an addition. -/
theorem tlbAdd_sizeCount (tlb : TLBStruct) (e : TLBEntry) :
    (tlbAdd tlb e).sizeCount =
      Table.bump (Table.drop tlb.sizeCount (liveSize (tlb.tlbEntries (tlbHash e.virtPage))))
        e.size := by
  simp only [tlbAdd]
  by_cases hold : (tlb.tlbEntries (tlbHash e.virtPage)).permissions ≠ 0
  · have hsize : liveSize (tlb.tlbEntries (tlbHash e.virtPage)) = some _ := if_pos hold
    rw [if_pos hold, hsize]
    rfl
  · have hsize : liveSize (tlb.tlbEntries (tlbHash e.virtPage)) = none := if_neg hold
    rw [if_neg hold, hsize]
    rfl

/-- The counters are too wide to wrap around. -/
private theorem card_slots : Fintype.card (BitVec 6) ≤ (BitVec.allOnes 8).toNat := by
  rw [← FinEnum.card_eq_fintypeCard]
  decide

/-- `tlb_add` keeps the invariant. -/
theorem tlbAdd_rep {tlb : TLBStruct} (h : TlbRep tlb) {e : TLBEntry} (hlive : e.Live)
    (he : e.Placed (tlbHash e.virtPage)) : TlbRep (tlbAdd tlb e) := by
  have hlargest := Table.last_finRange fun n => (tlbAdd tlb e).sizeCount n > 0
  constructor
  case placed =>
    intro i
    rw [tlbAdd_entries]
    split
    · next hi =>
      intro _
      rw [hi]
      exact he
    · exact h.placed i
  case counted =>
    intro n
    have hcounted : Table.Counted liveSize tlb.tlbEntries tlb.sizeCount := fun n =>
      (h.counted n).trans (liveCount_eq tlb n)
    have hreplaced := hcounted.replace card_slots (tlbHash e.virtPage)
      ((liveSize_iff e e.size).mpr ⟨hlive, rfl⟩)
    rw [liveCount_eq, tlbAdd_sizeCount]
    exact hreplaced n
  case largest => exact hlargest.1
  case none => exact fun hnone => hlargest.2 fun n hn => by rw [hnone n] at hn; cases hn

/-- The empty TLB represents nothing. -/
theorem tlbClear_rep : TlbRep tlbClear := by
  constructor
  case placed => exact fun i hlive => absurd rfl hlive
  case counted =>
    intro n
    refine (Finset.card_eq_zero.mpr (Finset.filter_eq_empty_iff.mpr fun i _ h => ?_)).symm
    exact absurd rfl h.1
  case largest =>
    rintro ⟨n, hn⟩
    cases hn
  case none => exact fun _ => rfl

/-! ## The entries of a walk -/

/-- A leaf has permissions, or the walk would go on. -/
theorem leafEntry_live {va pteAddr pte : BitVec 64} {i : Nat} (h : pte &&& 0b1110 ≠ 0) :
    (leafEntry va pteAddr pte i).Live := by
  intro hperms
  refine h (BitVec.eq_of_getLsbD_eq fun j hj => ?_)
  have hmask : ∀ j < 64, (0b1110#64).getLsbD j = true → ∃ k < 3, j = 1 + k := by decide
  rw [BitVec.getLsbD_and]
  cases hbit : (0b1110#64).getLsbD j with
  | false => rw [Bool.and_false]; exact BitVec.getLsbD_zero.symm
  | true =>
    obtain ⟨k, hk, rfl⟩ := hmask j hj hbit
    have hlow : ∀ k < 3, (0b111 : BitVec 64).getLsbD k = true := by decide
    have hperm := congrArg (·.getLsbD k) hperms
    have h8 : k < 8 := by omega
    simp only [leafEntry, BitVec.getLsbD_setWidth, BitVec.getLsbD_and, BitVec.getLsbD_ushiftRight,
      h8, decide_true, Bool.true_and] at hperm
    rw [hlow k hk, Bool.and_true] at hperm
    rw [hperm, Bool.and_true]
    exact BitVec.getLsbD_zero.trans BitVec.getLsbD_zero.symm

/-- The page number of a PTE is one of a page of 4 KiB. -/
theorem ptePpn_aligned (pte : BitVec 64) : ptePpn pte &&& ~~~pageMask 12 = 0 := by
  have hmask : (0x3FFFFFFFFFFC00 : BitVec 64) <<< 2 &&& ~~~pageMask 12 = 0 := by decide
  rw [ptePpn, BitVec.shiftLeft_and_distrib, BitVec.and_assoc, hmask]
  exact BitVec.and_zero

/-- The entry of a leaf lies where the hash of its page says. -/
theorem leafEntry_placed {va : BitVec 64} {l : Leaf} (hlevel : l.level < 5)
    (haligned : l.aligned = true) :
    (leafEntry va l.pteAddr l.pte l.level).Placed
      (tlbHash (leafEntry va l.pteAddr l.pte l.level).virtPage) := by
  have hsize : (leafEntry va l.pteAddr l.pte l.level).size.val = l.level :=
    Nat.mod_eq_of_lt (by omega)
  have hbits : (leafEntry va l.pteAddr l.pte l.level).offsetBits = 12 + 9 * l.level := by
    rw [TLBEntry.offsetBits, hsize]
  constructor
  case slot => rfl
  case size => omega
  case virtPage =>
    rw [hbits]
    change va &&& pageMask (12 + 9 * l.level) &&& ~~~pageMask (12 + 9 * l.level) = 0
    rw [BitVec.and_assoc, BitVec.and_not_self]
    exact BitVec.and_zero
  case phyPage =>
    rw [hbits]
    unfold Leaf.aligned at haligned
    rcases Bool.or_eq_true_iff.mp haligned with hzero | hmask
    · rw [eq_of_beq hzero]
      exact ptePpn_aligned l.pte
    · rw [Nat.add_comm]
      exact eq_of_beq hmask

/-! ## Runs -/

/-- What changes a TLB: a walk by a hart that holds it, and `tlb_clear`. -/
inductive TlbUpdate (env : Env δ) : TLBStruct → TLBStruct → Prop
  | walk (s : Sys δ) (va : BitVec 64) (isWrite : Bool) :
    TlbUpdate env s.hs.tlb (pageTableWalk env s va isWrite).2.hs.tlb
  | clear (tlb : TLBStruct) : TlbUpdate env tlb tlbClear

/-- The TLBs that such updates make from the zeroed one. -/
def TlbReachable (env : Env δ) (tlb : TLBStruct) : Prop :=
  Relation.ReflTransGen (TlbUpdate env) tlbClear tlb

/-- A walk keeps the representation, … -/
theorem pageTableWalk_rep (env : Env δ) {s : Sys δ} (h : TlbRep s.hs.tlb) (va : BitVec 64)
    (isWrite : Bool) : TlbRep (pageTableWalk env s va isWrite).2.hs.tlb := by
  rcases pageTableWalk_tlb env s va isWrite with htlb | ⟨l, hl, haligned, htlb⟩
  · rw [htlb]
    exact h
  · rw [htlb]
    exact tlbAdd_rep h (leafEntry_live (tablePath_permissions env va hl))
      (leafEntry_placed (tableLeaf_level env va hl) haligned)

/-- What one update preserves. -/
theorem TlbUpdate.rep {env : Env δ} {tlb tlb' : TLBStruct} (hstep : TlbUpdate env tlb tlb')
    (h : TlbRep tlb) : TlbRep tlb' := by
  cases hstep with
  | walk s va isWrite => exact pageTableWalk_rep env h va isWrite
  | clear => exact tlbClear_rep

/-- … and so does every sequence of walks and clears. -/
theorem TlbReachable.rep {env : Env δ} {tlb : TLBStruct} (h : TlbReachable env tlb) :
    TlbRep tlb := by
  induction h with
  | refl => exact tlbClear_rep
  | tail _ hstep ih => exact hstep.rep ih

/-! ## Lookups -/

section Lookup

variable {tlb : TLBStruct} {i : BitVec 6}

/-- The counter of the size of a live entry is positive. -/
theorem TlbRep.size_le (h : TlbRep tlb) (hlive : (tlb.tlbEntries i).Live) :
    (tlb.tlbEntries i).size ≤ tlb.maxEntrySize := by
  have hpos : 0 < (tlb.sizeCount (tlb.tlbEntries i).size).toNat := by
    rw [h.counted]
    exact Finset.card_pos.mpr ⟨i, Finset.mem_filter.mpr ⟨Finset.mem_univ i, hlive, rfl⟩⟩
  exact (h.largest ⟨_, hpos⟩).2 hpos

/-- A live entry is in the slot of the addresses that it covers, at its own size. -/
theorem TlbRep.slot (h : TlbRep tlb) (hlive : (tlb.tlbEntries i).Live) {va : BitVec 64}
    (hva : (tlb.tlbEntries i).Covers va) :
    tlbHash (va &&& pageMask (12 + 9 * (tlb.tlbEntries i).size.val)) = i := by
  have hslot := (h.placed i hlive).slot
  rw [← hva] at hslot
  exact hslot

/-- The probe of its own size finds it. -/
theorem TlbRep.probe (h : TlbRep tlb) (hlive : (tlb.tlbEntries i).Live) {va : BitVec 64}
    (hva : (tlb.tlbEntries i).Covers va) :
    tlbProbe tlb va (tlb.tlbEntries i).size.val = tlb.tlbEntries i :=
  congrArg tlb.tlbEntries (h.slot hlive hva)

/-- The sizes leave room for a page number. -/
theorem TLBEntry.Placed.offsetBits_lt {e : TLBEntry} (h : e.Placed i) : e.offsetBits < 64 := by
  have hsize := h.size
  unfold TLBEntry.offsetBits
  omega

/-- The test of `tlb_find` is whether the entry covers the address. -/
theorem TLBEntry.Placed.covers_iff {e : TLBEntry} (h : e.Placed i) (va : BitVec 64) :
    va ^^^ e.virtPage < 1#64 <<< e.offsetBits ↔ e.Covers va :=
  BitVec.xor_lt_one_shiftLeft_iff h.offsetBits_lt (BitVec.under_of_and_not_eq_zero h.virtPage)

/-- The page number and the offset of a composed address do not overlap. -/
theorem TLBEntry.Placed.address {e : TLBEntry} (h : e.Placed i) (va : BitVec 64) :
    e.address va e.size.val = e.phyPage ||| (va &&& ~~~pageMask e.offsetBits) := by
  have hpage := BitVec.under_of_and_not_eq_zero h.phyPage
  have hoffset : (va &&& ~~~pageMask e.offsetBits).Under (~~~pageMask e.offsetBits) := by
    rw [BitVec.Under, BitVec.and_assoc, BitVec.and_self]
  rw [← hpage.add hoffset (BitVec.and_not_self _), pageMask,
    BitVec.not_allOnes_shiftLeft h.offsetBits_lt.le]
  rfl

/-- So the offset does not carry into the page number. -/
theorem TLBEntry.Placed.address_page {e : TLBEntry} (h : e.Placed i) (va : BitVec 64) :
    e.address va e.size.val &&& pageMask e.offsetBits = e.phyPage := by
  rw [h.address, BitVec.and_or_distrib_right, BitVec.and_assoc va, BitVec.not_and_self]
  exact (congrArg _ BitVec.and_zero).trans
    (BitVec.or_zero.trans (BitVec.under_of_and_not_eq_zero h.phyPage))

/-- The loop of `tlb_find` ends at a match, or at one of a larger size before it. -/
theorem tlbLookup_of_matches {hs : HartState} {va : BitVec 64} {perms : BitVec 8} {n k : Nat}
    (hk : k < n) (hm : tlbMatches hs va perms k (tlbProbe hs.tlb va k) = true) :
    ∃ m, k ≤ m ∧ tlbLookup hs va perms n = some (m, tlbProbe hs.tlb va m) := by
  induction n with
  | zero => exact absurd hk (Nat.not_lt_zero k)
  | succ n ih =>
    simp only [tlbLookup]
    split
    · exact ⟨n, Nat.le_of_lt_succ hk, rfl⟩
    · next hmiss =>
      rcases Nat.lt_succ_iff_lt_or_eq.mp hk with hlt | rfl
      · exact ih hlt
      · exact absurd hm hmiss

/-- Where an entry for the address allows the access, `tlb_find` hits it or one of a larger
    size. -/
theorem TlbRep.found {env : Env δ} {s : Sys δ} (h : TlbRep s.hs.tlb) {va : BitVec 64}
    {perms : BitVec 8} (hsatp : s.hs.csr.satp ≠ 0) (hlive : (s.hs.tlb.tlbEntries i).Live)
    (hva : (s.hs.tlb.tlbEntries i).Covers va)
    (hmatch : tlbMatches s.hs va perms (s.hs.tlb.tlbEntries i).size.val (s.hs.tlb.tlbEntries i) =
      true) :
    ∃ n e, (s.hs.tlb.tlbEntries i).size.val ≤ n ∧
      (n = (s.hs.tlb.tlbEntries i).size.val → e = s.hs.tlb.tlbEntries i) ∧
      tlbMatches s.hs va perms n e = true ∧
      tlbFind env s va perms = tlbHit env s va perms n e := by
  have hprobe := h.probe hlive hva
  have hprobed : tlbMatches s.hs va perms (s.hs.tlb.tlbEntries i).size.val
      (tlbProbe s.hs.tlb va (s.hs.tlb.tlbEntries i).size.val) = true := by
    rw [hprobe]
    exact hmatch
  obtain ⟨n, hn, hlookup⟩ := tlbLookup_of_matches (Nat.lt_succ_of_le (h.size_le hlive)) hprobed
  refine ⟨n, _, hn, fun heq => ?_, (tlbLookup_matches hlookup).2.2, tlbFind_hit env ?_⟩
  · rw [heq]
    exact hprobe
  · exact (if_neg hsatp).trans hlookup

/-- What `tlb_find` makes of the entry in slot `i`: the slot is the one of its size, which is
    among those that are tried, and the entry passes the test of the address; a lookup that the
    entry allows hits it, or one of a larger size; and its page number and the page offset make
    the address. -/
structure LookupSees (tlb : TLBStruct) (i : BitVec 6) (va : BitVec 64) : Prop where
  slot : tlbHash (va &&& pageMask (tlb.tlbEntries i).offsetBits) = i
  tried : (tlb.tlbEntries i).size ≤ tlb.maxEntrySize
  tested : va ^^^ (tlb.tlbEntries i).virtPage < 1#64 <<< (tlb.tlbEntries i).offsetBits
  found : ∀ {δ : Type} (env : Env δ) (s : Sys δ) perms, s.hs.tlb = tlb → s.hs.csr.satp ≠ 0 →
    tlbMatches s.hs va perms (tlb.tlbEntries i).size.val (tlb.tlbEntries i) = true →
    ∃ n e, (tlb.tlbEntries i).size.val ≤ n ∧
      (n = (tlb.tlbEntries i).size.val → e = tlb.tlbEntries i) ∧
      tlbMatches s.hs va perms n e = true ∧
      tlbFind env s va perms = tlbHit env s va perms n e
  address : (tlb.tlbEntries i).address va (tlb.tlbEntries i).size.val =
    (tlb.tlbEntries i).phyPage ||| (va &&& ~~~pageMask (tlb.tlbEntries i).offsetBits)
  page : (tlb.tlbEntries i).address va (tlb.tlbEntries i).size.val &&&
    pageMask (tlb.tlbEntries i).offsetBits = (tlb.tlbEntries i).phyPage

/-- The lookup sees every live entry. -/
theorem TlbRep.sees (h : TlbRep tlb) (hlive : (tlb.tlbEntries i).Live) {va : BitVec 64}
    (hva : (tlb.tlbEntries i).Covers va) : LookupSees tlb i va where
  slot := h.slot hlive hva
  tried := h.size_le hlive
  tested := ((h.placed i hlive).covers_iff va).mpr hva
  found := by
    rintro δ env s perms rfl hsatp hmatch
    exact h.found hsatp hlive hva hmatch
  address := (h.placed i hlive).address va
  page := (h.placed i hlive).address_page va

end Lookup

/-- What walks and `tlb_clear` make of the zeroed TLB is a table whose parts agree; the
    scan of `tlb_find` sees every live entry that covers the address, and the page offset
    does not carry into the page number. -/
theorem tlb_representation (env : Env δ) {tlb : TLBStruct} (h : TlbReachable env tlb) :
    TlbRep tlb ∧
      ∀ i, (tlb.tlbEntries i).Live → ∀ va, (tlb.tlbEntries i).Covers va → LookupSees tlb i va :=
  ⟨h.rep, fun _ hlive _ hva => h.rep.sees hlive hva⟩

/-- The TLB after a walk that finds the gigapage at 0x80000000. -/
private def filled : TLBStruct :=
  (pageTableWalk Env.inert (gigapage 0x200000CF) 0x80002000 false).2.hs.tlb

/-- The entry is seen from anywhere in the gigapage. -/
theorem tlb_representation_filled :
    TlbReachable Env.inert filled ∧ filled.maxEntrySize = 2 ∧ TlbRep filled ∧
      LookupSees filled (tlbHash 0x80000000) 0x8FFFFFFF := by
  have hreach : TlbReachable Env.inert filled := .single (.walk (gigapage 0x200000CF) _ _)
  have hrep := tlb_representation Env.inert hreach
  exact ⟨hreach, by decide +kernel, hrep.1, hrep.2 _ (by decide +kernel) _ (by decide +kernel)⟩

/-! ## The TLB of a hart -/

/-- Every step of a run is such an update, or leaves the TLB alone. -/
theorem TlbStep.rep {env : Env δ} {s t : Sys δ} (hstep : TlbStep env s t) (h : TlbRep s.hs.tlb) :
    TlbRep t.hs.tlb := by
  cases hstep with
  | find va perms =>
    rw [tlbFind_tlb]
    exact h
  | walk va isWrite => exact pageTableWalk_rep env h va isWrite
  | clear _ htlb =>
    rw [htlb]
    exact tlbClear_rep
  | other _ htlb =>
    rw [htlb]
    exact h

/-- The TLB of every reachable state represents its entries. -/
theorem Reachable.tlbRep {env : Env δ} {s : Sys δ} (h : Reachable env s) : TlbRep s.hs.tlb := by
  refine h.tlbInvariant env s (P := fun t => TlbRep t.hs.tlb) (fun t ht => ?_)
    fun _ _ hstep ht => hstep.rep ht
  rw [ht]
  exact tlbClear_rep

end RvEmu
