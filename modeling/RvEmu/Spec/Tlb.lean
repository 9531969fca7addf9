import RvEmu.Spec.Walk

/-!
# TLB lookup

`tlb_find` as a lookup, which depends on the hart alone, and what it does with the
entry that it finds.
-/

namespace RvEmu

variable {δ : Type}

/-- The first size below `i`, from the largest on, with a matching entry. -/
def tlbLookup (hs : HartState) (va : BitVec 64) (perms : BitVec 8) : Nat → Option (Nat × TLBEntry)
  | 0 => none
  | i + 1 =>
    let e := tlbProbe hs.tlb va i
    if tlbMatches hs va perms i e then some (i, e) else tlbLookup hs va perms i

/-- The entry that `tlb_find` hits. -/
def tlbEntry (hs : HartState) (va : BitVec 64) (perms : BitVec 8) : Option (Nat × TLBEntry) :=
  if hs.csr.satp = 0 then none else tlbLookup hs va perms (hs.tlb.maxEntrySize.val + 1)

/-- The address that a hit on an entry of size `i` composes. -/
def TLBEntry.address (e : TLBEntry) (va : BitVec 64) (i : Nat) : BitVec 64 :=
  e.phyPage + (va &&& (BitVec.allOnes 64 >>> (64 - (12 + 9 * i))))

/-- The update of A and D in the PTE of an entry is refused. -/
def hitRefused (env : Env δ) (s : Sys δ) (perms : BitVec 8) (e : TLBEntry) : Bool :=
  let r := memFetch env .u64 s e.pteAddr
  ~~~(r.1 ||| (0b11#64 <<< 6)) != 0 &&
    (memStore env .u64 r.2 e.pteAddr (pteTouched r.1 (perms &&& 0b010 != 0))).hs.memStatus

section Find

variable (env : Env δ) {s : Sys δ} {va : BitVec 64} {perms : BitVec 8}

theorem tlbFindLoop_hit {n i : Nat} {e : TLBEntry}
    (h : tlbLookup s.hs va perms n = some (i, e)) :
    tlbFindLoop env s va perms n = tlbHit env s va perms i e := by
  induction n with
  | zero => cases h
  | succ n ih =>
    simp only [tlbLookup, tlbFindLoop] at h ⊢
    by_cases hm : tlbMatches s.hs va perms n (tlbProbe s.hs.tlb va n) = true
    · rw [if_pos hm] at h ⊢
      cases h
      rfl
    · rw [if_neg hm] at h ⊢
      exact ih h

theorem tlbFindLoop_miss {n : Nat} (h : tlbLookup s.hs va perms n = none) :
    tlbFindLoop env s va perms n = (0, s) := by
  induction n with
  | zero => rfl
  | succ n ih =>
    simp only [tlbLookup, tlbFindLoop] at h ⊢
    by_cases hm : tlbMatches s.hs va perms n (tlbProbe s.hs.tlb va n) = true
    · rw [if_pos hm] at h
      cases h
    · rw [if_neg hm] at h ⊢
      exact ih h

theorem tlbFind_hit {i : Nat} {e : TLBEntry} (h : tlbEntry s.hs va perms = some (i, e)) :
    tlbFind env s va perms = tlbHit env s va perms i e := by
  unfold tlbEntry at h
  unfold tlbFind
  split at h
  · cases h
  · next h0 =>
    rw [if_neg h0]
    exact tlbFindLoop_hit env h

/-- Without an entry the hart is left alone. -/
theorem tlbFind_miss (h : tlbEntry s.hs va perms = none) :
    tlbFind env s va perms = (if s.hs.csr.satp = 0 then va else 0, s) := by
  unfold tlbEntry at h
  unfold tlbFind
  split at h
  · next h0 => rw [if_pos h0, if_pos h0]
  · next h0 =>
    rw [if_neg h0, if_neg h0]
    exact tlbFindLoop_miss env h

/-- What a hit yields. -/
theorem tlbHit_fst (i : Nat) (e : TLBEntry) :
    (tlbHit env s va perms i e).1 = if hitRefused env s perms e then 0 else e.address va i := by
  -- a hit is refused if A or D have to be set, and the store fails
  cases hrefused : hitRefused env s perms e with
  | false =>
    simp only [hitRefused] at hrefused
    simp only [tlbHit]
    generalize (~~~((memFetch env .u64 s e.pteAddr).1 ||| (0b11#64 <<< 6)) != 0) = touch at hrefused ⊢
    cases touch with
    | false => rfl
    | true =>
      rw [Bool.true_and] at hrefused
      simp only [Bool.true_and, ↓reduceIte, hrefused, Bool.false_eq_true]
      rfl
  | true =>
    obtain ⟨htouch, hmem⟩ := Bool.and_eq_true_iff.mp hrefused
    simp only [tlbHit, htouch, hmem, Bool.and_self, ↓reduceIte]

/-- What a hit does depends on the entry alone. -/
theorem tlbHit_snd (va' : BitVec 64) (i : Nat) (e : TLBEntry) :
    (tlbHit env s va' perms i e).2 = (tlbHit env s va perms i e).2 := by
  simp only [tlbHit]
  generalize (~~~((memFetch env .u64 s e.pteAddr).1 ||| (0b11#64 <<< 6)) != 0) = touch
  cases touch with
  | false => rfl
  | true =>
    simp only [Bool.true_and, ↓reduceIte]
    split <;> rfl

/-- The accesses of a hit leave `mem_status` clear. -/
theorem tlbHit_memStatus (i : Nat) (e : TLBEntry) :
    (tlbHit env s va perms i e).2.hs.memStatus = false := by
  unfold tlbHit
  dsimp only
  cases htouch : (~~~((memFetch env .u64 s e.pteAddr).1 ||| (0b11#64 <<< 6)) != 0) with
  | true =>
    simp only [Bool.true_and, ↓reduceIte]
    split
    · rfl
    · next hok => exact Bool.eq_false_iff.mpr hok
  | false =>
    -- a PTE that is not written back was read
    simp only [Bool.false_and, Bool.false_eq_true, ↓reduceIte]
    rw [(memFetch_flags env .u64 s e.pteAddr).1]
    by_contra hrefused
    rw [Bool.not_eq_false] at hrefused
    rw [memFetch_refused hrefused] at htouch
    have hzero : (~~~(0#64 ||| (0b11#64 <<< 6)) != 0) = true := by decide
    exact Bool.noConfusion (htouch.symm.trans hzero)

/-- An entry that is hit passed the tests of its size. -/
theorem tlbLookup_matches {hs : HartState} {n i : Nat} {e : TLBEntry}
    (h : tlbLookup hs va perms n = some (i, e)) :
    i < n ∧ e = tlbProbe hs.tlb va i ∧ tlbMatches hs va perms i e = true := by
  induction n with
  | zero => cases h
  | succ n ih =>
    simp only [tlbLookup] at h
    split at h
    · next hm =>
      cases h
      exact ⟨Nat.lt_succ_self _, rfl, hm⟩
    · obtain ⟨hi, hrest⟩ := ih h
      exact ⟨Nat.lt_succ_of_lt hi, hrest⟩

end Find

end RvEmu
