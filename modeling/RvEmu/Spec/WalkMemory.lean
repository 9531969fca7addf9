import RvEmu.Spec.Tlb

/-!
# What translation does to RAM

A page table walk changes nothing in RAM but the A and D bits of its leaf. So does
a TLB hit, if it can read the PTE: where PMP refuses the read and permits the
write, the zero that stands for the refused value is written over the PTE.
-/

namespace RvEmu

variable {δ : Type}

/-- The A bit, and for a write the D bit. -/
def adMask (isWrite : Bool) : BitVec 64 := if isWrite then 0xC0 else 0x40

/-- RAM `m'` is `m` with some of the bits A and D of the PTE at `a` set. -/
def OnlyAD (isWrite : Bool) (a : BitVec 64) (m m' : BitVec 64 → BitVec 8) : Prop :=
  ∃ bits, bits &&& ~~~adMask isWrite = 0 ∧ m' = storeLe m a (loadLe m a 8 ||| bits) 8

/-- At most the bits A and D of the PTE that was used, if any, have been set. -/
def KeepsRam (used : Option (BitVec 64)) (isWrite : Bool) (m m' : BitVec 64 → BitVec 8) : Prop :=
  m' = m ∨ ∃ a, used = some a ∧ OnlyAD isWrite a m m'

theorem onlyAD_refl (isWrite : Bool) (a : BitVec 64) (m : BitVec 64 → BitVec 8) :
    OnlyAD isWrite a m m :=
  ⟨0#64, BitVec.zero_and, by rw [BitVec.or_zero, storeLe_loadLe]⟩

/-- Nothing changes if the PTE has its A and D set already. -/
theorem KeepsRam.eq_of_set {used : Option (BitVec 64)} {isWrite : Bool}
    {m m' : BitVec 64 → BitVec 8} (h : KeepsRam used isWrite m m')
    (hset : ∀ a, used = some a → loadLe m a 8 ||| adMask isWrite = loadLe m a 8) : m' = m := by
  rcases h with hsame | ⟨a, ha, bits, hbits, hm⟩
  · exact hsame
  · have hkept : loadLe m a 8 ||| bits = loadLe m a 8 := by
      rw [← hset a ha, BitVec.or_assoc, BitVec.or_comm (adMask isWrite),
        (BitVec.and_not_eq_zero_iff bits _).mp hbits]
    rw [hm, hkept, storeLe_loadLe]

theorem pteTouched_eq (pte : BitVec 64) (isWrite : Bool) :
    pteTouched pte isWrite = pte ||| adMask isWrite := by
  cases isWrite with
  | false => rfl
  | true =>
    change (pte ||| (1#64 <<< 6)) ||| (1#64 <<< 7) = pte ||| 0xC0
    rw [BitVec.or_assoc]
    rfl

/-- Writing back the PTE that was read, touched. -/
theorem onlyAD_touched (isWrite : Bool) (a : BitVec 64) (m : BitVec 64 → BitVec 8) :
    OnlyAD isWrite a m (storeLe m a (pteTouched (loadLe m a 8) isWrite) 8) := by
  refine ⟨adMask isWrite, ?_, by rw [pteTouched_eq]⟩
  cases isWrite <;> decide

section Store

variable (env : Env δ)

/-- The store of a PTE: refused, to a device, or to RAM. -/
theorem memStore_pte (s : Sys δ) (a data : BitVec 64) :
    (memStore env .u64 s a data).bus.mainMem =
      if (outOfRange env a || pmpRefusesStore .u64 s.hs a) = false ∧ 0x80000000 ≤ a then
        storeLe s.bus.mainMem a data 8
      else s.bus.mainMem := by
  cases hok : outOfRange env a || pmpRefusesStore .u64 s.hs a with
  | true =>
    rw [memStore_refused data hok, if_neg fun h => Bool.noConfusion h.1]
    rfl
  | false =>
    rw [memStore_granted data hok]
    by_cases ha : 0x80000000 ≤ a
    · rw [phyMemStore_ram data ha, if_pos ⟨rfl, ha⟩]
      rfl
    · rw [phyMemStore_device data ha, if_neg fun h => ha h.2]
      rfl

/-- A walk that reaches a leaf. -/
theorem walkLeaf_onlyAD (va : BitVec 64) (isWrite memStatus : Bool) {s t : Sys δ} {l : Leaf}
    (hmem : t.bus.mainMem = s.bus.mainMem)
    (hpte : 0x80000000 ≤ l.pteAddr → l.pte = loadLe s.bus.mainMem l.pteAddr 8) :
    OnlyAD isWrite l.pteAddr s.bus.mainMem
      (walkLeaf env va isWrite memStatus l.level l.pteAddr l.pte t).2.bus.mainMem := by
  have hstore : OnlyAD isWrite l.pteAddr s.bus.mainMem
      (memStore env .u64 t l.pteAddr (pteTouched l.pte isWrite)).bus.mainMem := by
    rw [memStore_pte, hmem]
    split
    · next h =>
      rw [hpte h.2]
      exact onlyAD_touched isWrite l.pteAddr s.bus.mainMem
    · exact onlyAD_refl isWrite l.pteAddr s.bus.mainMem
  have hrefl : OnlyAD isWrite l.pteAddr s.bus.mainMem t.bus.mainMem := by
    rw [hmem]
    exact onlyAD_refl isWrite l.pteAddr s.bus.mainMem
  generalize hr : walkLeaf env va isWrite memStatus l.level l.pteAddr l.pte t = r
  -- the leaf's update is the only store; the outcomes that fault or skip it keep the memory
  have hcases := walkLeaf_cases env va t isWrite memStatus l
  rw [hr] at hcases
  cases hcases with
  | fault => exact hrefl
  | refused => exact hstore
  | untouched => exact hrefl
  | touched _ _ _ ht => exact ht ▸ hstore

/-- The PTE that a walk uses. -/
def walkUsed (va : BitVec 64) (s : Sys δ) : Option (BitVec 64) :=
  (leafWalk env va s).1.map Leaf.pteAddr

/-- A page table walk at most sets A and D of its leaf. -/
theorem pageTableWalk_keepsRam (va : BitVec 64) (isWrite : Bool) (s : Sys δ) :
    KeepsRam (walkUsed env va s) isWrite s.bus.mainMem
      (pageTableWalk env s va isWrite).2.bus.mainMem := by
  have hmem : (leafWalk env va s).2.bus.mainMem = s.bus.mainMem := walkPath_mainMem env va _ _ _ _
  rcases hl : leafWalk env va s with ⟨_ | l, t⟩
  · exact .inl (pageTableWalk_none env va isWrite hl)
  · rw [hl] at hmem
    refine .inr ⟨l.pteAddr, ?_, ?_⟩
    · rw [walkUsed, hl]
      rfl
    · rw [pageTableWalk_leaf env va isWrite hl]
      exact walkLeaf_onlyAD env va isWrite _ hmem (walkPath_leaf env va hl).1.pte

/-! ## TLB hits -/

/-- The PTE that a TLB hit uses. -/
def tlbUsed (va : BitVec 64) (perms : BitVec 8) (hs : HartState) : Option (BitVec 64) :=
  (tlbEntry hs va perms).map (·.2.pteAddr)

/-- PMP refuses the read of the PTE at `a` and permits its write, in RAM that holds
    more than A and D bits. -/
structure OverwritesPte (isWrite : Bool) (a : BitVec 64) (s : Sys δ) : Prop where
  inRange : outOfRange env a = false
  readRefused : pmpRefusesFetch .u64 s.hs a = true
  writePermitted : pmpRefusesStore .u64 s.hs a = false
  ram : 0x80000000 ≤ a
  live : loadLe s.bus.mainMem a 8 &&& ~~~adMask isWrite ≠ 0

/-- Writing a touched zero over a PTE. -/
theorem onlyAD_zero_iff (isWrite : Bool) (a : BitVec 64) (m : BitVec 64 → BitVec 8) :
    OnlyAD isWrite a m (storeLe m a (pteTouched 0 isWrite) 8) ↔
      loadLe m a 8 &&& ~~~adMask isWrite = 0 := by
  have htouched : pteTouched 0 isWrite = adMask isWrite := by
    cases isWrite <;> rfl
  rw [htouched, BitVec.and_not_eq_zero_iff]
  refine ⟨?_, fun h => ⟨adMask isWrite, by cases isWrite <;> decide, by rw [h]⟩⟩
  rintro ⟨bits, -, hm⟩
  have hmask : adMask isWrite = loadLe m a 8 ||| bits := by
    have hread := congrArg (fun m => loadLe m a 8) hm
    simpa only [loadLe_storeLe] using hread
  rw [hmask, ← BitVec.or_assoc, BitVec.or_self]

/-- The PTE is written back unless every other bit of it is set. -/
theorem tlbHit_mainMem (s : Sys δ) (va : BitVec 64) (perms : BitVec 8) (i : Nat) (e : TLBEntry) :
    let r := memFetch env .u64 s e.pteAddr
    (tlbHit env s va perms i e).2.bus.mainMem =
      if (~~~(r.1 ||| (0b11#64 <<< 6)) != 0) = true then
        (memStore env .u64 r.2 e.pteAddr
          (pteTouched r.1 (perms &&& 0b010 != 0))).bus.mainMem
      else s.bus.mainMem := by
  intro r
  have hmem : r.2.bus.mainMem = s.bus.mainMem := memFetch_mainMem env .u64 s e.pteAddr
  unfold tlbHit
  dsimp only
  cases htouch : (~~~(r.1 ||| (0b11#64 <<< 6)) != 0) with
  | true =>
    simp only [↓reduceIte, Bool.true_and]
    split <;> rfl
  | false =>
    simp only [Bool.false_eq_true, ↓reduceIte, Bool.false_and]
    exact hmem

/-- A hit at most sets A and D, unless it overwrites the PTE. -/
theorem tlbHit_onlyAD_iff (s : Sys δ) (va : BitVec 64) (perms : BitVec 8) (i : Nat)
    (e : TLBEntry) :
    OnlyAD (perms &&& 0b010 != 0) e.pteAddr s.bus.mainMem
        (tlbHit env s va perms i e).2.bus.mainMem ↔
      ¬ OverwritesPte env (perms &&& 0b010 != 0) e.pteAddr s := by
  have hhit := tlbHit_mainMem env s va perms i e
  dsimp only at hhit
  rw [hhit]
  -- a refused read returns 0, and the update then stores a PTE made from that 0
  cases hr : outOfRange env e.pteAddr || pmpRefusesFetch .u64 s.hs e.pteAddr with
  | true =>
    have htouch : (~~~((0 : BitVec 64) ||| (0b11#64 <<< 6)) != 0) = true := by decide
    rw [memFetch_refused hr]
    dsimp only
    rw [if_pos htouch, memStore_pte]
    split
    · next h =>
      obtain ⟨hrange, hstore⟩ := Bool.or_eq_false_iff.mp h.1
      have hread : pmpRefusesFetch .u64 s.hs e.pteAddr = true := by
        rwa [hrange, Bool.false_or] at hr
      rw [show (s.setMemStatus true).bus.mainMem = s.bus.mainMem from rfl, onlyAD_zero_iff]
      exact ⟨fun hzero ho => ho.live hzero, fun ho => by_contra fun hne =>
        ho ⟨hrange, hread, hstore, h.2, hne⟩⟩
    · next h =>
      refine iff_of_true (onlyAD_refl _ _ _) fun ho => h ⟨?_, ho.ram⟩
      rw [ho.inRange, Bool.false_or]
      exact ho.writePermitted
  | false =>
    have hno : ¬ OverwritesPte env (perms &&& 0b010 != 0) e.pteAddr s := fun h =>
      Bool.noConfusion ((Bool.or_eq_false_iff.mp hr).2.symm.trans h.readRefused)
    refine iff_of_true ?_ hno
    rw [memFetch_granted hr]
    split
    · rw [memStore_pte, phyMemFetch_mainMem]
      split
      · next h =>
        rw [phyMemFetch_ram h.2]
        exact onlyAD_touched _ e.pteAddr s.bus.mainMem
      · exact onlyAD_refl _ _ _
    · exact onlyAD_refl _ _ _

/-- The TLB hit of `tlb_find`, if there is one, overwrites its PTE. -/
def HitOverwrites (va : BitVec 64) (perms : BitVec 8) (s : Sys δ) : Prop :=
  ∃ a, tlbUsed va perms s.hs = some a ∧ OverwritesPte env (perms &&& 0b010 != 0) a s

theorem tlbFind_keepsRam_iff (s : Sys δ) (va : BitVec 64) (perms : BitVec 8) :
    KeepsRam (tlbUsed va perms s.hs) (perms &&& 0b010 != 0) s.bus.mainMem
      (tlbFind env s va perms).2.bus.mainMem ↔ ¬ HitOverwrites env va perms s := by
  -- a miss stores nothing; a hit stores to the PTE of its own entry
  rcases he : tlbEntry s.hs va perms with _ | ⟨i, e⟩
  · have hused : tlbUsed va perms s.hs = none := by rw [tlbUsed, he]; rfl
    rw [tlbFind_miss env he]
    refine iff_of_true (.inl rfl) fun ⟨a, ha, _⟩ => ?_
    rw [hused] at ha
    cases ha
  · have hused : tlbUsed va perms s.hs = some e.pteAddr := by rw [tlbUsed, he]; rfl
    have hiff := tlbHit_onlyAD_iff env s va perms i e
    rw [tlbFind_hit env he]
    refine ⟨fun hkeep ⟨a, ha, ho⟩ => ?_, fun hno => ?_⟩
    · obtain rfl := Option.some.inj (hused.symm.trans ha)
      refine hiff.mp ?_ ho
      rcases hkeep with hsame | ⟨b, hb, had⟩
      · rw [hsame]
        exact onlyAD_refl _ _ _
      · obtain rfl := Option.some.inj (hused.symm.trans hb)
        exact had
    · exact .inr ⟨e.pteAddr, hused, hiff.mpr fun ho => hno ⟨e.pteAddr, hused, ho⟩⟩

/-- Translation at most sets A and D of the PTE that it uses, but for a TLB hit that
    may write a PTE which it may not read. -/
theorem translation_keepsRam_iff (s : Sys δ) (va : BitVec 64) (perms : BitVec 8)
    (isWrite : Bool) :
    (KeepsRam (walkUsed env va s) isWrite s.bus.mainMem
        (pageTableWalk env s va isWrite).2.bus.mainMem ∧
      KeepsRam (tlbUsed va perms s.hs) (perms &&& 0b010 != 0) s.bus.mainMem
        (tlbFind env s va perms).2.bus.mainMem) ↔
    ¬ HitOverwrites env va perms s := by
  rw [and_iff_right (pageTableWalk_keepsRam env va isWrite s)]
  exact tlbFind_keepsRam_iff env s va perms

end Store

/-- S-mode under Sv39, with a table at 0x80001000 that maps the gigapage at 0x80000000
    to itself, and PMP that permits loads and stores everywhere. -/
private def rwState : Sys Unit :=
  let pte := fun a => if a = 0x80001010 then 0x2000000F#64 else 0
  let mem := fun a : BitVec 64 =>
    (pte (a &&& ~~~7#64) >>> (8 * (a &&& 7#64).toNat)).setWidth 8
  let hs := resetState 0
  let pmp := { hs.pmp with
    pmpcfg := Function.update (fun _ => 0) 0 0b00011011
    pmpaddr := Function.update (fun _ => 0) 0 (BitVec.allOnes 64) }
  ⟨{ hs with
      privmode := 1, pmp := syncExpPmp Env.inert pmp
      csr := { hs.csr with satp := 0x8000000000080001 } },
    { Bus.inert with mainMem := mem }⟩

/-- The same after a load from 0x80002000, which fills the TLB. -/
private def rwLoaded : Sys Unit :=
  (virtMemFetch Env.inert .u64 (rwState.setMemStatus true) 0x80002000).2

/-- A fetch from the page that has been loaded from writes 0x40 over the PTE. -/
theorem fetch_overwrites_pte :
    ¬ ∀ (s : Sys Unit) va perms isWrite,
      KeepsRam (walkUsed Env.inert va s) isWrite s.bus.mainMem
          (pageTableWalk Env.inert s va isWrite).2.bus.mainMem ∧
        KeepsRam (tlbUsed va perms s.hs) (perms &&& 0b010 != 0) s.bus.mainMem
          (tlbFind Env.inert s va perms).2.bus.mainMem := by
  intro h
  have hkeep := (h rwLoaded 0x80002000 0b100 false).2
  refine (tlbFind_keepsRam_iff Env.inert rwLoaded 0x80002000 0b100).mp hkeep ?_
  exact ⟨0x80001010, by decide +kernel, by decide +kernel, by decide +kernel, by decide +kernel,
    by decide, by decide +kernel⟩

end RvEmu
