import RvEmu.Spec.TlbRun

/-!
# TLB hits and page table walks

`tlb_find` tests the permissions cached in an entry, `page_table_walk` those of the
leaf. Where the entries agree with the tables, a hit is granted only where the walk
translates, and to the same address, but for one access: `tlb_find` lets S-mode with
SUM execute user pages.
-/

namespace RvEmu

variable {δ : Type}

/-- The permission that `tlb_find` is called with. -/
def Access.perms : Access → BitVec 8
  | .load => 0b001
  | .store => 0b010
  | .fetch => 0b100

/-- Whatever the TLB grants, the walk translates to the same address. -/
def HitConfirmed (env : Env δ) (va : BitVec 64) (isWrite : Bool) (s : Sys δ) : Prop :=
  (tlbFind env s va (accessOf isWrite s).perms).1 ≠ 0 →
    WalkAccepts env va isWrite s ∧
      (pageTableWalk env s va isWrite).1 = (tlbFind env s va (accessOf isWrite s).perms).1

/-- S-mode, or above, fetches from a user page that the TLB holds. -/
structure FetchesUserPage (va : BitVec 64) (isWrite : Bool) (s : Sys δ) (i : Nat) (e : TLBEntry) :
    Prop where
  fetch : accessOf isWrite s = .fetch
  privmode : s.hs.privmode ≠ 0
  entry : tlbEntry s.hs va 0b100 = some (i, e)
  user : e.user = true
  address : e.address va i ≠ 0

/-! ## What an entry that matches says about the leaf -/

theorem leafEntry_permits (va : BitVec 64) (l : Leaf) {k : Nat} (hk : k < 3) :
    (1#8 <<< k &&& (leafEntry va l.pteAddr l.pte l.level).permissions != 0#8) =
      l.pte.getLsbD (k + 1) := by
  have hbit : (leafEntry va l.pteAddr l.pte l.level).permissions.getLsbD k =
      l.pte.getLsbD (k + 1) := by
    have hmask : ∀ k < 3, (0b111 : BitVec 64).getLsbD k = true := by decide
    have hk8 : k < 8 := by omega
    simp only [leafEntry, BitVec.getLsbD_setWidth, BitVec.getLsbD_and, BitVec.getLsbD_ushiftRight,
      hmask k hk, hk8, decide_true, Bool.true_and, Bool.and_true, Nat.add_comm 1 k]
  rw [bne, BitVec.and_comm, BitVec.and_one_shiftLeft_beq_zero, hbit, Bool.not_not]

section Hit

variable {env : Env δ} {va : BitVec 64} {isWrite : Bool} {s : Sys δ}

/-- The tests of the lookup are those of the walk, but for fetches from user pages. -/
theorem leafPasses_of_matches {l : Leaf} (haligned : l.aligned = true)
    (hm : tlbMatches s.hs va (accessOf isWrite s).perms l.level
      (leafEntry va l.pteAddr l.pte l.level) = true)
    (hfetch : accessOf isWrite s = .fetch → l.pte.getLsbD 4 = true → s.hs.privmode = 0) :
    LeafPasses isWrite s l := by
  simp only [tlbMatches, Bool.and_eq_true] at hm
  obtain ⟨⟨⟨-, hperms⟩, husermode⟩, hsum⟩ := hm
  -- the permission bits of the entry are those of the leaf
  refine ⟨?_, ?_, haligned⟩
  · cases hk : accessOf isWrite s with
    | load =>
      rw [hk] at hperms
      exact (leafEntry_permits va l (k := 0) (by decide)).symm.trans hperms
    | store =>
      rw [hk] at hperms
      exact (leafEntry_permits va l (k := 1) (by decide)).symm.trans hperms
    | fetch =>
      rw [hk] at hperms
      exact Bool.or_eq_true_iff.mpr
        (.inl ((leafEntry_permits va l (k := 2) (by decide)).symm.trans hperms))
  · have huser : (leafEntry va l.pteAddr l.pte l.level).user = l.pte.getLsbD 4 := rfl
    rw [huser] at husermode hsum
    unfold Leaf.modeOk
    by_cases hu : l.pte.getLsbD 4 = true
    · rw [hu] at hsum
      rw [if_pos hu, Bool.or_eq_true_iff, beq_iff_eq]
      by_cases hp : s.hs.privmode = 0
      · exact .inl hp
      · have hge : decide (s.hs.privmode ≥ 1) = true := by
          revert hp
          generalize s.hs.privmode = p
          revert p
          decide
        -- SUM lets S-mode load and store in user pages, but not fetch
        have hnofetch : accessOf isWrite s ≠ .fetch := fun hk => hp (hfetch hk hu)
        rw [hge] at hsum
        refine .inr ?_
        rw [bne_iff_ne.mpr hnofetch, Bool.and_true]
        simpa using hsum
    · rw [if_neg hu]
      rw [Bool.eq_false_iff.mpr hu, Bool.not_false, Bool.and_true] at husermode
      exact husermode

/-- With PMP out of the way, the walk finds the leaf, and its update is not refused. -/
theorem leafWalk_of_tableLeaf (hpmp : PmpPermits env s.hs) {l : Leaf}
    (hl : tableLeaf env va s = some l) :
    (leafWalk env va s).1 = some l ∧ outOfRange env l.pteAddr = false ∧
      l.updateRefused s.hs = false := by
  have hwalk : (leafWalk env va s).1 = some l := walkPath_of_tablePath env va hpmp hl
  have hpath : leafWalk env va s = (some l, (leafWalk env va s).2) := Prod.ext hwalk rfl
  have hrange := (walkPath_leaf env va hpath).1.inRange
  refine ⟨hwalk, hrange, ?_⟩
  rw [Leaf.updateRefused, hpmp.store _ hrange, Bool.and_false]

/-- With PMP out of the way, a hit yields the address. -/
theorem tlbHit_permitted (hpmp : PmpPermits env s.hs) {perms : BitVec 8} {i : Nat} {e : TLBEntry}
    (hrange : outOfRange env e.pteAddr = false) :
    (tlbHit env s va perms i e).1 = e.address va i := by
  have hread : (outOfRange env e.pteAddr || pmpRefusesFetch .u64 s.hs e.pteAddr) = false :=
    Bool.or_eq_false_iff.mpr ⟨hrange, hpmp.fetch s.hs.memStatus _ hrange⟩
  have hhs := phyMemFetch_hs env .u64 (s.setMemStatus false) e.pteAddr
  have hrefused : hitRefused env s perms e = false := by
    rw [hitRefused, memFetch_granted hread]
    generalize phyMemFetch env .u64 (s.setMemStatus false) e.pteAddr = r at hhs
    -- the read of the PTE leaves the PMP as it is
    have hwrite : pmpRefusesStore .u64 r.2.hs e.pteAddr = false := by
      rw [hhs]
      exact hpmp.store _ hrange
    rw [(memStore_flags env .u64 r.2 e.pteAddr _).1, hrange, hwrite]
    exact Bool.and_false _
  rw [tlbHit_fst, hrefused]
  exact if_neg Bool.false_ne_true

/-- A TLB hit is confirmed by the walk, unless it lets S-mode fetch from a user page. -/
theorem hitConfirmed_iff (h : SinceClear env s) (hpmp : PmpPermits env s.hs)
    (hfault : s.hs.pageFault = false) :
    HitConfirmed env va isWrite s ↔ ¬ ∃ i e, FetchesUserPage va isWrite s i e := by
  have hok := h.tlbOk
  constructor
  · rintro hconf ⟨i, e, hbad⟩
    obtain ⟨l, hl, -, rfl, rfl, -⟩ := hok.hit hbad.entry
    obtain ⟨hwalk, hrange, hupdate⟩ := leafWalk_of_tableLeaf hpmp hl
    -- the bad entry hits, so the walk would have to accept the leaf
    have hfind : (tlbFind env s va (accessOf isWrite s).perms).1 =
        (leafEntry va l.pteAddr l.pte l.level).address va l.level := by
      rw [hbad.fetch, show Access.fetch.perms = 0b100 from rfl, tlbFind_hit env hbad.entry]
      exact tlbHit_permitted hpmp hrange
    have haccepts := (hconf (by rw [hfind]; exact hbad.address)).1
    have hmode := ((walkAccepts_iff hfault hwalk).mp haccepts).1.modeOk
    have huser : l.pte.getLsbD 4 = true := hbad.user
    rw [hbad.fetch, Leaf.modeOk, if_pos huser, beq_eq_false_iff_ne.mpr hbad.privmode] at hmode
    cases hsum : s.hs.csr.mstatus.getLsbD 18 <;> rw [hsum] at hmode <;> cases hmode
  · intro hno hfind
    have haddr := hok.address hfind
    -- the address is right anyway; what can differ is the permission
    suffices haccepts : WalkAccepts env va isWrite s from
      ⟨haccepts, Option.some.inj (haccepts.address.symm.trans haddr)⟩
    rcases he : tlbEntry s.hs va (accessOf isWrite s).perms with _ | ⟨i, e⟩
    · by_cases hsatp : s.hs.csr.satp = 0
      · rw [WalkAccepts, pageTableWalk_bare env hsatp]
        exact ⟨hfault, rfl⟩
      · rw [tlbFind_miss env he] at hfind
        exact absurd (if_neg hsatp) hfind
    · obtain ⟨l, hl, haligned, rfl, rfl, hm⟩ := hok.hit he
      obtain ⟨hwalk, hrange, hupdate⟩ := leafWalk_of_tableLeaf hpmp hl
      refine (walkAccepts_iff hfault hwalk).mpr ⟨leafPasses_of_matches haligned hm ?_, hupdate⟩
      intro hk huser
      by_contra hp
      refine hno ⟨l.level, leafEntry va l.pteAddr l.pte l.level, hk, hp, ?_, huser, ?_⟩
      · rw [hk] at he
        exact he
      · rw [tlbFind_hit env he, tlbHit_permitted hpmp hrange] at hfind
        exact hfind

end Hit

/-- A user page, with SUM set in S-mode. -/
private def userPage : Sys Unit :=
  let s := gigapage 0x200000DF
  s.setHs { s.hs with csr := { s.hs.csr with mstatus := s.hs.csr.mstatus ||| (1#64 <<< 18) } }

/-- The same after a load, which fills the TLB. -/
private def userPageLoaded : Sys Unit :=
  (pageTableWalk Env.inert (userPage.setMemStatus true) 0x80002000 false).2

private theorem sinceClear_userPageLoaded : SinceClear Env.inert userPageLoaded := by
  have hclear : SinceClear Env.inert (userPage.setMemStatus true) := .clear _ rfl
  refine hclear.walk 0x80002000 false ?_
  refine (pageTableWalk_keepsRam Env.inert 0x80002000 false _).eq_of_set fun a ha => ?_
  have hused : walkUsed Env.inert 0x80002000 (userPage.setMemStatus true) = some 0x80001010 := by
    decide +kernel
  obtain rfl := Option.some.inj (hused.symm.trans ha)
  decide +kernel

private theorem pmpPermits_userPageLoaded : PmpPermits Env.inert userPageLoaded.hs :=
  pmpPermits_of_allEnabled Env.inert (by decide +kernel) (by decide +kernel)

/-- A load that hits. -/
theorem hitConfirmed_load :
    HitConfirmed Env.inert 0x80002000 false (userPageLoaded.setMemStatus true) := by
  have hsince := sinceClear_userPageLoaded.setMemStatus true
  have hpmp := pmpPermits_userPageLoaded.setMemStatus true
  refine (hitConfirmed_iff hsince hpmp (by decide +kernel)).mpr ?_
  rintro ⟨i, e, hbad⟩
  cases hbad.fetch

/-- S-mode fetches from a user page through the TLB; the walk faults. -/
theorem hit_executes_user_page :
    ¬ ∀ (s : Sys Unit) va isWrite, SinceClear Env.inert s → PmpPermits Env.inert s.hs →
      s.hs.pageFault = false → HitConfirmed Env.inert va isWrite s := by
  intro h
  have hconf := h userPageLoaded 0x80002000 false sinceClear_userPageLoaded
    pmpPermits_userPageLoaded (by decide +kernel)
  have hwalk := (hconf (by decide +kernel)).1.1
  have hfault : (pageTableWalk Env.inert userPageLoaded 0x80002000 false).2.hs.pageFault = true := by
    decide +kernel
  exact Bool.noConfusion (hwalk.symm.trans hfault)

end RvEmu
