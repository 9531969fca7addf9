import RvEmu.Spec.Outcome

/-!
# Accesses to RAM

Which bytes of RAM a memory access may change, and how an access is refused:
with `memStatus` set and nothing else changed.
-/

namespace RvEmu

variable {δ : Type}

/-- `a` is one of the `n` bytes from `addr` on. -/
def InRange (a addr : BitVec 64) (n : Nat) : Prop := (a - addr).toNat < n

instance (a addr : BitVec 64) (n : Nat) : Decidable (InRange a addr n) :=
  inferInstanceAs (Decidable (_ < _))

/-- A store leaves the bytes outside its range alone. -/
theorem storeLe_of_not_inRange {mem : BitVec 64 → BitVec 8} {a addr data : BitVec 64} {n : Nat}
    (h : ¬ InRange a addr n) : storeLe mem addr data n a = mem a := if_neg h

section Accessors

variable (env : Env δ) (w : Width) (s : Sys δ) (addr data : BitVec 64)

/-- A physical load leaves RAM alone. -/
@[simp] theorem phyMemFetch_mainMem :
    (phyMemFetch env w s addr).2.bus.mainMem = s.bus.mainMem := by
  unfold phyMemFetch
  split
  · rfl
  · split
    · rfl
    · split <;> rfl

/-- A physical store changes only the bytes it addresses. -/
theorem phyMemStore_mainMem {a : BitVec 64} (h : ¬ InRange a addr w.bytes) :
    (phyMemStore env w s addr data).bus.mainMem a = s.bus.mainMem a := by
  unfold phyMemStore
  split
  · exact storeLe_of_not_inRange h
  · split <;> rfl

/-- A load leaves RAM alone. -/
@[simp] theorem memFetch_mainMem : (memFetch env w s addr).2.bus.mainMem = s.bus.mainMem := by
  unfold memFetch
  split
  · rfl
  · exact phyMemFetch_mainMem env w _ addr

/-- A store changes only the bytes it addresses. -/
theorem memStore_mainMem {a : BitVec 64} (h : ¬ InRange a addr w.bytes) :
    (memStore env w s addr data).bus.mainMem a = s.bus.mainMem a := by
  unfold memStore
  split
  · rfl
  · exact phyMemStore_mainMem env w (s.setMemStatus false) addr data h

variable {env w s addr}

/-- The PMP tests of a load depend on the table, the mode and the kind of access. -/
theorem pmpRefusesFetch_congr {hs hs' : HartState} (hpmp : hs.pmp = hs'.pmp)
    (hpriv : hs.privmode = hs'.privmode) (hkind : hs.memStatus = hs'.memStatus) :
    pmpRefusesFetch w hs addr = pmpRefusesFetch w hs' addr := by
  cases w <;> simp only [pmpRefusesFetch, templateRefusesFetch, hpmp, hpriv, hkind]

/-- The PMP tests of a store depend on the table and the mode. -/
theorem pmpRefusesStore_congr {hs hs' : HartState} (hpmp : hs.pmp = hs'.pmp)
    (hpriv : hs.privmode = hs'.privmode) :
    pmpRefusesStore w hs addr = pmpRefusesStore w hs' addr := by
  cases w <;> simp only [pmpRefusesStore, templateRefusesStore, hpmp, hpriv]

/-! An access is refused, or it is a physical one; only then are both flags as
before. -/

/-- A load that is refused gives zero. -/
theorem memFetch_refused (h : (outOfRange env addr || pmpRefusesFetch w s.hs addr) = true) :
    memFetch env w s addr = (0, s.setMemStatus true) := if_pos h

/-- A load that is granted is a physical one. -/
theorem memFetch_granted (h : (outOfRange env addr || pmpRefusesFetch w s.hs addr) = false) :
    memFetch env w s addr = phyMemFetch env w (s.setMemStatus false) addr :=
  if_neg (Bool.eq_false_iff.mp h)

/-- A store that is refused sets the flag alone. -/
theorem memStore_refused (h : (outOfRange env addr || pmpRefusesStore w s.hs addr) = true) :
    memStore env w s addr data = s.setMemStatus true := if_pos h

/-- A store that is granted is a physical one. -/
theorem memStore_granted (h : (outOfRange env addr || pmpRefusesStore w s.hs addr) = false) :
    memStore env w s addr data = phyMemStore env w (s.setMemStatus false) addr data :=
  if_neg (Bool.eq_false_iff.mp h)

/-- The flag tells whether an access was refused. -/
theorem memFetch_ok (h : (memFetch env w s addr).2.hs.memStatus = false) :
    (outOfRange env addr || pmpRefusesFetch w s.hs addr) = false := by
  cases hok : outOfRange env addr || pmpRefusesFetch w s.hs addr with
  | false => rfl
  | true =>
    rw [memFetch_refused hok] at h
    cases h

/-- From 0x80000000 on a load reads RAM. -/
theorem phyMemFetch_ram (h : 0x80000000 ≤ addr) :
    phyMemFetch env w s addr = (loadLe s.bus.mainMem addr w.bytes, s) := if_pos h

/-- From 0x80000000 on a store writes RAM. -/
theorem phyMemStore_ram (h : 0x80000000 ≤ addr) :
    phyMemStore env w s addr data =
      { s with bus := { s.bus with mainMem := storeLe s.bus.mainMem addr data w.bytes } } :=
  if_pos h

/-- Below RAM there are only devices. -/
theorem phyMemStore_device (h : ¬ 0x80000000 ≤ addr) :
    (phyMemStore env w s addr data).bus.mainMem = s.bus.mainMem := by
  rw [phyMemStore, if_neg h]
  split <;> rfl

variable (env w s addr)

/-- A physical load leaves the hart alone. -/
@[simp] theorem phyMemFetch_hs : (phyMemFetch env w s addr).2.hs = s.hs := by
  unfold phyMemFetch
  split
  · rfl
  · split
    · rfl
    · split <;> rfl

/-- A physical store leaves the flags alone. -/
theorem phyMemStore_flags :
    (phyMemStore env w s addr data).hs.memStatus = s.hs.memStatus ∧
      (phyMemStore env w s addr data).hs.pageFault = s.hs.pageFault := by
  unfold phyMemStore
  split
  · exact ⟨rfl, rfl⟩
  · split <;> exact ⟨rfl, rfl⟩

/-- An access tells whether it was refused. -/
theorem memFetch_flags :
    (memFetch env w s addr).2.hs.memStatus =
        (outOfRange env addr || pmpRefusesFetch w s.hs addr) ∧
      (memFetch env w s addr).2.hs.pageFault = s.hs.pageFault := by
  cases hok : outOfRange env addr || pmpRefusesFetch w s.hs addr with
  | true =>
    rw [memFetch_refused hok]
    exact ⟨rfl, rfl⟩
  | false =>
    rw [memFetch_granted hok, phyMemFetch_hs]
    exact ⟨rfl, rfl⟩

/-- A store tells whether it was refused. -/
theorem memStore_flags :
    (memStore env w s addr data).hs.memStatus = (outOfRange env addr || pmpRefusesStore w s.hs addr) ∧
      (memStore env w s addr data).hs.pageFault = s.hs.pageFault := by
  cases hok : outOfRange env addr || pmpRefusesStore w s.hs addr with
  | true =>
    rw [memStore_refused data hok]
    exact ⟨rfl, rfl⟩
  | false =>
    rw [memStore_granted data hok]
    exact phyMemStore_flags env w (s.setMemStatus false) addr data

variable {env w s addr}

/-- A store leaves RAM alone, or it raises no fault. -/
theorem memStore_refused_or (hfault : s.hs.pageFault = false) :
    (memStore env w s addr data).bus.mainMem = s.bus.mainMem ∨
    ((memStore env w s addr data).hs.memStatus = false ∧
      (memStore env w s addr data).hs.pageFault = false) := by
  obtain ⟨hmem, hpf⟩ := memStore_flags env w s addr data
  cases hok : outOfRange env addr || pmpRefusesStore w s.hs addr with
  | true =>
    rw [memStore_refused data hok]
    exact .inl rfl
  | false => exact .inr ⟨hmem.trans hok, hpf.trans hfault⟩

end Accessors

/-! ## Bare translation -/

/-- The hart translates no addresses. -/
def Bare (s : Sys δ) : Prop := s.hs.csr.satp = 0

section Bare

variable (env : Env δ) {s : Sys δ} (h : Bare s)
include h

/-- In Bare mode `tlb_find` returns the address itself. -/
theorem tlbFind_bare (addr : BitVec 64) (perms : BitVec 8) :
    tlbFind env s addr perms = (addr, s) := if_pos h

/-- In Bare mode a walk returns the address itself. -/
theorem pageTableWalk_bare (addr : BitVec 64) (isWrite : Bool) :
    pageTableWalk env s addr isWrite = (addr, s.setMemStatus false) := by
  have hlevels : satpLevels s.hs.csr.satp = 0 := by rw [show s.hs.csr.satp = 0 from h]; rfl
  simp only [pageTableWalk, hlevels]

/-- Translation yields the address itself, but for address zero under a pending
    page fault. -/
theorem translate_bare (addr : BitVec 64) (perms : BitVec 8) (isWrite : Bool) :
    translate env s addr perms isWrite = (some addr, s) ∨
    (addr = 0 ∧ s.hs.pageFault = true ∧
      translate env s addr perms isWrite = (none, s.setMemStatus false)) := by
  simp only [translate, tlbFind_bare env h, pageTableWalk_bare env h]
  -- a translation to 0 is taken for a miss, and the walk returns the same 0
  by_cases h0 : addr = 0
  · rw [if_pos h0]
    cases hp : s.hs.pageFault with
    | true => exact .inr ⟨h0, rfl, by simp [Sys.setMemStatus, hp]⟩
    | false =>
      have hself : (s.setMemStatus false).setMemStatus s.hs.memStatus = s := rfl
      refine .inl ?_
      rw [hself]
      simp [Sys.setMemStatus, hp]
  · exact .inl (by rw [if_neg h0])

/-- A load in Bare mode leaves RAM alone, below the MPRV test. -/
theorem virtMemFetchAt_bare_mainMem (w : Width) (addr : BitVec 64) :
    (virtMemFetchAt env w s addr).2.bus.mainMem = s.bus.mainMem := by
  unfold virtMemFetchAt
  rcases translate_bare env h addr (if s.hs.memStatus then 0b001 else 0b100) false with
    ht | ⟨-, -, ht⟩ <;> rw [ht]
  · exact memFetch_mainMem env w s addr
  · rfl

/-- A load in Bare mode leaves RAM alone. -/
theorem virtMemFetch_bare_mainMem (w : Width) (addr : BitVec 64) :
    (virtMemFetch env w s addr).2.bus.mainMem = s.bus.mainMem := by
  unfold virtMemFetch
  split
  · split
    · exact memFetch_mainMem env w s addr
    · exact virtMemFetchAt_bare_mainMem env
        (s := s.setPrivmode (mstatusMpp s.hs.csr.mstatus)) h w addr
  · exact virtMemFetchAt_bare_mainMem env h w addr

/-- A store in Bare mode changes only the bytes it addresses, below the MPRV test. -/
theorem virtMemStoreAt_bare_mainMem (w : Width) (addr data : BitVec 64) {a : BitVec 64}
    (ha : ¬ InRange a addr w.bytes) :
    (virtMemStoreAt env w s addr data).bus.mainMem a = s.bus.mainMem a := by
  unfold virtMemStoreAt
  rcases translate_bare env h addr 0b010 true with ht | ⟨-, -, ht⟩ <;> rw [ht]
  · exact memStore_mainMem env w s addr data ha
  · rfl

/-- A store changes only the bytes it addresses. -/
theorem virtMemStore_bare_mainMem (w : Width) (addr data : BitVec 64) {a : BitVec 64}
    (ha : ¬ InRange a addr w.bytes) :
    (virtMemStore env w s addr data).bus.mainMem a = s.bus.mainMem a := by
  unfold virtMemStore
  split
  · split
    · exact memStore_mainMem env w s addr data ha
    · exact virtMemStoreAt_bare_mainMem env
        (s := s.setPrivmode (mstatusMpp s.hs.csr.mstatus)) h w addr data ha
  · exact virtMemStoreAt_bare_mainMem env h w addr data ha

/-- A store in Bare mode that raises a fault leaves RAM alone, below the MPRV test. -/
theorem virtMemStoreAt_bare_refused (w : Width) (addr data : BitVec 64)
    (hfault : s.hs.pageFault = false) :
    (virtMemStoreAt env w s addr data).bus.mainMem = s.bus.mainMem ∨
    ((virtMemStoreAt env w s addr data).hs.memStatus = false ∧
      (virtMemStoreAt env w s addr data).hs.pageFault = false) := by
  unfold virtMemStoreAt
  rcases translate_bare env h addr 0b010 true with ht | ⟨-, hp, -⟩
  · rw [ht]
    exact memStore_refused_or data hfault
  · exact Bool.noConfusion (hfault.symm.trans hp)

/-- A store that raises a fault leaves RAM alone. -/
theorem virtMemStore_bare_refused (w : Width) (addr data : BitVec 64)
    (hfault : s.hs.pageFault = false) :
    (virtMemStore env w s addr data).bus.mainMem = s.bus.mainMem ∨
    ((virtMemStore env w s addr data).hs.memStatus = false ∧
      (virtMemStore env w s addr data).hs.pageFault = false) := by
  unfold virtMemStore
  split
  · split
    · exact memStore_refused_or data hfault
    · exact virtMemStoreAt_bare_refused env
        (s := s.setPrivmode (mstatusMpp s.hs.csr.mstatus)) h w addr data hfault
  · exact virtMemStoreAt_bare_refused env h w addr data hfault

/-- A store to address zero is refused, below the MPRV test. -/
theorem virtMemStoreAt_bare_zero (w : Width) (data : BitVec 64) :
    (virtMemStoreAt env w s 0 data).hs.memStatus = true ∨
    (virtMemStoreAt env w s 0 data).hs.pageFault = true := by
  unfold virtMemStoreAt
  rcases translate_bare env h 0 0b010 true with ht | ⟨-, hp, ht⟩ <;> rw [ht]
  · exact .inl rfl
  · exact .inr hp

/-- A store to address zero is refused. -/
theorem virtMemStore_bare_zero (w : Width) (data : BitVec 64) :
    (virtMemStore env w s 0 data).hs.memStatus = true ∨
    (virtMemStore env w s 0 data).hs.pageFault = true := by
  unfold virtMemStore
  split
  · split
    · exact .inl rfl
    · exact virtMemStoreAt_bare_zero env (s := s.setPrivmode (mstatusMpp s.hs.csr.mstatus)) h w data
  · exact virtMemStoreAt_bare_zero env h w data

end Bare

end RvEmu
