import RvEmu.Spec.Run

/-!
# What a cycle keeps of the shared state

Between two accesses to physical memory a cycle leaves the shared state alone, but for the
reservations and the reading of the time. A property of the shared state that these steps
keep is kept by the cycle.
-/

namespace RvEmu

variable {δ : Type}

/-- A property of the shared state that the accesses of a hart with a given number keep. -/
structure BusClosed (env : Env δ) (hartid : BitVec 16) (Q : Bus δ → Prop) : Prop where
  fetch : ∀ (s : Sys δ) (w : Width) (addr : BitVec 64), s.hs.hartid = hartid → Q s.bus →
    Q (memFetch env w s addr).2.bus
  store : ∀ (s : Sys δ) (w : Width) (addr data : BitVec 64), s.hs.hartid = hartid → Q s.bus →
    Q (memStore env w s addr data).bus
  reserve : ∀ (b : Bus δ) (r : BitVec 16 → BitVec 64), Q b → Q { b with reservations := r }
  time : ∀ b : Bus δ, Q b → Q { b with dev := (env.aclintMtimeGet b.dev).2 }

section Accessors

variable {env : Env δ} {hartid : BitVec 16} {Q : Bus δ → Prop}

/-- It is the same hart, and the shared state still has the property. -/
structure At (hartid : BitVec 16) (Q : Bus δ → Prop) (s : Sys δ) : Prop where
  hartid : s.hs.hartid = hartid
  bus : Q s.bus

variable (hQ : BusClosed env hartid Q) {s : Sys δ} (h : At hartid Q s)
include hQ h

/-- The accesses keep the property, … -/
theorem BusClosed.memFetch (w : Width) (addr : BitVec 64) :
    At hartid Q (memFetch env w s addr).2 :=
  have hframe := memFetch_frame env s w addr
  ⟨hframe.hartid.trans h.hartid, hQ.fetch s w addr h.hartid h.bus⟩

/-- … both of them, … -/
theorem BusClosed.memStore (w : Width) (addr data : BitVec 64) :
    At hartid Q (memStore env w s addr data) :=
  have hframe := memStore_frame env s w addr data
  ⟨hframe.hartid.trans h.hartid, hQ.store s w addr data h.hartid h.bus⟩

/-- … and so do a leaf of the page tables, where its A and D bits are written back, … -/
theorem BusClosed.walkLeaf (va pteAddr pte : BitVec 64) (isWrite memStatus : Bool) (i : Nat) :
    At hartid Q (walkLeaf env va isWrite memStatus i pteAddr pte s).2 := by
  unfold RvEmu.walkLeaf
  split
  · exact ⟨h.hartid, h.bus⟩
  · dsimp only
    generalize (~~~(pte ||| (0b11#64 <<< 6)) != 0) = touch
    cases touch with
    | false => exact ⟨h.hartid, h.bus⟩
    | true =>
      have hstore := hQ.memStore h .u64 pteAddr (pteTouched pte isWrite)
      simp only [Bool.true_and, ↓reduceIte]
      split
      · exact hstore
      · exact ⟨hstore.hartid, hstore.bus⟩

/-- … the levels of the walk, … -/
theorem BusClosed.walkLoop (va : BitVec 64) (isWrite memStatus : Bool) (i : Nat)
    (a : BitVec 64) : At hartid Q (walkLoop env va isWrite memStatus i a s).2 := by
  induction i generalizing a s with
  | zero => exact ⟨h.hartid, h.bus⟩
  | succ i ih =>
    have hfetch := hQ.memFetch (s := s.setMemStatus memStatus) ⟨h.hartid, h.bus⟩ .u64
      (pteAddrAt a va i)
    simp only [RvEmu.walkLoop]
    split
    · exact hfetch
    · split
      · exact ⟨hfetch.hartid, hfetch.bus⟩
      · split
        · exact ih hfetch _
        · exact hQ.walkLeaf hfetch _ _ _ _ _ _

/-- … the whole walk, … -/
theorem BusClosed.pageTableWalk (va : BitVec 64) (isWrite : Bool) :
    At hartid Q (pageTableWalk env s va isWrite).2 := by
  unfold RvEmu.pageTableWalk
  split
  · exact ⟨h.hartid, h.bus⟩
  · exact hQ.walkLoop h _ _ _ _ _

/-- … the lookup in the TLB, whose hits read a PTE and may write it back, … -/
theorem BusClosed.tlbFind (va : BitVec 64) (perms : BitVec 8) :
    At hartid Q (tlbFind env s va perms).2 := by
  have hloop (i : Nat) : At hartid Q (tlbFindLoop env s va perms i).2 := by
    induction i with
    | zero => exact h
    | succ i ih =>
      simp only [tlbFindLoop]
      split
      · -- a hit reads the PTE of its entry, and may write it back
        have hfetch := hQ.memFetch h .u64 (tlbProbe s.hs.tlb va i).pteAddr
        rcases tlbHit_cases env s va perms i (tlbProbe s.hs.tlb va i) with hhit | ⟨b, hhit⟩ <;>
          rw [hhit]
        · exact hfetch
        · have hstore := hQ.memStore hfetch .u64 (tlbProbe s.hs.tlb va i).pteAddr
            (pteTouched (RvEmu.memFetch env .u64 s (tlbProbe s.hs.tlb va i).pteAddr).1
              (perms &&& 0b010 != 0))
          exact ⟨hstore.hartid, hstore.bus⟩
      · exact ih
  unfold RvEmu.tlbFind
  split
  · exact h
  · exact hloop _

/-- … the translation, … -/
theorem BusClosed.translate (va : BitVec 64) (perms : BitVec 8) (isWrite : Bool) :
    At hartid Q (translate env s va perms isWrite).2 := by
  have hfind := hQ.tlbFind h va perms
  have hwalk := hQ.pageTableWalk hfind va isWrite
  simp only [RvEmu.translate]
  split
  · split
    · exact hwalk
    · exact ⟨hwalk.hartid, hwalk.bus⟩
  · exact hfind

/-- … and the accesses at a virtual address. -/
theorem BusClosed.virtMemFetchAt (w : Width) (addr : BitVec 64) :
    At hartid Q (virtMemFetchAt env w s addr).2 := by
  have htrans := hQ.translate h addr (if s.hs.memStatus then 0b001 else 0b100) false
  unfold RvEmu.virtMemFetchAt
  generalize RvEmu.translate env s addr _ false = t at htrans
  obtain ⟨t, u⟩ := t
  cases t with
  | none => exact htrans
  | some phyAddr => exact hQ.memFetch htrans w phyAddr

/-- `virt_mem_fetch`, with or without MPRV -/
theorem BusClosed.virtMemFetch (w : Width) (addr : BitVec 64) :
    At hartid Q (virtMemFetch env w s addr).2 := by
  unfold RvEmu.virtMemFetch
  split
  · split
    · exact hQ.memFetch h w addr
    · -- under MPRV the access is made as another mode
      have hfetch := hQ.virtMemFetchAt (s := s.setPrivmode (mstatusMpp s.hs.csr.mstatus))
        ⟨h.hartid, h.bus⟩ w addr
      exact ⟨hfetch.hartid, hfetch.bus⟩
  · exact hQ.virtMemFetchAt h w addr

/-- A store at a virtual address. -/
theorem BusClosed.virtMemStoreAt (w : Width) (addr data : BitVec 64) :
    At hartid Q (virtMemStoreAt env w s addr data) := by
  have htrans := hQ.translate h addr 0b010 true
  unfold RvEmu.virtMemStoreAt
  generalize RvEmu.translate env s addr _ true = t at htrans
  obtain ⟨t, u⟩ := t
  cases t with
  | none => exact htrans
  | some phyAddr => exact hQ.memStore htrans w phyAddr data

/-- `virt_mem_store`, with or without MPRV -/
theorem BusClosed.virtMemStore (w : Width) (addr data : BitVec 64) :
    At hartid Q (virtMemStore env w s addr data) := by
  unfold RvEmu.virtMemStore
  split
  · split
    · exact hQ.memStore h w addr data
    · have hstore := hQ.virtMemStoreAt (s := s.setPrivmode (mstatusMpp s.hs.csr.mstatus))
        ⟨h.hartid, h.bus⟩ w addr data
      exact ⟨hstore.hartid, hstore.bus⟩
  · exact hQ.virtMemStoreAt h w addr data

omit h in
/-- Together: what the accesses keep, every sequence of them keeps. -/
theorem BusClosed.memClosed : MemClosed env (At hartid Q) where
  setMemStatus _ h := ⟨h.hartid, h.bus⟩
  setPageFault _ h := ⟨h.hartid, h.bus⟩
  setReg _ _ h := ⟨h.hartid, h.bus⟩
  walk va isWrite h := hQ.pageTableWalk h va isWrite
  fetch w va h := hQ.virtMemFetch h w va
  store w va data h := hQ.virtMemStore h w va data

/-! ## Instructions -/

omit hQ h in
/-- A trap leaves the shared state alone. -/
theorem ends_bus {r : Flow × Sys δ} (h : Outcome (At hartid Q) r) : Q r.2.bus :=
  h.state (R := fun t => Q t.bus) (fun _ _ _ ht => ht.bus) fun _ _ ht => ht.bus

/-- An SC: its walk, its store, and the end of the reservation. -/
theorem BusClosed.execSc (d : Decoded) : Outcome (At hartid Q) (execSc env d s) := by
  have hmem := hQ.memClosed
  have hwalk := hmem.walk (s.hs.regs d.rs1) true h
  have hreserve {t : Sys δ} (ht : At hartid Q t) (i : BitVec 16) (v : BitVec 64) :
      At hartid Q (t.setReservation i v) := ⟨ht.hartid, hQ.reserve _ _ ht.bus⟩
  unfold RvEmu.execSc
  dsimp only
  generalize RvEmu.pageTableWalk env s (s.hs.regs d.rs1) true = r at hwalk
  split
  · next t ht => exact (hmem.memError env ht hwalk rfl rfl).outcome
  · split
    · have hstore := hmem.store (amoWidth d) (s.hs.regs d.rs1) (r.2.hs.regs d.rs2)
        (hmem.setMemStatus true hwalk)
      split
      · next t ht => exact (hmem.memError env ht hstore rfl rfl).outcome
      · exact .brk false _ (hreserve (hmem.setReg d.rd 0 hstore) _ _)
    · exact .brk false _ (hreserve (hmem.setReg d.rd 1 hwalk) _ _)

/-- The end of an LR, which takes the reservations of other harts away. -/
theorem BusClosed.execLrReserve (d : Decoded) :
    Outcome (At hartid Q) (execLrReserve env d s) := by
  have hmem := hQ.memClosed
  have hwalk := hmem.walk (s.hs.regs d.rs1) false (hmem.setMemStatus true h)
  unfold RvEmu.execLrReserve
  dsimp only
  split
  · next t ht => exact (hmem.memError env ht hwalk rfl rfl).outcome
  · exact .brk false _ ⟨hwalk.hartid, hQ.reserve _ _ (hQ.reserve _ _ hwalk.bus)⟩

/-- `LR`, `SC` and the AMOs. -/
theorem BusClosed.execAmo (d : Decoded) : Outcome (At hartid Q) (execAmo env d s) := by
  have hmem := hQ.memClosed
  unfold RvEmu.execAmo
  dsimp only
  split
  · exact hQ.execSc h d
  · have hload := hmem.setReg d.rd (RvEmu.virtMemFetch env (amoWidth d) (s.setMemStatus true)
      (s.hs.regs d.rs1)).1 (hmem.fetch (amoWidth d) (s.hs.regs d.rs1) (hmem.setMemStatus true h))
    split
    · next t ht => exact (hmem.memError env ht hload rfl rfl).outcome
    · split
      · exact hQ.execLrReserve (hmem.setReg d.rd _ hload) d
      · exact (hmem.execAmoWrite env d (hmem.setReg d.rd _ hload) _ _ _ _).outcome

omit hQ h in
/-- An access to an ordinary CSR leaves the bus alone, … -/
theorem execCsrPtr_bus (d : Decoded) (csrno : BitVec 12) (wvalue : BitVec 64) (s : Sys δ) :
    (execCsrPtr d csrno wvalue s).2.bus = s.bus := by
  unfold execCsrPtr
  dsimp only
  generalize (if (csrno == 0x100) = true then (0x300 : BitVec 12) else _) = imm
  split
  · rfl
  · cases csrFromAddr imm with
    | none => rfl
    | some ptr =>
      -- what is left after the read of the CSR into `rd` writes CSRs alone
      have hread : (if d.rd ≠ 0 then s.setReg d.rd (ptr.get s.hs) else s).bus = s.bus := by
        split <;> rfl
      dsimp only
      generalize (if d.rd ≠ 0 then s.setReg d.rd (ptr.get s.hs) else s) = t at hread
      split
      · exact hread
      · split
        · split
          · exact hread
          · split
            · exact hread
            · split <;> exact hread
        · exact hread

omit hQ h in
/-- … and a `SYSTEM` instruction at most reads the time. -/
theorem execSystem_bus (env : Env δ) (d : Decoded) (s : Sys δ) :
    (execSystem env d s).2.bus = s.bus ∨
      (execSystem env d s).2.bus = { s.bus with dev := (env.aclintMtimeGet s.bus.dev).2 } := by
  rcases execSystem_ends env d s with hends | ⟨-, -, hm⟩ | ⟨-, -, -, hs⟩ | ⟨-, hcsr⟩
  · refine .inl (hends.state (R := fun t => t.bus = s.bus) ?_ ?_)
    · rintro he tval t ⟨-, rfl⟩
      rfl
    · rintro b t ⟨-, rfl | rfl⟩ <;> rfl
  · rw [hm]
    exact .inl rfl
  · rw [hs]
    exact .inl rfl
  · rw [hcsr]
    unfold execCsr
    dsimp only
    split
    · exact .inl rfl
    · split
      · exact .inr rfl
      · split
        · exact .inl rfl
        · split
          · exact .inl rfl
          · split
            · unfold pmpcfgRw
              split
              · exact .inl rfl
              · exact .inl rfl
            · exact .inl (execCsrPtr_bus d _ _ s)

/-- Whatever the instruction, the property is kept, … -/
theorem BusClosed.execute (d : Decoded) : Q (execute env d s).2.bus := by
  have hmem := hQ.memClosed
  have hsame {r : Flow × Sys δ} (hr : r.2.bus = s.bus) : Q r.2.bus := hr.symm ▸ h.bus
  have hjumped (t : Sys δ) (ht : t.bus = s.bus) : (jumped t).2.bus = s.bus := by
    unfold jumped
    split <;> exact ht
  have hwrite (v : Option (BitVec 64)) : (writeback d s v).2.bus = s.bus := by cases v <;> rfl
  unfold RvEmu.execute
  cases d.opFun with
  | load => exact ends_bus (hmem.execLoad env d h).outcome
  | store => exact ends_bus (hmem.execStore env d h).outcome
  | amo => exact ends_bus (hQ.execAmo h d)
  | system =>
    rcases execSystem_bus env d s with hbus | hbus
    · exact hsame hbus
    · exact hbus.symm ▸ hQ.time s.bus h.bus
  | jal => exact hsame (hjumped ((s.setReg _ _).setPc _) rfl)
  | jalr => exact hsame (hjumped ((s.setPc _).setReg _ _) rfl)
  | branch =>
    refine hsame ?_
    dsimp only
    unfold execBranch
    split
    · exact hjumped (s.setPc _) rfl
    · rfl
  | miscMem =>
    refine hsame ?_
    dsimp only
    split <;> rfl
  | opImm | opImm32 | lui | auipc | op | op32 => exact hsame (hwrite _)
  | _ => exact h.bus

/-! ## The cycle -/

/-- … from its encoding on. -/
theorem BusClosed.decodeExc : Q (decodeExc env s).2.bus := by
  rcases decodeExc_cases env s with ⟨t, tval, -, hbus, hexc⟩ | ⟨d, -, hrun⟩
  · rw [hexc]
    exact hbus.symm ▸ h.bus
  · have hfinish (r : Flow × Sys δ) : (finish r).2.bus = r.2.bus := by
      obtain ⟨flow, t⟩ := r
      cases flow with
      | ret he => rfl
      | brk pcChgd => cases pcChgd <;> rfl
    rw [hrun, hfinish]
    exact hQ.execute (s := s.withInst d.inst s.hs.instLen) ⟨h.hartid, h.bus⟩ d

/-- What the accesses of a hart keep of the shared state, its cycle keeps. -/
theorem BusClosed.cycle : Q (cycle env s).2.bus := by
  have hstart : At hartid Q (s.setReg 0 0) := ⟨h.hartid, h.bus⟩
  have hfetch : Q (RvEmu.fetch env (s.setReg 0 0)).2.bus := by
    rw [fetch_bus]
    unfold fetchInst
    dsimp only
    split
    · exact (hQ.virtMemFetch (s := (s.setReg 0 0).setMemStatus false) ⟨h.hartid, h.bus⟩
        .u32 s.hs.pc).bus
    · exact h.bus
  rcases cycle_cases env s with hc | ⟨hf, hc⟩ | ⟨-, hc⟩ <;> rw [hc]
  · exact hfetch
  · -- the instruction is executed where it was fetched
    have hcontrol := fetch_sameControl hf.1
    rw [cycleEnd_bus]
    exact hQ.decodeExc ⟨hcontrol.hartid.trans h.hartid, hfetch⟩
  · rw [cycleEnd_bus]
    exact hfetch

end Accessors

end RvEmu
