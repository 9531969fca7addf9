import RvEmu.Spec.MemFault
import RvEmu.Spec.Precise

/-!
# No fault flag leaks

The two flags belong to the hart, not to an access. Each test of them comes right behind
the operation that it is about, and leaves them clear, so that the next operation starts
with none set.

## Key results

- `memSites`, `cycleSites`: the tests of the flags that an instruction and a cycle make
- `execute_ends`: an instruction traps by the last of its tests, if at all
- `no_fault_leaks`: at each test, in every run, the flags are those of its own operation
-/

namespace RvEmu

variable {δ : Type}

/-! ## The tests of the flags -/

/-- The exception for a fault of an access. -/
def Access.cause : Access → Fault → HartException
  | .fetch, .access => .iafault
  | .fetch, .page => .ipfault
  | .load, .access => .lafault
  | .load, .page => .lpfault
  | .store, .access => .safault
  | .store, .page => .spfault

/-- A `HANDLE_MEM_ERROR`: the operation made before it, if there is one, and the state it is
    made in; and the state of the test. -/
structure MemSite (δ : Type) where
  before : Sys δ
  op : Option MemOp
  after : Sys δ
  kind : Access
  tval : BitVec 64

namespace MemSite

/-- The trap to return, if there is one. -/
def test (x : MemSite δ) : Option (HartException × Sys δ) :=
  handleMemError (x.kind.cause .access) (x.kind.cause .page) x.tval x.after

/-- The fault of the operation. -/
def report (env : Env δ) (x : MemSite δ) : Option Fault := x.op.bind (MemOp.fault env x.before)

/-- The operation starts with `page_fault` clear, and the flags at the test report its fault. -/
structure Sound (env : Env δ) (x : MemSite δ) : Prop where
  clear : x.before.hs.pageFault = false
  reported : x.after.hs.flags = Fault.flags (x.report env)

end MemSite

section Sites

variable (env : Env δ) (d : Decoded) (s : Sys δ)

/-- The first test of `fetch`, without an operation if the instruction is in `instbuf`. -/
def fetchSite : MemSite δ :=
  let t := fetchInst env s
  ⟨s.setMemStatus false, if s.hs.instbuf = 0 then some (.fetch .u32 s.hs.pc) else none, t, .fetch,
    t.hs.pc⟩

/-- The tests of `fetch`; the second one has no operation of its own. -/
def fetchSites : List (MemSite δ) :=
  let x := fetchSite env s
  let r := fetchLength x.after
  if x.test = none ∧ r.1 = .noexc then [x, ⟨r.2, none, r.2, .fetch, r.2.hs.pc⟩] else [x]

/-- The test of `LOAD`. -/
def loadSite : MemSite δ :=
  let op := .fetch (accessWidth (d.funct3.setWidth 2)) (s.hs.regs d.rs1 + d.imm)
  ⟨s.setMemStatus true, some op, op.run env (s.setMemStatus true), .load, s.hs.regs d.rs1 + d.imm⟩

/-- The test of `STORE`, which stores nothing for `funct3` from 4 on. -/
def storeSite : MemSite δ :=
  let storeAddr := s.hs.regs d.rs1 + d.imm
  let u := s.setMemStatus false
  let op := .store (accessWidth (d.funct3.setWidth 2)) storeAddr (s.hs.regs d.rs2)
  ⟨u, if d.funct3.getLsbD 2 then none else some op,
    if d.funct3.getLsbD 2 then u else op.run env u, .store, storeAddr⟩

/-- The test of SC behind its walk. -/
def scWalkSite : MemSite δ :=
  let op := .walk (s.hs.regs d.rs1) true
  ⟨s, some op, op.run env s, .store, s.hs.regs d.rs1⟩

/-- The test of SC behind its store, from the state after the walk. -/
def scStoreSite (storeAddr : BitVec 64) : MemSite δ :=
  let op := .store (amoWidth d) storeAddr (s.hs.regs d.rs2)
  ⟨s.setMemStatus true, some op, op.run env (s.setMemStatus true), .store, storeAddr⟩

/-- The tests of SC, which stores if the reservation matches. -/
def scSites : List (MemSite δ) :=
  let x := scWalkSite env d s
  if x.test = none ∧ x.after.bus.reservations x.after.hs.hartid =
      (pageTableWalk env s (s.hs.regs d.rs1) true).1 then
    [x, scStoreSite env d x.after (s.hs.regs d.rs1)]
  else [x]

/-- The test of LR behind its load. -/
def lrSite : MemSite δ :=
  let op := .walk (s.hs.regs d.rs1) false
  let t := op.run env (s.setMemStatus true)
  ⟨s.setMemStatus true, some op, t, .store, t.hs.regs d.rs1⟩

/-- The test of an AMO behind its write. -/
def amoWriteSite (funct5 : BitVec 5) (opAddr src usrc : BitVec 64) : MemSite δ :=
  let old := s.hs.regs d.rd
  let op := .store (amoWidth d) opAddr
    (amoValue funct5 (amoSigned d old) src (amoUnsigned d old) usrc)
  ⟨s.setMemStatus false, some op, op.run env (s.setMemStatus false), .store, opAddr⟩

/-- The test of LR and the AMOs behind their load. -/
def amoLoadSite : MemSite δ :=
  let opAddr := s.hs.regs d.rs1
  let r := virtMemFetch env (amoWidth d) (s.setMemStatus true) opAddr
  ⟨s.setMemStatus true, some (.fetch (amoWidth d) opAddr), r.2.setReg d.rd r.1, .store, opAddr⟩

/-- The tests of LR and the AMOs: of the load, then of the walk or the write. -/
def amoSites : List (MemSite δ) :=
  let x := amoLoadSite env d s
  let u := x.after.setReg d.rd (amoSigned d (x.after.hs.regs d.rd))
  let y := if d.funct7.extractLsb' 2 5 = 0b00010 then lrSite env d u
    else amoWriteSite env d u (d.funct7.extractLsb' 2 5) (s.hs.regs d.rs1)
      (amoSigned d (s.hs.regs d.rs2)) (amoUnsigned d (s.hs.regs d.rs2))
  if x.test = none then [x, y] else [x]

/-- The tests of an instruction. -/
def memSites : List (MemSite δ) :=
  match d.opFun with
  | .load => [loadSite env d s]
  | .store => [storeSite env d s]
  | .amo => if d.funct7.extractLsb' 2 5 = 0b00011 then scSites env d s else amoSites env d s
  | _ => []

/-- The tests of `decode_exc`. -/
def instSites : List (MemSite δ) :=
  if s.hs.instLen = 16 then
    match decode16 s.hs.inst with
    | none => []
    | some d => memSites env d (s.withInst d.inst s.hs.instLen)
  else if s.hs.instLen = 32 then
    memSites env (decode32 s.hs.inst) (s.withInst (decode32 s.hs.inst).inst s.hs.instLen)
  else []

/-- The tests of `cycle`. -/
def cycleSites : List (MemSite δ) :=
  let r := fetch env (s.setReg 0 0)
  fetchSites env (s.setReg 0 0) ++
    if env.sigMode ∧ r.2.hs.inst = 0xbad33013 ∨ r.1 ≠ .noexc then [] else instSites env r.2

end Sites

/-! ## What a test decides -/

section Tests

variable {env : Env δ} {x : MemSite δ}

/-- A memory fault is no interrupt. -/
theorem cause_interrupt (k : Access) (f : Fault) : (k.cause f).interrupt = false := by
  cases k <;> cases f <;> rfl

/-- It is one of the six memory faults. -/
theorem cause_memFault (k : Access) (f : Fault) : (k.cause f).memFault = true := by
  cases k <;> cases f <;> rfl

/-- Each access and fault has a cause of its own. -/
theorem cause_inj {k k' : Access} {f f' : Fault} (h : k.cause f = k'.cause f') :
    k = k' ∧ f = f' := by
  cases k <;> cases f <;> cases k' <;> cases f' <;> first | exact ⟨rfl, rfl⟩ | cases h

/-- Where the access reports nothing, `HANDLE_MEM_ERROR` lets the instruction go on, … -/
theorem MemSite.Sound.test_none (h : x.Sound env) (hnone : x.report env = none) :
    x.test = none := by
  have hflags := h.reported
  rw [hnone] at hflags
  obtain ⟨hm, hpf⟩ := Prod.mk.inj hflags
  unfold MemSite.test handleMemError
  rw [hm, hpf]
  rfl

/-- … and where it reports a fault, it raises the cause of that fault. -/
theorem MemSite.Sound.test_some (h : x.Sound env) {f : Fault} (hf : x.report env = some f) :
    ∃ r, x.test = some r ∧ r.1 = x.kind.cause f := by
  have hflags := h.reported
  rw [hf] at hflags
  unfold MemSite.test handleMemError
  cases f with
  | access =>
    rw [(Prod.mk.inj hflags).1]
    exact ⟨_, rfl, createException_fst _ _ (cause_interrupt x.kind .access)⟩
  | page =>
    obtain ⟨hm, hpf⟩ := Prod.mk.inj hflags
    rw [hm, hpf]
    exact ⟨_, rfl, createException_fst _ _ (cause_interrupt x.kind .page)⟩

/-- Both flags are clear behind a test that passes. -/
theorem MemSite.flags_of_test_none (h : x.test = none) : x.after.hs.flags = (false, false) := by
  obtain ⟨hm, hpf⟩ := handleMemError_none h
  exact Prod.ext hm hpf

/-- The operation itself, with nothing after it that touches the flags. -/
theorem soundSite {before after : Sys δ} {op : MemOp} {kind : Access} {tval : BitVec 64}
    (hclear : before.hs.pageFault = false)
    (hafter : after.hs.flags = (op.run env before).hs.flags) :
    MemSite.Sound env ⟨before, some op, after, kind, tval⟩ :=
  ⟨hclear, hafter.trans (op.run_flags env hclear)⟩

/-- Without an operation the flags have to be clear. -/
theorem soundSite_none {before after : Sys δ} {kind : Access} {tval : BitVec 64}
    (hclear : before.hs.pageFault = false) (hafter : after.hs.flags = (false, false)) :
    MemSite.Sound env ⟨before, none, after, kind, tval⟩ := ⟨hclear, hafter⟩

end Tests

/-- The execute stage traps by the last of its tests, or passes all of them. -/
inductive SitesEnd (sites : List (MemSite δ)) : Flow × Sys δ → Prop
  | raised (earlier : List (MemSite δ)) (x : MemSite δ) (hsites : sites = earlier ++ [x])
    (hearlier : ∀ y ∈ earlier, y.test = none) (r : HartException × Sys δ) (hx : x.test = some r) :
    SitesEnd sites (trap r)
  | passed (h : ∀ y ∈ sites, y.test = none) (s : Sys δ) (hs : s.hs.pageFault = false) :
    SitesEnd sites (.brk false, s)

/-- So it raises a fault just when the operation of a test reports it. -/
theorem SitesEnd.raises_iff {env : Env δ} {sites : List (MemSite δ)} {r : Flow × Sys δ}
    (h : SitesEnd sites r) (hsound : ∀ x ∈ sites, x.Sound env) (k : Access) (f : Fault) :
    r.1 = .ret (k.cause f) ↔ ∃ x ∈ sites, x.kind = k ∧ x.report env = some f := by
  -- a test that passes has nothing to report
  have htest : ∀ x ∈ sites, x.test = none → x.report env ≠ some f := by
    intro x hx hnone hf
    obtain ⟨r, hr, -⟩ := (hsound x hx).test_some hf
    rw [hnone] at hr
    cases hr
  cases h with
  | raised earlier x hsites hearlier r hx =>
    subst hsites
    have hlast : x ∈ earlier ++ [x] := List.mem_append_right _ List.mem_cons_self
    -- only the last test traps, so a report of `f` is the one it has trapped for
    constructor
    · intro hret
      cases hf : x.report env with
      | none =>
        rw [(hsound x hlast).test_none hf] at hx
        cases hx
      | some f' =>
        obtain ⟨r', hr', hcause⟩ := (hsound x hlast).test_some hf
        obtain rfl := Option.some.inj (hx.symm.trans hr')
        obtain ⟨hk, rfl⟩ := cause_inj (hcause.symm.trans (Flow.ret.inj hret))
        exact ⟨x, hlast, hk, hf⟩
    · rintro ⟨y, hy, rfl, hf⟩
      rcases List.mem_append.mp hy with hy | hy
      · exact absurd hf (htest y (List.mem_append_left _ hy) (hearlier y hy))
      · obtain rfl := List.mem_singleton.mp hy
        obtain ⟨r', hr', hcause⟩ := (hsound y hlast).test_some hf
        obtain rfl := Option.some.inj (hx.symm.trans hr')
        exact congrArg Flow.ret hcause
  | passed hpass =>
    constructor
    · exact fun hret => Flow.noConfusion hret
    · rintro ⟨x, hx, -, hf⟩
      exact absurd hf (htest x hx (hpass x hx))

/-! ## Loads, stores and AMOs -/

section Execute

variable (env : Env δ) (d : Decoded) {s : Sys δ}

/-- The access of a LOAD, … -/
theorem loadSite_sound (h : s.hs.pageFault = false) : (loadSite env d s).Sound env :=
  soundSite h rfl

/-- … of a STORE, … -/
theorem storeSite_sound (h : s.hs.pageFault = false) : (storeSite env d s).Sound env := by
  unfold storeSite
  dsimp only
  split
  · exact soundSite_none h (Prod.ext rfl h)
  · exact soundSite h rfl

/-- … the walk of an SC, … -/
theorem scWalkSite_sound (h : s.hs.pageFault = false) : (scWalkSite env d s).Sound env :=
  soundSite h rfl

/-- … its store, … -/
theorem scStoreSite_sound (h : s.hs.pageFault = false) (storeAddr : BitVec 64) :
    (scStoreSite env d s storeAddr).Sound env := soundSite h rfl

/-- … the first access of an LR or AMO, … -/
theorem amoLoadSite_sound (h : s.hs.pageFault = false) : (amoLoadSite env d s).Sound env :=
  soundSite h rfl

/-- … the walk of an LR, … -/
theorem lrSite_sound (h : s.hs.pageFault = false) : (lrSite env d s).Sound env := soundSite h rfl

/-- … and the store of an AMO. -/
theorem amoWriteSite_sound (h : s.hs.pageFault = false) (funct5 : BitVec 5)
    (opAddr src usrc : BitVec 64) : (amoWriteSite env d s funct5 opAddr src usrc).Sound env :=
  soundSite h rfl

/-- The second test of an instruction is made where the first one has passed. -/
theorem pageFault_of_passed {x : MemSite δ} (h : x.test = none) : x.after.hs.pageFault = false :=
  (handleMemError_none h).2

/-- The accesses of an SC, … -/
theorem scSites_sound (h : s.hs.pageFault = false) : ∀ x ∈ scSites env d s, x.Sound env := by
  have hfirst := scWalkSite_sound env d h
  unfold scSites
  dsimp only
  split
  · next hpass =>
    have hsecond := scStoreSite_sound env d (pageFault_of_passed hpass.1) (s.hs.regs d.rs1)
    exact List.forall_mem_cons.mpr ⟨hfirst, List.forall_mem_singleton.mpr hsecond⟩
  · exact List.forall_mem_singleton.mpr hfirst

/-- … of an LR or AMO, … -/
theorem amoSites_sound (h : s.hs.pageFault = false) : ∀ x ∈ amoSites env d s, x.Sound env := by
  have hfirst := amoLoadSite_sound env d h
  unfold amoSites
  extract_lets x u y
  -- the walk of LR and the write of an AMO start from the flags that the load has left
  have hsecond (hpass : x.test = none) : y.Sound env := by
    have hclear : u.hs.pageFault = false := pageFault_of_passed hpass
    show MemSite.Sound env (if d.funct7.extractLsb' 2 5 = 0b00010 then lrSite env d u else _)
    split
    · exact lrSite_sound env d hclear
    · exact amoWriteSite_sound env d hclear _ _ _ _
  split
  · next hpass =>
    exact List.forall_mem_cons.mpr ⟨hfirst, List.forall_mem_singleton.mpr (hsecond hpass)⟩
  · exact List.forall_mem_singleton.mpr hfirst

/-- … and of any instruction. -/
theorem memSites_sound (h : s.hs.pageFault = false) : ∀ x ∈ memSites env d s, x.Sound env := by
  unfold memSites
  split
  · exact List.forall_mem_singleton.mpr (loadSite_sound env d h)
  · exact List.forall_mem_singleton.mpr (storeSite_sound env d h)
  · split
    · exact scSites_sound env d h
    · exact amoSites_sound env d h
  · exact fun x hx => absurd hx List.not_mem_nil

/-- An instruction traps by a test, … -/
theorem sitesEnd_trap {x : MemSite δ} {t : HartException × Sys δ} (ht : x.test = some t) :
    SitesEnd [x] (trap t) :=
  .raised [] x rfl (fun _ hy => absurd hy List.not_mem_nil) t ht

/-- … passes it as the last one, … -/
theorem sitesEnd_brk {x : MemSite δ} (hx : x.test = none) (t : Sys δ)
    (ht : t.hs.pageFault = x.after.hs.pageFault) : SitesEnd [x] (.brk false, t) :=
  .passed (List.forall_mem_singleton.mpr hx) t (ht.trans (pageFault_of_passed hx))

/-- … or goes on behind it. -/
theorem SitesEnd.cons {sites : List (MemSite δ)} {r : Flow × Sys δ} (h : SitesEnd sites r)
    {x : MemSite δ} (hx : x.test = none) : SitesEnd (x :: sites) r := by
  cases h with
  | raised earlier y hsites hearlier r hy =>
    subst hsites
    exact .raised (x :: earlier) y rfl (List.forall_mem_cons.mpr ⟨hx, hearlier⟩) r hy
  | passed hpass t ht => exact .passed (List.forall_mem_cons.mpr ⟨hx, hpass⟩) t ht

variable (s)

/-- A LOAD ends as its access says, … -/
theorem execLoad_sites : SitesEnd [loadSite env d s] (execLoad env d s) := by
  unfold execLoad
  dsimp only
  split
  · next t ht => exact sitesEnd_trap (x := loadSite env d s) ht
  · next hnone => exact sitesEnd_brk (x := loadSite env d s) hnone _ rfl

/-- … and a STORE, … -/
theorem execStore_sites : SitesEnd [storeSite env d s] (execStore env d s) := by
  unfold execStore
  dsimp only
  split
  · next t ht => exact sitesEnd_trap (x := storeSite env d s) ht
  · next hnone => exact sitesEnd_brk (x := storeSite env d s) hnone _ rfl

/-- … an SC, behind its walk, … -/
theorem execSc_sites : SitesEnd (scSites env d s) (execSc env d s) := by
  let x := scWalkSite env d s
  let y := scStoreSite env d x.after (s.hs.regs d.rs1)
  unfold execSc
  dsimp only
  split
  · next t ht =>
    have hfail : x.test = some t := ht
    have hsites : scSites env d s = [x] := if_neg fun h => by
      rw [hfail] at h
      cases h.1
    rw [hsites]
    exact sitesEnd_trap hfail
  · next hnone =>
    have hpass : x.test = none := hnone
    -- the walk is tested before the reservation is compared
    split
    · next hmatch =>
      have hsites : scSites env d s = [x, y] := if_pos ⟨hpass, hmatch⟩
      rw [hsites]
      refine SitesEnd.cons ?_ hpass
      split
      · next t ht => exact sitesEnd_trap (x := y) ht
      · next hnone => exact sitesEnd_brk (x := y) hnone _ rfl
    · next hother =>
      have hsites : scSites env d s = [x] := if_neg fun h => hother h.2
      rw [hsites]
      exact sitesEnd_brk hpass _ rfl

/-- … the second half of an LR, … -/
theorem execLrReserve_sites : SitesEnd [lrSite env d s] (execLrReserve env d s) := by
  unfold execLrReserve
  dsimp only
  split
  · next t ht => exact sitesEnd_trap (x := lrSite env d s) ht
  · next hnone => exact sitesEnd_brk (x := lrSite env d s) hnone _ rfl

/-- … that of an AMO, … -/
theorem execAmoWrite_sites (funct5 : BitVec 5) (opAddr src usrc : BitVec 64) :
    SitesEnd [amoWriteSite env d s funct5 opAddr src usrc]
      (execAmoWrite env d funct5 opAddr src usrc s) := by
  unfold execAmoWrite
  dsimp only
  split
  · next t ht => exact sitesEnd_trap (x := amoWriteSite env d s funct5 opAddr src usrc) ht
  · next hnone => exact sitesEnd_brk (x := amoWriteSite env d s funct5 opAddr src usrc) hnone _ rfl

/-- … and both of them as a whole. -/
theorem execAmo_sites (hsc : d.funct7.extractLsb' 2 5 ≠ 0b00011) :
    SitesEnd (amoSites env d s) (execAmo env d s) := by
  let x := amoLoadSite env d s
  unfold execAmo
  dsimp only
  rw [if_neg hsc]
  split
  · next t ht =>
    have hfail : x.test = some t := ht
    have hsites : amoSites env d s = [x] := if_neg (hfail ▸ Option.some_ne_none t)
    rw [hsites]
    exact sitesEnd_trap hfail
  · next hnone =>
    have hpass : x.test = none := hnone
    have hsites : amoSites env d s = x :: _ := if_pos hpass
    rw [hsites]
    refine SitesEnd.cons ?_ hpass
    split
    · exact execLrReserve_sites env d _
    · exact execAmoWrite_sites env d _ _ _ _ _

/-- The instructions that access memory end by their tests. -/
theorem execute_ends (hop : d.opFun = .load ∨ d.opFun = .store ∨ d.opFun = .amo) :
    SitesEnd (memSites env d s) (execute env d s) := by
  unfold memSites
  rcases hop with hop | hop | hop
  · rw [execute_load env hop, hop]
    exact execLoad_sites env d s
  · rw [execute_store env hop, hop]
    exact execStore_sites env d s
  · rw [execute_amo env hop, hop]
    by_cases hsc : d.funct7.extractLsb' 2 5 = 0b00011
    · dsimp only
      rw [if_pos hsc, execAmo, if_pos hsc]
      exact execSc_sites env d s
    · dsimp only
      rw [if_neg hsc]
      exact execAmo_sites env d s hsc

end Execute

/-! ## The other instructions -/

/-- Neither the flags are touched nor a fault is raised. -/
structure NoFault (s : Sys δ) (r : Flow × Sys δ) : Prop where
  flags : r.2.hs.flags = s.hs.flags
  raises : ∀ he, r.1 = .ret he → he.memFault = false

section NoFault

variable {s t : Sys δ}

/-- A trap leaves the flags to the next access. -/
theorem createException_flags (hs : HartState) (he : HartException) (tval : BitVec 64) :
    (createException hs he tval).2.flags = hs.flags := by
  rcases createException_cases hs he tval with h | ⟨-, -, h⟩ | ⟨-, h⟩ <;> rw [h] <;> rfl

/-- A trap with another cause. -/
theorem noFault_trap {he : HartException} (hkind : he.memFault = false)
    (hexc : he.interrupt = false) (ht : t.hs.flags = s.hs.flags) (tval : BitVec 64) :
    NoFault s (trap (t.createException he tval)) where
  flags := (createException_flags t.hs he tval).trans ht
  raises := by
    intro he' hret
    rw [← Flow.ret.inj hret, createException_fst t tval hexc]
    exact hkind

/-- An instruction that completes. -/
theorem noFault_brk {pcChgd : Bool} (ht : t.hs.flags = s.hs.flags) : NoFault s (.brk pcChgd, t) :=
  ⟨ht, fun _ hret => Flow.noConfusion hret⟩

/-- An illegal instruction, … -/
theorem illinst_noFault (ht : t.hs.flags = s.hs.flags) : NoFault s (illinst t) :=
  noFault_trap rfl rfl ht _

/-- … a jump, … -/
theorem jumped_noFault (ht : t.hs.flags = s.hs.flags) : NoFault s (jumped t) := by
  unfold jumped
  split
  · exact noFault_trap rfl rfl ht _
  · exact noFault_brk ht

/-- … and a result for `rd`. -/
theorem writeback_noFault (d : Decoded) (v : Option (BitVec 64)) : NoFault s (writeback d s v) := by
  cases v <;> exact noFault_brk rfl

/-- The flags are among what a CSR instruction leaves alone. -/
theorem flags_of_offCsr {hs hs' : HartState} (h : hs'.offCsr = hs.offCsr) : hs'.flags = hs.flags :=
  congrArg (·.2.2.1.2) h

/-- Reading a CSR. -/
theorem CsrReads.noFault {r : Flow × Sys δ} (h : CsrReads s r) : NoFault s r := by
  cases h with
  | trap t he tval ht hexc =>
    obtain ⟨rfl, hread⟩ := ht
    exact noFault_trap rfl hexc (flags_of_offCsr (Prod.mk.inj hread.offCsr).1) tval
  | brk b t ht => exact noFault_brk (flags_of_offCsr (Prod.mk.inj ht.offCsr).1)

/-- A CSR instruction. -/
theorem execCsr_noFault (env : Env δ) (d : Decoded) : NoFault s (execCsr env d s) := by
  rcases execCsr_ends env d s with h | ⟨-, -, h⟩ | ⟨-, h⟩
  · exact h.noFault
  · rw [h]
    unfold pmpcfgRw
    split
    · exact illinst_noFault rfl
    · exact ⟨rfl, fun he hret => by rw [← Flow.ret.inj hret]; rfl⟩
  · rw [h]
    rcases execCsrPtr_ends d s d.csrno (d.csrOperand s.hs) with h | ⟨t, hs, ht, h, hhs⟩
    · exact h.noFault
    · have hset : hs.flags = t.hs.flags := by
        rcases hhs with rfl | ⟨ptr, v, rfl, -⟩
        · rfl
        · exact flags_of_offCsr (CsrPtr.set_offCsr t.hs v ptr)
      rw [h]
      refine noFault_brk ((flags_of_offCsr (csrMirror_offCsr hs _ _ _)).trans (hset.trans ?_))
      exact flags_of_offCsr (Prod.mk.inj ht.offCsr).1

/-- A `SYSTEM` instruction. -/
theorem execSystem_noFault (env : Env δ) (d : Decoded) : NoFault s (execSystem env d s) := by
  rcases execSystem_ends env d s with h | ⟨-, -, h⟩ | ⟨-, -, -, h⟩ | ⟨-, h⟩
  · generalize execSystem env d s = r at h
    cases h with
    | trap t he tval ht hexc =>
      obtain ⟨hkind, rfl⟩ := ht
      refine noFault_trap ?_ hexc rfl tval
      rcases hkind with rfl | rfl | rfl
      · generalize t.hs.privmode = p
        revert p
        decide
      · rfl
      · rfl
    | brk b t ht =>
      rcases ht.2 with rfl | rfl
      · exact noFault_brk rfl
      · exact noFault_brk rfl
  · rw [h]
    exact noFault_brk rfl
  · rw [h]
    exact noFault_brk rfl
  · rw [h]
    exact execCsr_noFault env d

/-- An instruction that does not access memory. -/
theorem execute_noFault (env : Env δ) (d : Decoded) (s : Sys δ)
    (hop : ¬ (d.opFun = .load ∨ d.opFun = .store ∨ d.opFun = .amo)) :
    NoFault s (execute env d s) := by
  unfold execute
  split
  case h_7 => exact jumped_noFault rfl
  case h_8 => exact jumped_noFault rfl
  case h_9 =>
    unfold execBranch
    split
    · exact jumped_noFault rfl
    · exact noFault_brk rfl
  case h_10 h => exact absurd (.inl h) hop
  case h_11 h => exact absurd (.inr (.inl h)) hop
  case h_12 =>
    refine noFault_brk ?_
    split <;> rfl
  case h_13 => exact execSystem_noFault env d
  case h_14 h => exact absurd (.inr (.inr h)) hop
  case h_15 => exact noFault_brk rfl
  all_goals exact writeback_noFault d _

end NoFault

/-! ## Instructions and fetches -/

section Cycle

variable {env : Env δ} {s : Sys δ}

/-- A test that traps clears the flag it has found. -/
theorem MemSite.Sound.pageFault_of_test_some {x : MemSite δ} (hx : x.Sound env)
    {r : HartException × Sys δ} (h : x.test = some r) : r.2.hs.pageFault = false := by
  unfold MemSite.test handleMemError at h
  have hflags := hx.reported
  split at h
  · next hm =>
    obtain rfl := Option.some.inj h
    -- with `mem_status` set the fault is an access fault
    have hpf : x.after.hs.pageFault = false := by
      cases hf : x.report env with
      | none =>
        rw [hf] at hflags
        rw [(Prod.mk.inj hflags).1] at hm
        cases hm
      | some f =>
        rw [hf] at hflags
        cases f with
        | access => exact (Prod.mk.inj hflags).2
        | page =>
          rw [(Prod.mk.inj hflags).1] at hm
          cases hm
    exact (congrArg Prod.snd (createException_flags _ _ _)).trans hpf
  · split at h
    · obtain rfl := Option.some.inj h
      exact congrArg Prod.snd (createException_flags _ _ _)
    · cases h

/-- Whatever an access has reported, its flag is clear at the end. -/
theorem SitesEnd.clear {sites : List (MemSite δ)} {r : Flow × Sys δ} (h : SitesEnd sites r)
    (hsound : ∀ x ∈ sites, x.Sound env) : r.2.hs.pageFault = false := by
  cases h with
  | raised earlier x hsites _ r hx =>
    subst hsites
    exact (hsound x (List.mem_append_right _ List.mem_cons_self)).pageFault_of_test_some hx
  | passed _ _ ht => exact ht

/-- An instruction leaves `page_fault` clear, … -/
theorem execute_clear (d : Decoded) (h : s.hs.pageFault = false) :
    (execute env d s).2.hs.pageFault = false := by
  by_cases hop : d.opFun = .load ∨ d.opFun = .store ∨ d.opFun = .amo
  · exact (execute_ends env d s hop).clear (memSites_sound env d h)
  · exact (congrArg Prod.snd (execute_noFault env d s hop).flags).trans h

/-- … and raises just the faults of its operations. -/
theorem execute_raises_iff (d : Decoded) (h : s.hs.pageFault = false) (k : Access) (f : Fault) :
    (execute env d s).1 = .ret (k.cause f) ↔
      ∃ x ∈ memSites env d s, x.kind = k ∧ x.report env = some f := by
  by_cases hop : d.opFun = .load ∨ d.opFun = .store ∨ d.opFun = .amo
  · exact (execute_ends env d s hop).raises_iff (memSites_sound env d h) k f
  · have hsites : memSites env d s = [] := by
      unfold memSites
      split
      · next hload => exact absurd (.inl hload) hop
      · next hstore => exact absurd (.inr (.inl hstore)) hop
      · next hamo => exact absurd (.inr (.inr hamo)) hop
      · rfl
    rw [hsites]
    refine iff_of_false (fun hret => ?_) fun ⟨x, hx, _⟩ => List.not_mem_nil hx
    have hkind := (execute_noFault env d s hop).raises _ hret
    rw [cause_memFault] at hkind
    cases hkind

/-- The end of `decode_exc` passes a fault on. -/
theorem finish_fst_iff (r : Flow × Sys δ) (k : Access) (f : Fault) :
    (finish r).1 = k.cause f ↔ r.1 = .ret (k.cause f) := by
  obtain ⟨flow, t⟩ := r
  cases flow with
  | ret he => exact ⟨congrArg Flow.ret, Flow.ret.inj⟩
  | brk pcChgd =>
    refine iff_of_false (fun h => ?_) Flow.noConfusion
    have hkind := congrArg HartException.memFault h
    rw [cause_memFault] at hkind
    cases hkind

/-- It does not touch the flags. -/
theorem finish_flags (r : Flow × Sys δ) : (finish r).2.hs.flags = r.2.hs.flags :=
  finish_proj HartState.flags (fun _ _ _ _ => rfl) r

/-- An illegal instruction is no memory fault. -/
theorem illinst_ne_cause (t : Sys δ) (tval : BitVec 64) (k : Access) (f : Fault) :
    (t.createException .illinst tval).1 ≠ k.cause f := by
  intro h
  rw [createException_fst t tval rfl] at h
  have hkind := congrArg HartException.memFault h
  rw [cause_memFault] at hkind
  cases hkind

/-- `decode_exc` makes no test, or those of the instruction it decodes. -/
theorem decodeExc_sites (env : Env δ) (s : Sys δ) :
    (∃ t : Sys δ, ∃ tval, t.hs.flags = s.hs.flags ∧
      decodeExc env s = t.createException .illinst tval ∧
      instSites env s = []) ∨
    ∃ d, decodeExc env s = finish (execute env d (s.withInst d.inst s.hs.instLen)) ∧
      instSites env s = memSites env d (s.withInst d.inst s.hs.instLen) := by
  unfold decodeExc instSites
  split
  · cases decode16 s.hs.inst with
    | none => exact .inl ⟨s, _, rfl, rfl, rfl⟩
    | some d => exact .inr ⟨d, rfl, rfl⟩
  · split
    · exact .inr ⟨decode32 s.hs.inst, rfl, rfl⟩
    · exact .inl ⟨s.setHs { s.hs with instLen := 0 }, _, rfl, rfl, rfl⟩

/-- `decode_exc` leaves no page fault behind. -/
theorem decodeExc_clear (h : s.hs.pageFault = false) :
    (decodeExc env s).2.hs.pageFault = false := by
  rcases decodeExc_sites env s with ⟨t, tval, ht, hexc, -⟩ | ⟨d, hexc, -⟩ <;> rw [hexc]
  · exact (congrArg Prod.snd ((createException_flags t.hs .illinst tval).trans ht)).trans h
  · have hd : (s.withInst d.inst s.hs.instLen).hs.pageFault = false := h
    exact (congrArg Prod.snd (finish_flags _)).trans (execute_clear d hd)

/-- The accesses of the instruction that is executed. -/
theorem instSites_sound (h : s.hs.pageFault = false) : ∀ x ∈ instSites env s, x.Sound env := by
  rcases decodeExc_sites env s with ⟨-, -, -, -, hsites⟩ | ⟨d, -, hsites⟩ <;> rw [hsites]
  · exact fun x hx => absurd hx List.not_mem_nil
  · have hd : (s.withInst d.inst s.hs.instLen).hs.pageFault = false := h
    exact memSites_sound env d hd

/-- An instruction raises a memory fault if and only if one of its accesses reports it. -/
theorem decodeExc_raises_iff (h : s.hs.pageFault = false) (k : Access) (f : Fault) :
    (decodeExc env s).1 = k.cause f ↔
      ∃ x ∈ instSites env s, x.kind = k ∧ x.report env = some f := by
  rcases decodeExc_sites env s with ⟨t, tval, -, hexc, hsites⟩ | ⟨d, hexc, hsites⟩ <;>
    rw [hexc, hsites]
  · exact iff_of_false (illinst_ne_cause t tval k f) fun ⟨x, hx, _⟩ => List.not_mem_nil hx
  · have hd : (s.withInst d.inst s.hs.instLen).hs.pageFault = false := h
    exact (finish_fst_iff _ k f).trans (execute_raises_iff d hd k f)

/-- The length test does not touch the flags. -/
theorem fetchLength_flags (t : Sys δ) : (fetchLength t).2.hs.flags = t.hs.flags := by
  rcases fetchLength_cases t with ⟨he, tval, -, h⟩ | ⟨len, instbuf, inst, h⟩ <;> rw [h]
  · exact createException_flags _ he tval
  · rfl

/-- A fetch without a fault goes on to the length test, … -/
theorem fetch_of_test_none (h : (fetchSite env s).test = none) :
    fetch env s = fetchLength (fetchInst env s) := by
  have hpass : handleMemError .iafault .ipfault (fetchInst env s).hs.pc (fetchInst env s) =
    none := h
  simp only [fetch, hpass]

/-- … and with one it ends there. -/
theorem fetch_of_test_some {r : HartException × Sys δ} (h : (fetchSite env s).test = some r) :
    fetch env s = r := by
  have hraised : handleMemError .iafault .ipfault (fetchInst env s).hs.pc (fetchInst env s) =
    some r := h
  simp only [fetch, hraised]

/-- The access of a fetch, … -/
theorem fetchSite_sound (h : s.hs.pageFault = false) : (fetchSite env s).Sound env := by
  unfold fetchSite fetchInst
  dsimp only
  split
  · next hbuf =>
    have hop : (s.setMemStatus false).hs.instbuf = 0 := hbuf
    rw [if_pos hop]
    exact soundSite h rfl
  · next hbuf =>
    have hop : ¬ (s.setMemStatus false).hs.instbuf = 0 := hbuf
    rw [if_neg hop]
    exact soundSite_none h (Prod.ext rfl h)

/-- … which a buffered instruction does not make. -/
theorem fetchSites_sound (h : s.hs.pageFault = false) : ∀ x ∈ fetchSites env s, x.Sound env := by
  have hfirst : (fetchSite env s).Sound env := fetchSite_sound h
  unfold fetchSites
  dsimp only
  split
  · next hpass =>
    have hflags := (fetchLength_flags (fetchInst env s)).trans (MemSite.flags_of_test_none hpass.1)
    let t := (fetchLength (fetchInst env s)).2
    have hsecond : MemSite.Sound env ⟨t, none, t, .fetch, t.hs.pc⟩ :=
      soundSite_none (congrArg Prod.snd hflags) hflags
    exact List.forall_mem_cons.mpr ⟨hfirst, List.forall_mem_singleton.mpr hsecond⟩
  · exact List.forall_mem_singleton.mpr hfirst

/-- Only the first test can have a fault to report. -/
theorem fetchSites_report_iff (env : Env δ) (s : Sys δ) (k : Access) (f : Fault) :
    (∃ x ∈ fetchSites env s, x.kind = k ∧ x.report env = some f) ↔
      k = .fetch ∧ (fetchSite env s).report env = some f := by
  unfold fetchSites
  dsimp only
  constructor
  · rintro ⟨y, hy, rfl, hf⟩
    split at hy
    · rcases List.mem_cons.mp hy with rfl | hy
      · exact ⟨rfl, hf⟩
      · rw [List.mem_singleton.mp hy] at hf
        cases hf
    · rw [List.mem_singleton.mp hy] at hf ⊢
      exact ⟨rfl, hf⟩
  · rintro ⟨rfl, hf⟩
    refine ⟨fetchSite env s, ?_, rfl, hf⟩
    split <;> exact List.mem_cons_self

/-- A fetch raises a memory fault if and only if its access reports it. -/
theorem fetch_raises_iff (h : s.hs.pageFault = false) (k : Access) (f : Fault) :
    (fetch env s).1 = k.cause f ↔ ∃ x ∈ fetchSites env s, x.kind = k ∧ x.report env = some f := by
  have hsound : (fetchSite env s).Sound env := fetchSite_sound h
  rw [fetchSites_report_iff]
  cases hf : (fetchSite env s).report env with
  | none =>
    rw [fetch_of_test_none (hsound.test_none hf)]
    refine iff_of_false (fun hexc => ?_) fun ⟨_, hsome⟩ => Option.some_ne_none f hsome.symm
    have hkind := congrArg HartException.memFault hexc
    rw [cause_memFault, fetchLength_fst] at hkind
    cases hkind
  | some f' =>
    obtain ⟨r, hr, hcause⟩ := hsound.test_some hf
    rw [fetch_of_test_some hr, hcause]
    constructor
    · intro hexc
      obtain ⟨hk, rfl⟩ := cause_inj hexc
      exact ⟨hk.symm, rfl⟩
    · rintro ⟨rfl, hsome⟩
      rw [Option.some.inj hsome]
      rfl

/-- A fetch leaves no page fault behind, … -/
theorem fetch_clear (h : s.hs.pageFault = false) : (fetch env s).2.hs.pageFault = false := by
  have hsound : (fetchSite env s).Sound env := fetchSite_sound h
  cases ht : (fetchSite env s).test with
  | none =>
    rw [fetch_of_test_none ht]
    exact (congrArg Prod.snd (fetchLength_flags _)).trans (pageFault_of_passed ht)
  | some t =>
    rw [fetch_of_test_some ht]
    exact hsound.pageFault_of_test_some ht

/-- … the end of a cycle sets none, … -/
theorem cycleEnd_clear (h : s.hs.pageFault = false) : (cycleEnd s).hs.pageFault = false :=
  cycleEnd_preserves (P := fun hs => hs.pageFault = false)
    (fun hs he tval hs' => (congrArg Prod.snd (createException_flags hs he tval)).trans hs') h id

/-- … and so a cycle leaves none. -/
theorem cycle_clear (h : s.hs.pageFault = false) : (cycle env s).2.hs.pageFault = false := by
  have hreg : (s.setReg 0 0).hs.pageFault = false := h
  have hfetch : (fetch env (s.setReg 0 0)).2.hs.pageFault = false := fetch_clear hreg
  rcases cycle_cases env s with hc | ⟨-, hc⟩ | ⟨-, hc⟩ <;> rw [hc]
  · exact hfetch
  · exact cycleEnd_clear (decodeExc_clear hfetch)
  · exact cycleEnd_clear hfetch

/-- All accesses of a cycle. -/
theorem cycleSites_sound (h : s.hs.pageFault = false) : ∀ x ∈ cycleSites env s, x.Sound env := by
  have hreg : (s.setReg 0 0).hs.pageFault = false := h
  unfold cycleSites
  intro x hx
  rcases List.mem_append.mp hx with hx | hx
  · exact fetchSites_sound hreg x hx
  · split at hx
    · cases hx
    · exact instSites_sound (fetch_clear hreg) x hx

/-- `page_fault` is clear between two cycles. -/
theorem Reachable.pageFault (h : Reachable env s) : s.hs.pageFault = false := by
  refine h.invariant (P := fun t => t.hs.pageFault = false) (fun _ _ => rfl) fun s t hstep hs => ?_
  cases hstep with
  | cycle _ => exact cycle_clear hs
  | others _ _ _ => exact hs

/-- Flags that report one operation are not both set. -/
theorem MemSite.Sound.not_both {x : MemSite δ} (h : x.Sound env) :
    ¬ (x.after.hs.memStatus = true ∧ x.after.hs.pageFault = true) := by
  rintro ⟨hm, hpf⟩
  have hflags : (true, true) = Fault.flags (x.report env) :=
    (Prod.ext hm hpf : x.after.hs.flags = (true, true)).symm.trans h.reported
  cases hf : x.report env with
  | none => rw [hf] at hflags; cases hflags
  | some f => rw [hf] at hflags; cases f <;> cases hflags

/-- In every run `page_fault` is clear at the start of a cycle. Each test of the flags finds
    what the operation before it reports, never both set, and a fetch and an instruction
    raise a fault exactly when one of their own operations reports it. -/
theorem no_fault_leaks (h : Reachable env s) :
    s.hs.pageFault = false ∧
    (∀ x ∈ cycleSites env s, x.Sound env ∧
      ¬ (x.after.hs.memStatus = true ∧ x.after.hs.pageFault = true)) ∧
    (∀ k f, (fetch env (s.setReg 0 0)).1 = k.cause f ↔
      ∃ x ∈ fetchSites env (s.setReg 0 0), x.kind = k ∧ x.report env = some f) ∧
    ∀ t, Fetches env s t → ∀ k f, (decodeExc env t).1 = k.cause f ↔
      ∃ x ∈ instSites env t, x.kind = k ∧ x.report env = some f := by
  have hclear := h.pageFault
  refine ⟨hclear, fun x hx => ?_, fetch_raises_iff (s := s.setReg 0 0) hclear, fun t ht => ?_⟩
  · have hsound := cycleSites_sound hclear x hx
    exact ⟨hsound, hsound.not_both⟩
  · have hfetch : t.hs.pageFault = false := by
      have hreg : (fetch env (s.setReg 0 0)).2.hs.pageFault = false := fetch_clear hclear
      rw [ht.1] at hreg
      exact hreg
    exact decodeExc_raises_iff hfetch

/-- A load from the lowest page. -/
theorem no_fault_leaks_load :
    let s := runCycles Env.inert 3 (boot [0x10003283]) -- ld x5, 0x100(x0)
    s.hs.pageFault = false ∧
      ∃ x ∈ instSites Env.inert (fetchedAfter Env.inert 3 (boot [0x10003283])),
        x.kind = .load ∧ x.report Env.inert = some .access :=
  have hclear := no_fault_leaks (reachable_runCycles rfl 0 (programBus [0x10003283]) 3)
  have hf : Fetches Env.inert (runCycles Env.inert 3 (boot [0x10003283]))
      (fetchedAfter Env.inert 3 (boot [0x10003283])) := fetches_fetchedAfter rfl (by decide +kernel)
  ⟨hclear.1, (hclear.2.2.2 _ hf .load .access).mp (by decide +kernel)⟩

end Cycle

end RvEmu
