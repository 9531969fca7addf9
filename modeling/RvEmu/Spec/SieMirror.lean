import RvEmu.Spec.Run
import RvEmu.Spec.CsrAccess

/-!
# The mirror of `mie`

`create_exception` asks `sie` about delegated interrupts. `sie` is a copy of the
supervisor's part of `mie`, which an access to the CSR `sie` brings up to date
and a write to the CSR `mie` does not.
-/

namespace RvEmu

open Isa (CsrOp)

variable {δ : Type}

/-- `sie` is `mie` without the machine-level interrupts. -/
def HartState.SieMirrors (hs : HartState) : Prop := hs.csr.sie = hs.csr.mie &&& ~~~machineInts

instance instDecidableSieMirrors (hs : HartState) : Decidable hs.SieMirrors :=
  inferInstanceAs (Decidable (_ = _))

/-- The interrupt enables, `mie` and `sie`. -/
def HartState.enables (hs : HartState) : BitVec 64 × BitVec 64 := (hs.csr.mie, hs.csr.sie)

/-- The enable bits are settings. -/
theorem enables_of_settings {hs hs' : HartState} (h : hs'.settings = hs.settings) :
    hs'.enables = hs.enables :=
  (congrArg HartState.enables h :)

/-- The value of `mie` after a CSR instruction on it, under either number. -/
def Decoded.mieAfter (d : Decoded) (hs : HartState) : BitVec 64 :=
  if csrWriteNeeded d (d.csrOperand hs) then
    csrWritten (d.funct3.setWidth 2) false hs.csr.mie (d.csrOperand hs)
  else hs.csr.mie

/-- The enables after a CSR instruction: only one on `sie` refreshes the mirror. -/
def Decoded.enablesAfter (d : Decoded) (hs : HartState) : BitVec 64 × BitVec 64 :=
  if d.csrno = 0x304 ∧ hs.privmode = 3 then (d.mieAfter hs, hs.csr.sie)
  else if d.csrno = 0x104 ∧ hs.privmode ≠ 0 then
    (d.mieAfter hs, d.mieAfter hs &&& ~~~machineInts)
  else hs.enables

/-! ## The enables across an instruction -/

/-- An access to the register behind `mie` and `sie`. -/
theorem execCsrPtr_mie (d : Decoded) (wvalue : BitVec 64) (s : Sys δ) {n : BitVec 12}
    (hn : n = 0x304 ∨ n = 0x104) :
    (execCsrPtr d n wvalue s).2.hs.enables =
      let v := if csrWriteNeeded d wvalue then
          csrWritten (d.funct3.setWidth 2) false s.hs.csr.mie wvalue
        else s.hs.csr.mie
      (v, if n = 0x104 then v &&& ~~~machineInts else s.hs.csr.sie) := by
  rcases hn with rfl | rfl <;> by_cases hrd : d.rd ≠ 0 <;> cases hw : csrWriteNeeded d wvalue <;>
    simp only [execCsrPtr, hw, hrd, ne_eq, not_false_eq_true, ↓reduceIte] <;> rfl

/-- The numbers of `mie` and `sie`. -/
theorem csrFromAddr_enables {n : BitVec 12} {ptr : CsrPtr} (h : csrFromAddr n = some ptr) :
    (ptr = .mie → n = 0x304) ∧ (ptr = .sie → n = 0x104) := by
  unfold csrFromAddr at h
  split at h
  case h_24 =>
    split at h
    · obtain rfl := Option.some.inj h
      exact ⟨CsrPtr.noConfusion, CsrPtr.noConfusion⟩
    · cases h
  all_goals
    obtain rfl := Option.some.inj h
    first
      | exact ⟨fun _ => rfl, CsrPtr.noConfusion⟩
      | exact ⟨CsrPtr.noConfusion, fun _ => rfl⟩
      | exact ⟨CsrPtr.noConfusion, CsrPtr.noConfusion⟩

/-- The other numbers stand for other registers. -/
theorem csrAlias_enables (n : BitVec 12) :
    (csrFromAddr (csrAlias n) = some .mie → n = 0x304 ∨ n = 0x104) ∧
      csrFromAddr (csrAlias n) ≠ some .sie := by
  have hmie : csrAlias n = 0x304 → n = 0x304 ∨ n = 0x104 := by
    unfold csrAlias
    split
    · exact fun h => absurd h (by decide)
    · split
      · next hn => exact fun _ => .inr (beq_iff_eq.mp hn)
      · split
        · exact fun h => absurd h (by decide)
        · exact .inl
  have hsie : csrAlias n ≠ 0x104 := by
    unfold csrAlias
    split
    · decide
    · split
      · decide
      · next hn =>
        split
        · decide
        · exact fun h => hn (beq_iff_eq.mpr h)
  exact ⟨fun h => hmie ((csrFromAddr_enables h).1 rfl),
    fun h => hsie ((csrFromAddr_enables h).2 rfl)⟩

/-- Another CSR leaves them alone, … -/
theorem CsrPtr.set_enables {ptr : CsrPtr} (hmie : ptr ≠ .mie) (hsie : ptr ≠ .sie)
    (hs : HartState) (v : BitVec 64) : (ptr.set hs v).enables = hs.enables := by
  cases ptr <;> first | rfl | exact absurd rfl hmie | exact absurd rfl hsie

/-- … and so does mirroring `sstatus`. -/
theorem csrMirror_enables (hs : HartState) (imm : BitVec 12) (sstatus : Bool) :
    (csrMirror hs imm sstatus false).enables = hs.enables := by
  unfold csrMirror
  by_cases himm : imm = 0x300
  · cases sstatus <;> simp only [if_pos himm] <;> rfl
  · cases sstatus <;> simp only [if_neg himm] <;> rfl

/-- An instruction that keeps the control state keeps them, … -/
theorem Outcome.enables {s : Sys δ} {r : Flow × Sys δ} (h : Outcome (SameControl s) r) :
    (finish r).2.hs.enables = s.hs.enables :=
  enables_of_settings h.settings

/-- … and so does the end of `decode_exc`. -/
theorem finish_enables (r : Flow × Sys δ) : (finish r).2.hs.enables = r.2.hs.enables :=
  enables_of_settings (finish_settings r)

/-- A CSR instruction with another number keeps them, … -/
theorem execCsrPtr_other (d : Decoded) (wvalue : BitVec 64) (s : Sys δ) {n : BitVec 12}
    (hmie : n ≠ 0x304) (hsie : n ≠ 0x104) :
    (finish (execCsrPtr d n wvalue s)).2.hs.enables = s.hs.enables := by
  rcases execCsrPtr_effect d s n wvalue with hout | ⟨t, hs, ht, h, hhs⟩
  · exact hout.control.enables
  · rw [h, beq_false_of_ne hsie, finish_enables]
    refine (csrMirror_enables hs _ _).trans ?_
    have ht' : t.hs.enables = s.hs.enables := enables_of_settings ht.control.settings
    rcases hhs with rfl | ⟨ptr, v, rfl, hw⟩
    · exact ht'
    · have hnum := csrAlias_enables n
      rw [hw.number] at hnum
      have hptr : ptr ≠ .mie := by
        rintro rfl
        exact (hnum.1 rfl).elim hmie hsie
      have hptr' : ptr ≠ .sie := fun h => hnum.2 (congrArg some h)
      exact (CsrPtr.set_enables hptr hptr' t.hs v).trans ht'

/-- The mode that the numbers of `mie` and `sie` require. -/
theorem level_le_iff (privmode : BitVec 2) :
    ((0x304 : BitVec 12).extractLsb' 8 2 ≤ privmode ↔ privmode = 3) ∧
      ((0x104 : BitVec 12).extractLsb' 8 2 ≤ privmode ↔ privmode ≠ 0) := by
  revert privmode
  decide

/-- An access to `mie` or `sie` is illegal, or gets to the pointer. -/
theorem execCsr_mie (env : Env δ) {d : Decoded} {s : Sys δ} {n : BitVec 12} (hd : d.csrno = n)
    (hn : n = 0x304 ∨ n = 0x104) :
    execCsr env d s =
      if n.extractLsb' 8 2 ≤ s.hs.privmode then execCsrPtr d n (d.csrOperand s.hs) s
      else illinst s := by
  have hcsrno : d.imm.setWidth 12 = n := hd
  simp only [execCsr, hcsrno]
  by_cases hpriv : n.extractLsb' 8 2 ≤ s.hs.privmode
  · rw [if_pos hpriv, if_neg (BitVec.not_lt.mpr hpriv)]
    rcases hn with rfl | rfl <;> rfl
  · rw [if_neg hpriv, if_pos (BitVec.not_le.mp hpriv)]

/-- … an access to `pmpcfg` as well, … -/
theorem pmpcfgRw_enables (env : Env δ) (s : Sys δ) (addr : BitVec 12) (rd : BitVec 5)
    (wvalue : BitVec 64) (funct : BitVec 2) :
    (pmpcfgRw env s addr rd wvalue funct).2.hs.enables = s.hs.enables := by
  unfold pmpcfgRw
  split
  · exact enables_of_settings (createException_settings s.hs _ _)
  · rfl

/-- … and in all a CSR instruction leaves them as `enablesAfter` says. -/
theorem execCsr_enables (env : Env δ) (d : Decoded) (s : Sys δ) :
    (finish (execCsr env d s)).2.hs.enables = d.enablesAfter s.hs := by
  have hlevel := level_le_iff s.hs.privmode
  have hillegal : (finish (illinst s)).2.hs.enables = s.hs.enables :=
    (illinst_outcome (.refl s)).control.enables
  unfold Decoded.enablesAfter
  by_cases hmie : d.csrno = 0x304
  · have hsie : d.csrno ≠ 0x104 := by
      rw [hmie]
      decide
    rw [execCsr_mie env hmie (.inl rfl), if_neg (not_and_of_not_left _ hsie)]
    by_cases hpriv : s.hs.privmode = 3
    · rw [if_pos (hlevel.1.mpr hpriv), if_pos ⟨hmie, hpriv⟩, finish_enables,
        execCsrPtr_mie d _ s (.inl rfl)]
      rfl
    · rw [if_neg (mt hlevel.1.mp hpriv), if_neg fun h => hpriv h.2]
      exact hillegal
  · rw [if_neg (not_and_of_not_left _ hmie)]
    by_cases hsie : d.csrno = 0x104
    · rw [execCsr_mie env hsie (.inr rfl)]
      by_cases hpriv : s.hs.privmode ≠ 0
      · rw [if_pos (hlevel.2.mpr hpriv), if_pos ⟨hsie, hpriv⟩, finish_enables,
          execCsrPtr_mie d _ s (.inr rfl)]
        rfl
      · rw [if_neg (mt hlevel.2.mp hpriv), if_neg fun h => hpriv h.2]
        exact hillegal
    · rw [if_neg (not_and_of_not_left _ hsie)]
      rcases execCsr_cases env d s with hout | ⟨-, -, t, ht, h⟩ | ⟨-, h⟩
      · exact hout.control.enables
      · rw [h, finish_enables]
        exact (pmpcfgRw_enables env t _ _ _ _).trans (enables_of_settings ht.control.settings)
      · rw [h]
        exact execCsrPtr_other d _ s hmie hsie

/-- The other instructions under the opcode have neither number. -/
theorem execSystem_enables (env : Env δ) {d : Decoded} (s : Sys δ)
    (hcebreak : d.cebreak = false) (hnum : d.csrno = d.inst.extractLsb' 20 12) :
    (finish (execSystem env d s)).2.hs.enables = d.enablesAfter s.hs := by
  by_cases hn : d.csrno = 0x304 ∨ d.csrno = 0x104
  · rw [execSystem_of_number env s hcebreak hnum]
    · exact execCsr_enables env d s
    · rcases hn with hn | hn <;> rw [hn] <;> decide
    · rcases hn with hn | hn <;> rw [hn] <;> decide
  · obtain ⟨hmie, hsie⟩ := not_or.mp hn
    rcases execSystem_cases env d s with hout | ⟨-, -, h⟩ | ⟨-, -, -, h⟩ | ⟨-, h⟩
    · rw [hout.control.enables, Decoded.enablesAfter, if_neg (not_and_of_not_left _ hmie),
        if_neg (not_and_of_not_left _ hsie)]
    · rw [h, finish_enables, Decoded.enablesAfter, if_neg (not_and_of_not_left _ hmie),
        if_neg (not_and_of_not_left _ hsie)]
      rfl
    · rw [h, finish_enables, Decoded.enablesAfter, if_neg (not_and_of_not_left _ hmie),
        if_neg (not_and_of_not_left _ hsie)]
      rfl
    · rw [h]
      exact execCsr_enables env d s

/-- What an instruction does to the enables. -/
theorem decodeExc_enables (env : Env δ) (s : Sys δ) :
    (decodeExc env s).2.hs.enables =
      if s.hs.instLen = 32 ∧ (decode32 s.hs.inst).opFun = .system then
        (decode32 s.hs.inst).enablesAfter s.hs
      else s.hs.enables := by
  by_cases hlen : s.hs.instLen = 32
  · let d := decode32 s.hs.inst
    let u := s.withInst d.inst s.hs.instLen
    rw [decodeExc_of_decodes env (.inr ⟨hlen, rfl⟩)]
    by_cases hsys : d.opFun = .system
    · rw [if_pos ⟨hlen, hsys⟩, execute_system env hsys]
      exact execSystem_enables env u (decode32_cebreak _) (csrno_decode32 hsys)
    · rw [if_neg fun h => hsys h.2]
      exact (execute_outcome env d u hsys).enables
  · rw [if_neg fun h => hlen h.1]
    rcases decodeExc_cases env s with ⟨t, tval, ht, -, h⟩ | ⟨d, hd, h⟩
    · rw [h]
      exact enables_of_settings
        ((createException_settings t.hs .illinst tval).trans ht.control.settings)
    · rw [h]
      let u := s.withInst d.inst s.hs.instLen
      by_cases hsys : d.opFun = .system
      · -- C.EBREAK
        have hc : d.cebreak ≠ false := fun hc => hlen (hd.len32 hsys hc).1
        rw [execute_system env hsys]
        rcases execSystem_cases env d u with hout | ⟨-, hc', -⟩ | ⟨-, hc', -⟩ | ⟨hc', -⟩
        · exact hout.control.enables
        · exact absurd hc' hc
        · exact absurd hc' hc
        · exact absurd hc' hc
      · exact (execute_outcome env d u hsys).enables

/-! ## Writes that leave the mirror behind -/

/-- An instruction that changes the supervisor's part of `mie` under its own number. -/
structure StaleWrite (s : Sys δ) : Prop where
  instLen : s.hs.instLen = 32
  system : (decode32 s.hs.inst).opFun = .system
  number : (decode32 s.hs.inst).csrno = 0x304
  privmode : s.hs.privmode = 3
  changes : ∃ op : CsrOp, (decode32 s.hs.inst).funct3 = op.funct3 ∧
    op.result s.hs.csr.mie ((decode32 s.hs.inst).csrOperand s.hs) (decode32 s.hs.inst).rs1 &&&
      ~~~machineInts ≠ s.hs.csr.mie &&& ~~~machineInts

/-- The forms that are no CSR instruction write nothing new. -/
theorem mieAfter_and_ne_iff (d : Decoded) (hs : HartState) (m : BitVec 64) :
    d.mieAfter hs &&& m ≠ hs.csr.mie &&& m ↔
      ∃ op : CsrOp, d.funct3 = op.funct3 ∧
        op.result hs.csr.mie (d.csrOperand hs) d.rs1 &&& m ≠ hs.csr.mie &&& m :=
  csrWritten_iff d (Q := fun v => v &&& m ≠ hs.csr.mie &&& m) (fun hne => hne rfl)

/-- An instruction keeps the mirror unless it is such a write. -/
theorem decodeExc_sieMirrors_iff (env : Env δ) {s : Sys δ} (h : s.hs.SieMirrors) :
    (decodeExc env s).2.hs.SieMirrors ↔ ¬ StaleWrite s := by
  let d := decode32 s.hs.inst
  have hen := decodeExc_enables env s
  have hmirror : (decodeExc env s).2.hs.SieMirrors ↔
      (decodeExc env s).2.hs.enables.2 = (decodeExc env s).2.hs.enables.1 &&& ~~~machineInts :=
    Iff.rfl
  rw [hmirror, hen]
  by_cases hsys : s.hs.instLen = 32 ∧ d.opFun = .system
  · rw [if_pos hsys, Decoded.enablesAfter]
    by_cases hmie : d.csrno = 0x304 ∧ s.hs.privmode = 3
    · rw [if_pos hmie]
      have hne := mieAfter_and_ne_iff d s.hs (~~~machineInts)
      have hstale : StaleWrite s ↔
          d.mieAfter s.hs &&& ~~~machineInts ≠ s.hs.csr.mie &&& ~~~machineInts := by
        rw [hne]
        exact ⟨fun hw => hw.changes, fun hw => ⟨hsys.1, hsys.2, hmie.1, hmie.2, hw⟩⟩
      rw [hstale, not_not, eq_comm, ← show s.hs.csr.sie = _ from h]
    · rw [if_neg hmie]
      have hfresh : ¬ StaleWrite s := fun hw => hmie ⟨hw.number, hw.privmode⟩
      refine iff_of_true ?_ hfresh
      split
      · rfl
      · exact h
  · rw [if_neg hsys]
    exact iff_of_true h fun hw => hsys ⟨hw.instLen, hw.system⟩

/-! ## Runs -/

/-- A step of a run without such writes. -/
inductive MirrorStep (env : Env δ) : Sys δ → Sys δ → Prop
  | cycle (t : Sys δ) (h : (cycle env t).1 = true) (hw : ∀ s, Fetches env t s → ¬ StaleWrite s) :
    MirrorStep env t (cycle env t).2
  | others (s : Sys δ) (bus : Bus δ) (mip : BitVec 64) (chkInt : Bool) :
    MirrorStep env s ⟨{ s.hs with csr := { s.hs.csr with mip := mip }, chkInt := chkInt }, bus⟩

/-- Whether `sie` mirrors `mie` depends on nothing else. -/
theorem sieMirrors_of_enables {hs hs' : HartState} (h : hs'.enables = hs.enables) :
    hs'.SieMirrors ↔ hs.SieMirrors := by
  obtain ⟨hmie, hsie⟩ := Prod.mk.inj h
  rw [HartState.SieMirrors, hmie, hsie]
  rfl

/-- A step that meets the condition keeps the mirror, … -/
theorem MirrorStep.sieMirrors {env : Env δ} {s u : Sys δ} (h : MirrorStep env s u)
    (hs : s.hs.SieMirrors) : u.hs.SieMirrors := by
  cases h with
  | cycle _ hw =>
    rcases cycle_settings env s with hc | ⟨t, hf, ht, hc⟩
    · exact (sieMirrors_of_enables (enables_of_settings hc)).mpr hs
    · have htm := (sieMirrors_of_enables (enables_of_settings ht)).mpr hs
      refine (sieMirrors_of_enables (enables_of_settings hc)).mpr ?_
      exact (decodeExc_sieMirrors_iff env htm).mpr (hw t hf)
  | others => exact hs

/-- … and so does a run. -/
theorem sieMirrors_of_run {env : Env δ} {s u : Sys δ}
    (h : Relation.ReflTransGen (MirrorStep env) s u) (hs : s.hs.SieMirrors) :
    u.hs.SieMirrors :=
  holds_of_run (P := fun t => t.hs.SieMirrors) (fun _ _ hstep ht => hstep.sieMirrors ht) h hs

/-- A cycle keeps the mirror unless it executes a write of `mie` under its own
    number that changes the supervisor's part, and runs without such writes keep
    it throughout. -/
theorem sieMirrors_iff (env : Env δ) :
    (∀ s, Executes env s → s.hs.SieMirrors →
      ((cycleEnd (decodeExc env s).2).hs.SieMirrors ↔ ¬ StaleWrite s)) ∧
    ∀ hartid bus u,
      Relation.ReflTransGen (MirrorStep env) ⟨hartInit env hartid, bus⟩ u → u.hs.SieMirrors := by
  refine ⟨fun s _ hs => ?_, fun hartid bus u h => sieMirrors_of_run h rfl⟩
  rw [← decodeExc_sieMirrors_iff env hs]
  exact sieMirrors_of_enables (enables_of_settings (cycleEnd_settings _))

/-- All interrupts are disabled through `sie`, then through `mie`. -/
private def disableProgram : List (BitVec 32) := [
  csrWord 0x104 .csrrw 0 0,
  0xFFF00293, -- addi x5, x0, -1
  csrWord 0x304 .csrrw 0 5]

private def atSieDisable : Sys Unit := fetchedAfter Env.inert 3 (boot disableProgram)

/-- The write under the number of `sie` keeps the mirror. -/
theorem sieMirrors_csrrw_sie :
    (cycleEnd (decodeExc Env.inert atSieDisable).2).hs.SieMirrors :=
  ((sieMirrors_iff Env.inert).1 atSieDisable
    (executes_fetchedAfter rfl 0 (programBus disableProgram) 3 (by decide +kernel))
    (by decide +kernel)).mpr fun h => absurd h.number (by decide +kernel)

/-- The write under the number of `mie` leaves it behind. -/
theorem sie_stale_after_mie :
    ¬ ∀ s : Sys Unit, Reachable Env.inert s → s.hs.SieMirrors := by
  intro h
  -- the boot ROM has three instructions, and the program three more
  have hstale := h (runCycles Env.inert 6 (boot disableProgram))
    (reachable_runCycles rfl 0 (programBus disableProgram) 6)
  exact absurd hstale (by decide +kernel)

/-! ## The machine-level interrupts in `sie` -/

/-- `sie` never has them: it is written only as the mirror. -/
def HartState.SieSupervisor (hs : HartState) : Prop := hs.csr.sie &&& machineInts = 0

/-- No instruction puts a machine-level interrupt into `sie`, … -/
theorem decodeExc_sieSupervisor (env : Env δ) {s : Sys δ} (h : s.hs.SieSupervisor) :
    (decodeExc env s).2.hs.SieSupervisor := by
  have hsie := congrArg Prod.snd (decodeExc_enables env s)
  refine (congrArg (· &&& machineInts) hsie).trans ?_
  simp only [Decoded.enablesAfter]
  split
  · split
    · exact h
    · split
      · exact BitVec.and_not_and_self _ _
      · exact h
  · exact h

/-- … and no step does. -/
theorem HartStep.sieSupervisor {env : Env δ} {s u : Sys δ} (h : HartStep env s u)
    (hs : s.hs.SieSupervisor) : u.hs.SieSupervisor := by
  have hof {hs hs' : HartState} (he : hs'.enables = hs.enables) (h : hs.SieSupervisor) :
      hs'.SieSupervisor := (congrArg (· &&& machineInts) (congrArg Prod.snd he)).trans h
  cases h with
  | cycle =>
    rcases cycle_settings env s with hc | ⟨t, hf, ht, hc⟩
    · exact hof (enables_of_settings hc) hs
    · exact hof (enables_of_settings hc)
        (decodeExc_sieSupervisor env (hof (enables_of_settings ht) hs))
  | others => exact hs

/-- In every state of every run `sie` has no machine-level interrupt. -/
theorem sieSupervisor_of_reachable {env : Env δ} {s : Sys δ} (h : Reachable env s) :
    s.hs.SieSupervisor := by
  have hstart : (resetState 0).csr.sie &&& machineInts = 0 := by decide +kernel
  exact h.invariant (fun _ _ => hstart) fun _ _ hstep hs => hstep.sieSupervisor hs

end RvEmu
