import RvEmu.Spec.CsrAccess
import RvEmu.Spec.Privilege

/-!
# The mode and `mstatus`

The mode and `mstatus` are written by traps, by MRET and SRET, and by CSR instructions under
the numbers of `mstatus` and `sstatus`. `ModeInvariant` packages what has to be shown of a
property of the two for it to hold in every run.

## Key results

- `decodeExc_mode`: what such a CSR instruction leads to
- `ModeInvariant.decodeExc`: what is preserved by traps and returns is preserved by every
  other instruction
- `mstatus_hardwired`: the fields that are hardwired are so in every run
-/

namespace RvEmu

variable {δ : Type}

/-- The mode of the hart, and `mstatus`. -/
def HartState.mode (hs : HartState) : BitVec 2 × BitVec 64 := (hs.privmode, hs.csr.mstatus)

/-- The control state holds the mode. -/
theorem SameControl.mode {s t : Sys δ} (h : SameControl s t) : t.hs.mode = s.hs.mode :=
  (h.proj HartState.mode :)

/-! ## Bits that traps and returns leave alone -/

section Fields

variable {m : BitVec 64} (hs : HartState) (he : HartException) (cause tval : BitVec 64)

/-- A mode fits into a field of two bits. -/
theorem privmode_and (p : BitVec 2) : p.setWidth 64 &&& 0b11#64 = p.setWidth 64 := by
  revert p
  decide

/-- A trap to S-mode writes SPP, SPIE and SIE. -/
theorem trapToS_mstatus_and (hm : 0x322#64 &&& m = 0) :
    (trapToS hs he cause tval).csr.mstatus &&& m = hs.csr.mstatus &&& m := by
  have hfield {b : BitVec 64} (hb : b &&& 0x322#64 = b) : b &&& m = 0 :=
    BitVec.disjoint_of_subset hm hb
  have hspp : hs.privmode.setWidth 64 <<< 8 &&& m = 0 := by
    rw [← privmode_and]
    exact BitVec.shiftLeft_and_of_disjoint (hfield (by decide)) _
  simp only [trapToS]
  rw [BitVec.and_not_and_of_disjoint (hfield (by decide)),
    BitVec.or_and_of_disjoint (BitVec.shiftLeft_and_of_disjoint (hfield (by decide)) _),
    BitVec.and_not_and_of_disjoint (hfield (by decide)), BitVec.or_and_of_disjoint hspp,
    BitVec.and_not_and_of_disjoint (hfield (by decide))]

/-- A trap to M-mode writes MPP, MPIE and MIE. -/
theorem trapToM_mstatus_and (hm : 0x1888#64 &&& m = 0) :
    (trapToM hs he cause tval).csr.mstatus &&& m = hs.csr.mstatus &&& m := by
  have hfield {b : BitVec 64} (hb : b &&& 0x1888#64 = b) : b &&& m = 0 :=
    BitVec.disjoint_of_subset hm hb
  have hmpp : hs.privmode.setWidth 64 <<< 11 &&& m = 0 := by
    rw [← privmode_and]
    exact BitVec.shiftLeft_and_of_disjoint (hfield (by decide)) _
  simp only [trapToM]
  rw [BitVec.and_not_and_of_disjoint (hfield (by decide)),
    BitVec.or_and_of_disjoint (BitVec.shiftLeft_and_of_disjoint (hfield (by decide)) _),
    BitVec.and_not_and_of_disjoint (hfield (by decide)), BitVec.or_and_of_disjoint hmpp,
    BitVec.and_not_and_of_disjoint (hfield (by decide))]

/-- MRET writes MIE, MPIE, MPP and MPRV. -/
theorem execMret_mstatus_and (s : Sys δ) (hm : 0x21888#64 &&& m = 0) :
    (execMret s).hs.csr.mstatus &&& m = s.hs.csr.mstatus &&& m := by
  have hfield {b : BitVec 64} (hb : b &&& 0x21888#64 = b) : b &&& m = 0 :=
    BitVec.disjoint_of_subset hm hb
  have hmie (x : BitVec 64) : (x &&& ~~~(0b1#64 <<< 3) ||| (x &&& 0b1#64 <<< 7) >>> (7 - 3) |||
      0b1#64 <<< 7) &&& ~~~(0b11#64 <<< 11) &&& m = x &&& m := by
    rw [BitVec.and_not_and_of_disjoint (hfield (by decide)),
      BitVec.or_and_of_disjoint (hfield (by decide)),
      BitVec.or_and_of_disjoint (BitVec.ushiftRight_and_of_disjoint (hfield (by decide)) _),
      BitVec.and_not_and_of_disjoint (hfield (by decide))]
  simp only [execMret, Sys.setHs]
  split
  · rw [BitVec.and_not_and_of_disjoint (hfield (by decide)), hmie]
  · exact hmie _

/-- SRET writes SIE, SPIE, SPP and MPRV. -/
theorem execSret_mstatus_and (s : Sys δ) (hm : 0x20122#64 &&& m = 0) :
    (execSret s).hs.csr.mstatus &&& m = s.hs.csr.mstatus &&& m := by
  have hfield {b : BitVec 64} (hb : b &&& 0x20122#64 = b) : b &&& m = 0 :=
    BitVec.disjoint_of_subset hm hb
  have hsie (x : BitVec 64) : (x &&& ~~~(0b1#64 <<< 1) ||| (x &&& 0b1#64 <<< 5) >>> (5 - 1) |||
      0b1#64 <<< 5) &&& ~~~(0b1#64 <<< 8) &&& m = x &&& m := by
    rw [BitVec.and_not_and_of_disjoint (hfield (by decide)),
      BitVec.or_and_of_disjoint (hfield (by decide)),
      BitVec.or_and_of_disjoint (BitVec.ushiftRight_and_of_disjoint (hfield (by decide)) _),
      BitVec.and_not_and_of_disjoint (hfield (by decide))]
  simp only [execSret, Sys.setHs]
  split
  · rw [BitVec.and_not_and_of_disjoint (hfield (by decide)), hsie]
  · exact hsie _

end Fields

/-! ## CSR instructions on `mstatus` -/

/-- The hardwired fields, as every access to `mstatus` sets them. -/
def mstatusFixed (v : BitVec 64) : BitVec 64 :=
  v &&& ~~~0b10101#64 &&& ~~~(0b1111#64 <<< 32) ||| (0b1010#64 <<< 32)

/-- The value of `mstatus` after a CSR instruction on it, under either number. -/
def Decoded.mstatusAfter (d : Decoded) (hs : HartState) : BitVec 64 :=
  mstatusFixed (if csrWriteNeeded d (d.csrOperand hs) then
      csrWritten (d.funct3.setWidth 2) false hs.csr.mstatus (d.csrOperand hs)
    else hs.csr.mstatus)

/-- The number is that of `mstatus` or of `sstatus`, and the mode may use it. -/
def Decoded.OnMstatus (d : Decoded) (hs : HartState) : Prop :=
  d.csrno = 0x300 ∧ hs.privmode = 3 ∨ d.csrno = 0x100 ∧ hs.privmode ≠ 0

/-- `mstatus` has one number. -/
theorem csrFromAddr_mstatus {n : BitVec 12} (h : csrFromAddr n = some .mstatus) : n = 0x300 := by
  unfold csrFromAddr at h
  split at h
  case h_24 =>
    split at h
    · cases h
    · cases h
  all_goals first | rfl | cases h

/-- The other numbers stand for other registers. -/
theorem csrAlias_mstatus {n : BitVec 12} (hm : n ≠ 0x300) (hs : n ≠ 0x100) :
    csrAlias n ≠ 0x300 := by
  unfold csrAlias
  rw [beq_false_of_ne hs, if_neg Bool.false_ne_true]
  split
  · decide
  · split
    · decide
    · exact hm

/-- Another CSR leaves the mode alone, … -/
theorem CsrPtr.set_mode {ptr : CsrPtr} (h : ptr ≠ .mstatus) (hs : HartState) (v : BitVec 64) :
    (ptr.set hs v).mode = hs.mode := by
  cases ptr <;> first | rfl | exact absurd rfl h

/-- … and so does mirroring behind another number. -/
theorem csrMirror_mode {imm : BitVec 12} (h : imm ≠ 0x300) (hs : HartState) (sstatus sie : Bool) :
    (csrMirror hs imm sstatus sie).mode = hs.mode := by
  unfold csrMirror
  cases sstatus <;> cases sie <;> simp only [if_neg h] <;> rfl

/-- An access to the register behind `mstatus` and `sstatus`. -/
theorem execCsrPtr_mstatus (d : Decoded) (wvalue : BitVec 64) (s : Sys δ) {n : BitVec 12}
    (hn : n = 0x300 ∨ n = 0x100) :
    (execCsrPtr d n wvalue s).2.hs.mode = (s.hs.privmode,
      mstatusFixed (if csrWriteNeeded d wvalue then
          csrWritten (d.funct3.setWidth 2) false s.hs.csr.mstatus wvalue
        else s.hs.csr.mstatus)) := by
  rcases hn with rfl | rfl <;> by_cases hrd : d.rd ≠ 0 <;> cases hw : csrWriteNeeded d wvalue <;>
    simp only [execCsrPtr, hw, hrd, ne_eq, not_false_eq_true, ↓reduceIte] <;> rfl

/-- The mode that the numbers of `mstatus` and `sstatus` require. -/
theorem mstatus_level_iff (privmode : BitVec 2) :
    ((0x300 : BitVec 12).extractLsb' 8 2 ≤ privmode ↔ privmode = 3) ∧
      ((0x100 : BitVec 12).extractLsb' 8 2 ≤ privmode ↔ privmode ≠ 0) := by
  revert privmode
  decide

/-- A CSR instruction on `mstatus` gets to the pointer. -/
theorem execCsr_onMstatus (env : Env δ) {d : Decoded} {s : Sys δ} (h : d.OnMstatus s.hs) :
    execCsr env d s = execCsrPtr d d.csrno (d.csrOperand s.hs) s := by
  have hlevel := mstatus_level_iff s.hs.privmode
  have hcsrno : d.imm.setWidth 12 = d.csrno := rfl
  simp only [execCsr, hcsrno]
  rcases h with ⟨hn, hpriv⟩ | ⟨hn, hpriv⟩ <;> rw [hn]
  · rw [if_neg (BitVec.not_lt.mpr (hlevel.1.mpr hpriv))]
    rfl
  · rw [if_neg (BitVec.not_lt.mpr (hlevel.2.mpr hpriv))]
    rfl

/-- The end of `decode_exc` leaves it alone. -/
theorem finish_mode (r : Flow × Sys δ) : (finish r).2.hs.mode = r.2.hs.mode :=
  finish_proj HartState.mode (fun _ _ _ _ => rfl) r

/-- The instruction is a CSR instruction on `mstatus`. -/
structure AccessesMstatus (s : Sys δ) : Prop where
  instLen : s.hs.instLen = 32
  system : (decode32 s.hs.inst).opFun = .system
  number : (decode32 s.hs.inst).OnMstatus s.hs

/-- It leads to the fixed-up value in `mstatus`, in the same mode. -/
theorem decodeExc_mode (env : Env δ) {s : Sys δ} (h : AccessesMstatus s) :
    (decodeExc env s).2.hs.mode = (s.hs.privmode, (decode32 s.hs.inst).mstatusAfter s.hs) := by
  let d := decode32 s.hs.inst
  let u := s.withInst d.inst s.hs.instLen
  have hn : d.csrno = 0x300 ∨ d.csrno = 0x100 := h.number.imp And.left And.left
  have hcsr : execSystem env d u = execCsr env d u := by
    refine execSystem_of_number env u (decode32_cebreak _) (csrno_decode32 h.system) ?_ ?_
    · rcases hn with hn | hn <;> rw [hn] <;> decide
    · rcases hn with hn | hn <;> rw [hn] <;> decide
  rw [decodeExc_of_decodes env (.inr ⟨h.instLen, rfl⟩), execute_system env h.system, hcsr,
    execCsr_onMstatus env (s := u) h.number]
  exact (finish_mode _).trans (execCsrPtr_mstatus d (d.csrOperand u.hs) u hn)

/-! ## Properties of the mode -/

/-- Traps and returns preserve the property of the mode and `mstatus`. -/
structure ModeInvariant (P : BitVec 2 × BitVec 64 → Prop) : Prop where
  trapToS : ∀ (hs : HartState) he cause tval, hs.privmode ≤ 1 → P hs.mode →
    P (trapToS hs he cause tval).mode
  trapToM : ∀ (hs : HartState) he cause tval, P hs.mode → P (trapToM hs he cause tval).mode
  mret : ∀ s : Sys Unit, P s.hs.mode → P (execMret s).hs.mode
  sret : ∀ s : Sys Unit, P s.hs.mode → P (execSret s).hs.mode

namespace ModeInvariant

variable {P : BitVec 2 × BitVec 64 → Prop} (hP : ModeInvariant P) (env : Env δ) {s : Sys δ}
include hP

/-- An invariant of the mode is kept by a trap, … -/
theorem createException (hs : HartState) (he : HartException) (tval : BitVec 64)
    (h : P hs.mode) : P (createException hs he tval).2.mode := by
  rcases createException_cases hs he tval with hc | ⟨hpriv, -, hc⟩ | ⟨-, hc⟩ <;> rw [hc]
  · exact h
  · exact hP.trapToS { hs with instbuf := 0 } he _ tval hpriv h
  · exact hP.trapToM { hs with instbuf := 0 } he _ tval h

/-- A trap, or an end of the switch, with the control state kept up to it. -/
theorem outcome {r : Flow × Sys δ} (hr : Outcome (SameControl s) r) (h : P s.hs.mode) :
    P (finish r).2.hs.mode := by
  rw [finish_mode]
  refine hr.state (R := fun t => P t.hs.mode) (fun he tval t ht => ?_) fun b t ht => ?_
  · exact hP.createException t.hs he tval (ht.mode ▸ h)
  · rw [ht.mode]
    exact h

/-- … by an access to another CSR, … -/
theorem execCsrPtr {d : Decoded} {n : BitVec 12} {wvalue : BitVec 64} (hm : n ≠ 0x300)
    (hs : n ≠ 0x100) (h : P s.hs.mode) : P (finish (execCsrPtr d n wvalue s)).2.hs.mode := by
  have halias := csrAlias_mstatus hm hs
  rcases execCsrPtr_effect d s n wvalue with hr | ⟨t, hs', ht, hr, hhs⟩
  · exact hP.outcome hr.control h
  · have hset : hs'.mode = t.hs.mode := by
      rcases hhs with rfl | ⟨ptr, v, rfl, hw⟩
      · rfl
      · refine CsrPtr.set_mode ?_ t.hs v
        rintro rfl
        exact halias (csrFromAddr_mstatus hw.number)
    have hmode : (csrMirror hs' (csrAlias n) (n == 0x100) (n == 0x104)).mode = s.hs.mode :=
      (csrMirror_mode halias hs' _ _).trans (hset.trans ht.control.mode)
    rw [hr, finish_mode]
    exact hmode.symm ▸ h

/-- A CSR instruction that is not one on `mstatus`. -/
theorem execCsr {d : Decoded} (hd : ¬ d.OnMstatus s.hs) (h : P s.hs.mode) :
    P (finish (execCsr env d s)).2.hs.mode := by
  have hlevel := mstatus_level_iff s.hs.privmode
  rcases execCsr_cases env d s with hr | ⟨-, -, t, ht, hr⟩ | ⟨hpriv, hr⟩
  · exact hP.outcome hr.control h
  · have hmode : P t.hs.mode := ht.control.mode.symm ▸ h
    rw [hr]
    unfold pmpcfgRw
    split
    · exact hP.createException t.hs .illinst _ hmode
    · exact hmode
  · rw [hr]
    -- with the privilege of the CSR, it is another CSR
    refine hP.execCsrPtr (fun hn => hd (.inl ⟨hn, ?_⟩)) (fun hn => hd (.inr ⟨hn, ?_⟩)) h
    · rw [hn] at hpriv
      exact hlevel.1.mp hpriv
    · rw [hn] at hpriv
      exact hlevel.2.mp hpriv

/-- … by a `SYSTEM` instruction that does not write `mstatus`, … -/
theorem execSystem {d : Decoded} (hd : d.cebreak = false → ¬ d.OnMstatus s.hs)
    (h : P s.hs.mode) : P (finish (execSystem env d s)).2.hs.mode := by
  let u : Sys Unit := ⟨s.hs, Bus.inert⟩
  rcases execSystem_cases env d s with hr | ⟨-, -, hr⟩ | ⟨-, -, -, hr⟩ | ⟨hc, hr⟩
  · exact hP.outcome hr.control h
  · rw [hr, finish_mode]
    exact hP.mret u h
  · rw [hr, finish_mode]
    exact hP.sret u h
  · rw [hr]
    exact hP.execCsr env (hd hc) h

/-- What traps and returns preserve is preserved by all instructions but those on
    `mstatus`. -/
theorem decodeExc (hs : ¬ AccessesMstatus s) (h : P s.hs.mode) :
    P (decodeExc env s).2.hs.mode := by
  rcases decodeExc_cases env s with ⟨t, tval, ht, -, hexc⟩ | ⟨d, hd, hexc⟩ <;> rw [hexc]
  · exact hP.createException t.hs .illinst tval (ht.control.mode.symm ▸ h)
  · let u := s.withInst d.inst s.hs.instLen
    by_cases hsys : d.opFun = .system
    · rw [execute_system env hsys]
      refine hP.execSystem env (s := u) (fun hc hn => hs ?_) h
      obtain ⟨hlen, rfl⟩ := hd.len32 hsys hc
      exact ⟨hlen, hsys, hn⟩
    · exact hP.outcome (execute_outcome env d u hsys) h

/-- … by a fetch … -/
theorem fetch (h : P s.hs.mode) : P (fetch env s).2.hs.mode := by
  have hinst : P (fetchInst env s).hs.mode := (fetchInst_sameControl env s).mode.symm ▸ h
  simp only [RvEmu.fetch]
  split
  · next t ht =>
    rcases handleMemError_cases ht with rfl | rfl
    · exact hP.createException _ .iafault _ hinst
    · exact hP.createException _ .ipfault _ hinst
  · rcases fetchLength_cases (fetchInst env s) with ⟨he, tval, -, hl⟩ | ⟨len, instbuf, inst, hl⟩ <;>
      rw [hl]
    · exact hP.createException _ he tval hinst
    · exact hinst

/-- … and by the end of a cycle. -/
theorem cycleEnd (h : P s.hs.mode) : P (cycleEnd s).hs.mode :=
  cycleEnd_preserves (P := fun hs => P hs.mode) hP.createException h id

/-- A cycle preserves the property, if the instruction on `mstatus` that it executes does. -/
theorem cycle (hw : ∀ t, Fetches env s t → AccessesMstatus t → P t.hs.mode →
    P (t.hs.privmode, (decode32 t.hs.inst).mstatusAfter t.hs)) (h : P s.hs.mode) :
    P (cycle env s).2.hs.mode := by
  have hfetch : P (RvEmu.fetch env (s.setReg 0 0)).2.hs.mode := hP.fetch env (s := s.setReg 0 0) h
  rcases cycle_cases env s with hc | ⟨hf, hc⟩ | ⟨-, hc⟩ <;> rw [hc]
  · exact hfetch
  · refine hP.cycleEnd ?_
    by_cases ha : AccessesMstatus (RvEmu.fetch env (s.setReg 0 0)).2
    · rw [decodeExc_mode env ha]
      exact hw _ hf ha hfetch
    · exact hP.decodeExc env ha hfetch
  · exact hP.cycleEnd hfetch

end ModeInvariant

/-! ## Runs from reset -/

/-- The states that a hart gets to from `reset_state`, wherever it is started. -/
def ReachableFromReset (env : Env δ) (s : Sys δ) : Prop :=
  ∃ hartid pc regs bus, Relation.ReflTransGen (HartStep env)
    ⟨{ resetState hartid with pc := pc, regs := regs }, bus⟩ s

/-- `hart_init` starts from `reset_state`. -/
theorem Reachable.fromReset {env : Env δ} {s : Sys δ} (h : Reachable env s) :
    ReachableFromReset env s := by
  obtain ⟨hartid, bus, hrun⟩ := h
  exact ⟨hartid, 0x1000, (hartInit env hartid).regs, bus, hrun⟩

/-! ## The hardwired fields -/

/-- SXL and UXL, and three bits that are zero. -/
def mstatusHardwired : BitVec 64 := 0b1111#64 <<< 32 ||| 0b10101#64

/-- SXL and UXL are 64 bits, and the three bits are zero. -/
def Hardwired (mode : BitVec 2 × BitVec 64) : Prop :=
  mode.2 &&& mstatusHardwired = 0b1010#64 <<< 32

/-- The hardwired fields are such an invariant. -/
theorem hardwired_invariant : ModeInvariant Hardwired where
  trapToS hs he cause tval _ h := (trapToS_mstatus_and hs he cause tval (by decide)).trans h
  trapToM hs he cause tval h := (trapToM_mstatus_and hs he cause tval (by decide)).trans h
  mret s h := (execMret_mstatus_and s (by decide)).trans h
  sret s h := (execSret_mstatus_and s (by decide)).trans h

/-- Whatever is written, the fix-up sets the fields. -/
theorem hardwired_fixed (p : BitVec 2) (v : BitVec 64) : Hardwired (p, mstatusFixed v) := by
  have hcleared : v &&& ~~~0b10101#64 &&& ~~~(0b1111#64 <<< 32) &&& mstatusHardwired = 0 := by
    rw [BitVec.and_assoc, BitVec.and_assoc]
    exact BitVec.and_zero
  unfold Hardwired mstatusFixed
  rw [BitVec.and_or_distrib_right, hcleared]
  rfl

/-- They hold in every state from `reset_state` on. -/
theorem hardwired_of_reset {env : Env δ} {s : Sys δ} (h : ReachableFromReset env s) :
    Hardwired s.hs.mode := by
  have hstart : Hardwired (3, mstatusReset) := by
    unfold Hardwired
    decide
  obtain ⟨hartid, pc, regs, bus, hrun⟩ := h
  refine holds_of_run (P := fun t => Hardwired t.hs.mode) (fun s t hstep hs => ?_) hrun hstart
  cases hstep with
  | cycle _ => exact hardwired_invariant.cycle env (fun t _ _ _ => hardwired_fixed _ _) hs
  | others _ _ _ => exact hs

/-- In every run SXL and UXL are 64 bits, and bits 0, 2 and 4 are zero. -/
theorem mstatus_hardwired {env : Env δ} {s : Sys δ} (h : ReachableFromReset env s) :
    s.hs.csr.mstatus.extractLsb' 32 4 = 0b1010 ∧ s.hs.csr.mstatus.getLsbD 0 = false ∧
      s.hs.csr.mstatus.getLsbD 2 = false ∧ s.hs.csr.mstatus.getLsbD 4 = false := by
  have hbit {i : Nat} (hi : mstatusHardwired.getLsbD i = true) :
      s.hs.csr.mstatus.getLsbD i = (0b1010#64 <<< 32).getLsbD i := by
    have hmask : s.hs.csr.mstatus &&& mstatusHardwired = 0b1010#64 <<< 32 := hardwired_of_reset h
    rw [← hmask, BitVec.getLsbD_and, hi, Bool.and_true]
  refine ⟨?_, hbit (by decide), hbit (by decide), hbit (by decide)⟩
  apply BitVec.eq_of_getLsbD_eq
  intro i hi
  rw [BitVec.getLsbD_extractLsb', decide_eq_true hi, Bool.true_and]
  have hcases : i = 0 ∨ i = 1 ∨ i = 2 ∨ i = 3 := by omega
  rcases hcases with rfl | rfl | rfl | rfl <;> exact hbit (by decide)

/-- All ones are written to `mstatus`. -/
private def onesProgram : List (BitVec 32) := [
  0xFFF00293, -- addi x5, x0, -1
  csrWord 0x300 .csrrw 0 5]

private def onesWritten : Sys Unit := runCycles Env.inert 5 (boot onesProgram)

/-- After a write of ones. -/
theorem mstatus_hardwired_ones :
    onesWritten.hs.csr.mstatus.extractLsb' 32 4 = 0b1010 ∧
      onesWritten.hs.csr.mstatus.getLsbD 0 = false ∧
      onesWritten.hs.csr.mstatus.getLsbD 2 = false ∧
      onesWritten.hs.csr.mstatus.getLsbD 4 = false := by
  have hrun : Reachable Env.inert onesWritten :=
    reachable_runCycles rfl 0 (programBus onesProgram) 5
  exact mstatus_hardwired hrun.fromReset

/-- The source complements `int` masks: their sign extension is the complement in 64 bits. -/
example : [0b11#32 <<< 8, 0b1#32 <<< 5, 0b1#32 <<< 1, 0b11#32 <<< 11, 0b1#32 <<< 7, 0b1#32 <<< 3,
    0b1#32 <<< 8, 0b1#32 <<< 17, 0b10101#32].all
      fun m => (~~~m).signExtend 64 == ~~~(m.setWidth 64) := by decide

end RvEmu
