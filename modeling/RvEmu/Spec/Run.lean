import RvEmu.Spec.Outcome
import Mathlib.Logic.Relation

/-!
# Runs

A hart runs by cycles. Between two cycles the other harts and the devices may
change the memory, the reservations and the interrupt lines of the hart
arbitrarily, so that what holds over all runs holds for any number of harts and
any interleaving.
-/

namespace RvEmu

variable {δ : Type}

/-- What may happen to a hart: one of its cycles, or anything the rest of the
    machine can do to it. -/
inductive HartStep (env : Env δ) : Sys δ → Sys δ → Prop
  | cycle (s : Sys δ) (h : (cycle env s).1 = true) : HartStep env s (cycle env s).2
  | others (s : Sys δ) (bus : Bus δ) (mip : BitVec 64) (chkInt : Bool) :
    HartStep env s ⟨{ s.hs with csr := { s.hs.csr with mip := mip }, chkInt := chkInt }, bus⟩

/-- The states a hart can be in. -/
def Reachable (env : Env δ) (s : Sys δ) : Prop :=
  ∃ hartid bus, Relation.ReflTransGen (HartStep env) ⟨hartInit env hartid, bus⟩ s

/-- What every step preserves holds throughout a run. -/
theorem holds_of_run {α : Type} {r : α → α → Prop} {P : α → Prop}
    (hstep : ∀ s t, r s t → P s → P t) {s t : α} (h : Relation.ReflTransGen r s t) (hs : P s) :
    P t := by
  induction h with
  | refl => exact hs
  | tail _ hst ih => exact hstep _ _ hst ih

/-- What holds at the start, and is preserved by every step, holds in every state. -/
theorem Reachable.invariant {env : Env δ} {P : Sys δ → Prop}
    (hstart : ∀ hartid bus, P ⟨hartInit env hartid, bus⟩)
    (hstep : ∀ s t, HartStep env s t → P s → P t) {s : Sys δ} (h : Reachable env s) : P s := by
  obtain ⟨hartid, bus, hrun⟩ := h
  exact holds_of_run hstep hrun (hstart hartid bus)

/-- The cycle from `t` fetches an instruction without an exception and goes on
    to execute it from `s`. -/
def Fetches (env : Env δ) (t s : Sys δ) : Prop :=
  fetch env (t.setReg 0 0) = (.noexc, s) ∧ ¬ (env.sigMode = true ∧ s.hs.inst = 0xbad33013)

/-- An instruction is executed from `s` in some run. -/
def Executes (env : Env δ) (s : Sys δ) : Prop := ∃ t, Reachable env t ∧ Fetches env t s

/-- A cycle that fetches an instruction executes it. -/
theorem cycle_of_fetches {env : Env δ} {t s : Sys δ} (h : Fetches env t s) :
    cycle env t = (true, cycleEnd (decodeExc env s).2) := by
  obtain ⟨hf, hsig⟩ := h
  simp only [cycle, hf, if_neg hsig]
  rfl

/-- `n` cycles of one hart, undisturbed. -/
def runCycles (env : Env δ) : Nat → Sys δ → Sys δ
  | 0, s => s
  | n + 1, s => (cycle env (runCycles env n s)).2

/-- Only signature mode halts a hart. -/
theorem cycle_fst {env : Env δ} (h : env.sigMode = false) (s : Sys δ) : (cycle env s).1 = true := by
  unfold cycle
  dsimp only
  split
  · next hsig =>
    rw [h] at hsig
    exact Bool.noConfusion hsig.1
  · split <;> rfl

/-- Cycles from the start lead to reachable states. -/
theorem reachable_runCycles {env : Env δ} (h : env.sigMode = false) (hartid : BitVec 16)
    (bus : Bus δ) (n : Nat) : Reachable env (runCycles env n ⟨hartInit env hartid, bus⟩) := by
  refine ⟨hartid, bus, ?_⟩
  induction n with
  | zero => exact .refl
  | succ n ih => exact ih.tail (.cycle _ (cycle_fst h _))

/-- The state `n` cycles after the start, with the next instruction fetched. -/
def fetchedAfter (env : Env δ) (n : Nat) (s : Sys δ) : Sys δ :=
  (fetch env ((runCycles env n s).setReg 0 0)).2

/-- The fetch in the last of some cycles … -/
theorem fetches_fetchedAfter {env : Env δ} (h : env.sigMode = false) {n : Nat} {s : Sys δ}
    (hexc : (fetch env ((runCycles env n s).setReg 0 0)).1 = .noexc) :
    Fetches env (runCycles env n s) (fetchedAfter env n s) := by
  refine ⟨Prod.ext hexc rfl, fun hsig => ?_⟩
  rw [h] at hsig
  exact Bool.noConfusion hsig.1

/-- … is of an instruction that is executed in a run. -/
theorem executes_fetchedAfter {env : Env δ} (h : env.sigMode = false) (hartid : BitVec 16)
    (bus : Bus δ) (n : Nat)
    (hexc : (fetch env ((runCycles env n ⟨hartInit env hartid, bus⟩).setReg 0 0)).1 = .noexc) :
    Executes env (fetchedAfter env n ⟨hartInit env hartid, bus⟩) :=
  ⟨_, reachable_runCycles h hartid bus n, fetches_fetchedAfter h hexc⟩

/-- RAM holding a program, with devices that do nothing. -/
def programBus (program : List (BitVec 32)) : Bus Unit :=
  { Bus.inert with
    mainMem := fun a =>
      let offset := (a - 0x80000000).toNat
      (program.getD (offset / 4) 0 >>> (8 * (offset % 4))).setWidth 8 }

/-- A machine with one hart about to start a program. -/
def boot (program : List (BitVec 32)) : Sys Unit := ⟨hartInit Env.inert 0, programBus program⟩

/-! ## Fetching -/

/-- Fetching the word keeps the control state, … -/
theorem fetchInst_sameControl (env : Env δ) (s : Sys δ) : SameControl s (fetchInst env s) := by
  unfold fetchInst
  dsimp only
  split
  · exact (virtMemFetch_frame env (s.setMemStatus false) .u32 s.hs.pc).sameControl
  · exact .refl s

/-- The length test rejects the instruction, or sets its length and the buffer. -/
theorem fetchLength_cases (s : Sys δ) :
    (∃ he tval, (he = .illinst ∨ he = .imisalign) ∧
      fetchLength s = (s.setHs { s.hs with instLen := 0 }).createException he tval) ∨
    ∃ len instbuf inst, fetchLength s =
      (.noexc, s.setHs { s.hs with instLen := len, instbuf := instbuf, inst := inst }) := by
  unfold fetchLength
  dsimp only
  split
  · exact .inl ⟨.illinst, _, .inl rfl, rfl⟩
  · split
    · exact .inr ⟨_, _, _, rfl⟩
    · split
      · exact .inr ⟨32, s.hs.instbuf, s.hs.inst, rfl⟩
      · exact .inl ⟨.imisalign, _, .inr rfl, rfl⟩

/-- … and so does the length test. -/
theorem fetchLength_sameControl {s u : Sys δ} (h : fetchLength s = (.noexc, u)) :
    SameControl s u := by
  rcases fetchLength_cases s with ⟨he, tval, hkind, hexc⟩ | ⟨len, instbuf, inst, hok⟩
  · have hfst := congrArg Prod.fst (hexc.symm.trans h)
    rcases hkind with rfl | rfl <;> rw [createException_fst _ _ rfl] at hfst <;> cases hfst
  · obtain rfl := congrArg Prod.snd (hok.symm.trans h)
    exact .refl s

/-- A fetch that raises nothing keeps the control state. -/
theorem fetch_sameControl {env : Env δ} {s u : Sys δ} (h : fetch env s = (.noexc, u)) :
    SameControl s u := by
  simp only [fetch] at h
  split at h
  · next t ht =>
    rcases handleMemError_fst rfl rfl ht with hexc | hexc <;> rw [h] at hexc <;> cases hexc
  · exact (fetchInst_sameControl env s).trans (fetchLength_sameControl h)

/-! ## The interrupt check at the end of a cycle -/

/-- Interrupts that are not taken at most drop the instruction buffer. -/
theorem trySetint_of_not_taken {hs : HartState} {l : List (Nat × HartException)}
    (hl : ∀ x ∈ l, x.2 ≠ .noexc) (h : (trySetint hs l).1 = false) :
    (trySetint hs l).2 = hs ∨ (trySetint hs l).2 = { hs with instbuf := 0 } := by
  induction l generalizing hs with
  | nil => exact .inl rfl
  | cons x rest ih =>
    have hrest : ∀ x ∈ rest, x.2 ≠ .noexc := fun x hx => hl x (List.mem_cons_of_mem _ hx)
    have hx : x.2 ≠ .noexc := hl x List.mem_cons_self
    obtain ⟨bit, he⟩ := x
    simp only [trySetint] at h ⊢
    by_cases hbit : hs.csr.mip.getLsbD bit = true
    · rw [if_pos hbit] at h ⊢
      -- a masked interrupt drops the buffer and lets the rest be tried
      rcases createException_cases hs he 0 with hc | ⟨-, -, hc⟩ | ⟨-, hc⟩
      · rw [hc, if_neg fun hne => hne rfl] at h ⊢
        rcases ih hrest h with hr | hr <;> rw [hr] <;> exact .inr rfl
      · rw [hc, if_pos hx] at h
        cases h
      · rw [hc, if_pos hx] at h
        cases h
    · rw [if_neg hbit] at h ⊢
      exact ih hrest h

/-- The check takes no interrupt, and at most drops the instruction buffer. -/
theorem setupPendingInt_of_not_taken {hs : HartState} (h : (setupPendingInt hs).1 = false) :
    (setupPendingInt hs).2 = hs ∨ (setupPendingInt hs).2 = { hs with instbuf := 0 } := by
  have hmip : ∀ x ∈ [(11, HartException.mextint), (3, .msoftint), (7, .mtimeint), (9, .sextint),
      (1, .ssoftint), (5, .stimeint)], x.2 ≠ .noexc := by decide
  have hsip : ∀ x ∈ [(9, HartException.sextint), (1, .ssoftint), (5, .stimeint)],
      x.2 ≠ .noexc := by decide
  simp only [setupPendingInt] at h ⊢
  generalize hr : (if (hs.csr.mstatus &&& 0b1000 ≠ 0 ∨ hs.privmode < 0b11) ∧ hs.csr.mip ≠ 0 then
    trySetint hs _ else (false, hs)) = r at h ⊢
  -- `r` is what the first of the two lists leads to
  have hfirst : r.1 = false → r.2 = hs ∨ r.2 = { hs with instbuf := 0 } := by
    intro hr1
    subst hr
    by_cases hc : (hs.csr.mstatus &&& 0b1000 ≠ 0 ∨ hs.privmode < 0b11) ∧ hs.csr.mip ≠ 0
    · rw [if_pos hc] at hr1 ⊢
      exact trySetint_of_not_taken hmip hr1
    · rw [if_neg hc]
      exact .inl rfl
  by_cases hr1 : r.1 = true
  · rw [if_pos hr1] at h
    rw [h] at hr1
    cases hr1
  · rw [if_neg hr1] at h ⊢
    have hsame := hfirst (Bool.eq_false_iff.mpr hr1)
    by_cases hc : r.2.csr.mstatus &&& 0b10 ≠ 0 ∧ r.2.csr.mip ≠ 0
    · rw [if_pos hc] at h ⊢
      -- both lists may drop the buffer
      rcases trySetint_of_not_taken hsip h with hq | hq <;> rcases hsame with hs' | hs' <;> rw [hq, hs']
      · exact .inl rfl
      all_goals exact .inr rfl
    · rw [if_neg hc]
      exact hsame

/-- The counters after a cycle. -/
def HartState.tick (hs : HartState) : HartState :=
  { hs with csr := { hs.csr with
      mcycle := hs.csr.mcycle + 1, cycle := hs.csr.mcycle + 1, instret := hs.csr.minstret } }

/-- The cycle that ends in `s` takes an interrupt. -/
def TakesInterrupt (s : Sys δ) : Prop :=
  s.hs.chkInt = true ∧ (setupPendingInt { s.hs.tick with chkInt := false }).1 = true

/-- The end of a cycle without an interrupt moves the counters, and may drop the
    instruction buffer. -/
theorem cycleEnd_of_not_taken {s : Sys δ} (h : ¬ TakesInterrupt s) :
    ∃ instbuf chkInt, (instbuf = s.hs.instbuf ∨ instbuf = 0) ∧
      cycleEnd s = s.setHs { s.hs.tick with instbuf := instbuf, chkInt := chkInt } := by
  have hend : cycleEnd s = if s.hs.chkInt then
      s.setHs (setupPendingInt { s.hs.tick with chkInt := false }).2 else s.setHs s.hs.tick := rfl
  rw [hend]
  split
  · next hchk =>
    have hint : (setupPendingInt { s.hs.tick with chkInt := false }).1 = false :=
      Bool.eq_false_iff.mpr fun hint => h ⟨hchk, hint⟩
    rcases setupPendingInt_of_not_taken hint with hr | hr
    · exact ⟨s.hs.instbuf, false, .inl rfl, by rw [hr]; rfl⟩
    · exact ⟨0, false, .inr rfl, by rw [hr]⟩
  · exact ⟨s.hs.instbuf, s.hs.chkInt, .inl rfl, rfl⟩

/-- Without an interrupt the end of a cycle keeps the control state. -/
theorem cycleEnd_sameControl {s : Sys δ} (h : ¬ TakesInterrupt s) :
    SameControl s (cycleEnd s) := by
  obtain ⟨instbuf, chkInt, -, hend⟩ := cycleEnd_of_not_taken h
  rw [hend]
  rfl

/-! ## What the end of a cycle preserves -/

section Preserves

variable {P : HartState → Prop} (hexc : ∀ hs he tval, P hs → P (createException hs he tval).2)
include hexc

/-- What creating an exception preserves is preserved by a row of attempts, … -/
theorem trySetint_preserves {hs : HartState} (h : P hs) (l : List (Nat × HartException)) :
    P (trySetint hs l).2 := by
  induction l generalizing hs with
  | nil => exact h
  | cons x rest ih =>
    have hx := hexc hs x.2 0 h
    simp only [trySetint]
    split
    · split
      · exact hx
      · exact ih hx
    · exact ih h

/-- … by the interrupt check … -/
theorem setupPendingInt_preserves {hs : HartState} (h : P hs) : P (setupPendingInt hs).2 := by
  simp only [setupPendingInt]
  generalize hr : (if (hs.csr.mstatus &&& 0b1000 ≠ 0 ∨ hs.privmode < 0b11) ∧ hs.csr.mip ≠ 0 then
    trySetint hs _ else (false, hs)) = r
  have hfirst : P r.2 := by
    subst hr
    split
    · exact trySetint_preserves hexc h _
    · exact h
  split
  · exact hfirst
  · split
    · exact trySetint_preserves hexc hfirst _
    · exact hfirst

/-- … and by the end of a cycle, if the counters do not matter to it. -/
theorem cycleEnd_preserves {s : Sys δ} (h : P s.hs.tick)
    (hchk : P s.hs.tick → P { s.hs.tick with chkInt := false }) : P (cycleEnd s).hs := by
  unfold cycleEnd
  dsimp only
  split
  · exact setupPendingInt_preserves hexc (hchk h)
  · exact h

end Preserves

/-! ## The settings across a cycle -/

/-- The length test keeps the settings, … -/
theorem fetchLength_settings (s : Sys δ) : (fetchLength s).2.hs.settings = s.hs.settings := by
  rcases fetchLength_cases s with ⟨he, tval, -, h⟩ | ⟨len, instbuf, inst, h⟩ <;> rw [h]
  · exact createException_settings { s.hs with instLen := 0 } he tval
  · rfl

/-- … and so do the fetch as a whole, … -/
theorem fetch_settings (env : Env δ) (s : Sys δ) :
    (fetch env s).2.hs.settings = s.hs.settings := by
  have hinst := (fetchInst_sameControl env s).settings
  simp only [fetch]
  split
  · next t ht =>
    rcases handleMemError_cases ht with rfl | rfl
    · exact (createException_settings _ .iafault _).trans hinst
    · exact (createException_settings _ .ipfault _).trans hinst
  · exact (fetchLength_settings _).trans hinst

/-- … which keeps the configuration too, … -/
theorem fetch_config (env : Env δ) (s : Sys δ) : (fetch env s).2.hs.config = s.hs.config :=
  config_of_settings (fetch_settings env s)

/-- … and changes the shared state only by the access to the word. -/
theorem fetch_bus (env : Env δ) (s : Sys δ) : (fetch env s).2.bus = (fetchInst env s).bus := by
  simp only [fetch]
  split
  · next t ht => rcases handleMemError_cases ht with rfl | rfl <;> rfl
  · rcases fetchLength_cases (fetchInst env s) with ⟨he, tval, -, h⟩ | ⟨len, instbuf, inst, h⟩ <;>
      rw [h] <;> rfl

/-- The end of a cycle leaves the shared state alone, … -/
theorem cycleEnd_bus (s : Sys δ) : (cycleEnd s).bus = s.bus := by
  unfold cycleEnd
  dsimp only
  split <;> rfl

/-- … and keeps the settings … -/
theorem cycleEnd_settings (s : Sys δ) : (cycleEnd s).hs.settings = s.hs.settings :=
  cycleEnd_preserves (fun t he tval h => (createException_settings t he tval).trans h) rfl id

/-- … and the configuration. -/
theorem cycleEnd_config (s : Sys δ) : (cycleEnd s).hs.config = s.hs.config :=
  config_of_settings (cycleEnd_settings s)

/-- A cycle halts, executes what it has fetched, or ends with the trap of the fetch. -/
theorem cycle_cases (env : Env δ) (t : Sys δ) :
    cycle env t = (false, (fetch env (t.setReg 0 0)).2) ∨
    (Fetches env t (fetch env (t.setReg 0 0)).2 ∧
      cycle env t = (true, cycleEnd (decodeExc env (fetch env (t.setReg 0 0)).2).2)) ∨
    ((fetch env (t.setReg 0 0)).1 ≠ .noexc ∧
      cycle env t = (true, cycleEnd (fetch env (t.setReg 0 0)).2)) := by
  by_cases hsig : env.sigMode = true ∧ (fetch env (t.setReg 0 0)).2.hs.inst = 0xbad33013
  · exact .inl (if_pos hsig)
  · by_cases hexc : (fetch env (t.setReg 0 0)).1 = .noexc
    · have hf : Fetches env t (fetch env (t.setReg 0 0)).2 := ⟨Prod.ext hexc rfl, hsig⟩
      exact .inr (.inl ⟨hf, cycle_of_fetches hf⟩)
    · refine .inr (.inr ⟨hexc, ?_⟩)
      simp only [cycle, if_neg hsig, ne_eq, hexc, not_false_eq_true, ↓reduceIte]

/-- A cycle changes the settings only by the instruction it executes. -/
theorem cycle_settings (env : Env δ) (t : Sys δ) :
    (cycle env t).2.hs.settings = t.hs.settings ∨
    ∃ s, Fetches env t s ∧ s.hs.settings = t.hs.settings ∧
      (cycle env t).2.hs.settings = (decodeExc env s).2.hs.settings := by
  have hfetch : (fetch env (t.setReg 0 0)).2.hs.settings = t.hs.settings := fetch_settings env _
  -- only a decoded instruction can change the settings
  rcases cycle_cases env t with h | ⟨hf, h⟩ | ⟨-, h⟩ <;> rw [h]
  · exact .inl hfetch
  · exact .inr ⟨_, hf, hfetch, cycleEnd_settings _⟩
  · exact .inl ((cycleEnd_settings _).trans hfetch)

/-- A cycle changes the configuration only by the instruction it executes. -/
theorem cycle_config (env : Env δ) (t : Sys δ) :
    (cycle env t).2.hs.config = t.hs.config ∨
    ∃ s, Fetches env t s ∧ s.hs.config = t.hs.config ∧
      (cycle env t).2.hs.config = (decodeExc env s).2.hs.config := by
  rcases cycle_settings env t with h | ⟨s, hf, hs, h⟩
  · exact .inl (config_of_settings h)
  · exact .inr ⟨s, hf, config_of_settings hs, config_of_settings h⟩

end RvEmu
