import RvEmu.Spec.FinalAddress
import RvEmu.Spec.Reservation

/-!
# What LR reserves

LR translates its address twice: once for the load, with the TLB and as the mode and MPRV
have it, and once with a walk for the reservation, after `rd` has been written. SC compares
the reservation with a walk of its own, and then stores with the TLB and as the mode and MPRV
have it. Either pair may give different addresses.
-/

namespace RvEmu

variable {δ : Type}

/-! ## LR -/

section Lr

variable (env : Env δ) (d : Decoded) (s : Sys δ)

/-- The load of an LR. -/
def lrLoad : BitVec 64 × Sys δ :=
  virtMemFetch env (amoWidth d) (s.setMemStatus true) (s.hs.regs d.rs1)

/-- The state in which the reservation is made, with `rd` written. -/
def lrLoaded : Sys δ :=
  (((lrLoad env d s).2.setReg d.rd (lrLoad env d s).1).setReg d.rd
    (amoSigned d (lrLoad env d s).1)).setMemStatus true

/-- Both accesses succeed. -/
structure LrCompletes : Prop where
  load : AccessOk (lrLoad env d s).2
  walk : WalkAccepts env ((lrLoaded env d s).hs.regs d.rs1) false (lrLoaded env d s)

variable {env d s}

/-- The walk reserves its result, or faults. -/
theorem execLrReserve_reserves (u : Sys δ) :
    Ends (fun he _ _ => he ≠ .noexc ∧
        ¬ WalkAccepts env (u.hs.regs d.rs1) false (u.setMemStatus true))
      (fun _ t => WalkAccepts env (u.hs.regs d.rs1) false (u.setMemStatus true) ∧
        t.bus.reservations u.hs.hartid =
          (pageTableWalk env (u.setMemStatus true) (u.hs.regs d.rs1) false).1 ∧
        t.hs.regs = u.hs.regs)
      (execLrReserve env d u) := by
  have hwalk := pageTableWalk_frame env (u.setMemStatus true) (u.hs.regs d.rs1) false
  unfold execLrReserve
  dsimp only
  split
  · next r hr =>
    have hfault : ¬ WalkAccepts env (u.hs.regs d.rs1) false (u.setMemStatus true) :=
      fun h => handleMemError_some hr ⟨h.2, h.1⟩
    exact ends_memError hr ⟨by decide, hfault⟩ ⟨by decide, hfault⟩ rfl rfl
  · next hok =>
    have hwalked := handleMemError_none hok
    refine .brk false _ ⟨⟨hwalked.2, hwalked.1⟩, ?_, hwalk.regs⟩
    have hhart : (pageTableWalk env (u.setMemStatus true) (u.hs.regs d.rs1) false).2.hs.hartid =
        u.hs.hartid := hwalk.hartid
    rw [← hhart]
    exact Function.update_self ..

/-- An LR completes if both accesses succeed. -/
theorem execAmo_lr_completes (hlr : d.funct5 = 0b00010) :
    Ends (fun he _ _ => he ≠ .noexc ∧ ¬ LrCompletes env d s)
      (fun _ t => LrCompletes env d s ∧
        t.bus.reservations s.hs.hartid =
          (pageTableWalk env (lrLoaded env d s) ((lrLoaded env d s).hs.regs d.rs1) false).1 ∧
        t.hs.regs d.rd = amoSigned d (lrLoad env d s).1)
      (execAmo env d s) := by
  have hsc : ¬ d.funct7.extractLsb' 2 5 = 0b00011 := by
    show ¬ d.funct5 = 0b00011
    rw [hlr]
    decide
  have hload := virtMemFetch_frame env (s.setMemStatus true) (amoWidth d) (s.hs.regs d.rs1)
  have hrd : ((lrLoad env d s).2.setReg d.rd (lrLoad env d s).1).hs.regs d.rd =
      (lrLoad env d s).1 := Function.update_self ..
  unfold execAmo
  dsimp only
  rw [if_neg hsc]
  split
  · next r hr =>
    have hfault : ¬ LrCompletes env d s := fun hc => handleMemError_some hr hc.load
    exact ends_memError hr ⟨by decide, hfault⟩ ⟨by decide, hfault⟩ rfl rfl
  · next hok =>
    have haccess := handleMemError_none hok
    rw [if_pos (show d.funct7.extractLsb' 2 5 = 0b00010 from hlr)]
    change Ends _ _ (execLrReserve env d (((lrLoad env d s).2.setReg d.rd
      (lrLoad env d s).1).setReg d.rd (amoSigned d (((lrLoad env d s).2.setReg d.rd
        (lrLoad env d s).1).hs.regs d.rd))))
    rw [hrd]
    -- the walk is made in the state with the loaded value in `rd`
    refine (execLrReserve_reserves _).mono ?_ ?_
    · rintro he tval t ⟨hexc, hfault⟩
      exact ⟨hexc, fun hc => hfault hc.walk⟩
    · rintro b t ⟨haccepts, hreserved, hregs⟩
      refine ⟨⟨haccess, haccepts⟩, ?_, (congrFun hregs d.rd).trans (Function.update_self ..)⟩
      have hhart : (lrLoad env d s).2.hs.hartid = s.hs.hartid := hload.hartid
      rw [← hhart]
      exact hreserved

/-- What is in `rs1` once the word at `p` in the RAM `m` has been loaded. -/
def lrAddress (env : Env δ) (d : Decoded) (s : Sys δ) (p : BitVec 64) (m : BitVec 64 → BitVec 8) :
    BitVec 64 :=
  if d.rs1 = d.rd then
    amoSigned d (finalWord env (amoWidth d) (s.setMemStatus true) (s.hs.regs d.rs1) p m)
  else s.hs.regs d.rs1

/-- The load is granted at `p`, and the page tables that it leaves translate what is then in
    `rs1`, for a read in the mode of the hart, to `q`. -/
structure LrReserves (env : Env δ) (d : Decoded) (s : Sys δ) (p q : BitVec 64)
    (m : BitVec 64 → BitVec 8) : Prop where
  pageFault : s.hs.pageFault = false
  load : Granted env (amoWidth d) (s.setMemStatus true) (s.hs.regs d.rs1) p m
  translates : TablesTranslate env (lrAddress env d s p m) false (lrLoaded env d s)
  address : tableAddress env (lrAddress env d s p m) (lrLoaded env d s) = some q

/-- The address that a granted load leaves in `rs1`. -/
theorem lrLoaded_rs1 {p : BitVec 64} {m : BitVec 64 → BitVec 8} (hfault : s.hs.pageFault = false)
    (h : Granted env (amoWidth d) (s.setMemStatus true) (s.hs.regs d.rs1) p m) :
    (lrLoaded env d s).hs.regs d.rs1 = lrAddress env d s p m := by
  have hframe := virtMemFetch_frame env (s.setMemStatus true) (amoWidth d) (s.hs.regs d.rs1)
  have hword : (lrLoad env d s).1 = _ := h.value hfault
  unfold lrAddress
  split
  · next hrd =>
    rw [← hword, hrd]
    exact Function.update_self ..
  · next hrd =>
    have hkept : (lrLoad env d s).2.hs.regs d.rs1 = s.hs.regs d.rs1 := congrFun hframe.regs d.rs1
    rw [← hkept]
    exact (Function.update_of_ne hrd ..).trans (Function.update_of_ne hrd ..)

/-- An LR completes if it has an address to reserve. -/
theorem lrCompletes_iff : LrCompletes env d s ↔ ∃ p q m, LrReserves env d s p q m := by
  constructor
  · rintro ⟨hload, hwalk⟩
    have hfault : s.hs.pageFault = false := (virtMemFetch_ok_iff.mp hload).1
    obtain ⟨p, m, hgranted⟩ := (virtMemFetch_ok_granted (by exact hfault)).mp hload
    rw [lrLoaded_rs1 hfault hgranted] at hwalk
    exact ⟨p, _, m, hfault, hgranted, (walkAccepts_iff_tables.mp hwalk).2, hwalk.address⟩
  · rintro ⟨p, q, m, hfault, hgranted, htables, -⟩
    have hload : AccessOk (lrLoad env d s).2 :=
      (virtMemFetch_ok_granted (by exact hfault)).mpr ⟨p, m, hgranted⟩
    refine ⟨hload, ?_⟩
    rw [lrLoaded_rs1 hfault hgranted]
    exact walkAccepts_iff_tables.mpr ⟨hload.2, htables⟩

/-- `decode_exc` on an LR. -/
theorem decodeExc_lr (hlen : s.hs.instLen = 32) (hlr : (decode32 s.hs.inst).IsLr) :
    ((decodeExc env s).1 = .noexc ↔ LrCompletes env (decode32 s.hs.inst) s) ∧
    ((decodeExc env s).1 = .noexc →
      (decodeExc env s).2.bus.reservations s.hs.hartid =
        (pageTableWalk env (lrLoaded env (decode32 s.hs.inst) s)
          ((lrLoaded env (decode32 s.hs.inst) s).hs.regs (decode32 s.hs.inst).rs1) false).1 ∧
      (decodeExc env s).2.hs.regs (decode32 s.hs.inst).rd =
        amoSigned (decode32 s.hs.inst) (lrLoad env (decode32 s.hs.inst) s).1) := by
  have hinst : s.withInst (decode32 s.hs.inst).inst s.hs.instLen = s := by
    rw [decode32_inst]
    rfl
  rw [decodeExc_of_decodes env (.inr ⟨hlen, rfl⟩), hinst, execute_amo env hlr.1]
  rcases finish_of_ends (execAmo_lr_completes hlr.2) with
    ⟨t, he, tval, ⟨hne, hfault⟩, hint, hf⟩ | ⟨b, t, ⟨hcompletes, hreserved, hrd⟩, hf⟩
  · rw [hf, createException_fst t tval hint]
    exact ⟨iff_of_false hne hfault, fun h => absurd h hne⟩
  · rw [hf, retire_bus, retire_regs]
    exact ⟨iff_of_true rfl hcompletes, fun _ => ⟨hreserved, hrd⟩⟩

/-- The value in `rd` after the LR has been loaded from the physical address `p`. -/
structure LoadedFrom (env : Env δ) (d : Decoded) (s : Sys δ) (p : BitVec 64) : Prop where
  address : (finalAccess env (s.setMemStatus true) (s.hs.regs d.rs1)).1 = some p
  value : (decodeExc env s).2.hs.regs d.rd =
    amoSigned d (memFetch env (amoWidth d)
      (finalAccess env (s.setMemStatus true) (s.hs.regs d.rs1)).2 p).1

/-- What an LR that completes has loaded from and reserved. -/
theorem LrReserves.result (hlen : s.hs.instLen = 32) (hlr : (decode32 s.hs.inst).IsLr)
    {p q : BitVec 64} {m : BitVec 64 → BitVec 8}
    (h : LrReserves env (decode32 s.hs.inst) s p q m) :
    (decodeExc env s).1 = .noexc ∧ LoadedFrom env (decode32 s.hs.inst) s p ∧
      (decodeExc env s).2.bus.reservations s.hs.hartid = q := by
  obtain ⟨hcompletes, hresult⟩ := @decodeExc_lr δ env s hlen hlr
  have hdone := lrCompletes_iff.mpr ⟨p, q, m, h⟩
  have hexc := hcompletes.mpr hdone
  obtain ⟨hreserved, hrd⟩ := hresult hexc
  have hp := ((finalAddress_iff (by exact h.pageFault)).mp h.load.address).1
  refine ⟨hexc, ⟨hp, ?_⟩, ?_⟩
  · rw [hrd, lrLoad, (virtMemFetch_final hp).1]
  · have hq := h.address
    rw [← lrLoaded_rs1 h.pageFault h.load] at hq
    rw [hreserved]
    exact Option.some.inj (hdone.walk.address.symm.trans hq)

end Lr

/-! ## SC -/

section Sc

variable (env : Env δ) (d : Decoded) (s : Sys δ)

variable {env d s}

end Sc

/-! ## The pair -/

section Pair

variable (env : Env δ) (d e : Decoded) (s u : Sys δ)

variable {env s u}

end Pair

end RvEmu
