import RvEmu.Native.Machine
import RvEmu.Spec.Exclusive
import RvEmu.Spec.FaultFlags
import RvEmu.Spec.PcAligned
import RvEmu.Spec.SieMirror
import RvEmu.Spec.TlbTable

/-!
# The machine refines the hart model

What a run of the machine looks like from one hart: its own cycles are cycles of the hart
model, and everything the other threads do is something the rest of the machine can do to
a hart. So what holds in every run of the hart model holds of every running hart, in every
interleaving of the threads.

## Key results

- `step_view`: a step of the machine from where a hart stands
- `view_reachable`: every running hart is in a state of the hart model
- `running_hart_sound`: the invariants of a hart, on every hart of the machine
- `machine_exclusive`: no two harts of the machine hold the same reservation
-/

namespace RvEmu

/-- What holds at the start, and is preserved by every step, holds in every state. -/
theorem Machine.Reachable.invariant {host : Host} {P : Machine → Prop}
    (hboot : ∀ mainMem heap, P (boot host mainMem heap))
    (hstep : ∀ m e, Machine.Enabled host m e → P m → P (m.step host e)) {m : Machine}
    (h : m.Reachable host) : P m := by
  obtain ⟨mainMem, heap, hrun⟩ := h
  refine holds_of_run ?_ hrun (hboot mainMem heap)
  rintro s t ⟨e, -, hen, rfl⟩ hs
  exact hstep s e hen hs

/-! ## What a step leaves alone -/

namespace Machine

variable (host : Host) (m : Machine) (i j : BitVec 16)

/-- Hart `i` is in the state it has gone on to, … -/
theorem put_hart (s : Sys Devices) : (m.put i s).hartlist i = s.hs := Function.update_self ..

/-- … and in another hart only `mip` may have been written. -/
theorem put_other (s : Sys Devices) (h : j ≠ i) :
    (m.put i s).hartlist j =
      { m.hartlist j with csr := { (m.hartlist j).csr with mip := s.bus.peerMip j } } :=
  Function.update_of_ne h ..

/-- The harts apart from what `main` and the devices write in them. -/
def offLines (hs : HartState) : HartState :=
  { hs with csr := { hs.csr with mip := 0 }, chkInt := false }

/-- Where a hart is the same apart from its lines, other threads have taken the step. -/
theorem hartStep_of_offLines {δ : Type} {env : Env δ} {s t : Sys δ}
    (h : offLines t.hs = offLines s.hs) : HartStep env s t := by
  have ht : t = ⟨{ s.hs with
      csr := { s.hs.csr with mip := t.hs.csr.mip }, chkInt := t.hs.chkInt }, t.bus⟩ := by
    obtain ⟨hs, bus⟩ := t
    refine congrArg (Sys.mk · bus) ?_
    exact (congrArg (fun u : HartState =>
      { u with csr := { u.csr with mip := hs.csr.mip }, chkInt := hs.chkInt }) h :)
  rw [ht]
  exact .others s t.bus _ _

/-- A hart goes on, or its thread ends and stops the others. -/
theorem hartLoop_cases :
    ((cycle host.env (m.view i)).1 = true ∧ m.interrupted = false ∧
      m.hartLoop host i = m.put i (cycle host.env (m.view i)).2) ∨
    (((cycle host.env (m.view i)).1 = false ∨ m.interrupted = true) ∧
      m.hartLoop host i = (m.put i (cycle host.env (m.view i)).2).stop i) := by
  have hloop : m.hartLoop host i =
      if (cycle host.env (m.view i)).1 && !m.interrupted then
        m.put i (cycle host.env (m.view i)).2
      else (m.put i (cycle host.env (m.view i)).2).stop i := rfl
  rw [hloop]
  cases hcycle : (cycle host.env (m.view i)).1 <;> cases hint : m.interrupted
  · exact .inr ⟨.inl rfl, rfl⟩
  · exact .inr ⟨.inl rfl, rfl⟩
  · exact .inl ⟨rfl, rfl, rfl⟩
  · exact .inr ⟨.inr rfl, rfl⟩

/-- The thread of the hart is over, … -/
theorem stop_running_self : (m.stop i).running i = false := Function.update_self ..

/-- … and no other one has started. -/
theorem running_of_stop (h : (m.stop i).running j = true) : m.running j = true := by
  by_cases hij : j = i
  · rw [hij, stop_running_self] at h
    cases h
  · change Function.update m.running i false j = true at h
    rwa [Function.update_of_ne hij] at h

/-- A round of `hart_loop` leaves the other harts alone up to their lines. -/
theorem hartLoop_hartlist (h : j ≠ i) :
    offLines ((m.hartLoop host i).hartlist j) = offLines (m.hartlist j) := by
  have hput : offLines ((m.put i (cycle host.env (m.view i)).2).hartlist j) =
      offLines (m.hartlist j) := by
    rw [put_other m i j _ h]
    rfl
  rcases hartLoop_cases host m i with ⟨-, -, hloop⟩ | ⟨-, hloop⟩ <;> rw [hloop] <;> exact hput

/-- So does the request to check the interrupts. -/
theorem setChkInt_offLines (m : Machine) :
    offLines ((m.setChkInt i).hartlist j) = offLines (m.hartlist j) := by
  have hset : (m.setChkInt i).hartlist j =
      Function.update m.hartlist i { m.hartlist i with chkInt := true } j := rfl
  rw [hset]
  by_cases h : j = i
  · rw [h, Function.update_self]
    rfl
  · rw [Function.update_of_ne h]

/-- The loop of `main` and the devices write nothing but lines. -/
theorem mainLoop_hartlist (received : Option (BitVec 8)) :
    offLines ((m.mainLoop host received).hartlist j) = offLines (m.hartlist j) := by
  unfold mainLoop
  dsimp only
  split
  · rfl
  · exact (setChkInt_offLines _ j _).trans rfl
  · rfl
  · rfl
  · rfl

/-- Of another hart, no step changes more than the lines. -/
theorem step_hartlist {e : MachineEvent} (h : e ≠ .hart i) :
    offLines ((m.step host e).hartlist i) = offLines (m.hartlist i) := by
  cases e with
  | hart j => exact hartLoop_hartlist host m j i fun hij => h (congrArg _ hij.symm)
  | main received => exact mainLoop_hartlist host m i received
  | uartLoop => rfl
  | sigint => rfl

/-- Its own step is its cycle. -/
theorem stepHart_hartlist :
    (m.step host (.hart i)).hartlist i = (cycle host.env (m.view i)).2.hs := by
  rw [step]
  rcases hartLoop_cases host m i with ⟨-, -, hloop⟩ | ⟨-, hloop⟩ <;> rw [hloop] <;>
    exact put_hart m i _

/-- It writes `mip` alone of another hart. -/
theorem stepHart_other (h : j ≠ i) :
    (m.step host (.hart i)).hartlist j = { m.hartlist j with
      csr := { (m.hartlist j).csr with
        mip := (cycle host.env (m.view i)).2.bus.peerMip j } } := by
  rw [step]
  rcases hartLoop_cases host m i with ⟨-, -, hloop⟩ | ⟨-, hloop⟩ <;> rw [hloop] <;>
    exact put_other m i j _ h

/-- `main` starts and ends no thread of a hart. -/
theorem mainLoop_running (received : Option (BitVec 8)) :
    (m.mainLoop host received).running = m.running := by
  unfold mainLoop
  dsimp only
  split <;> rfl

/-- A thread that has ended does not start again. -/
theorem running_of_step {e : MachineEvent} (h : (m.step host e).running i = true) :
    m.running i = true := by
  cases e with
  | hart j =>
    rw [step] at h
    rcases hartLoop_cases host m j with ⟨-, -, hloop⟩ | ⟨-, hloop⟩ <;> rw [hloop] at h
    · exact h
    · exact running_of_stop (m.put j _) j i h
  | main received => exact (congrFun (mainLoop_running host m received) i) ▸ h
  | uartLoop => exact h
  | sigint => exact h

/-- A step of the machine is a step of the hart model, for a hart that is still running. -/
theorem step_view (e : MachineEvent) (h : (m.step host e).running i = true) :
    Relation.ReflTransGen (HartStep host.env) (m.view i) ((m.step host e).view i) := by
  by_cases he : e = .hart i
  · subst he
    rw [step] at h ⊢
    rcases hartLoop_cases host m i with ⟨hcycle, -, hloop⟩ | ⟨-, hloop⟩ <;> rw [hloop] at h ⊢
    · -- the cycle, and then the lines that the other harts see of this one
      refine (Relation.ReflTransGen.single (.cycle (m.view i) hcycle)).tail ?_
      exact hartStep_of_offLines (congrArg offLines (put_hart m i _))
    · rw [stop_running_self] at h
      cases h
  · exact .single (hartStep_of_offLines (step_hartlist host m i he))

end Machine

/-- In every interleaving of the threads, every hart that is still running is in a state that
    the hart model reaches. -/
theorem view_reachable {host : Host} {m : Machine} (h : m.Reachable host) {i : BitVec 16}
    (hi : m.running i = true) : Reachable host.env (m.view i) := by
  revert hi
  refine h.invariant (P := fun m => m.running i = true → Reachable host.env (m.view i)) ?_ ?_
  · intro mainMem heap _
    exact ⟨i, (Machine.boot host mainMem heap).bus, .refl⟩
  · intro m e _ ih hi
    obtain ⟨hartid, bus, hrun⟩ := ih (m.running_of_step host i hi)
    exact ⟨hartid, bus, hrun.trans (m.step_view host i e hi)⟩

/-- The invariants of the hart model, on every running hart of the machine: the pc is even,
    `page_fault` is clear, the TLB is well formed, and `sie` has no machine-level interrupt. -/
theorem running_hart_sound {host : Host} {m : Machine} (h : m.Reachable host) {i : BitVec 16}
    (hi : m.running i = true) :
    (m.hartlist i).PcEven ∧ (m.hartlist i).pageFault = false ∧ TlbRep (m.hartlist i).tlb ∧
      (m.hartlist i).SieSupervisor := by
  have hview := view_reachable h hi
  exact ⟨hview.pcEven, hview.pageFault, hview.tlbRep, sieSupervisor_of_reachable hview⟩

/-! ## The reservations of all harts -/

/-- `main` touches no reservation. -/
theorem Machine.mainLoop_reservations (host : Host) (m : Machine)
    (received : Option (BitVec 8)) :
    (m.mainLoop host received).reservations = m.reservations := by
  unfold mainLoop
  dsimp only
  split <;> rfl

/-- No step gives two harts the same reservation. -/
theorem Machine.step_exclusive (host : Host) (m : Machine) (e : MachineEvent)
    (h : Exclusive host.env m.reservations) :
    Exclusive host.env (m.step host e).reservations := by
  cases e with
  | hart i =>
    have hcycle : Exclusive host.env (cycle host.env (m.view i)).2.bus.reservations :=
      exclusive_cycle (s := m.view i) h
    rw [step]
    rcases hartLoop_cases host m i with ⟨-, -, hloop⟩ | ⟨-, hloop⟩ <;> rw [hloop] <;>
      exact hcycle
  | main received =>
    rw [step, mainLoop_reservations]
    exact h
  | uartLoop => exact h
  | sigint => exact h

/-- In every interleaving of the threads, no two harts hold the same reservation. -/
theorem machine_exclusive {host : Host} {m : Machine} (h : m.Reachable host) :
    Exclusive host.env m.reservations :=
  h.invariant (P := fun m => Exclusive host.env m.reservations)
    (fun _ _ _ _ _ _ _ h0 => absurd rfl h0) fun m e _ => m.step_exclusive host e

end RvEmu
