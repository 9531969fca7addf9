import RvEmu.Spec.BusRule
import RvEmu.Spec.Machine
import RvEmu.Spec.UartBuffer

/-!
# The devices of the machine

What every handler of `mem_map` keeps of the devices is kept by a cycle, whatever the hart
executes; what the threads of `main` and `uart_loop` keep as well holds in every run of the
machine. For the UART this is the bound of its output buffer: the guest reaches the
transmitter through the memory map, at every offset and width, and a write that finds the
buffer being printed waits for that.

## Key results

- `cycle_dev`: from the handlers to a cycle
- `Machine.Reachable.devices`: from the calls into the device files to every run
- `machine_output_terminated`: the output buffer, in every state of the machine
-/

namespace RvEmu

section Devices

variable {δ : Type} {env : Env δ} {Q : δ → Prop}

/-- A fetch reaches the devices through `handler_r` alone, … -/
theorem memFetch_dev (hread : ∀ dev offset len d, Q d → Q (env.handlerR dev offset len d).2)
    {s : Sys δ} (h : Q s.bus.dev) (w : Width) (addr : BitVec 64) :
    Q (memFetch env w s addr).2.bus.dev := by
  unfold memFetch
  split
  · exact h
  · unfold phyMemFetch
    split
    · exact h
    · split
      · exact hread _ _ _ _ h
      · split <;> exact h

/-- … and a store through `handler_w`. -/
theorem memStore_dev
    (hwrite : ∀ dev offset data len d mips, Q d → Q (env.handlerW dev offset data len d mips).1)
    {s : Sys δ} (h : Q s.bus.dev) (w : Width) (addr data : BitVec 64) :
    Q (memStore env w s addr data).bus.dev := by
  unfold memStore
  split
  · exact h
  · unfold phyMemStore
    split
    · exact h
    · split
      · exact hwrite _ _ _ _ _ _ h
      · exact h

/-- What the handlers and the clock keep of the devices, a cycle keeps. -/
theorem cycle_dev (hread : ∀ dev offset len d, Q d → Q (env.handlerR dev offset len d).2)
    (hwrite : ∀ dev offset data len d mips, Q d → Q (env.handlerW dev offset data len d mips).1)
    (htime : ∀ d, Q d → Q (env.aclintMtimeGet d).2) {s : Sys δ} (h : Q s.bus.dev) :
    Q (cycle env s).2.bus.dev := by
  have hclosed : BusClosed env s.hs.hartid fun b => Q b.dev := {
    fetch := fun t w addr _ ht => memFetch_dev hread ht w addr
    store := fun t w addr data _ ht => memStore_dev hwrite ht w addr data
    reserve := fun _ _ ht => ht
    time := fun b hb => htime b.dev hb }
  exact hclosed.cycle ⟨rfl, h⟩

end Devices

/-- What the calls into the device files keep holds of the devices in every run. -/
theorem Machine.Reachable.devices {host : Host} {Q : Devices → Prop}
    (hinit : ∀ heap, Q (hwInit host heap))
    (hread : ∀ dev offset len d, Q d → Q (host.handlerR dev offset len d).2)
    (hwrite : ∀ dev offset data len d mips, Q d → Q (host.handlerW dev offset data len d mips).1)
    (htime : ∀ d : Devices, Q d → Q d.tick)
    (hperhart : ∀ i d mips, Q d → Q (Devices.hwPerhartUpdate host i d mips).1)
    (hupdate : ∀ received d mips, Q d → Q (Devices.hwUpdate host received d mips).1)
    (hloop : ∀ d mips, Q d → Q (Devices.uartLoop host d mips).1) {m : Machine}
    (h : m.Reachable host) : Q m.dev := by
  refine h.invariant (P := fun m => Q m.dev) (fun _ heap => hinit heap) fun m e _ hm => ?_
  cases e with
  | hart i =>
    have hcycle : Q (cycle host.env (m.view i)).2.bus.dev :=
      @cycle_dev _ host.env Q hread hwrite htime (m.view i) hm
    rw [step]
    rcases hartLoop_cases host m i with ⟨-, -, hloop⟩ | ⟨-, hloop⟩ <;> rw [hloop] <;>
      exact hcycle
  | main received =>
    simp only [step, mainLoop]
    split
    · exact hm
    · exact hperhart _ _ _ hm
    · exact hupdate _ _ _ hm
    · exact hm
    · exact hm
  | uartLoop => exact hloop _ _ hm
  | sigint => exact hm

/-! ## The output buffer -/

section Output

variable {host : Host} {d : Devices}

/-- A guest's write at any offset of the UART; at the transmitter it waits for the buffer. -/
theorem TxTerminated.write {s : UartState} (h : TxTerminated s) (host : UartHost) (offset : Nat)
    (b : BitVec 8) : TxTerminated (uartWrite host offset b s).2 := by
  unfold uartWrite
  split
  · have hset : SameOutput s (s.setReg 0 b) := ⟨rfl, rfl, id⟩
    have hlock := (h.same hset).same (uartTransmitLock_same _).sameOutput
    dsimp only
    split
    · -- the iteration of `uart_loop` has emptied the buffer
      exact (txTerminated_loop host _).transmitData rfl b
    · next hfree => exact hlock.transmitData (Bool.eq_false_iff.mpr hfree) b
  · next hoffset => exact h.same (uartW_output hoffset b)

/-- No read through the memory map changes the output buffer. -/
theorem handlerR_output (dev : Device) (offset : BitVec 64) (len : Nat)
    (h : TxTerminated d.uart) : TxTerminated (host.handlerR dev offset len d).2.uart := by
  cases dev with
  | uart => exact h.same (uartR_output offset.toNat)
  | plic => exact h.same ⟨rfl, rfl, id⟩
  | aclintMtimer =>
    simp only [Host.handlerR]
    split <;> exact h
  | virtioMmioBlk | aclintMswi | dtb => exact h

/-- A write through the memory map keeps it terminated, whichever device it is for. -/
theorem handlerW_output (dev : Device) (offset data : BitVec 64) (len : Nat)
    (mips : BitVec 16 → BitVec 64) (h : TxTerminated d.uart) :
    TxTerminated (host.handlerW dev offset data len d mips).1.uart := by
  have hwith : TxTerminated (d.uartWith mips) := h.same ⟨rfl, rfl, id⟩
  cases dev with
  | uart => exact hwith.write host.toUartHost offset.toNat (data.setWidth 8)
  | plic => exact h.same ⟨rfl, rfl, id⟩
  | virtioMmioBlk | aclintMtimer | aclintMswi | dtb => exact h

/-- The poll of the terminal, with or without a character. -/
theorem hwUpdate_output (hhost : host.toUartHost.OutputApart) (received : Option (BitVec 8))
    (mips : BitVec 16 → BitVec 64) (h : TxTerminated d.uart) :
    TxTerminated (Devices.hwUpdate host received d mips).1.uart := by
  have hwith : TxTerminated (d.uartWith mips) := h.same ⟨rfl, rfl, id⟩
  have hchk := hwith.same (uartChk_apart hhost received)
  unfold Devices.hwUpdate
  generalize uartChk host.toUartHost received (d.uartWith mips) = u at hchk
  exact hchk.same ⟨rfl, rfl, id⟩

/-- An iteration of `uart_loop` leaves it empty. -/
theorem uartLoop_output (host : Host) (d : Devices) (mips : BitVec 16 → BitVec 64) :
    TxTerminated (Devices.uartLoop host d mips).1.uart := by
  have hloop := txTerminated_loop host.toUartHost (d.uartWith mips)
  unfold Devices.uartLoop
  generalize RvEmu.uartLoop host.toUartHost (d.uartWith mips) = r at hloop
  exact hloop

end Output

/-- In every state of the machine the output buffer is terminated, whatever programs the harts
    run, whatever is typed, and in any interleaving of the threads. -/
theorem machine_output_terminated {host : Host} (hhost : host.toUartHost.OutputApart)
    {m : Machine} (h : m.Reachable host) : TxTerminated m.dev.uart := by
  refine h.devices (Q := fun d => TxTerminated d.uart) ?_ ?_ ?_ ?_ ?_ ?_ ?_
  · exact fun heap => txTerminated_init _
  · exact fun dev offset len d hd => handlerR_output dev offset len hd
  · exact fun dev offset data len d mips hd => handlerW_output dev offset data len mips hd
  · exact fun _ hd => hd
  · exact fun _ _ _ hd => hd
  · exact fun received d mips hd => hwUpdate_output hhost received mips hd
  · exact fun d mips _ => uartLoop_output host d mips

end RvEmu
