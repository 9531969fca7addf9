import Mathlib.Logic.Relation
import RvEmu.Native.Devices

/-!
# The machine

`main.cpp`: the harts, each with a thread in `hart_loop`, the loop of `main` that polls the
hardware, and the thread of `uart_loop`. A step of the machine is a cycle of one hart, one
call of `main`, or one iteration of `uart_loop`; the threads take their steps in any order.
-/

namespace RvEmu

/-- Where `main` is: at the test of its loop, before the poll of a hart, before `hw_update`,
    before the threads are joined, or past that. -/
inductive MainPos where
  | test
  | hart (i : Nat)
  | update
  | join
  | done
  deriving DecidableEq

/-- The state of the emulator; `running i` while the thread of hart `i` is in `hart_loop`. -/
structure Machine where
  hartlist : BitVec 16 → HartState
  mainMem : BitVec 64 → BitVec 8
  reservations : BitVec 16 → BitVec 64
  dev : Devices
  running : BitVec 16 → Bool
  mainPos : MainPos
  interrupted : Bool

/-- The steps of the machine; `received` is what the terminal has for `uart_chk`. -/
inductive MachineEvent where
  | hart (i : BitVec 16)
  | main (received : Option (BitVec 8))
  | uartLoop
  | sigint
  deriving DecidableEq

namespace Machine

/-- `hartlist[i].mip` for every `i` -/
def mips (m : Machine) : BitVec 16 → BitVec 64 := fun i => (m.hartlist i).csr.mip

/-- What the harts share, and the lines between them. -/
def bus (m : Machine) : Bus Devices := ⟨m.mainMem, m.reservations, m.mips, m.dev⟩

/-- The machine as hart `i` sees it. -/
def view (m : Machine) (i : BitVec 16) : Sys Devices := ⟨m.hartlist i, m.bus⟩

/-- `hartlist` after `mip` has been written. -/
def setMips (m : Machine) (mips : BitVec 16 → BitVec 64) : BitVec 16 → HartState :=
  fun i => { m.hartlist i with csr := { (m.hartlist i).csr with mip := mips i } }

/-- The machine after hart `i` has gone on to `s`. -/
def put (m : Machine) (i : BitVec 16) (s : Sys Devices) : Machine :=
  { m with
    hartlist := Function.update (m.setMips s.bus.peerMip) i s.hs
    mainMem := s.bus.mainMem
    reservations := s.bus.reservations
    dev := s.bus.dev }

/-- A call into the device files. -/
def call (m : Machine)
    (f : Devices → (BitVec 16 → BitVec 64) → Devices × (BitVec 16 → BitVec 64)) : Machine :=
  let r := f m.dev m.mips
  { m with dev := r.1, hartlist := m.setMips r.2 }

/-- `hartlist[i].chk_int = true` -/
def setChkInt (m : Machine) (i : BitVec 16) : Machine :=
  { m with hartlist := Function.update m.hartlist i { m.hartlist i with chkInt := true } }

/-- The thread of hart `i` leaves `hart_loop`, and tells the others to. -/
def stop (m : Machine) (i : BitVec 16) : Machine :=
  { m with running := Function.update m.running i false, interrupted := true }

/-- One round of `hart_loop`. -/
def hartLoop (host : Host) (i : BitVec 16) (m : Machine) : Machine :=
  let r := cycle host.env (m.view i)
  if r.1 && !m.interrupted then m.put i r.2 else (m.put i r.2).stop i

/-- One call of the loop of `main`, or the end of it. -/
def mainLoop (host : Host) (received : Option (BitVec 8)) (m : Machine) : Machine :=
  let count := host.machHartCount.toNat
  match m.mainPos with
  | .test =>
    { m with mainPos := if m.interrupted then .join else if 0 < count then .hart 0 else .update }
  | .hart i =>
    let m := (m.call (Devices.hwPerhartUpdate host (BitVec.ofNat 16 i))).setChkInt
      (BitVec.ofNat 16 i)
    { m with mainPos := if i + 1 < count then .hart (i + 1) else .update }
  | .update => { m.call (Devices.hwUpdate host received) with mainPos := .test }
  | .join => { m with mainPos := .done }
  | .done => m

/-- The step of an event. -/
def step (host : Host) (m : Machine) : MachineEvent → Machine
  | .hart i => m.hartLoop host i
  | .main received => m.mainLoop host received
  | .uartLoop => m.call (Devices.uartLoop host)
  | .sigint => { m with interrupted := true }

/-- Which events can be next: a thread takes no step after its end, `main` waits for the
    threads of the harts, and the one of `uart_loop` for `tx_required`. -/
def Enabled (host : Host) (m : Machine) : MachineEvent → Prop
  | .hart i => i < host.machHartCount ∧ m.running i = true
  | .main _ => m.mainPos ≠ .done ∧
    (m.mainPos = .join → ∀ i < host.machHartCount, m.running i = false)
  | .uartLoop => m.mainPos ≠ .done ∧ m.dev.uart.txRequired = true
  | .sigint => m.mainPos ≠ .done

/-- A step of one of the threads that `threads` lets go on. -/
def StepOf (host : Host) (threads : MachineEvent → Prop) (m n : Machine) : Prop :=
  ∃ e, threads e ∧ m.Enabled host e ∧ n = m.step host e

/-- A step of any thread. -/
def Step (host : Host) : Machine → Machine → Prop := StepOf host fun _ => True

/-- The machine when `main` sets `hart_start`, with the files it was given in RAM; `heap` is
    what the allocations of the devices find in memory. -/
def boot (host : Host) (mainMem : BitVec 64 → BitVec 8) (heap : Devices) : Machine where
  hartlist := hartInit host.env
  mainMem := mainMem
  reservations := fun _ => 0
  dev := hwInit host heap
  running := fun i => i < host.machHartCount
  mainPos := .test
  interrupted := false

/-- The states the machine can be in. -/
def Reachable (host : Host) (m : Machine) : Prop :=
  ∃ mainMem heap, Relation.ReflTransGen (Step host) (boot host mainMem heap) m

end Machine

end RvEmu
