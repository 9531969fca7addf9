import Mathlib.Data.List.Induction
import RvEmu.Spec.Uart

/-!
# The divisor latch

While DLAB is set, offsets 0 and 1 are the divisor latch. `uart_w` does not look at DLAB: a
write to offset 0 transmits a character, and a write to offset 1 sets the interrupt enables.

## Key results

- `latchWrites_eq`: writes to offset 1 alone leave the last of them in `regs[1]`
- `latchIsolated_iff`: which writes have no effect once DLAB is clear
-/

namespace RvEmu

/-- A write to one half of the divisor latch. -/
structure LatchWrite where
  offset : Fin 2
  data : BitVec 8

section Writes

variable (host : UartHost)

/-- A write to offset 0 waits until `uart_loop` has printed what it has to. -/
def LatchWrite.wait (s : UartState) (w : LatchWrite) : UartState :=
  if w.offset = 0 ∧ s.txRequired then (uartLoop host s).2 else s

def LatchWrite.step (s : UartState) (w : LatchWrite) : UartState :=
  uartW w.offset w.data (w.wait host s)

/-- The state after a sequence of writes. -/
def latchWrites (s : UartState) (ws : List LatchWrite) : UartState :=
  ws.foldl (LatchWrite.step host) s

/-- No write puts a character into the output buffer. -/
def TransmitsNothing : UartState → List LatchWrite → Prop
  | _, [] => True
  | s, w :: ws => (w.step host s).txOffset = (w.wait host s).txOffset ∧
      (w.step host s).output = (w.wait host s).output ∧ TransmitsNothing (w.step host s) ws

/-- The interrupt identification and the state of the PLIC after each step. -/
def observeInt (s : UartState) (e : UartEvent) : List (BitVec 8 × PlicState) :=
  [((e.step host s).regs 2, (e.step host s).plic)]

/-- The writes transmit nothing, and once DLAB is cleared, `regs[1]` and the interrupts that
    `uart_chk` and `uart_loop` raise are as without them. -/
structure LatchIsolated (s : UartState) (ws : List LatchWrite) : Prop where
  transmits : TransmitsNothing host s ws
  enables : ∀ lcr : BitVec 8, lcr.getLsbD 7 = false →
    (uartW 3 lcr (latchWrites host s ws)).regs 1 = (uartW 3 lcr s).regs 1
  interrupts : ∀ lcr : BitVec 8, lcr.getLsbD 7 = false → ∀ es : List UartEvent,
    (∀ e ∈ es, e = .loop ∨ ∃ received, e = .chk received) →
      uartTrace host (observeInt host) (uartW 3 lcr (latchWrites host s ws)) es =
        uartTrace host (observeInt host) (uartW 3 lcr s) es

end Writes

/-- All writes are to offset 1, and the last of them writes what `regs[1]` already is. -/
structure LatchCondition (s : UartState) (ws : List LatchWrite) : Prop where
  offset : ∀ w ∈ ws, w.offset = 1
  last : ∀ w, ws.getLast? = some w → w.data = s.regs 1

section Latch

variable {host : UartHost} {s : UartState} {ws : List LatchWrite}

/-- A write to offset 0 adds a character to the output buffer. -/
theorem uartW_zero_txOffset (b : BitVec 8) : (uartW 0 b s).txOffset = s.txOffset + 1 := by
  have htransmit : ∀ t : UartState, (uartTransmit b t).txOffset = t.txOffset + 1 := by
    intro t
    obtain ⟨_, _, _, hlock⟩ := uartTransmitLock_same t
    unfold uartTransmit uartTransmitData
    rw [hlock]
    dsimp only
    split <;> rfl
  exact htransmit _

/-- A write to offset 1 does not wait. -/
theorem latchWait_one {w : LatchWrite} (hw : w.offset = 1) : w.wait host s = s := by
  unfold LatchWrite.wait
  rw [hw]
  exact if_neg fun h => absurd h.1 (by decide)

/-- A write to offset 1 sets `regs[1]`. -/
theorem latchStep_one {w : LatchWrite} (hw : w.offset = 1) :
    w.step host s = s.setReg 1 w.data := by
  unfold LatchWrite.step
  rw [latchWait_one hw, hw]
  rfl

theorem setReg_setReg (i : Nat) (a b : BitVec 8) : (s.setReg i a).setReg i b = s.setReg i b := by
  unfold UartState.setReg
  dsimp only
  rw [Function.update_idem]

theorem setReg_self (i : Nat) : s.setReg i (s.regs i) = s := by
  unfold UartState.setReg
  rw [Function.update_eq_self]

/-- Of writes to offset 1, the last one counts. -/
theorem latchWrites_eq (hws : ∀ w ∈ ws, w.offset = 1) :
    latchWrites host s ws = s.setReg 1 ((ws.getLast?.map LatchWrite.data).getD (s.regs 1)) := by
  induction ws using List.reverseRecOn with
  | nil => exact (setReg_self 1).symm
  | append_singleton ws w ih =>
    have hinit := ih fun w' hw' => hws w' (List.mem_append_left _ hw')
    have hlast : w.offset = 1 := hws w (List.mem_append_right _ List.mem_cons_self)
    have happend : latchWrites host s (ws ++ [w]) = w.step host (latchWrites host s ws) := by
      rw [latchWrites, List.foldl_append]
      rfl
    rw [happend, hinit, List.getLast?_concat, latchStep_one hlast, setReg_setReg]
    rfl

/-- Writes that transmit nothing are to offset 1. -/
theorem offset_of_transmitsNothing (h : TransmitsNothing host s ws) :
    ∀ w ∈ ws, w.offset = 1 := by
  induction ws generalizing s with
  | nil => exact fun w hw => absurd hw List.not_mem_nil
  | cons w ws ih =>
    obtain ⟨hoffset, -, hrest⟩ := h
    refine List.forall_mem_cons.mpr ⟨?_, ih hrest⟩
    by_contra hne
    have hzero : w.offset = 0 := by omega
    unfold LatchWrite.step at hoffset
    rw [hzero] at hoffset
    have hnext := uartW_zero_txOffset (s := w.wait host s) w.data
    have hsame : (w.wait host s).txOffset + 1 = (w.wait host s).txOffset := hnext.symm.trans hoffset
    omega

theorem transmitsNothing_of_offset (h : ∀ w ∈ ws, w.offset = 1) :
    TransmitsNothing host s ws := by
  induction ws generalizing s with
  | nil => trivial
  | cons w ws ih =>
    rw [List.forall_mem_cons] at h
    refine ⟨?_, ?_, ih h.2⟩
    · rw [latchStep_one h.1, latchWait_one h.1]
      rfl
    · rw [latchStep_one h.1, latchWait_one h.1]
      rfl

end Latch

/-- For every state, with DLAB set or not, and every sequence of writes to offsets 0 and 1,
    the writes are without effect exactly if the condition holds. -/
theorem latchIsolated_iff (host : UartHost) (s : UartState) (ws : List LatchWrite) :
    LatchIsolated host s ws ↔ LatchCondition s ws := by
  constructor
  · intro h
    have hoffset := offset_of_transmitsNothing h.transmits
    refine ⟨hoffset, fun w hw => ?_⟩
    have hier := h.enables 0 (by decide)
    rw [latchWrites_eq hoffset, hw] at hier
    exact hier
  · intro h
    have hstate : latchWrites host s ws = s := by
      rw [latchWrites_eq h.offset]
      cases hlast : ws.getLast? with
      | none => exact setReg_self 1
      | some w =>
        rw [Option.map_some, Option.getD_some, h.last w hlast]
        exact setReg_self 1
    refine ⟨transmitsNothing_of_offset h.offset, fun lcr _ => ?_, fun lcr _ es _ => ?_⟩
    · rw [hstate]
    · rw [hstate]

private def dlabPlic : PlicState :=
  ⟨fun _ => 0, fun _ => 0, fun _ => 0, fun _ => 0, fun _ => false, 0, fun _ => 0⟩

/-- The UART after its start, with DLAB set by the guest. -/
private def dlabState : UartState := uartW 3 0x80 (uartInit dlabPlic)

/-- The divisor 3 as a driver sets it: a character is transmitted. -/
theorem latch_transmits : dlabState.dlab = true ∧
    ¬ LatchIsolated ⟨1, false, false, fun _ => 0, fun s _ => s⟩ dlabState [⟨0, 3⟩, ⟨1, 0⟩] := by
  refine ⟨by decide +kernel, fun h => ?_⟩
  have hoffset := h.transmits.1
  exact absurd hoffset (by decide +kernel)

end RvEmu
