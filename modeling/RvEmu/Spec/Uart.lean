import RvEmu.Native.Uart

/-!
# Runs of the UART

The steps of the UART and of the guest at its registers, in any order. The interrupts that
they send change neither buffer.
-/

namespace RvEmu

/-- One atomic step: `uart_chk` with what the terminal has for it, an iteration of
    `uart_loop`, or an access of the guest. -/
inductive UartEvent where
  | chk (received : Option (BitVec 8))
  | loop
  | read (offset : Nat)
  | write (offset : Nat) (data : BitVec 8)

/-- A byte is received; 0xFF is taken for the end of the input. -/
def UartEvent.receives : UartEvent → Bool
  | chk (some b) => b != 0xFF
  | _ => false

/-- A byte other than 0xFF is received, … -/
theorem receives_of_ne {b : BitVec 8} (h : b ≠ 0xFF) : (UartEvent.chk (some b)).receives = true :=
  bne_iff_ne.mpr h

/-- … and 0xFF is not. -/
theorem receives_ff : (UartEvent.chk (some 0xFF)).receives = false := rfl

section Steps

variable (host : UartHost)

def UartEvent.step (s : UartState) : UartEvent → UartState
  | chk received => uartChk host received s
  | loop => (uartLoop host s).2
  | read offset => uartR host offset s
  | write offset data => uartW offset data s

/-- A write to the transmitter spins while `tx_required`, which `uart_loop` waits for. -/
def UartEvent.Enabled (s : UartState) : UartEvent → Prop
  | loop => s.txRequired = true
  | write 0 _ => s.txRequired = false
  | _ => True

instance (s : UartState) (e : UartEvent) : Decidable (e.Enabled s) :=
  match e with
  | .loop => inferInstanceAs (Decidable (s.txRequired = true))
  | .write 0 _ => inferInstanceAs (Decidable (s.txRequired = false))
  | .write (_ + 1) _ => isTrue trivial
  | .chk _ => isTrue trivial
  | .read _ => isTrue trivial

/-- The state after a run. -/
def uartRun (s : UartState) (es : List UartEvent) : UartState := es.foldl (UartEvent.step host) s

/-- Every step of a run is enabled and meets the condition. -/
def EveryStep (P : UartState → UartEvent → Prop) : UartState → List UartEvent → Prop
  | _, [] => True
  | s, e :: es => e.Enabled s ∧ P s e ∧ EveryStep P (e.step host s) es

/-- What a run does, one observation after the other. -/
def uartTrace {α : Type} (observe : UartState → UartEvent → List α) :
    UartState → List UartEvent → List α
  | _, [] => []
  | s, e :: es => observe s e ++ uartTrace observe (e.step host s) es

end Steps

/-! ## Interrupts -/

/-- `t` is `s` up to the registers, the receiver timeout and the PLIC. -/
def SameBuffers (s t : UartState) : Prop :=
  ∃ regs timeout plic, t = { s with regs := regs, uartTimeout := timeout, plic := plic }

/-- The buffers are the same as before, … -/
theorem sameBuffers_refl (s : UartState) : SameBuffers s s := ⟨_, _, _, rfl⟩

/-- … after a write to a register … -/
theorem sameBuffers_setReg (s : UartState) (i : Nat) (v : BitVec 8) :
    SameBuffers s (s.setReg i v) := ⟨_, _, _, rfl⟩

/-- … and over two steps. -/
theorem SameBuffers.trans {s t u : UartState} (h : SameBuffers s t) (h' : SameBuffers t u) :
    SameBuffers s u := by
  obtain ⟨_, _, _, rfl⟩ := h
  obtain ⟨_, _, _, rfl⟩ := h'
  exact ⟨_, _, _, rfl⟩

/-- Sending an interrupt leaves the buffers alone, … -/
theorem uartSendint_same (host : UartHost) (code : BitVec 8) (s : UartState) :
    SameBuffers s (uartSendint host code s) := by
  unfold uartSendint
  split
  · exact sameBuffers_refl s
  · exact ⟨_, _, _, rfl⟩

/-- Sending an interrupt touches no register but that of the interrupt. -/
theorem uartSendint_regs (host : UartHost) (code : BitVec 8) (s : UartState) {i : Nat}
    (hi : i ≠ 2) : (uartSendint host code s).regs i = s.regs i := by
  unfold uartSendint
  split
  · rfl
  · exact Function.update_of_ne hi _ _

/-- … and so does taking it back. -/
theorem uartClearint_same (s : UartState) : SameBuffers s (uartClearint s) :=
  sameBuffers_setReg s 2 _

/-- A write to the transmitter clears the interrupt of an empty one. -/
theorem uartTransmitLock_same (s : UartState) : SameBuffers s (uartTransmitLock s) := by
  unfold uartTransmitLock
  split
  · exact uartClearint_same s
  · exact sameBuffers_refl s

/-- The receiver timeout. -/
theorem uartChkTimeout_same (host : UartHost) (s : UartState) :
    SameBuffers s (uartChkTimeout host s) := by
  unfold uartChkTimeout
  extract_lets t
  have hcount : SameBuffers s t := by
    show SameBuffers s (if s.pendingIn > 0 then _ else s)
    split
    · exact ⟨_, _, _, rfl⟩
    · exact sameBuffers_refl s
  clear_value t
  split
  · obtain ⟨regs, timeout, plic, h⟩ := hcount.trans (uartSendint_same host 0b0100 t)
    show SameBuffers s { uartSendint host 0b0100 t with uartTimeout := 0 }
    rw [h]
    exact ⟨_, _, _, rfl⟩
  · exact hcount

/-- The transmitter part of `uart_chk` at most requires printing what is in the buffer. -/
theorem uartChkTransmitter_same (host : UartHost) (s : UartState) :
    SameBuffers { s with txRequired := s.txRequired || s.txOffset != 0 }
      (uartChkTransmitter host s) := by
  unfold uartChkTransmitter
  dsimp only
  split
  · next hempty =>
    have hset : SameBuffers { s with txRequired := s.txRequired || s.txOffset != 0 }
        (s.setReg 5 (s.regs 5 ||| 0b1100000)) := by
      have hflag : (s.txRequired || s.txOffset != 0) = s.txRequired := by
        rw [hempty]
        exact Bool.or_false s.txRequired
      rw [hflag]
      exact sameBuffers_setReg s 5 _
    split
    · exact hset.trans (uartSendint_same host 0b0010 _)
    · exact hset
  · next hfull =>
    have hne : (s.txOffset != 0) = true := bne_iff_ne.mpr hfull
    rw [hne, Bool.or_true]
    split
    · exact ⟨_, _, _, rfl⟩
    · next htx =>
      have hrequired : s.txRequired = true := (Bool.not_eq_false _).mp htx
      exact ⟨s.regs, s.uartTimeout, s.plic, by rw [← hrequired]⟩

/-- The timeout changes no register but IIR. -/
theorem uartChkTimeout_regs (host : UartHost) (s : UartState) {i : Nat} (hi : i ≠ 2) :
    (uartChkTimeout host s).regs i = s.regs i := by
  unfold uartChkTimeout
  extract_lets t
  have ht : t.regs = s.regs := by
    show (if s.pendingIn > 0 then { s with uartTimeout := s.uartTimeout + 1 } else s).regs = _
    split <;> rfl
  split
  · exact (uartSendint_regs host 0b0100 t hi).trans (congrFun ht i)
  · exact congrFun ht i

/-- `uart_chk` with a byte. -/
theorem uartChk_receive (host : UartHost) {b : BitVec 8} (hb : b ≠ 0xFF) (s : UartState) :
    uartChk host (some b) s =
      uartChkTransmitter host (uartChkTimeout host (uartReceive host b s)) := by
  unfold uartChk
  extract_lets ch t
  have ht : t = uartReceive host b s := if_pos hb
  rw [ht]

/-- `uart_chk` receives a byte or passes to the timeout and the transmitter. -/
theorem uartChk_cases (host : UartHost) (received : Option (BitVec 8)) (s : UartState) :
    (∃ b, received = some b ∧ b ≠ 0xFF ∧ uartChk host received s =
        uartChkTransmitter host (uartChkTimeout host (uartReceive host b s))) ∨
      ((UartEvent.chk received).receives = false ∧ uartChk host received s =
        uartChkTransmitter host (uartChkTimeout host s)) := by
  cases received with
  | none => exact .inr ⟨rfl, rfl⟩
  | some b =>
    by_cases hff : b = 0xFF
    · rw [hff]
      exact .inr ⟨receives_ff, rfl⟩
    · exact .inl ⟨b, rfl, hff, uartChk_receive host hff s⟩

/-- The line status behind a read. -/
theorem uartR_same (host : UartHost) (offset : Nat) (s : UartState) :
    SameBuffers (uartFetch host offset s) (uartR host offset s) := by
  unfold uartR
  extract_lets t u
  have hu : SameBuffers t u := by
    show SameBuffers t (if offset = 2 ∧ t.regs 2 &&& 0xF = 0b0010 then uartClearint t else t)
    split
    · exact uartClearint_same t
    · exact sameBuffers_refl t
  split <;> exact hu.trans (sameBuffers_setReg u 5 _)

/-- `uart_loop` empties the output buffer. -/
theorem uartLoop_same (host : UartHost) (s : UartState) :
    SameBuffers
      { s with
        txOffset := 0
        output := fun i => if i < ibufSize then 0 else s.output i
        txRequired := false }
      (uartLoop host s).2 := by
  unfold uartLoop
  extract_lets _ t u v
  have hv : SameBuffers u v := by
    show SameBuffers u (if (u.regs 1).getLsbD 1 then uartSendint host 0b0010 u else u)
    split
    · exact uartSendint_same host 0b0010 u
    · exact sameBuffers_refl u
  obtain ⟨_, _, _, h⟩ := (sameBuffers_setReg t 5 (t.regs 5 ||| 0b1100000)).trans hv
  rw [h]
  exact ⟨_, _, _, rfl⟩

/-! ## Runs step by step -/

section Append

variable {host : UartHost} {s : UartState} {es : List UartEvent} {e : UartEvent}

/-- A run and one more step, … -/
theorem uartRun_append : uartRun host s (es ++ [e]) = e.step host (uartRun host s es) := by
  rw [uartRun, List.foldl_append]
  rfl

/-- … with the condition on it. -/
theorem everyStep_append {P : UartState → UartEvent → Prop} :
    EveryStep host P s (es ++ [e]) ↔ EveryStep host P s es ∧
      e.Enabled (uartRun host s es) ∧ P (uartRun host s es) e := by
  induction es generalizing s with
  | nil =>
    show e.Enabled s ∧ P s e ∧ True ↔ True ∧ e.Enabled s ∧ P s e
    rw [and_true, true_and]
  | cons e' es ih =>
    rw [List.cons_append, EveryStep, ih, EveryStep, and_assoc, and_assoc]
    rfl

end Append

end RvEmu
