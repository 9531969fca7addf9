import RvEmu.Spec.UartOutput

/-!
# The bounds of the output buffer

The guest fills `output`, `uart_chk` may hand it over at any fill level, and `uart_loop`
prints it as a C string. The last of its 16 bytes is never filled, whoever is next.

## Key results

- `TxTerminated`: the bound of `tx_offset`, and zeroes behind it
- `TxTerminated.step`: one step keeps it, whatever the guest writes
- `uart_output_terminated`: it holds in every state of every run
-/

namespace RvEmu

/-- The buffer has room for a byte while printing is not required, and is zero from
    `tx_offset` on. -/
structure TxTerminated (s : UartState) : Prop where
  offset : s.txOffset ≤ 15
  room : s.txRequired = false → s.txOffset ≤ 14
  zero : ∀ i, s.txOffset ≤ i → i ≤ 15 → s.output i = 0

/-- The byte behind `input_buffer` is not part of the transmitter. -/
structure UartHost.OutputApart (host : UartHost) : Prop where
  output : ∀ s b, (host.overrunPut s b).output = s.output
  txOffset : ∀ s b, (host.overrunPut s b).txOffset = s.txOffset
  txRequired : ∀ s b, (host.overrunPut s b).txRequired = s.txRequired

/-- The guest keeps to the eight registers. -/
def InRegisters (_ : UartState) : UartEvent → Prop
  | .read offset => offset < 8
  | .write offset _ => offset < 8
  | _ => True

section Steps

variable {host : UartHost} {s t : UartState}

/-- A step that leaves the buffer alone. -/
theorem TxTerminated.same (h : TxTerminated s) (ht : SameOutput s t) : TxTerminated t where
  offset := ht.txOffset ▸ h.offset
  room := by
    intro hfree
    rw [ht.txOffset]
    cases hs : s.txRequired with
    | false => exact h.room hs
    | true => exact Bool.noConfusion (hfree.symm.trans (ht.txRequired hs))
  zero := by
    rw [ht.txOffset, ht.output]
    exact h.zero

/-- The empty buffer. -/
theorem txTerminated_init (plic : PlicState) : TxTerminated (uartInit plic) where
  offset := Nat.zero_le 15
  room := fun _ => Nat.zero_le 14
  zero := fun _ _ _ => rfl

/-- Receiving, into the input buffer or behind it. -/
theorem uartReceive_apart (hhost : host.OutputApart) (b : BitVec 8) :
    SameOutput s (uartReceive host b s) := by
  have hput : SameOutput s (s.put host b) := by
    unfold UartState.put
    split
    · exact ⟨rfl, rfl, id⟩
    · exact ⟨hhost.output s b, hhost.txOffset s b, fun h => (hhost.txRequired s b).trans h⟩
  unfold uartReceive
  extract_lets t u v
  have hu : SameOutput s u := ⟨hput.output, hput.txOffset, hput.txRequired⟩
  have hv : SameOutput u v := by
    show SameOutput u (if _ then uartSendint host 0b0100 u else u)
    split
    · exact (uartSendint_same host 0b0100 u).sameOutput
    · exact (sameBuffers_refl u).sameOutput
  have hsame := hu.trans hv
  exact ⟨hsame.output, hsame.txOffset, hsame.txRequired⟩

/-- The poll of the terminal, with or without a character. -/
theorem uartChk_apart (hhost : host.OutputApart) (received : Option (BitVec 8)) :
    SameOutput s (uartChk host received s) := by
  rcases uartChk_cases host received s with ⟨b, -, -, hchk⟩ | ⟨-, hchk⟩
  · rw [hchk]
    exact (uartReceive_apart hhost b).trans uartChk_behind_output
  · rw [hchk]
    exact uartChk_behind_output

/-- A byte put into the transmitter: of 15 bytes the last one asks for printing. -/
theorem TxTerminated.transmitData (h : TxTerminated s) (htx : s.txRequired = false)
    (b : BitVec 8) : TxTerminated (uartTransmitData b s) := by
  obtain ⟨hout, hoff, hrequired⟩ := uartTransmitData_buffer b s
  have hroom := h.room htx
  constructor
  case offset => omega
  case room =>
    intro hfree
    by_contra hfull
    rw [hrequired (by rw [ibufSize]; omega)] at hfree
    cases hfree
  case zero =>
    intro i hi h15
    have hne : i ≠ s.txOffset := by omega
    rw [hout, Function.update_of_ne hne]
    exact h.zero i (by omega) h15

/-- The lock waits for nothing else. -/
theorem uartTransmitLock_txRequired (s : UartState) :
    (uartTransmitLock s).txRequired = s.txRequired := by
  obtain ⟨_, _, _, hlock⟩ := uartTransmitLock_same s
  rw [hlock]

/-- A write to the transmitter. -/
theorem TxTerminated.transmit (h : TxTerminated s) (htx : s.txRequired = false) (b : BitVec 8) :
    TxTerminated (uartTransmit b s) :=
  (h.same (uartTransmitLock_same s).sameOutput).transmitData
    ((uartTransmitLock_txRequired s).trans htx) b

/-- An iteration of `uart_loop` clears the buffer. -/
theorem txTerminated_loop (host : UartHost) (s : UartState) :
    TxTerminated (uartLoop host s).2 := by
  obtain ⟨_, _, _, hrest⟩ := uartLoop_same host s
  rw [hrest]
  exact ⟨Nat.zero_le 15, fun _ => Nat.zero_le 14, fun i _ h15 => if_pos (Nat.lt_succ_of_le h15)⟩

/-- What one step preserves. -/
theorem TxTerminated.step (hhost : host.OutputApart) (h : TxTerminated s) {e : UartEvent}
    (hen : e.Enabled s) : TxTerminated (e.step host s) := by
  cases e with
  | chk received => exact h.same (uartChk_apart hhost received)
  | loop => exact txTerminated_loop host s
  | read offset => exact h.same (uartR_output offset)
  | write offset b =>
    cases offset with
    | succ i => exact h.same (uartW_output (Nat.succ_ne_zero i) b)
    | zero =>
      have hset : SameOutput s (s.setReg 0 b) := ⟨rfl, rfl, id⟩
      exact (h.same hset).transmit hen b

/-- What a run preserves. -/
theorem TxTerminated.run (hhost : host.OutputApart) {P : UartState → UartEvent → Prop}
    {es : List UartEvent} (h : TxTerminated s) (hrun : EveryStep host P s es) :
    TxTerminated (uartRun host s es) := by
  induction es generalizing s with
  | nil => exact h
  | cons e es ih =>
    obtain ⟨hen, -, hrest⟩ := hrun
    exact ih (h.step hhost hen) hrest

/-- The string in the buffer ends before the end of the buffer. -/
theorem TxTerminated.message_lt (h : TxTerminated s) : s.message.length < ibufSize := by
  have hlast : s.output 15 = 0 := h.zero 15 h.offset (Nat.le_refl 15)
  have hsize : ((List.range ibufSize).map s.output).length = ibufSize := by
    rw [List.length_map, List.length_range]
  have hpre : s.message <+: (List.range ibufSize).map s.output := List.takeWhile_prefix _
  refine Nat.lt_of_le_of_ne (hsize ▸ hpre.length_le) fun hfull => ?_
  -- a string of all 16 bytes would have no zero in the last one
  have hself := hpre.eq_of_length (hfull.trans hsize.symm)
  have hmem : s.output 15 ∈ s.message := by
    rw [hself]
    exact List.mem_map.mpr ⟨15, List.mem_range.mpr (by decide), rfl⟩
  have hne := List.all_eq_true.mp List.all_takeWhile _ hmem
  rw [hlast] at hne
  cases hne

end Steps

/-- In every state of every run from `uart_init` the buffer is terminated: a byte that the
    guest may write lands inside of it, and the string that is printed ends inside. What lies
    behind `input_buffer`, where `uart_chk` may store a byte, is a matter of the memory layout;
    it is taken not to be the transmitter. -/
theorem uart_output_terminated (host : UartHost) (hhost : host.OutputApart) (plic : PlicState)
    (es : List UartEvent) (h : EveryStep host InRegisters (uartInit plic) es) :
    let s := uartRun host (uartInit plic) es
    TxTerminated s ∧ (s.txRequired = false → s.txOffset < ibufSize) ∧
      (∃ i < ibufSize, s.output i = 0) ∧ s.message.length < ibufSize := by
  have hterm := (txTerminated_init plic).run hhost h
  refine ⟨hterm, fun hfree => ?_, ⟨15, by decide, hterm.zero 15 hterm.offset (Nat.le_refl 15)⟩,
    hterm.message_lt⟩
  exact Nat.lt_of_le_of_lt (hterm.room hfree) (by decide)

/-- One hart, and a spare byte behind the input buffer. -/
private def readyHost : UartHost where
  machHartCount := 1
  dbgFallback := false
  sigMode := false
  overrunGet s := s.inputBuffer ibufSize
  overrunPut s b := { s with inputBuffer := Function.update s.inputBuffer ibufSize b }

private def idlePlic : PlicState :=
  ⟨fun _ => 0, fun _ => 0, fun _ => 0, fun _ => 0, fun _ => false, 0, fun _ => 0⟩

/-- Two letters that `uart_chk` hands over, and a third one. -/
private def letters : List UartEvent :=
  [.write 0 0x61, .write 0 0x62, .chk (some 0x63), .loop, .write 0 0x64]

/-- Two letters are printed, and a third one is in the buffer. -/
theorem uart_output_terminated_letters :
    (uartRun readyHost (uartInit idlePlic) letters).message = [0x64] ∧
      TxTerminated (uartRun readyHost (uartInit idlePlic) letters) := by
  have hrun : EveryStep readyHost InRegisters (uartInit idlePlic) letters :=
    ⟨rfl, Nat.zero_lt_succ 7, by decide +kernel, Nat.zero_lt_succ 7, trivial, trivial,
      by decide +kernel, trivial, by decide +kernel, Nat.zero_lt_succ 7, trivial⟩
  have hapart : readyHost.OutputApart := ⟨fun _ _ => rfl, fun _ _ => rfl, fun _ _ => rfl⟩
  exact ⟨by decide +kernel, (uart_output_terminated readyHost hapart idlePlic letters hrun).1⟩

end RvEmu
