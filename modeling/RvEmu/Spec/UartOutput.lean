import RvEmu.Spec.UartInput

/-!
# The transmitter of the UART

What the guest writes has to be printed once and in order. `uart_loop` prints the buffer
as a C string, which ends at the first zero byte.
-/

namespace RvEmu

/-- The bytes that are written but not yet printed. -/
def UartState.unprinted (s : UartState) : List (BitVec 8) := (List.range s.txOffset).map s.output

/-- The bytes that the guest writes to the transmitter. -/
def observeWritten (_ : UartState) : UartEvent → List (BitVec 8)
  | .write 0 b => [b]
  | _ => []

/-- The bytes that are handed to the terminal. -/
def observePrinted (host : UartHost) (s : UartState) : UartEvent → List (BitVec 8)
  | .loop => (uartLoop host s).1
  | _ => []

/-- What is printed, and then what is in the buffer, is what was written. -/
abbrev OutputCorrect (host : UartHost) (s : UartState) (es : List UartEvent) : Prop :=
  uartTrace host (observePrinted host) s es ++ (uartRun host s es).unprinted =
    uartTrace host observeWritten s es

/-- Offset 0 is the transmitter while DLAB is clear. -/
def DlabClear (s : UartState) : UartEvent → Prop
  | .write 0 _ => s.dlab = false
  | _ => True

/-- The guest writes no zero byte, there is a terminal to print to, and nothing is received
    into a byte behind the input buffer that is in use. -/
def OutputCondition (host : UartHost) (s : UartState) : UartEvent → Prop
  | .write 0 b => s.dlab = false ∧ b ≠ 0
  | .loop => (host.dbgFallback && host.sigMode) = false
  | .chk (some b) => b = 0xFF ∨ s.writePtr < ibufSize ∨ host.Spare
  | _ => True

/-- The buffer holds its bytes and zeroes behind them; it is full only while printing is
    required. -/
structure TxBuffer (s : UartState) : Prop where
  offset : s.txOffset < ibufSize
  full : s.txOffset = ibufSize - 1 → s.txRequired = true
  text : ∀ i < s.txOffset, s.output i ≠ 0
  zero : ∀ i, s.txOffset ≤ i → s.output i = 0

/-- The same bytes are buffered, and printing is not revoked. -/
structure SameOutput (s t : UartState) : Prop where
  output : t.output = s.output
  txOffset : t.txOffset = s.txOffset
  txRequired : s.txRequired = true → t.txRequired = true

section Transmitter

variable {host : UartHost} {s t : UartState}

theorem SameBuffers.sameOutput (h : SameBuffers s t) : SameOutput s t := by
  obtain ⟨_, _, _, rfl⟩ := h
  exact ⟨rfl, rfl, id⟩

theorem SameOutput.trans {u : UartState} (h : SameOutput s t) (h' : SameOutput t u) :
    SameOutput s u where
  output := h'.output.trans h.output
  txOffset := h'.txOffset.trans h.txOffset
  txRequired := fun hs => h'.txRequired (h.txRequired hs)

theorem TxBuffer.same (h : TxBuffer s) (ht : SameOutput s t) : TxBuffer t where
  offset := ht.txOffset ▸ h.offset
  full := fun hfull => ht.txRequired (h.full (ht.txOffset ▸ hfull))
  text := by
    rw [ht.txOffset, ht.output]
    exact h.text
  zero := by
    rw [ht.txOffset, ht.output]
    exact h.zero

theorem unprinted_same (ht : SameOutput s t) : t.unprinted = s.unprinted := by
  rw [UartState.unprinted, ht.txOffset, ht.output, UartState.unprinted]

theorem txBuffer_init (plic : PlicState) : TxBuffer (uartInit plic) where
  offset := Nat.zero_lt_succ _
  full := nofun
  text := nofun
  zero := fun _ _ => rfl

/-! ## The steps -/

/-- Receiving. -/
theorem uartReceive_output {b : BitVec 8} (hslot : s.writePtr < ibufSize ∨ host.Spare) :
    SameOutput s (uartReceive host b s) := by
  -- a byte stored behind `input_buffer` could change any of the globals: `hslot` excludes it
  obtain ⟨_, _, _, heq⟩ := uartReceive_eq hslot b
  rw [heq]
  exact ⟨rfl, rfl, id⟩

/-- `uart_chk` behind the receiver. -/
theorem uartChk_behind_output :
    SameOutput s (uartChkTransmitter host (uartChkTimeout host s)) := by
  have hlast := (uartChkTransmitter_same host (uartChkTimeout host s)).sameOutput
  refine (uartChkTimeout_same host s).sameOutput.trans
    ⟨hlast.output, hlast.txOffset, fun htx => hlast.txRequired ?_⟩
  rw [htx]
  rfl

/-- `uart_chk` -/
theorem uartChk_output {received : Option (BitVec 8)}
    (hc : OutputCondition host s (.chk received)) : SameOutput s (uartChk host received s) := by
  rcases uartChk_cases host received s with ⟨b, rfl, hb, hchk⟩ | ⟨-, hchk⟩
  · rw [hchk]
    exact (uartReceive_output (hc.resolve_left hb)).trans uartChk_behind_output
  · rw [hchk]
    exact uartChk_behind_output

/-- A read. -/
theorem uartR_output (offset : Nat) : SameOutput s (uartR host offset s) := by
  refine SameOutput.trans ?_ (uartR_same host offset s).sameOutput
  unfold uartFetch
  split
  · split
    · exact ⟨rfl, rfl, id⟩
    · split <;> exact ⟨rfl, rfl, id⟩
  · exact ⟨rfl, rfl, id⟩
  · exact ⟨rfl, rfl, id⟩

/-- A write to another register. -/
theorem uartW_output {offset : Nat} (h : offset ≠ 0) (b : BitVec 8) :
    SameOutput s (uartW offset b s) := by
  unfold uartW
  extract_lets t u v
  have hu : SameOutput s u := by
    show SameOutput s (if offset = 3 then { t with dlab := (t.regs 3).getLsbD 7 } else t)
    split <;> exact ⟨rfl, rfl, id⟩
  have hv : v = u := if_neg h
  rw [hv]
  split
  · exact ⟨hu.output, hu.txOffset, hu.txRequired⟩
  · exact hu

/-- The buffer behind a byte that is stored at its end. -/
theorem TxBuffer.store (h : TxBuffer s) (hroom : s.txOffset + 1 < ibufSize) {b : BitVec 8}
    (hb : b ≠ 0) (hout : t.output = Function.update s.output s.txOffset b)
    (hoff : t.txOffset = s.txOffset + 1) (hfull : t.txOffset = ibufSize - 1 → t.txRequired = true) :
    TxBuffer t ∧ t.unprinted = s.unprinted ++ [b] := by
  constructor
  -- the new byte is part of the text, and the zeros behind it are as before
  · refine ⟨hoff ▸ hroom, hfull, fun i hi => ?_, fun i hi => ?_⟩
    · rw [hout]
      by_cases hlast : i = s.txOffset
      · rw [hlast, Function.update_self]
        exact hb
      · rw [Function.update_of_ne hlast]
        exact h.text i (by omega)
    · have hne : i ≠ s.txOffset := by omega
      rw [hout, Function.update_of_ne hne]
      exact h.zero i (by omega)
  -- the bytes before the new one are those that were buffered
  · unfold UartState.unprinted
    rw [hoff, List.range_succ, List.map_append, List.map_singleton, hout, Function.update_self]
    congr 1
    apply List.map_congr_left
    intro i hi
    have hne : i ≠ s.txOffset := Nat.ne_of_lt (List.mem_range.mp hi)
    exact Function.update_of_ne hne _ _

/-- What a write to the transmitter makes of the buffer, behind its spin lock. -/
theorem uartTransmitData_buffer (b : BitVec 8) (s : UartState) :
    (uartTransmitData b s).output = Function.update s.output s.txOffset b ∧
      (uartTransmitData b s).txOffset = s.txOffset + 1 ∧
      (ibufSize - 1 ≤ s.txOffset + 1 → (uartTransmitData b s).txRequired = true) := by
  unfold uartTransmitData
  extract_lets u v
  have hoff : v.txOffset = s.txOffset + 1 := rfl
  split
  · exact ⟨rfl, rfl, fun _ => rfl⟩
  · next hnot => exact ⟨rfl, rfl, fun hfull => absurd (.inl (hoff ▸ hfull)) hnot⟩

/-- What the write makes of it as a whole. -/
theorem uartTransmit_buffer (b : BitVec 8) :
    (uartTransmit b s).output = Function.update s.output s.txOffset b ∧
      (uartTransmit b s).txOffset = s.txOffset + 1 ∧
      (ibufSize - 1 ≤ s.txOffset + 1 → (uartTransmit b s).txRequired = true) := by
  have hlock := (uartTransmitLock_same s).sameOutput
  have hdata := uartTransmitData_buffer b (uartTransmitLock s)
  rw [hlock.output, hlock.txOffset] at hdata
  exact hdata

/-- A write to the transmitter adds a byte to those that are buffered. -/
theorem TxBuffer.transmit (h : TxBuffer s) (htx : s.txRequired = false) {b : BitVec 8}
    (hb : b ≠ 0) :
    TxBuffer (uartTransmit b s) ∧ (uartTransmit b s).unprinted = s.unprinted ++ [b] := by
  -- a full buffer asks for printing, and then THRE is clear
  have hroom : s.txOffset + 1 < ibufSize := by
    have hoffset := h.offset
    have hfull : s.txOffset ≠ ibufSize - 1 := by
      intro hfull
      rw [h.full hfull] at htx
      cases htx
    omega
  obtain ⟨hout, hoff, hrequired⟩ := uartTransmit_buffer (s := s) b
  exact h.store hroom hb hout hoff fun hfull => hrequired (by omega)

/-- The C string in the buffer is all that is buffered. -/
theorem TxBuffer.message_eq (h : TxBuffer s) : s.message = s.unprinted := by
  have hoffset := h.offset
  have hsplit : List.range ibufSize =
      List.range s.txOffset ++ (List.range (ibufSize - s.txOffset)).map (s.txOffset + ·) := by
    rw [← List.range_add]
    congr 1
    omega
  have htext : ∀ b ∈ s.unprinted, decide (b ≠ 0) = true := by
    intro b hb
    obtain ⟨i, hi, rfl⟩ := List.mem_map.mp hb
    exact decide_eq_true (h.text i (List.mem_range.mp hi))
  unfold UartState.message
  rw [hsplit, List.map_append]
  show List.takeWhile _ (s.unprinted ++ _) = _
  rw [List.takeWhile_append_of_pos htext]
  -- the byte behind the text is zero
  obtain ⟨n, hn⟩ : ∃ n, ibufSize - s.txOffset = n + 1 := ⟨ibufSize - s.txOffset - 1, by omega⟩
  rw [hn, List.range_succ_eq_map, List.map_cons, List.map_cons, List.takeWhile_cons]
  have hzero : s.output (s.txOffset + 0) = 0 := h.zero _ (Nat.le_refl _)
  rw [hzero]
  exact List.append_nil _

/-- An iteration of `uart_loop` prints what is buffered. -/
theorem TxBuffer.loop (h : TxBuffer s) (hhost : (host.dbgFallback && host.sigMode) = false) :
    (uartLoop host s).1 = s.unprinted ∧ TxBuffer (uartLoop host s).2 ∧
      (uartLoop host s).2.unprinted = [] := by
  have hprint : (uartLoop host s).1 = s.unprinted := by
    have hzero : s.output s.txOffset = 0 := h.zero _ (Nat.le_refl _)
    show (if s.output s.txOffset = 0xa then _ else ptyPrint host s.message) = s.unprinted
    rw [hzero, if_neg (by decide), ptyPrint, hhost, if_neg Bool.false_ne_true, h.message_eq]
  refine ⟨hprint, ?_⟩
  obtain ⟨_, _, _, hrest⟩ := uartLoop_same host s
  rw [hrest]
  refine ⟨⟨Nat.zero_lt_succ _, nofun, nofun, fun i _ => ?_⟩, rfl⟩
  show (if i < ibufSize then 0 else s.output i) = 0
  have hoffset := h.offset
  split
  · rfl
  · exact h.zero i (by omega)

/-- One step under the condition loses, repeats and reorders nothing. -/
theorem TxBuffer.step (h : TxBuffer s) {e : UartEvent} (hen : e.Enabled s)
    (hc : OutputCondition host s e) :
    TxBuffer (e.step host s) ∧ observePrinted host s e ++ (e.step host s).unprinted =
      s.unprinted ++ observeWritten s e := by
  -- the steps that leave the transmitter alone
  have hsame : ∀ t, SameOutput s t →
      TxBuffer t ∧ [] ++ t.unprinted = s.unprinted ++ ([] : List (BitVec 8)) := by
    intro t ht
    rw [List.nil_append, List.append_nil]
    exact ⟨h.same ht, unprinted_same ht⟩
  cases e with
  | chk received => exact hsame _ (uartChk_output hc)
  | loop =>
    obtain ⟨hprint, hbuf, hempty⟩ := h.loop hc
    refine ⟨hbuf, ?_⟩
    show (uartLoop host s).1 ++ (uartLoop host s).2.unprinted = s.unprinted ++ []
    rw [hprint, hempty]
  | read offset => exact hsame _ (uartR_output offset)
  | write offset b =>
    cases offset with
    | succ i => exact hsame _ (uartW_output (Nat.succ_ne_zero i) b)
    | zero =>
      have hset : SameOutput s (s.setReg 0 b) := ⟨rfl, rfl, id⟩
      obtain ⟨hbuf, happend⟩ := (h.same hset).transmit (b := b) hen hc.2
      exact ⟨hbuf, happend⟩

/-- A run from any state of the transmitter. -/
theorem TxBuffer.run (h : TxBuffer s) {es : List UartEvent}
    (hc : EveryStep host (OutputCondition host) s es) :
    uartTrace host (observePrinted host) s es ++ (uartRun host s es).unprinted =
      s.unprinted ++ uartTrace host observeWritten s es := by
  induction es generalizing s with
  | nil => exact (List.append_nil _).symm
  | cons e es ih =>
    obtain ⟨hen, hcond, hrest⟩ := hc
    obtain ⟨hbuf, hstep⟩ := h.step hen hcond
    calc (observePrinted host s e ++ uartTrace host (observePrinted host) (e.step host s) es) ++
          (uartRun host (e.step host s) es).unprinted
        = observePrinted host s e ++ ((e.step host s).unprinted ++
            uartTrace host observeWritten (e.step host s) es) := by
          rw [List.append_assoc, ih hbuf hrest]
      _ = s.unprinted ++ (observeWritten s e ++
            uartTrace host observeWritten (e.step host s) es) := by
          rw [← List.append_assoc, hstep, List.append_assoc]

end Transmitter

/-- In every run of the UART from its start, the guest's bytes are printed once and in
    order, if none of them is zero. -/
theorem uart_output_printed (host : UartHost) (plic : PlicState) (es : List UartEvent)
    (h : EveryStep host (OutputCondition host) (uartInit plic) es) :
    OutputCorrect host (uartInit plic) es :=
  (txBuffer_init plic).run h

/-- One hart with a terminal. -/
private def terminalHost : UartHost where
  machHartCount := 1
  dbgFallback := false
  sigMode := false
  overrunGet s := s.inputBuffer ibufSize
  overrunPut s _ := s

private def outputPlic : PlicState :=
  ⟨fun _ => 0, fun _ => 0, fun _ => 0, fun _ => 0, fun _ => false, 0, fun _ => 0⟩

/-- A letter and a line feed. -/
theorem uart_output_line :
    OutputCorrect terminalHost (uartInit outputPlic)
      [.write 0 0x61, .chk none, .loop, .write 0 0x0a, .loop] :=
  uart_output_printed terminalHost outputPlic _
    ⟨rfl, ⟨rfl, by decide⟩, trivial, trivial, by decide +kernel, rfl, by decide +kernel,
      ⟨by decide +kernel, by decide⟩, by decide +kernel, rfl, trivial⟩

/-- A zero byte is not printed. -/
theorem uart_loses_zero :
    ¬ ∀ es, EveryStep terminalHost DlabClear (uartInit outputPlic) es →
      OutputCorrect terminalHost (uartInit outputPlic) es := by
  intro h
  have hrun := h [.write 0 0, .chk none, .loop]
    ⟨rfl, rfl, trivial, trivial, by decide +kernel, trivial, trivial⟩
  exact absurd hrun (by decide +kernel)

end RvEmu
