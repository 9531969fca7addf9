import Mathlib.Data.List.DropRight
import RvEmu.Spec.UartInput

/-!
# The line status of the UART

A read of offset 5 returns the data-ready bit as the read before it has left it. The bit
is brought up to date at the end of each read, of any offset, and not when a byte is received.

## Key results

- `dataReady_run`: the bit tells whether bytes were unread behind the last read
- `lineStatus_current_iff`: when the status that a read returns is current
-/

namespace RvEmu

/-- The data-ready bit. -/
def UartState.dataReady (s : UartState) : Bool := (s.regs 5).getLsbD 0

/-- A guest read of any offset. -/
def UartEvent.isRead : UartEvent → Bool
  | read _ => true
  | _ => false

/-- The run up to the last read. -/
def uptoRead (es : List UartEvent) : List UartEvent := es.rdropWhile fun e => !e.isRead

/-- The run since the last read. -/
def sinceRead (es : List UartEvent) : List UartEvent := es.rtakeWhile fun e => !e.isRead

/-- No write to offset 5, and nothing is received into a byte behind the input buffer that
    is in use. -/
def StatusStep (host : UartHost) (s : UartState) : UartEvent → Prop
  | .write offset _ => offset ≠ 5
  | .chk (some b) => b = 0xFF ∨ s.writePtr < ibufSize ∨ host.Spare
  | _ => True

/-- A read of offset 5 after the run tells whether a byte is unread. -/
def StatusCurrent (host : UartHost) (plic : PlicState) (es : List UartEvent) : Prop :=
  (uartR host 5 (uartRun host (uartInit plic) es)).outputByte.getLsbD 0 = true ↔
    0 < (uartRun host (uartInit plic) es).pendingIn

/-- The number of bytes received since the last read does not change whether bytes are
    unread: there were some behind it, or none has come in since, up to the overflow of the
    16-bit count. -/
def StatusCondition (host : UartHost) (plic : PlicState) (es : List UartEvent) : Prop :=
  (uartRun host (uartInit plic) (uptoRead es)).pendingIn +
      BitVec.ofNat 16 ((sinceRead es).countP UartEvent.receives) = 0 ↔
    (uartRun host (uartInit plic) (uptoRead es)).pendingIn = 0

/-! ## The steps -/

section Steps

variable {host : UartHost} {s : UartState}

/-- The transmitter part of `uart_chk` changes two other bits of the line status. -/
theorem uartChkTransmitter_status : (uartChkTransmitter host s).dataReady = s.dataReady := by
  have hset : (s.setReg 5 (s.regs 5 ||| 0b1100000)).dataReady = s.dataReady := by
    unfold UartState.dataReady UartState.setReg
    dsimp only
    rw [Function.update_self, BitVec.getLsbD_or]
    exact Bool.or_false _
  unfold uartChkTransmitter
  split
  · extract_lets t
    split
    · exact (congrArg (·.getLsbD 0) (uartSendint_regs host 0b0010 t (by decide))).trans hset
    · exact hset
  · split <;> rfl

/-- `uart_chk` counts what it receives, but leaves LSR as it is. -/
theorem uartChk_status {received : Option (BitVec 8)}
    (hstep : StatusStep host s (.chk received)) :
    (uartChk host received s).dataReady = s.dataReady ∧
      (uartChk host received s).pendingIn =
        if (UartEvent.chk received).receives then s.pendingIn + 1 else s.pendingIn := by
  -- behind the receiver, neither the bit nor the count changes
  have hbehind : ∀ t : UartState,
      (uartChkTransmitter host (uartChkTimeout host t)).dataReady = t.dataReady ∧
        (uartChkTransmitter host (uartChkTimeout host t)).pendingIn = t.pendingIn := by
    refine fun t => ⟨?_, uartChk_input.pendingIn⟩
    rw [uartChkTransmitter_status]
    exact congrArg (·.getLsbD 0) (uartChkTimeout_regs host t (i := 5) (by decide))
  rcases uartChk_cases host received s with ⟨b, rfl, hb, hchk⟩ | ⟨hno, hchk⟩
  · obtain ⟨_, _, hregs, hreceive⟩ := uartReceive_eq (hstep.resolve_left hb) b
    obtain ⟨hbit, hcount⟩ := hbehind (uartReceive host b s)
    rw [hchk, hbit, hcount, receives_of_ne hb, if_pos rfl, hreceive]
    exact ⟨congrArg (·.getLsbD 0) (hregs 5 (by decide)), rfl⟩
  · rw [hchk, hno, if_neg Bool.false_ne_true]
    exact hbehind s

/-- `uart_loop` leaves the bit alone, … -/
theorem uartLoop_status : (uartLoop host s).2.dataReady = s.dataReady := by
  have hset : (s.regs 5 ||| 0b1100000).getLsbD 0 = (s.regs 5).getLsbD 0 := by
    rw [BitVec.getLsbD_or]
    exact Bool.or_false _
  unfold uartLoop
  extract_lets _ t u v
  show (v.regs 5).getLsbD 0 = _
  have hv : v.regs 5 = u.regs 5 := by
    show (if (u.regs 1).getLsbD 1 then uartSendint host 0b0010 u else u).regs 5 = _
    split
    · exact uartSendint_regs host 0b0010 u (by decide)
    · rfl
  rw [hv]
  exact hset

/-- … and so does a write to the transmitter … -/
theorem uartTransmit_status (b : BitVec 8) : (uartTransmit b s).dataReady = s.dataReady := by
  have hclear : ∀ (v m : BitVec 8), m.getLsbD 0 = true →
      (v &&& m).getLsbD 0 = v.getLsbD 0 := by
    intro v m hm
    rw [BitVec.getLsbD_and, hm, Bool.and_true]
  have ht : (uartTransmitLock s).regs 5 = s.regs 5 := by
    unfold uartTransmitLock
    split <;> rfl
  unfold uartTransmit uartTransmitData
  extract_lets u v
  have hv : v.dataReady = s.dataReady := by
    show ((uartTransmitLock s).regs 5 &&& ~~~0b1000000).getLsbD 0 = _
    rw [hclear _ _ (by decide), ht]
    rfl
  split
  · rw [← hv]
    exact hclear _ _ (by decide)
  · exact hv

/-- … or to another register. -/
theorem uartW_status {offset : Nat} (hoffset : offset ≠ 5) (b : BitVec 8) :
    (uartW offset b s).dataReady = s.dataReady := by
  unfold uartW
  extract_lets t u v
  have hreg : t.regs 5 = s.regs 5 := Function.update_of_ne (Ne.symm hoffset) _ _
  have ht : t.dataReady = s.dataReady := congrArg (·.getLsbD 0) hreg
  have hu : u.dataReady = s.dataReady := by
    show (if offset = 3 then { t with dlab := (t.regs 3).getLsbD 7 } else t).dataReady = _
    split <;> exact ht
  have hv : v.dataReady = s.dataReady := by
    show (if offset = 0 then uartTransmit b u else u).dataReady = _
    split
    · exact (uartTransmit_status b).trans hu
    · exact hu
  split <;> exact hv

/-- The end of a read brings the data-ready bit up to date. -/
theorem uartR_status (offset : Nat) :
    (uartR host offset s).dataReady = decide (0 < (uartR host offset s).pendingIn) := by
  unfold uartR
  extract_lets t u
  have hbits : ∀ v : BitVec 8, (v ||| 1).getLsbD 0 = true ∧ (v &&& ~~~1).getLsbD 0 = false := by
    intro v
    rw [BitVec.getLsbD_or, BitVec.getLsbD_and]
    exact ⟨Bool.or_true _, Bool.and_false _⟩
  split
  · next hpend =>
    refine Eq.trans ?_ (decide_eq_true hpend).symm
    exact (congrArg (·.getLsbD 0) (Function.update_self 5 _ u.regs)).trans (hbits _).1
  · next hpend =>
    refine Eq.trans ?_ (decide_eq_false hpend).symm
    exact (congrArg (·.getLsbD 0) (Function.update_self 5 _ u.regs)).trans (hbits _).2

/-- A step that is no read keeps the bit, and counts a byte that it receives. -/
theorem status_step {e : UartEvent} (hread : e.isRead = false) (hstep : StatusStep host s e) :
    (e.step host s).dataReady = s.dataReady ∧
      (e.step host s).pendingIn = if e.receives then s.pendingIn + 1 else s.pendingIn := by
  cases e with
  | chk received => exact uartChk_status hstep
  | loop => exact ⟨uartLoop_status, uartLoop_input.pendingIn⟩
  | read offset => exact absurd hread (Ne.symm Bool.false_ne_true)
  | write offset b => exact ⟨uartW_status hstep b, (uartW_input offset b).pendingIn⟩

end Steps

/-! ## Runs -/

section Runs

variable {host : UartHost} {plic : PlicState} {es : List UartEvent}

/-- A run up to its last read … -/
theorem uptoRead_append (e : UartEvent) :
    uptoRead (es ++ [e]) = if e.isRead then es ++ [e] else uptoRead es := by
  unfold uptoRead
  rw [List.rdropWhile_concat]
  cases e.isRead <;> rfl

/-- … and from there on. -/
theorem sinceRead_append (e : UartEvent) :
    sinceRead (es ++ [e]) = if e.isRead then [] else sinceRead es ++ [e] := by
  unfold sinceRead
  rw [List.rtakeWhile_concat]
  cases e.isRead <;> rfl

/-- After a run the data-ready bit tells whether bytes were unread behind the last read, and
    the bytes received since then are unread as well. -/
theorem dataReady_run (hrun : EveryStep host (StatusStep host) (uartInit plic) es) :
    (uartRun host (uartInit plic) es).dataReady =
        decide (0 < (uartRun host (uartInit plic) (uptoRead es)).pendingIn) ∧
      (uartRun host (uartInit plic) es).pendingIn =
        (uartRun host (uartInit plic) (uptoRead es)).pendingIn +
          BitVec.ofNat 16 ((sinceRead es).countP UartEvent.receives) := by
  induction es using List.reverseRecOn with
  | nil =>
    have hupto : uptoRead [] = [] := List.rdropWhile_nil _
    have hsince : sinceRead [] = [] := List.rtakeWhile_nil _
    rw [hupto, hsince]
    have hinit : (uartInit plic).dataReady = false := by
      unfold UartState.dataReady uartInit
      dsimp only
      rw [Function.update_self]
      decide
    exact ⟨hinit.trans (decide_eq_false (BitVec.lt_irrefl 0)).symm, rfl⟩
  | append_singleton es e ih =>
    rw [everyStep_append] at hrun
    obtain ⟨hrun, -, hstep⟩ := hrun
    obtain ⟨hbit, hcount⟩ := ih hrun
    rw [uptoRead_append, sinceRead_append, uartRun_append]
    cases hread : e.isRead with
    | true =>
      rw [if_pos rfl, if_pos rfl, uartRun_append, List.countP_nil]
      refine ⟨?_, (BitVec.add_zero _).symm⟩
      cases e with
      | read offset => exact uartR_status offset
      | _ => exact absurd hread Bool.false_ne_true
    | false =>
      obtain ⟨hbit', hcount'⟩ := status_step hread hstep
      rw [if_neg Bool.false_ne_true, if_neg Bool.false_ne_true, hbit', hcount', hbit, hcount,
        List.countP_append, List.countP_singleton]
      refine ⟨rfl, ?_⟩
      cases e.receives with
      | true =>
        rw [if_pos rfl, if_pos rfl, BitVec.ofNat_add, BitVec.add_assoc]
        rfl
      | false =>
        rw [if_neg Bool.false_ne_true, if_neg Bool.false_ne_true, Nat.add_zero]

/-- A read of offset 5 returns the line status of before the read. -/
theorem uartR_lineStatus (s : UartState) :
    (uartR host 5 s).outputByte.getLsbD 0 = s.dataReady := by
  obtain ⟨_, _, _, hsame⟩ := uartR_same host 5 s
  rw [hsame]
  exact (BitVec.getLsbD_setWidth _ _ _).trans (Bool.true_and _)

end Runs

/-- In every run from `uart_init`, a read of offset 5 tells whether a byte is unread exactly
    if the condition holds. -/
theorem lineStatus_current_iff (host : UartHost) (plic : PlicState) (es : List UartEvent)
    (hrun : EveryStep host (StatusStep host) (uartInit plic) es) :
    StatusCurrent host plic es ↔ StatusCondition host plic es := by
  have hpos : ∀ v : BitVec 16, 0 < v ↔ ¬ v = 0 := BitVec.pos_iff_ne_zero
  obtain ⟨hbit, hcount⟩ := dataReady_run hrun
  unfold StatusCurrent StatusCondition
  rw [uartR_lineStatus, hbit, decide_eq_true_iff, ← hcount, hpos, hpos, not_iff_not]
  exact iff_comm

private def statusHost : UartHost := ⟨1, false, false, fun _ => 0, fun s _ => s⟩

private def statusPlic : PlicState :=
  ⟨fun _ => 0, fun _ => 0, fun _ => 0, fun _ => 0, fun _ => false, 0, fun _ => 0⟩

/-- A byte is received and the modem status is read. -/
theorem lineStatus_current_afterRead :
    StatusCurrent statusHost statusPlic [.chk (some 0x61), .read 6] :=
  (lineStatus_current_iff statusHost statusPlic [.chk (some 0x61), .read 6]
    ⟨trivial, .inr (.inl (by decide)), trivial, trivial, trivial⟩).mpr
    (by unfold StatusCondition; decide +kernel)

/-- A byte that has come in since is not seen. -/
theorem lineStatus_stale : ¬ StatusCurrent statusHost statusPlic [.chk (some 0x61)] := by
  unfold StatusCurrent
  decide +kernel

end RvEmu
