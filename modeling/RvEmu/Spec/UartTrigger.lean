import RvEmu.Spec.UartInput

/-!
# The receive trigger of the UART

A byte that comes in raises the data-ready interrupt if more bytes are unread than
`fifo_trigger_lvl`. `uart_chk` takes the difference of the pointers for the number of unread
bytes, which it is only as long as `write_ptr` has not wrapped before `read_ptr`.

## Key results

- `Filled.run`: the pointers, by the number of unread bytes
- `triggers_iff`: when the trigger fires
- `sameTrigger_iff`: when two states with as many unread bytes behave the same
-/

namespace RvEmu

/-- The next byte that `uart_chk` receives calls `uart_sendint` because of the trigger. -/
def Triggers (s : UartState) : Prop :=
  ((s.writePtr + 1 : Nat) : Int) - s.readPtr > s.fifoTriggerLvl.toNat ∧
    (s.regs 1).getLsbD 0 = true

instance (s : UartState) : Decidable (Triggers s) := inferInstanceAs (Decidable (_ ∧ _))

/-- The trigger decides whether `uart_chk` calls `uart_sendint` for a byte that it receives. -/
def TriggerDecides (host : UartHost) (s : UartState) : Prop :=
  ∀ b, (s.writePtr < ibufSize ∨ host.Spare) →
    uartReceive host b s =
      let t := { s.put host b with
        writePtr := s.writePtr + 1
        pendingIn := s.pendingIn + 1 }
      { (if Triggers s then uartSendint host 0b0100 t else t) with
        writePtr := wrapPtr (s.writePtr + 1) }

/-- Nothing is received into a byte behind the input buffer that is in use. -/
def ReceiveStep (host : UartHost) (s : UartState) : UartEvent → Prop
  | .chk (some b) => b = 0xFF ∨ s.writePtr < ibufSize ∨ host.Spare
  | _ => True

/-- A read of the guest takes a byte. -/
def UartEvent.takes (s : UartState) : UartEvent → Bool
  | read offset => offset == 0 && !s.dlab && decide (s.pendingIn > 0)
  | _ => false

/-- The number of unread bytes after a run that starts with `unread` ones. -/
def unreadCount (host : UartHost) : UartState → Nat → List UartEvent → Nat
  | _, unread, [] => unread
  | s, unread, e :: es =>
    unreadCount host (e.step host s)
      (unread + (if e.receives then 1 else 0) - if e.takes s then 1 else 0) es

/-- The pointers are `k` unread bytes apart, in the 17 slots that they reach. -/
structure Filled (s : UartState) (k : Nat) : Prop where
  readPtr : s.readPtr < 17
  writePtr : s.writePtr = (s.readPtr + k) % 17
  pendingIn : s.pendingIn = BitVec.ofNat 16 k

/-- The trigger is what makes `uart_chk` call `uart_sendint` for a byte that it receives. -/
theorem uartReceive_triggers (host : UartHost) (s : UartState) : TriggerDecides host s := by
  intro b hslot
  obtain ⟨buffer, hput⟩ := put_same hslot b
  unfold uartReceive
  rw [hput]
  extract_lets t u v
  have hv : v = if Triggers s then uartSendint host 0b0100 u else u := rfl
  have hptr : v.writePtr = s.writePtr + 1 := by
    rw [hv]
    split
    · obtain ⟨_, _, _, hu⟩ := uartSendint_same host 0b0100 u
      rw [hu]
    · rfl
  rw [hptr, hv]

section Fill

variable {host : UartHost} {s t : UartState} {k : Nat}

theorem filled_init (plic : PlicState) : Filled (uartInit plic) 0 :=
  ⟨Nat.zero_lt_succ _, rfl, rfl⟩

theorem Filled.same (h : Filled s k) (ht : SameInput s t) : Filled t k where
  readPtr := by
    rw [ht.readPtr]
    exact h.readPtr
  writePtr := by
    rw [ht.writePtr, ht.readPtr]
    exact h.writePtr
  pendingIn := ht.pendingIn.trans h.pendingIn

/-- Wrapping a pointer is counting modulo the number of slots. -/
theorem wrapPtr_mod {ptr : Nat} (h : ptr < 17) :
    wrapPtr (ptr + 1) = (ptr + 1) % 17 := by
  show (if ptr + 1 > 16 then 0 else ptr + 1) = (ptr + 1) % 17
  split <;> omega

theorem Filled.receive (h : Filled s k) (hslot : s.writePtr < ibufSize ∨ host.Spare)
    (b : BitVec 8) : Filled (uartReceive host b s) (k + 1) := by
  obtain ⟨_, _, _, heq⟩ := uartReceive_eq hslot b
  have hwrite := h.writePtr
  rw [heq]
  refine ⟨h.readPtr, ?_, ?_⟩
  · show wrapPtr (s.writePtr + 1) = (s.readPtr + (k + 1)) % 17
    rw [wrapPtr_mod (by omega)]
    omega
  · show s.pendingIn + 1 = BitVec.ofNat 16 (k + 1)
    rw [h.pendingIn, BitVec.ofNat_add]
    rfl

theorem Filled.take (h : Filled s k) (hdlab : s.dlab = false) (hpend : s.pendingIn > 0) :
    Filled (uartR host 0 s) (k - 1) := by
  obtain ⟨j, rfl⟩ : ∃ j, k = j + 1 := by
    refine Nat.exists_eq_succ_of_ne_zero fun hzero => ?_
    rw [h.pendingIn, hzero] at hpend
    exact BitVec.lt_irrefl 0 hpend
  have hwrite := h.writePtr
  have hfetch : Filled (uartFetch host 0 s) j := by
    rw [uartFetch_take hdlab hpend]
    refine ⟨?_, ?_, ?_⟩
    · show wrapPtr (s.readPtr + 1) < 17
      rw [wrapPtr_mod h.readPtr]
      exact Nat.mod_lt _ (Nat.zero_lt_succ _)
    · show s.writePtr = (wrapPtr (s.readPtr + 1) + j) % 17
      rw [wrapPtr_mod h.readPtr]
      omega
    · show s.pendingIn - 1 = BitVec.ofNat 16 j
      rw [h.pendingIn, BitVec.ofNat_add]
      exact BitVec.add_sub_cancel _ _
  exact hfetch.same (uartR_same host 0 s).sameInput

/-- One step. -/
theorem Filled.step (h : Filled s k) {e : UartEvent} (he : ReceiveStep host s e) :
    Filled (e.step host s) (k + (if e.receives then 1 else 0) - if e.takes s then 1 else 0) := by
  cases e with
  | chk received =>
    show Filled (uartChk host received s) _
    rcases uartChk_cases host received s with ⟨b, rfl, hb, hchk⟩ | ⟨hno, hchk⟩
    · rw [hchk, receives_of_ne hb, if_pos rfl]
      exact (h.receive (he.resolve_left hb) b).same uartChk_input
    · rw [hchk, hno, if_neg Bool.false_ne_true]
      exact h.same uartChk_input
  | loop => exact h.same uartLoop_input
  | write offset b => exact h.same (uartW_input offset b)
  | read offset =>
    cases htake : (UartEvent.read offset).takes s with
    | true =>
      unfold UartEvent.takes at htake
      rw [Bool.and_eq_true, Bool.and_eq_true, beq_iff_eq, Bool.not_eq_true',
        decide_eq_true_iff] at htake
      obtain ⟨⟨rfl, hdlab⟩, hpend⟩ := htake
      exact h.take hdlab hpend
    | false =>
      refine h.same (uartR_input fun hzero => ?_)
      by_contra hnot
      rw [not_or, not_not, Bool.not_eq_true] at hnot
      rw [hzero, UartEvent.takes, hnot.1, decide_eq_true hnot.2] at htake
      exact absurd htake (by decide)

/-- A run. -/
theorem Filled.run (h : Filled s k) {es : List UartEvent}
    (hes : EveryStep host (ReceiveStep host) s es) :
    Filled (uartRun host s es) (unreadCount host s k es) := by
  induction es generalizing s k with
  | nil => exact h
  | cons e es ih =>
    obtain ⟨-, hstep, hrest⟩ := hes
    exact ih (h.step hstep) hrest

/-- The trigger fires if the unread bytes lie in one piece and reach the level. -/
theorem triggers_iff (h : Filled s k) (hier : (s.regs 1).getLsbD 0 = true) :
    Triggers s ↔ s.readPtr + k % 17 ≤ 16 ∧
      s.fifoTriggerLvl.toNat ≤ k % 17 := by
  have hread := h.readPtr
  have hwrite := h.writePtr
  unfold Triggers
  rw [and_iff_left hier, hwrite]
  omega

end Fill

/-- Two runs end in states in which the next byte fires the trigger or not alike. -/
def SameTrigger (host : UartHost) (plic plic' : PlicState) (es es' : List UartEvent) : Prop :=
  Triggers (uartRun host (uartInit plic) es) ↔ Triggers (uartRun host (uartInit plic') es')

/-- Fewer than `fifo_trigger_lvl` bytes are unread, or the unread bytes reach behind the end of
    the buffer in both states or in none. (Bytes that have been written over do not count.) -/
def TriggerCondition (s s' : UartState) (unread : Nat) : Prop :=
  unread % 17 < s.fifoTriggerLvl.toNat ∨
    (s.readPtr + unread % 17 ≤ 16 ↔ s'.readPtr + unread % 17 ≤ 16)

/-- For every two runs from `uart_init` to states with as many unread bytes, the same level and
    the data-ready interrupt enabled: the trigger decides about the next byte that `uart_chk`
    receives, and behaves the same exactly if the condition holds. -/
theorem sameTrigger_iff (host : UartHost) (plic plic' : PlicState) (es es' : List UartEvent)
    (hes : EveryStep host (ReceiveStep host) (uartInit plic) es)
    (hes' : EveryStep host (ReceiveStep host) (uartInit plic') es')
    (hunread : unreadCount host (uartInit plic) 0 es = unreadCount host (uartInit plic') 0 es')
    (hlevel : (uartRun host (uartInit plic) es).fifoTriggerLvl =
      (uartRun host (uartInit plic') es').fifoTriggerLvl)
    (hier : ((uartRun host (uartInit plic) es).regs 1).getLsbD 0 = true)
    (hier' : ((uartRun host (uartInit plic') es').regs 1).getLsbD 0 = true) :
    TriggerDecides host (uartRun host (uartInit plic) es) ∧
    TriggerDecides host (uartRun host (uartInit plic') es') ∧
    (SameTrigger host plic plic' es es' ↔
      TriggerCondition (uartRun host (uartInit plic) es) (uartRun host (uartInit plic') es')
        (unreadCount host (uartInit plic) 0 es)) := by
  refine ⟨uartReceive_triggers host _, uartReceive_triggers host _, ?_⟩
  have hfill := (filled_init plic).run hes
  have hfill' := (filled_init plic').run hes'
  rw [← hunread] at hfill'
  unfold SameTrigger TriggerCondition
  rw [triggers_iff hfill hier, triggers_iff hfill' hier', ← hlevel]
  omega

/-- One hart, a terminal, and a spare byte behind the buffer. -/
private def triggerHost : UartHost where
  machHartCount := 1
  dbgFallback := false
  sigMode := false
  overrunGet s := s.inputBuffer ibufSize
  overrunPut s b := { s with inputBuffer := Function.update s.inputBuffer ibufSize b }

private def triggerPlic : PlicState :=
  ⟨fun _ => 0, fun _ => 0, fun _ => 0, fun _ => 0, fun _ => false, 0, fun _ => 0⟩

/-- A byte is unread at the start of the buffer. -/
private def triggerFirst : List UartEvent := [.write 1 1, .chk (some 0x61)]

/-- A byte is received and read before. -/
private def triggerSecond : List UartEvent :=
  [.chk (some 0x61), .read 0, .write 1 1, .chk (some 0x61)]

/-- 16 bytes are received and read, and a byte is unread in the last slot. -/
private def triggerLast : List UartEvent :=
  (List.replicate 16 [.chk (some 0x61), .read 0]).flatten ++ triggerFirst

/-- A byte is unread in the first slot or in the second. -/
theorem sameTrigger_iff_second :
    SameTrigger triggerHost triggerPlic triggerPlic triggerFirst triggerSecond :=
  (sameTrigger_iff triggerHost triggerPlic triggerPlic triggerFirst triggerSecond
    ⟨trivial, trivial, trivial, .inr (.inl (by decide +kernel)), trivial⟩
    ⟨trivial, .inr (.inl (by decide)), trivial, trivial, trivial, trivial, trivial,
      .inr (.inl (by decide +kernel)), trivial⟩
    (by decide +kernel) (by decide +kernel) (by decide +kernel) (by decide +kernel)).2.2.mpr
    (by unfold TriggerCondition; decide +kernel)

/-- With one byte unread and the level 1, the trigger fires at the start of the buffer and does
    not fire at its end. -/
theorem trigger_rotated :
    unreadCount triggerHost (uartInit triggerPlic) 0 triggerFirst =
      unreadCount triggerHost (uartInit triggerPlic) 0 triggerLast ∧
    (uartRun triggerHost (uartInit triggerPlic) triggerFirst).fifoTriggerLvl =
      (uartRun triggerHost (uartInit triggerPlic) triggerLast).fifoTriggerLvl ∧
    ((uartRun triggerHost (uartInit triggerPlic) triggerFirst).regs 1).getLsbD 0 = true ∧
    ((uartRun triggerHost (uartInit triggerPlic) triggerLast).regs 1).getLsbD 0 = true ∧
    ¬ SameTrigger triggerHost triggerPlic triggerPlic triggerFirst triggerLast := by
  refine ⟨by decide +kernel, by decide +kernel, by decide +kernel, by decide +kernel, ?_⟩
  unfold SameTrigger
  decide +kernel

end RvEmu
