import RvEmu.ForStd.BitVec
import RvEmu.ForStd.Ring
import RvEmu.Spec.Uart

/-!
# The receiver of the UART

The guest has to read the bytes of the terminal in order, each at most once, and none is
to be dropped while fewer than 16 are unread. The pointers run over 17 slots, without a
check for a full buffer, and the byte 0xFF is taken for the end of the input.
-/

namespace RvEmu

/-! ## What is promised -/

/-- What is seen of the receiver: a byte comes from the terminal, a read returns a byte, or
    a read returns none. -/
inductive InputObs where
  | received (b : BitVec 8)
  | returned (b : BitVec 8)
  | nothing
  deriving DecidableEq

/-- The observations of a queue that holds `q` at first, and may drop a byte that arrives
    while 16 are unread. -/
inductive Accepts : List (BitVec 8) → List InputObs → Prop
  | done {q : List (BitVec 8)} : Accepts q []
  | receive {q : List (BitVec 8)} {b : BitVec 8} {tr : List InputObs}
    (h : Accepts (q ++ [b]) tr) : Accepts q (.received b :: tr)
  | drop {q : List (BitVec 8)} {b : BitVec 8} {tr : List InputObs} (hfull : 16 ≤ q.length)
    (h : Accepts q tr) : Accepts q (.received b :: tr)
  | deliver {q : List (BitVec 8)} {b : BitVec 8} {tr : List InputObs} (h : Accepts q tr) :
    Accepts (b :: q) (.returned b :: tr)
  | empty {tr : List InputObs} (h : Accepts [] tr) : Accepts [] (.nothing :: tr)

/-- The bytes that came from the terminal. -/
def receivedBytes (tr : List InputObs) : List (BitVec 8) :=
  tr.filterMap fun | .received b => some b | _ => none

/-- The bytes that reads returned. -/
def returnedBytes (tr : List InputObs) : List (BitVec 8) :=
  tr.filterMap fun | .returned b => some b | _ => none

/-- What such a queue returns was received, in order, each byte at most once. -/
theorem Accepts.sublist {q : List (BitVec 8)} {tr : List InputObs} (h : Accepts q tr) :
    (returnedBytes tr).Sublist (q ++ receivedBytes tr) := by
  induction h with
  | done => exact List.nil_sublist _
  | @receive q b tr _ ih =>
    show (returnedBytes tr).Sublist (q ++ b :: receivedBytes tr)
    rw [← List.singleton_append, ← List.append_assoc]
    exact ih
  | @drop q b tr _ _ ih =>
    show (returnedBytes tr).Sublist (q ++ b :: receivedBytes tr)
    exact ih.trans ((List.sublist_cons_self b _).append_left q)
  | @deliver q b tr _ ih => exact ih.cons_cons b
  | empty _ ih => exact ih

/-! ## The ring buffer -/

/-- The byte behind `input_buffer` belongs to nothing else: it is a slot like the others. -/
structure UartHost.Spare (host : UartHost) : Prop where
  get : ∀ s, host.overrunGet s = s.inputBuffer ibufSize
  put : ∀ s b, host.overrunPut s b =
    { s with inputBuffer := Function.update s.inputBuffer ibufSize b }

/-- The unread bytes `q` lie in the slots from `read_ptr` to `write_ptr`; they keep to the
    array if the byte behind it is in use. -/
structure Unread (host : UartHost) (s : UartState) (q : List (BitVec 8)) : Prop where
  holds : Ring.Holds s.inputBuffer (ibufSize + 1) s.readPtr s.writePtr q
  pendingIn : s.pendingIn.toNat = q.length
  inside : host.Spare ∨ s.readPtr + q.length ≤ ibufSize

/-- What is seen of the receiver in a step. -/
def observeInput (host : UartHost) (s : UartState) : UartEvent → List InputObs
  | .chk (some b) => [.received b]
  | .read 0 =>
    if s.dlab then []
    else if s.pendingIn > 0 then [.returned ((uartR host 0 s).outputByte.setWidth 8)]
    else [.nothing]
  | _ => []

/-- A byte that is received is not the one taken for the end of the input, it finds a free
    slot, and that slot lies in the array or behind it in a spare byte. -/
def InputCondition (host : UartHost) (s : UartState) : UartEvent → Prop
  | .chk (some b) => b ≠ 0xFF ∧ s.pendingIn.toNat ≤ ibufSize ∧ (s.writePtr < ibufSize ∨ host.Spare)
  | _ => True

/-! ## Steps that leave the receiver alone -/

/-- The buffer, the pointers and the count are the same. -/
structure SameInput (s t : UartState) : Prop where
  inputBuffer : t.inputBuffer = s.inputBuffer
  readPtr : t.readPtr = s.readPtr
  writePtr : t.writePtr = s.writePtr
  pendingIn : t.pendingIn = s.pendingIn

section SameInput

variable {host : UartHost} {s t : UartState}

/-- The input buffer is left alone by two steps, … -/
theorem SameInput.trans {u : UartState} (h : SameInput s t) (h' : SameInput t u) :
    SameInput s u where
  inputBuffer := h'.inputBuffer.trans h.inputBuffer
  readPtr := h'.readPtr.trans h.readPtr
  writePtr := h'.writePtr.trans h.writePtr
  pendingIn := h'.pendingIn.trans h.pendingIn

/-- … by an interrupt, … -/
theorem SameBuffers.sameInput (h : SameBuffers s t) : SameInput s t := by
  obtain ⟨_, _, _, rfl⟩ := h
  exact ⟨rfl, rfl, rfl, rfl⟩

/-- … by `uart_loop`, … -/
theorem uartLoop_input : SameInput s (uartLoop host s).2 := by
  obtain ⟨_, _, _, ht⟩ := uartLoop_same host s
  rw [ht]
  exact ⟨rfl, rfl, rfl, rfl⟩

/-- … by a write to the transmitter … -/
theorem uartTransmit_input (b : BitVec 8) : SameInput s (uartTransmit b s) := by
  have ht : SameInput s (uartTransmitLock s) := (uartTransmitLock_same s).sameInput
  unfold uartTransmit uartTransmitData
  dsimp only
  split <;> exact ⟨ht.inputBuffer, ht.readPtr, ht.writePtr, ht.pendingIn⟩

/-- … and by one to any register. -/
theorem uartW_input (offset : Nat) (b : BitVec 8) : SameInput s (uartW offset b s) := by
  unfold uartW
  extract_lets t u v
  -- a write touches registers, the DLAB flag, the transmitter and the interrupt line, in this order
  have ht : SameInput s t := (sameBuffers_setReg s offset b).sameInput
  have hu : SameInput s u := by
    show SameInput s (if offset = 3 then { t with dlab := (t.regs 3).getLsbD 7 } else t)
    split
    · exact ⟨ht.inputBuffer, ht.readPtr, ht.writePtr, ht.pendingIn⟩
    · exact ht
  have hv : SameInput s v := by
    show SameInput s (if offset = 0 then uartTransmit b u else u)
    split
    · exact hu.trans (uartTransmit_input b)
    · exact hu
  split
  · exact ⟨hv.inputBuffer, hv.readPtr, hv.writePtr, hv.pendingIn⟩
  · exact hv

/-- A read that takes no byte. -/
theorem uartR_input {offset : Nat} (hno : offset = 0 → s.dlab = true ∨ ¬ s.pendingIn > 0) :
    SameInput s (uartR host offset s) := by
  refine SameInput.trans ?_ (uartR_same host offset s).sameInput
  unfold uartFetch
  split
  · split
    · exact ⟨rfl, rfl, rfl, rfl⟩
    · next hdlab =>
      rw [if_neg ((hno rfl).resolve_left hdlab)]
      exact ⟨rfl, rfl, rfl, rfl⟩
  · exact ⟨rfl, rfl, rfl, rfl⟩
  · exact ⟨rfl, rfl, rfl, rfl⟩

/-- `uart_chk` behind the receiver. -/
theorem uartChk_input :
    SameInput s (uartChkTransmitter host (uartChkTimeout host s)) := by
  have ht := (uartChkTimeout_same host s).sameInput
  have hu := (uartChkTransmitter_same host (uartChkTimeout host s)).sameInput
  exact ht.trans ⟨hu.inputBuffer, hu.readPtr, hu.writePtr, hu.pendingIn⟩

end SameInput

/-! ## Steps of the receiver -/

section Receiver

variable {host : UartHost} {s : UartState} {q : List (BitVec 8)}

/-- At the start nothing is unread. -/
theorem unread_init (plic : PlicState) : Unread host (uartInit plic) [] where
  holds := Ring.holds_nil _ (Nat.zero_lt_succ _)
  pendingIn := rfl
  inside := .inr (Nat.zero_le _)

/-- What is unread depends on the input buffer alone. -/
theorem Unread.same (h : Unread host s q) {t : UartState} (ht : SameInput s t) :
    Unread host t q where
  holds := by
    rw [ht.inputBuffer, ht.readPtr, ht.writePtr]
    exact h.holds
  pendingIn := by
    rw [ht.pendingIn]
    exact h.pendingIn
  inside := by
    rw [ht.readPtr]
    exact h.inside

/-- Wrapping a pointer moves it on by one slot. -/
theorem wrapPtr_eq {ptr : Nat} (h : ptr < ibufSize + 1) :
    wrapPtr (ptr + 1) = Ring.slot (ibufSize + 1) ptr 1 := by
  unfold wrapPtr Ring.slot
  split <;> split <;> omega

/-- A byte is stored at the slot of `write_ptr`. -/
theorem put_eq (hslot : s.writePtr < ibufSize ∨ host.Spare) (hptr : s.writePtr < ibufSize + 1)
    (b : BitVec 8) :
    s.put host b = { s with inputBuffer := Function.update s.inputBuffer s.writePtr b } := by
  unfold UartState.put
  split
  · rfl
  · next hbehind =>
    have hspare : host.Spare := hslot.resolve_left hbehind
    have hlast : s.writePtr = ibufSize := by omega
    rw [hspare.put, hlast]

/-- A byte that is stored in the array, or behind it in a spare byte, changes the buffer
    alone. -/
theorem put_same (hslot : s.writePtr < ibufSize ∨ host.Spare) (b : BitVec 8) :
    ∃ buffer, s.put host b = { s with inputBuffer := buffer } := by
  unfold UartState.put
  split
  · exact ⟨_, rfl⟩
  · next hbehind => exact ⟨_, (hslot.resolve_left hbehind).put s b⟩

/-- What receiving a byte changes: the buffer, `write_ptr`, the count, and the interrupt. -/
theorem uartReceive_eq (hslot : s.writePtr < ibufSize ∨ host.Spare) (b : BitVec 8) :
    ∃ regs plic, (∀ i ≠ 2, regs i = s.regs i) ∧ uartReceive host b s =
      { s with
        inputBuffer := (s.put host b).inputBuffer
        writePtr := wrapPtr (s.writePtr + 1)
        pendingIn := s.pendingIn + 1
        regs := regs
        plic := plic } := by
  obtain ⟨buffer, hput⟩ := put_same hslot b
  unfold uartReceive
  rw [hput]
  extract_lets t u v
  by_cases hfires : (u.writePtr : Int) - u.readPtr > u.fifoTriggerLvl.toNat ∧ (u.regs 1).getLsbD 0
  · have hv : v = uartSendint host 0b0100 u := if_pos hfires
    have hregs : ∀ i ≠ 2, v.regs i = s.regs i := fun i hi => by
      rw [hv]
      exact uartSendint_regs host 0b0100 u hi
    refine ⟨v.regs, v.plic, hregs, ?_⟩
    rw [hv]
    unfold uartSendint
    split <;> rfl
  · have hv : v = u := if_neg hfires
    rw [hv]
    exact ⟨s.regs, s.plic, fun _ _ => rfl, rfl⟩

/-- A byte is loaded from the slot of `read_ptr`. -/
theorem deref_eq {b : BitVec 8} (h : Unread host s (b :: q)) : s.deref host = b := by
  have hfront := h.holds.pop.1
  have hptr := h.holds.head_lt
  unfold UartState.deref
  split
  · exact hfront
  · next hbehind =>
    rcases h.inside with hspare | hinside
    · have hlast : s.readPtr = ibufSize := by omega
      rw [hspare.get, ← hlast]
      exact hfront
    · simp only [List.length_cons] at hinside
      omega

/-- Receiving a byte adds it to the unread ones. -/
theorem Unread.receive (h : Unread host s q) {b : BitVec 8} (hroom : s.pendingIn.toNat ≤ ibufSize)
    (hslot : s.writePtr < ibufSize ∨ host.Spare) :
    Unread host (uartReceive host b s) (q ++ [b]) := by
  have hlen : q.length < ibufSize + 1 := by
    have hpend := h.pendingIn
    omega
  have hpush := h.holds.push hlen b
  rw [← wrapPtr_eq h.holds.tail_lt] at hpush
  have hpending : (s.pendingIn + 1).toNat = (q ++ [b]).length := by
    rw [BitVec.toNat_add, h.pendingIn, List.length_append]
    show (q.length + 1) % 65536 = q.length + 1
    have hsmall : ibufSize = 16 := rfl
    omega
  have hinside : host.Spare ∨ s.readPtr + (q ++ [b]).length ≤ ibufSize := by
    rcases hslot with hlt | hspare
    · rcases h.inside with hspare | hinside
      · exact .inl hspare
      · -- `write_ptr` has not wrapped
        refine .inr ?_
        have htail := h.holds.tail_eq
        unfold Ring.slot at htail
        rw [if_pos (by omega)] at htail
        simp only [List.length_append, List.length_singleton]
        omega
    · exact .inl hspare
  obtain ⟨_, _, _, heq⟩ := uartReceive_eq hslot b
  rw [heq, put_eq hslot h.holds.tail_lt]
  exact ⟨hpush, hpending, hinside⟩

/-- `pending_in` tells whether a byte is unread. -/
theorem Unread.pendingIn_pos_iff (h : Unread host s q) : s.pendingIn > 0 ↔ q ≠ [] := by
  have hpend := h.pendingIn
  show (0 : Nat) < s.pendingIn.toNat ↔ q ≠ []
  rw [hpend]
  exact List.length_pos_iff

/-- What taking a byte changes. -/
theorem uartFetch_take (hdlab : s.dlab = false) (hpend : s.pendingIn > 0) :
    uartFetch host 0 s =
      { s with
        outputByte := (s.deref host).signExtend 64
        readPtr := wrapPtr (s.readPtr + 1)
        pendingIn := s.pendingIn - 1 } := by
  unfold uartFetch
  rw [hdlab, if_neg Bool.false_ne_true, if_pos hpend]
  rfl

/-- Taking a byte out of the ring. -/
theorem uartFetch_unread {b : BitVec 8} (h : Unread host s (b :: q)) (hdlab : s.dlab = false) :
    uartFetch host 0 s =
      { s with
        outputByte := b.signExtend 64
        readPtr := wrapPtr (s.readPtr + 1)
        pendingIn := s.pendingIn - 1 } := by
  have hpend : s.pendingIn > 0 := h.pendingIn_pos_iff.mpr (List.cons_ne_nil b q)
  rw [uartFetch_take hdlab hpend, deref_eq h]

/-- A read with unread bytes returns the first of them. -/
theorem Unread.deliver {b : BitVec 8} (h : Unread host s (b :: q)) (hdlab : s.dlab = false) :
    ((uartR host 0 s).outputByte.setWidth 8 = b) ∧ Unread host (uartR host 0 s) q := by
  -- only `uartFetch` takes from the ring; the interrupt update after it keeps the buffers
  have hfetch := uartFetch_unread h hdlab
  have hrest : Unread host (uartFetch host 0 s) q := by
    rw [hfetch]
    refine ⟨?_, ?_, ?_⟩
    · show Ring.Holds s.inputBuffer _ (wrapPtr (s.readPtr + 1)) s.writePtr q
      rw [wrapPtr_eq h.holds.head_lt]
      exact h.holds.pop.2
    · have hpos := h.pendingIn
      rw [List.length_cons] at hpos
      show (s.pendingIn - 1).toNat = q.length
      rw [BitVec.toNat_sub, hpos]
      have hlt := s.pendingIn.isLt
      show (65536 - 1 + (q.length + 1)) % 65536 = q.length
      omega
    · rcases h.inside with hspare | hinside
      · exact .inl hspare
      · refine .inr ?_
        simp only [List.length_cons] at hinside
        show wrapPtr (s.readPtr + 1) + q.length ≤ ibufSize
        unfold wrapPtr
        split <;> omega
  have hsame := uartR_same host 0 s
  refine ⟨?_, hrest.same hsame.sameInput⟩
  obtain ⟨_, _, _, ht⟩ := hsame
  rw [ht, hfetch]
  -- the guest gets the byte sign extended, as a `char` of the source is
  exact (BitVec.setWidth_signExtend_of_le b (by decide)).trans (BitVec.signExtend_eq b)

/-- A read of the receiver returns the first byte of the queue, or finds it empty. -/
theorem Unread.readByte (h : Unread host s q) :
    ∃ q', Unread host (uartR host 0 s) q' ∧
      ∀ tr, Accepts q' tr → Accepts q (observeInput host s (.read 0) ++ tr) := by
  show ∃ q', Unread host (uartR host 0 s) q' ∧ ∀ tr, Accepts q' tr →
    Accepts q ((if s.dlab then [] else if s.pendingIn > 0 then _ else _) ++ tr)
  cases hdlab : s.dlab with
  | true =>
    -- offset 0 is the divisor latch
    exact ⟨q, h.same (uartR_input fun _ => .inl hdlab), fun _ htr => htr⟩
  | false =>
    cases q with
    | nil =>
      have hempty : ¬ s.pendingIn > 0 := fun hpend => h.pendingIn_pos_iff.mp hpend rfl
      refine ⟨[], h.same (uartR_input fun _ => .inr hempty), fun tr htr => ?_⟩
      rw [if_neg Bool.false_ne_true, if_neg hempty]
      exact .empty htr
    | cons b q =>
      have hpend : s.pendingIn > 0 := h.pendingIn_pos_iff.mpr (List.cons_ne_nil b q)
      obtain ⟨hbyte, hrest⟩ := h.deliver hdlab
      refine ⟨q, hrest, fun tr htr => ?_⟩
      rw [if_neg Bool.false_ne_true, if_pos hpend, hbyte]
      exact .deliver htr

/-- One step under the condition is one of the queue: what the queue accepts afterwards, it
    accepts behind the observations of the step. -/
theorem Unread.step (h : Unread host s q) {e : UartEvent} (hc : InputCondition host s e) :
    ∃ q', Unread host (e.step host s) q' ∧
      ∀ tr, Accepts q' tr → Accepts q (observeInput host s e ++ tr) := by
  cases e with
  | chk received =>
    cases received with
    -- only a received byte makes the queue longer, and only a read of offset 0 shorter
    | none => exact ⟨q, h.same uartChk_input, fun _ htr => htr⟩
    | some b =>
      obtain ⟨hb, hroom, hslot⟩ := hc
      refine ⟨q ++ [b], ?_, fun _ htr => .receive htr⟩
      show Unread host (uartChk host (some b) s) (q ++ [b])
      rw [uartChk_receive host hb]
      exact (h.receive hroom hslot).same uartChk_input
  | loop => exact ⟨q, h.same uartLoop_input, fun _ htr => htr⟩
  | read offset =>
    cases offset with
    | succ i => exact ⟨q, h.same (uartR_input nofun), fun _ htr => htr⟩
    | zero => exact h.readByte
  | write offset b => exact ⟨q, h.same (uartW_input offset b), fun _ htr => htr⟩

/-- A run under the condition is one of the queue. -/
theorem Unread.run (h : Unread host s q) {es : List UartEvent}
    (hc : EveryStep host (InputCondition host) s es) :
    Accepts q (uartTrace host (observeInput host) s es) := by
  induction es generalizing s q with
  | nil => exact .done
  | cons e es ih =>
    obtain ⟨-, hcond, hrest⟩ := hc
    obtain ⟨q', hq', haccepts⟩ := h.step hcond
    exact haccepts _ (ih hq' hrest)

end Receiver

/-- What is promised of the receiver for a run. -/
structure InputCorrect (host : UartHost) (s : UartState) (es : List UartEvent) : Prop where
  accepts : Accepts [] (uartTrace host (observeInput host) s es)
  order : (returnedBytes (uartTrace host (observeInput host) s es)).Sublist
    (receivedBytes (uartTrace host (observeInput host) s es))

/-- In every run of the UART from its start, the bytes of the terminal reach the guest in
    order, each at most once, and none is dropped, if none of them is 0xFF, there is a free
    slot for each of them, and the byte behind the buffer is free when it is used. -/
theorem uart_input_ordered (host : UartHost) (plic : PlicState) (es : List UartEvent)
    (h : EveryStep host (InputCondition host) (uartInit plic) es) :
    InputCorrect host (uartInit plic) es :=
  have haccepts := (unread_init plic).run h
  ⟨haccepts, haccepts.sublist⟩

/-- One hart, a terminal, and a spare byte behind the buffer. -/
private def spareHost : UartHost where
  machHartCount := 1
  dbgFallback := false
  sigMode := false
  overrunGet s := s.inputBuffer ibufSize
  overrunPut s b := { s with inputBuffer := Function.update s.inputBuffer ibufSize b }

private def quietPlic : PlicState :=
  ⟨fun _ => 0, fun _ => 0, fun _ => 0, fun _ => 0, fun _ => false, 0, fun _ => 0⟩

/-- Two bytes are received and read. -/
theorem uart_input_two :
    InputCorrect spareHost (uartInit quietPlic)
      [.chk (some 0x61), .chk (some 0x62), .read 0, .chk none, .read 0] :=
  uart_input_ordered spareHost quietPlic _
    ⟨trivial, ⟨by decide, by decide, .inl (by decide)⟩,
      trivial, ⟨by decide, by decide +kernel, .inl (by decide +kernel)⟩,
      trivial, trivial, trivial, trivial, trivial, trivial, trivial⟩

/-- The byte 0xFF is dropped with nothing unread. -/
theorem uart_drops_ff :
    ¬ ∀ es, EveryStep spareHost (fun _ _ => True) (uartInit quietPlic) es →
      InputCorrect spareHost (uartInit quietPlic) es := by
  intro h
  have haccepts := (h [.chk (some 0xFF), .read 0] ⟨trivial, trivial, trivial, trivial, trivial⟩).accepts
  have htrace : uartTrace spareHost (observeInput spareHost) (uartInit quietPlic)
      [.chk (some 0xFF), .read 0] = [.received 0xFF, .nothing] := by decide +kernel
  rw [htrace] at haccepts
  cases haccepts with
  | receive hrest => cases hrest
  | drop hfull => exact absurd hfull (by decide)

end RvEmu
