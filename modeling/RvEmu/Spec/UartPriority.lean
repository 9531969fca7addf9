import Mathlib.Data.List.Induction
import RvEmu.ForStd.BitVec
import RvEmu.Spec.Uart

/-!
# The pending interrupt of the UART

The low nibble of `regs[2]` identifies the pending interrupt, which has to be the most urgent
one of those sent. The numbers of `uart_int_prio` are low for urgent interrupts, but
`uart_sendint` gives way to the higher number; and a write to the FIFO control register
replaces the identification, which lies at the same offset.

## Key results

- `pending_max`: what is pending is the least urgent interrupt sent
- `mostUrgent_iff`: when it is the most urgent one as well
-/

namespace RvEmu

/-- The interrupts of the UART. -/
inductive UartInt where
  | modemStatus
  | txEmpty
  | dataReady
  | lineStatus
  | timeout
  deriving DecidableEq

/-- The code that `uart_sendint` takes. -/
def UartInt.code : UartInt → BitVec 8
  | modemStatus => 0x0
  | txEmpty => 0x2
  | dataReady => 0x4
  | lineStatus => 0x6
  | timeout => 0xC

/-- The place in the order of the 16550, from the most urgent interrupt on. -/
def UartInt.rank : UartInt → Nat
  | lineStatus => 0
  | dataReady => 1
  | timeout => 1
  | txEmpty => 2
  | modemStatus => 3

/-- An interrupt is sent, or the guest writes to the FIFO control register. -/
inductive IirEvent where
  | send (i : UartInt)
  | fcr (data : BitVec 8)

/-- The interrupt that an event sends. -/
def IirEvent.sent : IirEvent → Option UartInt
  | send i => some i
  | fcr _ => none

def IirEvent.step (host : UartHost) (s : UartState) : IirEvent → UartState
  | send i => uartSendint host i.code s
  | fcr data => uartW 2 data s

/-- The state after a sequence of events. -/
def iirRun (host : UartHost) (s : UartState) (es : List IirEvent) : UartState :=
  es.foldl (IirEvent.step host) s

/-- The interrupts that are sent. -/
def sentInts (es : List IirEvent) : List UartInt := es.filterMap IirEvent.sent

/-- The identification of the interrupt that is pending. -/
def UartState.iir (s : UartState) : BitVec 8 := s.regs 2 &&& 0xF

/-- The identification of no interrupt. -/
def noInt : BitVec 8 := 0x1

/-- No write to the FIFO control register changes what is pending. -/
def FifoKeeps (host : UartHost) (s : UartState) (es : List IirEvent) : Prop :=
  ∀ before data, before ++ [.fcr data] <+: es →
    (iirRun host s (before ++ [.fcr data])).iir = (iirRun host s before).iir

/-- What is pending in the end is the most urgent interrupt of those sent, and no write to
    the FIFO control register changes what is pending. -/
structure MostUrgent (host : UartHost) (s : UartState) (es : List IirEvent) : Prop where
  none : sentInts es = [] → (iirRun host s es).iir = noInt
  some : sentInts es ≠ [] → ∃ i ∈ sentInts es, (iirRun host s es).iir = i.code ∧
    ∀ j ∈ sentInts es, i.rank ≤ j.rank
  fifo : FifoKeeps host s es

/-- The code of the last interrupt sent. -/
def lastCode (es : List IirEvent) : BitVec 8 :=
  ((sentInts es).getLast?.map UartInt.code).getD noInt

/-- All interrupts that are sent are equally urgent, and a write to the FIFO control register
    has the code of the last interrupt in its low nibble. -/
structure PriorityCondition (es : List IirEvent) : Prop where
  rank : ∀ i ∈ sentInts es, ∀ j ∈ sentInts es, i.rank = j.rank
  fifo : ∀ before data, before ++ [.fcr data] <+: es → data &&& 0xF = lastCode before

/-! ## One event -/

section Event

variable {host : UartHost} {s : UartState}

/-- Each interrupt has a code of its own, … -/
theorem code_inj {i j : UartInt} (h : i.code = j.code) : i = j := by
  cases i <;> cases j <;> first | rfl | exact absurd h (by decide)

/-- … which is not that of none. -/
theorem code_ne_noInt (i : UartInt) : i.code ≠ noInt := by
  cases i <;> decide

/-- The table of `uart_sendint` has the order of the 16550. -/
theorem uartIntPrio_code (i : UartInt) : uartIntPrio (i.code >>> 1).toNat = i.rank + 1 := by
  cases i <;> rfl

/-- The entry of the table for the interrupt that is pending. -/
theorem uartIntPrio_iir {i : UartInt} (h : s.iir = i.code) :
    uartIntPrio ((s.regs 2 >>> 1) &&& 0b111).toNat = i.rank + 1 := by
  have hshift : ∀ r : BitVec 8, (r >>> 1) &&& (0b111 : BitVec 8) = (r &&& 0xF) >>> 1 := by
    decide +kernel
  rw [hshift, ← uartIntPrio_code i, ← h]
  rfl

/-- An interrupt that `uart_sendint` accepts is pending. -/
theorem iir_accept (i : UartInt) :
    (s.setReg 2 ((s.regs 2 &&& ~~~0xF) ||| (i.code &&& 0xF))).iir = i.code := by
  have hcode : i.code &&& 0xF &&& 0xF = i.code := by
    cases i <;> rfl
  unfold UartState.iir UartState.setReg
  dsimp only
  rw [Function.update_self, BitVec.and_or_distrib_right, BitVec.and_not_and_self]
  exact BitVec.zero_or.trans hcode

/-- With nothing pending, an interrupt that is sent is pending. -/
theorem iir_send_none (h : s.iir = noInt) (i : UartInt) :
    (uartSendint host i.code s).iir = i.code := by
  unfold uartSendint
  rw [if_neg fun hpend => hpend.1 h]
  exact iir_accept i

/-- With an interrupt pending, one that is sent is pending unless it is more urgent. -/
theorem iir_send_some {i : UartInt} (h : s.iir = i.code) (j : UartInt) :
    (uartSendint host j.code s).iir = if j.rank < i.rank then i.code else j.code := by
  have hpend : s.regs 2 &&& 0xF ≠ 0x1 := fun hnone => code_ne_noInt i (h.symm.trans hnone)
  unfold uartSendint
  rw [uartIntPrio_code, uartIntPrio_iir h]
  by_cases hrank : j.rank < i.rank
  · rw [if_pos ⟨hpend, Nat.succ_lt_succ hrank⟩, if_pos hrank, h]
  · rw [if_neg fun hnot => hrank (Nat.lt_of_succ_lt_succ hnot.2), if_neg hrank]
    exact iir_accept j

end Event

/-! ## Runs -/

section Runs

variable {host : UartHost} {s : UartState} {es : List IirEvent} {e : IirEvent}

/-- A run and one more event. -/
theorem iirRun_append : iirRun host s (es ++ [e]) = e.step host (iirRun host s es) := by
  rw [iirRun, List.foldl_append]
  rfl

/-- A sent interrupt comes last, … -/
theorem sentInts_send (i : UartInt) : sentInts (es ++ [.send i]) = sentInts es ++ [i] := by
  unfold sentInts
  rw [List.filterMap_append]
  rfl

/-- … and a write to FCR sends none. -/
theorem sentInts_fcr (data : BitVec 8) : sentInts (es ++ [.fcr data]) = sentInts es := by
  unfold sentInts
  rw [List.filterMap_append]
  exact List.append_nil _

/-- The code of the last interrupt, … -/
theorem lastCode_send (i : UartInt) : lastCode (es ++ [.send i]) = i.code := by
  unfold lastCode
  rw [sentInts_send, List.getLast?_concat]
  rfl

/-- … which a write to FCR does not change. -/
theorem lastCode_fcr (data : BitVec 8) : lastCode (es ++ [.fcr data]) = lastCode es := by
  unfold lastCode
  rw [sentInts_fcr]

/-- What holds in a run holds up to any moment of it, … -/
theorem FifoKeeps.mono {es' : List IirEvent} (h : FifoKeeps host s es) (hes : es' <+: es) :
    FifoKeeps host s es' :=
  fun before data hpre => h before data (hpre.trans hes)

/-- … such as before the last event. -/
theorem FifoKeeps.append (h : FifoKeeps host s (es ++ [e])) : FifoKeeps host s es :=
  h.mono (List.prefix_append _ _)

/-- The last write to the FIFO control register. -/
theorem FifoKeeps.last {data : BitVec 8} (h : FifoKeeps host s (es ++ [.fcr data])) :
    (iirRun host s (es ++ [.fcr data])).iir = (iirRun host s es).iir :=
  h es data List.prefix_rfl

/-- Where the writes to the FIFO control register keep what is pending, it is the least urgent
    interrupt that has been sent. -/
theorem pending_max (hs : s.iir = noInt) (h : FifoKeeps host s es) :
    (sentInts es = [] ∧ (iirRun host s es).iir = noInt) ∨
      ∃ i ∈ sentInts es, (iirRun host s es).iir = i.code ∧
        ∀ j ∈ sentInts es, j.rank ≤ i.rank := by
  induction es using List.reverseRecOn with
  | nil => exact .inl ⟨rfl, hs⟩
  | append_singleton es e ih =>
    cases e with
    | fcr data =>
      rw [sentInts_fcr, h.last]
      exact ih h.append
    | send i =>
      have hstep : iirRun host s (es ++ [.send i]) =
          uartSendint host i.code (iirRun host s es) := iirRun_append
      rw [sentInts_send, hstep]
      right
      rcases ih h.append with ⟨hsent, hnone⟩ | ⟨k, hk, hpend, hmax⟩
      · rw [hsent, List.nil_append]
        exact ⟨i, List.mem_singleton_self i, iir_send_none hnone i,
          List.forall_mem_singleton.mpr (Nat.le_refl _)⟩
      · rw [iir_send_some hpend]
        -- `i` replaces the pending `k` unless it is more urgent
        by_cases hrank : i.rank < k.rank
        · refine ⟨k, List.mem_append_left _ hk, if_pos hrank, ?_⟩
          exact List.forall_mem_append.mpr ⟨hmax, List.forall_mem_singleton.mpr (by omega)⟩
        · refine ⟨i, List.mem_append_right _ (List.mem_singleton_self i), if_neg hrank, ?_⟩
          refine List.forall_mem_append.mpr ⟨fun j hj => ?_,
            List.forall_mem_singleton.mpr (Nat.le_refl _)⟩
          have hj := hmax j hj
          omega

/-- Among equally urgent interrupts, the last one is pending. -/
theorem pending_last (hs : s.iir = noInt) (h : FifoKeeps host s es)
    (hrank : ∀ i ∈ sentInts es, ∀ j ∈ sentInts es, i.rank = j.rank) :
    (iirRun host s es).iir = lastCode es := by
  induction es using List.reverseRecOn with
  | nil => exact hs
  | append_singleton es e ih =>
    cases e with
    | fcr data =>
      rw [sentInts_fcr] at hrank
      rw [h.last, lastCode_fcr]
      exact ih h.append hrank
    | send i =>
      rw [sentInts_send] at hrank
      have hstep : iirRun host s (es ++ [.send i]) =
          uartSendint host i.code (iirRun host s es) := iirRun_append
      rw [hstep, lastCode_send]
      rcases pending_max hs h.append with ⟨-, hnone⟩ | ⟨k, hk, hpend, -⟩
      · exact iir_send_none hnone i
      · have hsame := hrank i (List.mem_append_right _ (List.mem_singleton_self i)) k
          (List.mem_append_left _ hk)
        rw [iir_send_some hpend, if_neg (by omega)]

/-- FCR is written over IIR. -/
theorem iir_write (data : BitVec 8) :
    (iirRun host s (es ++ [.fcr data])).iir = data &&& 0xF := by
  rw [iirRun_append]
  rfl

/-- What has been sent stays sent. -/
theorem sentInts_mono {es' : List IirEvent} (hes : es' <+: es) {i : UartInt}
    (hi : i ∈ sentInts es') : i ∈ sentInts es :=
  (hes.filterMap _).subset hi

/-- With equally urgent interrupts, the writes to the FIFO control register keep what is
    pending exactly if they carry the code of the last interrupt. -/
theorem fifoKeeps_iff (hs : s.iir = noInt)
    (hrank : ∀ i ∈ sentInts es, ∀ j ∈ sentInts es, i.rank = j.rank) :
    FifoKeeps host s es ↔
      ∀ before data, before ++ [.fcr data] <+: es → data &&& 0xF = lastCode before := by
  constructor
  · intro h before data hpre
    have hbefore : before <+: es := (List.prefix_append _ _).trans hpre
    rw [← iir_write data, h before data hpre]
    exact pending_last hs (h.mono hbefore) fun i hi j hj =>
      hrank i (sentInts_mono hbefore hi) j (sentInts_mono hbefore hj)
  · intro h
    induction es using List.reverseRecOn with
    | nil => exact fun before data hpre =>
        absurd (List.prefix_nil.mp hpre) (List.concat_ne_nil _ _)
    | append_singleton es e ih =>
      have hes : es <+: es ++ [e] := List.prefix_append _ _
      have hrank' : ∀ i ∈ sentInts es, ∀ j ∈ sentInts es, i.rank = j.rank := fun i hi j hj =>
        hrank i (sentInts_mono hes hi) j (sentInts_mono hes hj)
      have hkeeps := ih hrank' fun before data hpre => h before data (hpre.trans hes)
      intro before data hpre
      rcases List.prefix_concat_iff.mp hpre with heq | hearlier
      · -- the last event is the write
        obtain ⟨rfl, -⟩ := List.append_singleton_inj.mp heq
        rw [iir_write, h before data hpre]
        exact (pending_last hs hkeeps hrank').symm
      · exact hkeeps before data hearlier

end Runs

/-- For every sequence of interrupts and writes to the FIFO control register, from no pending
    interrupt, what is pending in the end is the most urgent of them and the writes leave it
    alone exactly if the condition holds. -/
theorem mostUrgent_iff (host : UartHost) (s : UartState) (hs : s.iir = noInt)
    (es : List IirEvent) : MostUrgent host s es ↔ PriorityCondition es := by
  constructor
  · intro h
    have hrank : ∀ i ∈ sentInts es, ∀ j ∈ sentInts es, i.rank = j.rank := by
      rcases pending_max hs h.fifo with ⟨hsent, -⟩ | ⟨k, hk, hpend, hmax⟩
      · rw [hsent]
        exact fun i hi => absurd hi List.not_mem_nil
      · -- the least urgent is the most urgent
        obtain ⟨l, -, hpend', hmin⟩ := h.some (List.ne_nil_of_mem hk)
        have hkl : k = l := code_inj (hpend.symm.trans hpend')
        subst hkl
        intro i hi j hj
        have := hmax i hi
        have := hmax j hj
        have := hmin i hi
        have := hmin j hj
        omega
    exact ⟨hrank, (fifoKeeps_iff hs hrank).mp h.fifo⟩
  · intro h
    have hfifo := (@fifoKeeps_iff host s es hs h.rank).mpr h.fifo
    refine ⟨fun hsent => ?_, fun hsent => ?_, hfifo⟩
    · rcases pending_max hs hfifo with ⟨-, hnone⟩ | ⟨k, hk, -⟩
      · exact hnone
      · rw [hsent] at hk
        exact absurd hk List.not_mem_nil
    · rcases pending_max hs hfifo with ⟨hnil, -⟩ | ⟨k, hk, hpend, -⟩
      · exact absurd hnil hsent
      · exact ⟨k, hk, hpend, fun j hj => Nat.le_of_eq (h.rank k hk j hj)⟩

private def priorityStart : UartState :=
  uartInit ⟨fun _ => 0, fun _ => 0, fun _ => 0, fun _ => 0, fun _ => false, 0, fun _ => 0⟩

private def priorityHost : UartHost := ⟨1, false, false, fun _ => 0, fun s _ => s⟩

/-- The FIFOs are enabled, and data is ready twice. -/
theorem mostUrgent_iff_data :
    MostUrgent priorityHost priorityStart [.fcr 0x01, .send .dataReady, .send .timeout] := by
  refine (mostUrgent_iff priorityHost priorityStart (by decide) _).mpr ⟨by decide, ?_⟩
  rintro before data ⟨rest, hrest⟩
  -- the only write is the first event
  rcases before with _ | ⟨a, _ | ⟨b, _ | ⟨c, before⟩⟩⟩
  · have hdata : data = 0x01 := by simpa using congrArg List.head? hrest
    rw [hdata]
    decide
  all_goals simp at hrest

/-- Data is ready while the transmitter is empty. -/
theorem mostUrgent_txEmpty :
    ¬ MostUrgent priorityHost priorityStart [.send .txEmpty, .send .dataReady] := by
  intro h
  obtain ⟨i, -, hpend, hmin⟩ := h.some (by decide)
  have htx : i = .txEmpty := code_inj (hpend.symm.trans (by decide +kernel))
  subst htx
  exact absurd (hmin .dataReady (by decide)) (by decide)

end RvEmu
