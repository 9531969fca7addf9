import Mathlib.Data.List.Induction
import RvEmu.Spec.UartInput

/-!
# The arrays of the UART

The pointers are tested against the end of `input_buffer` once they are behind the byte that
follows it, and `regs` has 8 elements for 16 offsets. No access leaves the arrays exactly
as long as at most 16 bytes have been received and no offset is above 7.

## Key results

- `Counted.step`: the pointers do not wrap while no access leaves the arrays
- `uartInBounds_iff`: when no access leaves the arrays
-/

namespace RvEmu

/-- The number of elements of `regs`. -/
def uartRegCount : Nat := 8

/-- The pointers that the step dereferences are inside `input_buffer`, and the offsets that
    it uses as an index inside `regs`; its other indices of `regs` are 1, 2, 3 and 5. -/
def UartInBounds (s : UartState) : UartEvent → Prop
  | .chk (some b) => b ≠ 0xFF → s.writePtr < ibufSize
  | .chk none => True
  | .loop => True
  | .read 0 => s.dlab = false → s.pendingIn > 0 → s.readPtr < ibufSize
  | .read offset => offset < uartRegCount
  | .write offset _ => offset < uartRegCount

/-- An access of the guest to one of the registers that exist. -/
def OffsetFits : UartEvent → Prop
  | .read offset => offset < uartRegCount
  | .write offset _ => offset < uartRegCount
  | _ => True

/-- Every step of the run is in bounds. -/
def UartRunInBounds (host : UartHost) (plic : PlicState) (es : List UartEvent) : Prop :=
  ∀ before e, before ++ [e] <+: es → UartInBounds (uartRun host (uartInit plic) before) e

/-- `n` bytes have been received, and the pointers have not wrapped. -/
structure Counted (s : UartState) (n : Nat) : Prop where
  writePtr : s.writePtr = n
  readPtr : s.readPtr + s.pendingIn.toNat = n
  room : n ≤ ibufSize

section Count

variable {host : UartHost} {s t : UartState} {n : Nat}

theorem Counted.same (h : Counted s n) (ht : SameInput s t) : Counted t n where
  writePtr := ht.writePtr.trans h.writePtr
  readPtr := by
    rw [ht.readPtr, ht.pendingIn]
    exact h.readPtr
  room := h.room

/-- A byte is received into the array. -/
theorem Counted.receive (h : Counted s n) (hlt : s.writePtr < ibufSize) (b : BitVec 8) :
    Counted (uartReceive host b s) (n + 1) := by
  obtain ⟨_, _, _, heq⟩ := @uartReceive_eq host s (.inl hlt) b
  have hsize : ibufSize = 16 := rfl
  have hwrite := h.writePtr
  have hread := h.readPtr
  rw [heq]
  refine ⟨?_, ?_, by omega⟩
  · show wrapPtr (s.writePtr + 1) = n + 1
    unfold wrapPtr
    rw [if_neg (by omega), hwrite]
  · show s.readPtr + (s.pendingIn + 1).toNat = n + 1
    rw [BitVec.toNat_add]
    show s.readPtr + (s.pendingIn.toNat + 1) % 65536 = n + 1
    omega

/-- A byte is taken. -/
theorem Counted.take (h : Counted s n) (hdlab : s.dlab = false) (hpend : s.pendingIn > 0) :
    Counted (uartR host 0 s) n := by
  have hsize : ibufSize = 16 := rfl
  have hpos : 0 < s.pendingIn.toNat := hpend
  have hlt := s.pendingIn.isLt
  have hread := h.readPtr
  have hroom := h.room
  have hcount : Counted (uartFetch host 0 s) n := by
    rw [uartFetch_take hdlab hpend]
    refine ⟨h.writePtr, ?_, h.room⟩
    show wrapPtr (s.readPtr + 1) + (s.pendingIn - 1).toNat = n
    unfold wrapPtr
    rw [if_neg (by omega), BitVec.toNat_sub]
    show s.readPtr + 1 + (65536 - 1 + s.pendingIn.toNat) % 65536 = n
    omega
  exact hcount.same (uartR_same host 0 s).sameInput

/-- A step is in bounds exactly if there is room for the byte that it receives, and the
    register that it accesses exists. -/
theorem Counted.inBounds_iff (h : Counted s n) (e : UartEvent) :
    UartInBounds s e ↔ n + (if e.receives then 1 else 0) ≤ ibufSize ∧ OffsetFits e := by
  have hwrite := h.writePtr
  have hread := h.readPtr
  have hroom := h.room
  cases e with
  | chk received =>
    cases received with
    | none => exact iff_of_true trivial ⟨hroom, trivial⟩
    | some b =>
      by_cases hff : b = 0xFF
      · rw [hff, receives_ff]
        exact iff_of_true (fun hne => absurd rfl hne) ⟨hroom, trivial⟩
      · rw [receives_of_ne hff, if_pos rfl]
        refine ⟨fun hlt => ⟨?_, trivial⟩, fun hfits _ => ?_⟩
        · rw [← hwrite]
          exact hlt hff
        · rw [hwrite]
          exact hfits.1
  | loop => exact iff_of_true trivial ⟨hroom, trivial⟩
  | read offset =>
    cases offset with
    | zero =>
      refine iff_of_true (fun _ hpend => ?_) ⟨hroom, Nat.zero_lt_succ 7⟩
      have hpos : 0 < s.pendingIn.toNat := hpend
      omega
    | succ i => exact ⟨fun hlt => ⟨hroom, hlt⟩, fun hfits => hfits.2⟩
  | write offset b => exact ⟨fun hlt => ⟨hroom, hlt⟩, fun hfits => hfits.2⟩

/-- A step in bounds counts the byte that it receives. -/
theorem Counted.step (h : Counted s n) {e : UartEvent} (he : UartInBounds s e) :
    Counted (e.step host s) (n + if e.receives then 1 else 0) := by
  cases e with
  | chk received =>
    show Counted (uartChk host received s) _
    rcases uartChk_cases host received s with ⟨b, rfl, hb, hchk⟩ | ⟨hno, hchk⟩
    · rw [hchk, receives_of_ne hb, if_pos rfl]
      exact (h.receive (he hb) b).same uartChk_input
    · rw [hchk, hno, if_neg Bool.false_ne_true]
      exact h.same uartChk_input
  | loop => exact h.same uartLoop_input
  | write offset b => exact h.same (uartW_input offset b)
  | read offset =>
    by_cases htake : offset = 0 ∧ s.dlab = false ∧ s.pendingIn > 0
    · obtain ⟨rfl, hdlab, hpend⟩ := htake
      exact h.take hdlab hpend
    · refine h.same (uartR_input fun hzero => ?_)
      by_contra hnot
      rw [not_or, not_not, Bool.not_eq_true] at hnot
      exact htake ⟨hzero, hnot⟩

end Count

/-! ## Runs -/

section Runs

variable {host : UartHost} {plic : PlicState} {es : List UartEvent} {e : UartEvent}

theorem uartRunInBounds_append :
    UartRunInBounds host plic (es ++ [e]) ↔
      UartRunInBounds host plic es ∧ UartInBounds (uartRun host (uartInit plic) es) e := by
  unfold UartRunInBounds
  simp only [List.prefix_concat_iff]
  constructor
  · exact fun h => ⟨fun before e' hpre => h before e' (.inr hpre), h es e (.inl rfl)⟩
  · rintro ⟨hrun, hlast⟩ before e' (heq | hpre)
    · obtain ⟨rfl, rfl⟩ := List.append_singleton_inj.mp heq
      exact hlast
    · exact hrun before e' hpre

/-- While no access leaves the arrays, the pointers count the bytes. -/
theorem counted_run (h : UartRunInBounds host plic es) :
    Counted (uartRun host (uartInit plic) es) (es.countP UartEvent.receives) := by
  induction es using List.reverseRecOn with
  | nil => exact ⟨rfl, rfl, Nat.zero_le _⟩
  | append_singleton es e ih =>
    rw [uartRunInBounds_append] at h
    rw [uartRun_append, List.countP_append, List.countP_singleton]
    exact (ih h.1).step h.2

end Runs

/-- In every run from `uart_init`, no access leaves the arrays exactly if at most 16 bytes are
    received and the guest accesses offsets below 8 alone. -/
theorem uartInBounds_iff (host : UartHost) (plic : PlicState) (es : List UartEvent) :
    UartRunInBounds host plic es ↔
      es.countP UartEvent.receives ≤ ibufSize ∧ ∀ e ∈ es, OffsetFits e := by
  induction es using List.reverseRecOn with
  | nil =>
    refine iff_of_true (fun before e hpre => ?_)
      ⟨Nat.zero_le _, fun e he => absurd he List.not_mem_nil⟩
    exact absurd (List.prefix_nil.mp hpre) (List.concat_ne_nil _ _)
  | append_singleton es e ih =>
    rw [uartRunInBounds_append, List.countP_append, List.countP_singleton,
      List.forall_mem_append, List.forall_mem_singleton]
    constructor
    · rintro ⟨hrun, hlast⟩
      obtain ⟨hcount, hfits⟩ := ((counted_run hrun).inBounds_iff e).mp hlast
      exact ⟨hcount, (ih.mp hrun).2, hfits⟩
    · rintro ⟨hcount, hfits, hlast⟩
      have hrun := ih.mpr ⟨by omega, hfits⟩
      exact ⟨hrun, ((counted_run hrun).inBounds_iff e).mpr ⟨hcount, hlast⟩⟩

private def boundsPlic : PlicState :=
  ⟨fun _ => 0, fun _ => 0, fun _ => 0, fun _ => 0, fun _ => false, 0, fun _ => 0⟩

/-- The 17th byte is stored behind the array, although 16 are read by then. -/
theorem uart_seventeenth_byte :
    ¬ UartRunInBounds ⟨1, false, false, fun _ => 0, fun s _ => s⟩ boundsPlic
      ((List.replicate 16 [.chk (some 0x61), .read 0]).flatten ++ [.chk (some 0x62)]) := by
  intro h
  have hlast := h _ (.chk (some 0x62)) List.prefix_rfl (by decide)
  exact absurd hlast (by decide +kernel)

end RvEmu
