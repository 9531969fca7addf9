import Mathlib.Logic.Function.Basic

/-!
# Ring buffers

A queue in the slots of a circular buffer, from `head` up to but not including `tail`.
-/

namespace Ring

variable {α : Type} {cap head tail : Nat}

/-- The slot `i` places behind `head`. -/
def slot (cap head i : Nat) : Nat := if head + i < cap then head + i else head + i - cap

/-- The slots from `head` to `tail` hold the queue `q`. -/
structure Holds (buf : Nat → α) (cap head tail : Nat) (q : List α) : Prop where
  head_lt : head < cap
  length_le : q.length ≤ cap
  tail_eq : tail = slot cap head q.length
  get : ∀ i (h : i < q.length), buf (slot cap head i) = q[i]

theorem slot_zero (h : head < cap) : slot cap head 0 = head := by
  simp [slot, h]

theorem slot_lt {i : Nat} (h : head < cap) (hi : i ≤ cap) : slot cap head i < cap := by
  unfold slot
  split <;> omega

/-- Less than one revolution away, slots are distinct. -/
theorem slot_ne {i j : Nat} (hij : i < j) (hj : j < cap) : slot cap head i ≠ slot cap head j := by
  unfold slot
  split <;> split <;> omega

/-- Places behind the next slot. -/
theorem slot_next {i : Nat} (h : head < cap) (hi : i < cap) :
    slot cap (slot cap head 1) i = slot cap head (i + 1) := by
  unfold slot
  split <;> split <;> split <;> omega

/-- The slot behind a place. -/
theorem next_slot {i : Nat} (h : head < cap) (hi : i < cap) :
    slot cap (slot cap head i) 1 = slot cap head (i + 1) := by
  unfold slot
  split <;> split <;> split <;> omega

/-- An empty queue. -/
theorem holds_nil (buf : Nat → α) (h : head < cap) : Holds buf cap head head [] where
  head_lt := h
  length_le := Nat.zero_le _
  tail_eq := (slot_zero h).symm
  get := nofun

variable {buf : Nat → α} {q : List α}

theorem Holds.tail_lt (h : Holds buf cap head tail q) : tail < cap := by
  rw [h.tail_eq]
  exact slot_lt h.head_lt h.length_le

/-- Writing the slot at `tail` adds to the end of a queue that is not full. -/
theorem Holds.push (h : Holds buf cap head tail q) (hroom : q.length < cap) (b : α) :
    Holds (Function.update buf tail b) cap head (slot cap tail 1) (q ++ [b]) where
  head_lt := h.head_lt
  length_le := by
    simp only [List.length_append, List.length_singleton]
    omega
  tail_eq := by
    rw [h.tail_eq, next_slot h.head_lt hroom, List.length_append, List.length_singleton]
  get := by
    intro i hi
    simp only [List.length_append, List.length_singleton] at hi
    by_cases hlast : i = q.length
    · subst hlast
      rw [h.tail_eq, Function.update_self, List.getElem_concat_length rfl]
    · -- the earlier slots are not the one at `tail`
      have hlt : i < q.length := by omega
      have hne : slot cap head i ≠ tail := h.tail_eq ▸ slot_ne hlt hroom
      rw [Function.update_of_ne hne, h.get i hlt, List.getElem_append_left hlt]

/-- The slot at `head` holds the front of the queue, and the rest of the queue follows. -/
theorem Holds.pop {b : α} (h : Holds buf cap head tail (b :: q)) :
    buf head = b ∧ Holds buf cap (slot cap head 1) tail q := by
  have hlen : q.length + 1 ≤ cap := h.length_le
  constructor
  · have hfront := h.get 0 (Nat.zero_lt_succ _)
    rw [slot_zero h.head_lt] at hfront
    exact hfront
  · refine ⟨slot_lt h.head_lt (by omega), by omega, ?_, fun i hi => ?_⟩
    · rw [h.tail_eq, slot_next h.head_lt (by omega), List.length_cons]
    · rw [slot_next h.head_lt (by omega)]
      exact h.get (i + 1) (Nat.succ_lt_succ hi)

end Ring
