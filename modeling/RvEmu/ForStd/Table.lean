import Mathlib.Algebra.GroupWithZero.Nat
import Mathlib.Data.Fintype.Card
import Mathlib.Order.Bounds.Defs

/-!
# Tables with counters

A table of slots, each of whose values has a class or is free, and a counter for each
class. Replacing the value of one slot changes at most two counters by one; they cannot
wrap around if they can hold the number of slots.

The largest class in use, by a loop over the classes in order.
-/

namespace Table

variable {ι α κ : Type} [Fintype ι] [DecidableEq ι] [DecidableEq κ] {w : Nat}

/-- The number of slots with values of class `c`. -/
def count (cls : α → Option κ) (slots : ι → α) (c : κ) : Nat :=
  (Finset.univ.filter fun i => cls (slots i) = some c).card

omit [DecidableEq ι] in
theorem count_le (cls : α → Option κ) (slots : ι → α) (c : κ) :
    count cls slots c ≤ Fintype.card ι :=
  Finset.card_filter_le _ _

/-- The slot `k`, and the others. -/
theorem count_eq (cls : α → Option κ) (slots : ι → α) (c : κ) (k : ι) :
    count cls slots c =
      ((Finset.univ.erase k).filter fun i => cls (slots i) = some c).card +
        if cls (slots k) = some c then 1 else 0 := by
  rw [count, ← Finset.insert_erase (Finset.mem_univ k), Finset.filter_insert,
    Finset.erase_insert (Finset.notMem_erase k _)]
  split
  · exact Finset.card_insert_of_notMem fun h => Finset.notMem_erase k _ (Finset.mem_filter.mp h).1
  · rfl

/-- Replacing the value of slot `k`. -/
theorem count_update (cls : α → Option κ) (slots : ι → α) (c : κ) (k : ι) (v : α) :
    count cls (Function.update slots k v) c + (if cls (slots k) = some c then 1 else 0) =
      count cls slots c + if cls v = some c then 1 else 0 := by
  have hothers : ((Finset.univ.erase k).filter fun i =>
        cls (Function.update slots k v i) = some c) =
      (Finset.univ.erase k).filter fun i => cls (slots i) = some c := by
    refine Finset.filter_congr fun i hi => ?_
    rw [Function.update_of_ne (Finset.ne_of_mem_erase hi)]
  rw [count_eq cls (Function.update slots k v) c k, count_eq cls slots c k, hothers,
    Function.update_self]
  omega

/-- The counters hold the numbers of slots of each class. -/
def Counted (cls : α → Option κ) (slots : ι → α) (counter : κ → BitVec w) : Prop :=
  ∀ c, (counter c).toNat = count cls slots c

/-- Take one off the counter of the class. -/
def drop (counter : κ → BitVec w) : Option κ → κ → BitVec w
  | some c => Function.update counter c (counter c - 1)
  | none => counter

/-- Add one to the counter of the class. -/
def bump (counter : κ → BitVec w) (c : κ) : κ → BitVec w :=
  Function.update counter c (counter c + 1)

theorem toNat_sub_one {x : BitVec w} (h : 0 < x.toNat) : (x - 1).toNat = x.toNat - 1 := by
  have hw : 0 < w := by
    rcases Nat.eq_zero_or_pos w with rfl | hw
    · rw [BitVec.of_length_zero (x := x)] at h
      exact absurd h (Nat.lt_irrefl 0)
    · exact hw
  have hone : (1 : BitVec w).toNat = 1 := BitVec.toNat_one hw
  have hle : (1 : BitVec w) ≤ x := by
    rw [BitVec.le_def, hone]
    exact h
  rw [BitVec.toNat_sub_of_le hle, hone]

theorem toNat_add_one {x : BitVec w} (h : x.toNat < (BitVec.allOnes w).toNat) :
    (x + 1).toNat = x.toNat + 1 := by
  rw [BitVec.toNat_allOnes] at h
  have hw : 0 < w := by
    rcases Nat.eq_zero_or_pos w with rfl | hw
    · exact absurd h (Nat.not_lt_zero _)
    · exact hw
  have hone : (1 : BitVec w).toNat = 1 := BitVec.toNat_one hw
  rw [BitVec.toNat_add, hone, Nat.mod_eq_of_lt (by omega)]

omit [DecidableEq ι] in
theorem Counted.pos {cls : α → Option κ} {slots : ι → α} {counter : κ → BitVec w}
    (h : Counted cls slots counter) {c : κ} {i : ι} (hi : cls (slots i) = some c) :
    0 < (counter c).toNat := by
  rw [h c]
  exact Finset.card_pos.mpr ⟨i, Finset.mem_filter.mpr ⟨Finset.mem_univ i, hi⟩⟩

omit [DecidableEq ι] in
/-- A counter after the class of slot `k` is taken off. -/
theorem Counted.drop_toNat {cls : α → Option κ} {slots : ι → α} {counter : κ → BitVec w}
    (h : Counted cls slots counter) (k : ι) (c : κ) :
    (drop counter (cls (slots k)) c).toNat + (if cls (slots k) = some c then 1 else 0) =
      count cls slots c := by
  rw [← h c]
  cases hk : cls (slots k) with
  | none => rfl
  | some b =>
    have hpos := h.pos hk
    by_cases hc : c = b
    · subst hc
      rw [drop, Function.update_self, toNat_sub_one hpos, if_pos rfl]
      exact Nat.sub_add_cancel hpos
    · rw [drop, Function.update_of_ne hc, if_neg fun heq => hc (Option.some.inj heq).symm]
      rfl

/-- Replacing the value of slot `k` by one of class `b`. -/
theorem Counted.replace {cls : α → Option κ} {slots : ι → α} {counter : κ → BitVec w}
    (h : Counted cls slots counter) (hcard : Fintype.card ι ≤ (BitVec.allOnes w).toNat) (k : ι)
    {v : α} {b : κ} (hv : cls v = some b) :
    Counted cls (Function.update slots k v) (bump (drop counter (cls (slots k))) b) := by
  intro c
  have hdrop := h.drop_toNat k c
  have hcount := count_update cls slots c k v
  have hle := count_le cls (Function.update slots k v) c
  rw [hv] at hcount
  by_cases hc : c = b
  · subst hc
    rw [if_pos rfl] at hcount
    -- the new count is one more than what is left, and at most the number of slots
    rw [bump, Function.update_self, toNat_add_one (by omega)]
    omega
  · rw [if_neg fun heq => hc (Option.some.inj heq).symm] at hcount
    rw [bump, Function.update_of_ne hc]
    omega

/-! ## The largest class in use -/

section Last

variable [LinearOrder κ] {p : κ → Prop} [DecidablePred p]

/-- The last element of the list with property `p`, or `m`. -/
def last (p : κ → Prop) [DecidablePred p] (m : κ) (l : List κ) : κ :=
  l.foldl (fun m i => if p i then i else m) m

omit [DecidableEq κ] [LinearOrder κ] in
theorem last_mem (l : List κ) (m : κ) : last p m l = m ∨ p (last p m l) := by
  induction l generalizing m with
  | nil => exact .inl rfl
  | cons x l ih =>
    simp only [last, List.foldl_cons]
    by_cases hx : p x
    · rw [if_pos hx]
      rcases ih x with h | h
      · exact .inr (by rw [← last, h]; exact hx)
      · exact .inr h
    · rw [if_neg hx]
      exact ih m

omit [DecidableEq κ] in
/-- In a sorted list it is the largest one. -/
theorem le_last {l : List κ} (hl : l.Pairwise (· < ·)) (m : κ) (hm : ∀ i ∈ l, m ≤ i) :
    m ≤ last p m l ∧ ∀ i ∈ l, p i → i ≤ last p m l := by
  induction l generalizing m with
  | nil => exact ⟨le_refl m, fun i hi => absurd hi List.not_mem_nil⟩
  | cons x l ih =>
    obtain ⟨hfirst, hrest⟩ := List.pairwise_cons.mp hl
    have hmx : m ≤ x := hm x List.mem_cons_self
    simp only [last, List.foldl_cons]
    by_cases hx : p x
    · rw [if_pos hx]
      obtain ⟨hle, hall⟩ := ih hrest x fun i hi => (hfirst i hi).le
      refine ⟨hmx.trans hle, fun i hi hp => ?_⟩
      rcases List.mem_cons.mp hi with rfl | hi
      · exact hle
      · exact hall i hi hp
    · rw [if_neg hx]
      obtain ⟨hle, hall⟩ := ih hrest m fun i hi => hm i (List.mem_cons_of_mem _ hi)
      refine ⟨hle, fun i hi hp => ?_⟩
      rcases List.mem_cons.mp hi with rfl | hi
      · exact absurd hp hx
      · exact hall i hi hp

end Last

/-- Over all classes: the largest with property `p`, or zero. -/
theorem last_finRange {n : Nat} [NeZero n] (p : Fin n → Prop) [DecidablePred p] :
    ((∃ c, p c) → IsGreatest {c | p c} (last p 0 (List.finRange n))) ∧
      ((∀ c, ¬ p c) → last p 0 (List.finRange n) = 0) := by
  have hle := (le_last (p := p) (List.pairwise_lt_finRange n) 0 fun i _ => Fin.zero_le i).2
  have hmem := last_mem (p := p) (List.finRange n) 0
  constructor
  · rintro ⟨c, hc⟩
    refine ⟨?_, fun i hi => hle i (List.mem_finRange i) hi⟩
    rcases hmem with h0 | h
    · -- no class below zero can be the one in use
      have hc0 := hle c (List.mem_finRange c) hc
      rw [h0] at hc0 ⊢
      rw [← le_antisymm hc0 (Fin.zero_le c)]
      exact hc
    · exact h
  · intro hnone
    exact hmem.resolve_right (hnone _)

end Table
