import Mathlib.Logic.Function.Basic

/-!
# Bitmaps

Sets of numbers kept as the bits of an array of words: bit `i` is bit `i % w` of word
`i / w`.
-/

namespace Bitmap

variable {w : Nat}

/-- Bit `i`. -/
def get (words : Nat → BitVec w) (i : Nat) : Bool := (words (i / w)).getLsbD (i % w)

/-- Set bit `i`. -/
def set (words : Nat → BitVec w) (i : Nat) : Nat → BitVec w :=
  Function.update words (i / w) (words (i / w) ||| 1#w <<< (i % w))

/-- Clear bit `i`. -/
def clear (words : Nat → BitVec w) (i : Nat) : Nat → BitVec w :=
  Function.update words (i / w) (words (i / w) &&& ~~~(1#w <<< (i % w)))

/-- Within a word, numbers differ by their bit. -/
theorem mod_eq_iff {i j : Nat} (h : j / w = i / w) : j % w = i % w ↔ j = i := by
  constructor
  · intro hmod
    rw [← Nat.div_add_mod j w, ← Nat.div_add_mod i w, h, hmod]
  · intro hij
    rw [hij]

/-- A single bit. -/
theorem getLsbD_one_shiftLeft {i j : Nat} (hj : j < w) :
    (1#w <<< i).getLsbD j = decide (j = i) := by
  rw [BitVec.getLsbD_shiftLeft, BitVec.getLsbD_one]
  have hw : 0 < w := by omega
  simp only [hj, hw, decide_true, Bool.true_and]
  by_cases hij : j < i
  · have hne : j ≠ i := by omega
    simp [hij, hne]
  · have hiff : j - i = 0 ↔ j = i := by omega
    simp [hij, hiff]

theorem get_set (hw : 0 < w) (words : Nat → BitVec w) (i j : Nat) :
    get (set words i) j = (get words j || decide (j = i)) := by
  unfold get set
  by_cases h : j / w = i / w
  · rw [h, Function.update_self, BitVec.getLsbD_or,
      getLsbD_one_shiftLeft (Nat.mod_lt j hw), decide_eq_decide.mpr (mod_eq_iff h)]
  · have hne : j ≠ i := fun hij => h (by rw [hij])
    rw [Function.update_of_ne h, decide_eq_false hne, Bool.or_false]

theorem get_clear (hw : 0 < w) (words : Nat → BitVec w) (i j : Nat) :
    get (clear words i) j = (get words j && !decide (j = i)) := by
  unfold get clear
  by_cases h : j / w = i / w
  · have hj := Nat.mod_lt j hw
    rw [h, Function.update_self, BitVec.getLsbD_and, BitVec.getLsbD_not,
      getLsbD_one_shiftLeft hj, decide_eq_decide.mpr (mod_eq_iff h), decide_eq_true hj,
      Bool.true_and]
  · have hne : j ≠ i := fun hij => h (by rw [hij])
    rw [Function.update_of_ne h, decide_eq_false hne, Bool.not_false, Bool.and_true]

end Bitmap
