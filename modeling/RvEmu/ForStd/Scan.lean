import Mathlib.Data.List.Range

/-!
# Selection by a scan

A loop over `0 .. n - 1` that remembers the best eligible number seen so far and
replaces it by strictly better ones. It finds the first of the best.
-/

namespace Scan

variable {α : Type} [LE α] [LT α] [DecidableLT α] [Std.IsLinearOrder α] [Std.LawfulOrderLT α]
  (key : Nat → α)

/-- `i` goes before `j`: by its key, or by its number if the keys are equal. -/
def Beats (i j : Nat) : Prop := key j < key i ∨ (key j = key i ∧ i < j)

/-- `i` is the one with property `P` that goes before all others. -/
structure First (P : Nat → Prop) (i : Nat) : Prop where
  mem : P i
  beats : ∀ j, P j → j ≠ i → Beats key i j

/-- One round of the loop: the best key and number so far, and the next number. -/
def step (ok : Nat → Bool) (best : α × Nat) (i : Nat) : α × Nat :=
  if key i > best.1 then
    if ok i then (key i, i) else best
  else best

/-- The loop, with the key `low` to exceed. -/
def scan (ok : Nat → Bool) (low : α) (n : Nat) : α × Nat :=
  (List.range n).foldl (step key ok) (low, 0)

/-- A number below `n` that the loop may select. -/
structure Eligible (ok : Nat → Bool) (low : α) (n i : Nat) : Prop where
  bound : i < n
  key : low < key i
  ok : ok i = true

variable {key}

omit [DecidableLT α] in
/-- No two numbers go before each other. -/
theorem Beats.asymm {i j : Nat} (h : Beats key i j) : ¬ Beats key j i := by
  unfold Beats at h ⊢
  grind

section Round

variable {ok : Nat → Bool} {low : α} {n : Nat}

omit [LE α] [DecidableLT α] [Std.IsLinearOrder α] [Std.LawfulOrderLT α] in
/-- The eligible numbers below `n + 1` are those below `n`, and `n`. -/
theorem Eligible.succ_cases {i : Nat} (h : Eligible key ok low (n + 1) i) :
    Eligible key ok low n i ∨ (i = n ∧ low < key n ∧ ok n = true) := by
  rcases Nat.lt_succ_iff_lt_or_eq.mp h.bound with hlt | heq
  · exact .inl ⟨hlt, h.key, h.ok⟩
  · exact .inr ⟨heq, heq ▸ h.key, heq ▸ h.ok⟩

omit [LE α] [Std.IsLinearOrder α] [Std.LawfulOrderLT α] in
/-- A round replaces the best so far by a number that exceeds it. -/
theorem step_new {best : α × Nat} (h : key n > best.1 ∧ ok n = true) :
    step key ok best n = (key n, n) := by
  rw [step, if_pos h.1, if_pos h.2]

omit [LE α] [Std.IsLinearOrder α] [Std.LawfulOrderLT α] in
/-- A round leaves the earlier number in place if the next one ties, or is not eligible. -/
theorem step_old {best : α × Nat} (h : ¬ (key n > best.1 ∧ ok n = true)) :
    step key ok best n = best := by
  rw [step]
  split
  · next hgt => rw [if_neg fun hok => h ⟨hgt, hok⟩]
  · rfl

omit [DecidableLT α] in
theorem First.replace {i : Nat} (h : First key (Eligible key ok low n) i) (hgt : key n > key i)
    (hok : ok n = true) : First key (Eligible key ok low (n + 1)) n := by
  have hlow := h.mem.key
  refine ⟨⟨Nat.lt_succ_self n, by grind, hok⟩, fun j hj hne => ?_⟩
  rcases hj.succ_cases with hj | ⟨rfl, -⟩
  · by_cases hji : j = i
    · subst hji
      exact .inl hgt
    · -- `n` goes before the best so far, which goes before `j`
      have hbeats := h.beats j hj hji
      unfold Beats at hbeats ⊢
      grind
  · exact absurd rfl hne

omit [DecidableLT α] in
theorem First.keep {i : Nat} (h : First key (Eligible key ok low n) i)
    (hold : ¬ (key n > key i ∧ ok n = true)) : First key (Eligible key ok low (n + 1)) i := by
  have hbound := h.mem.bound
  refine ⟨⟨Nat.lt_succ_of_lt hbound, h.mem.key, h.mem.ok⟩, fun j hj hne => ?_⟩
  rcases hj.succ_cases with hj | ⟨rfl, -, hok⟩
  · exact h.beats j hj hne
  · have hle : ¬ key j > key i := fun hgt => hold ⟨hgt, hok⟩
    unfold Beats
    grind

end Round

variable (key) in
/-- The loop selects the first of the eligible numbers, if there is one. -/
theorem scan_cases (ok : Nat → Bool) (low : α) (n : Nat) :
    (∃ i, scan key ok low n = (key i, i) ∧ First key (Eligible key ok low n) i) ∨
      (scan key ok low n = (low, 0) ∧ ∀ i, ¬ Eligible key ok low n i) := by
  induction n with
  | zero => exact .inr ⟨rfl, fun i h => absurd h.bound (by omega)⟩
  | succ n ih =>
    have hround : scan key ok low (n + 1) = step key ok (scan key ok low n) n := by
      rw [scan, List.range_succ, List.foldl_append]
      rfl
    rw [hround]
    rcases ih with ⟨i, hscan, hfirst⟩ | ⟨hscan, hnone⟩
    · rw [hscan]
      by_cases hnew : key n > key i ∧ ok n = true
      · exact .inl ⟨n, step_new hnew, hfirst.replace hnew.1 hnew.2⟩
      · exact .inl ⟨i, step_old hnew, hfirst.keep hnew⟩
    · rw [hscan]
      by_cases hnew : key n > low ∧ ok n = true
      · -- the first eligible number
        refine .inl ⟨n, step_new hnew, ⟨Nat.lt_succ_self n, hnew.1, hnew.2⟩, fun j hj hne => ?_⟩
        rcases hj.succ_cases with hj | ⟨rfl, -⟩
        · exact absurd hj (hnone j)
        · exact absurd rfl hne
      · refine .inr ⟨step_old hnew, fun j hj => ?_⟩
        rcases hj.succ_cases with hj | ⟨rfl, hlow, hok⟩
        · exact hnone j hj
        · exact hnew ⟨hlow, hok⟩

end Scan
