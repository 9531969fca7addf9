import Mathlib.Data.List.GetD

/-!
# Copying blocks into memory

A memory is a function from addresses. A sequence of blocks is copied into it one after the
other; where the blocks are disjoint, each of them ends up at its place.
-/

namespace Blit

variable {α : Type}

/-- Elements and the address they go to. -/
structure Block (α : Type) where
  dest : Nat
  data : List α

/-- The address is one that the block is copied to. -/
def Block.Covers (b : Block α) (a : Nat) : Prop := b.dest ≤ a ∧ a < b.dest + b.data.length

/-- The memory behind the copying of a block. -/
def blit (mem : Nat → α) (b : Block α) : Nat → α := fun a =>
  if b.dest ≤ a then b.data.getD (a - b.dest) (mem a) else mem a

variable {mem : Nat → α} {b : Block α} {bs : List (Block α)} {a : Nat}

theorem blit_of_not_covers (h : ¬ b.Covers a) : blit mem b a = mem a := by
  unfold Block.Covers at h
  unfold blit
  split
  · exact List.getD_eq_default _ _ (by omega)
  · rfl

theorem blit_dest_add (i : Nat) :
    blit mem b (b.dest + i) = b.data.getD i (mem (b.dest + i)) := by
  unfold blit
  rw [if_pos (Nat.le_add_right _ _), Nat.add_sub_cancel_left]

/-- Blocks that do not cover an address leave it alone. -/
theorem foldl_blit_of_not_covers (h : ∀ b ∈ bs, ¬ b.Covers a) : bs.foldl blit mem a = mem a := by
  induction bs generalizing mem with
  | nil => rfl
  | cons b bs ih =>
    rw [List.forall_mem_cons] at h
    rw [List.foldl_cons, ih h.2, blit_of_not_covers h.1]

theorem blit_congr {mem' : Nat → α} (h : mem' a = mem a) : blit mem' b a = blit mem b a := by
  unfold blit
  rw [h]

/-- Blocks that keep to disjoint regions: in the region of one, the others change nothing. -/
theorem foldl_blit_of_mem {ι : Type} {block : ι → Block α} {region : ι → Nat → Prop}
    (hregion : ∀ x a, (block x).Covers a → region x a) {xs : List ι}
    (hxs : xs.Pairwise fun x y => ∀ a, ¬ (region x a ∧ region y a)) {x : ι} (hx : x ∈ xs)
    (ha : region x a) : (xs.map block).foldl blit mem a = blit mem (block x) a := by
  induction xs generalizing mem with
  | nil => exact absurd hx List.not_mem_nil
  | cons y xs ih =>
    obtain ⟨hfirst, hrest⟩ := List.pairwise_cons.mp hxs
    rw [List.map_cons, List.foldl_cons]
    rcases List.mem_cons.mp hx with rfl | hx
    · refine foldl_blit_of_not_covers fun b hb hcovers => ?_
      obtain ⟨z, hz, rfl⟩ := List.mem_map.mp hb
      exact hfirst z hz a ⟨ha, hregion z a hcovers⟩
    · have hsame : blit mem (block y) a = mem a :=
        blit_of_not_covers fun hcovers => hfirst x hx a ⟨hregion y a hcovers, ha⟩
      rw [ih hrest hx, blit_congr hsame]

end Blit
