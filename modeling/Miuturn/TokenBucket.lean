import Mathlib.Algebra.Order.Ring.Defs
import Mathlib.Algebra.BigOperators.Group.List.Basic
import Mathlib.Tactic.Linarith
import Mathlib.Tactic.Ring

set_option autoImplicit false

/-! # Token buckets

A token bucket holds at most `burst` tokens and gains `rate` tokens per unit of time until it is
full; a packet takes as many tokens as it is large. Here time and tokens are elements of an ordered
ring and nothing is rounded: this is the bucket that an implementation with integers approximates.

`Covered` says of a list of grants that the bucket had the tokens for each of them. Whatever window
of time one looks at, covered grants in it add up to no more than a full bucket and what flows in
during the window (`Covered.windowSum_le`). -/

namespace TokenBucket

variable {K : Type} [CommRing K] [LinearOrder K]

structure Bucket (K : Type) where
  rate : K
  burst : K

/-- What a bucket held at one time. -/
structure Level (K : Type) where
  amount : K
  time : K

/-- Tokens that are taken at one time. -/
structure Grant (K : Type) where
  time : K
  size : K

/-- The tokens taken from `t₀` to `t₁`, both included. -/
def windowSum (t₀ t₁ : K) (gs : List (Grant K)) : K :=
  ((gs.filter (fun g => t₀ ≤ g.time ∧ g.time ≤ t₁)).map Grant.size).sum

namespace Bucket

/-- What the bucket holds at `t` if nothing was taken since. -/
def levelAt (b : Bucket K) (s : Level K) (t : K) : K :=
  min (s.amount + b.rate * (t - s.time)) b.burst

/-- The level after a grant. -/
def take (b : Bucket K) (s : Level K) (g : Grant K) : Level K :=
  ⟨b.levelAt s g.time - g.size, g.time⟩

/-- The level after grants, oldest first. -/
def takeAll (b : Bucket K) (s : Level K) (gs : List (Grant K)) : Level K := gs.foldl b.take s

/-- Grants, oldest first, each of which the bucket has the tokens for. -/
def Covered (b : Bucket K) (s : Level K) : List (Grant K) → Prop
  | [] => True
  | g :: gs => s.time ≤ g.time ∧ g.size ≤ b.levelAt s g.time ∧ b.Covered (b.take s g) gs

variable {b : Bucket K} {s : Level K} {g : Grant K} {gs : List (Grant K)} {t t' t₀ t₁ : K}

theorem levelAt_le_burst (b : Bucket K) (s : Level K) (t : K) : b.levelAt s t ≤ b.burst :=
  min_le_right _ _

/-- At its own time a level is what it is, unless it is more than fits. -/
theorem levelAt_self (h : s.amount ≤ b.burst) : b.levelAt s s.time = s.amount := by
  rw [levelAt, sub_self, mul_zero, add_zero, min_eq_left h]

theorem takeAll_snoc : b.takeAll s (gs ++ [g]) = b.take (b.takeAll s gs) g := by
  rw [takeAll, List.foldl_append]
  rfl

theorem covered_snoc : b.Covered s (gs ++ [g]) ↔ b.Covered s gs ∧
    (b.takeAll s gs).time ≤ g.time ∧ g.size ≤ b.levelAt (b.takeAll s gs) g.time := by
  induction gs generalizing s with
  | nil => simp [Covered, takeAll]
  | cons g₁ gs ih =>
      rw [List.cons_append, Covered, ih, Covered, and_assoc, and_assoc]
      rfl

theorem windowSum_cons : windowSum t₀ t₁ (g :: gs)
    = (if t₀ ≤ g.time ∧ g.time ≤ t₁ then g.size else 0) + windowSum t₀ t₁ gs := by
  unfold windowSum
  by_cases h : t₀ ≤ g.time ∧ g.time ≤ t₁
  · rw [List.filter_cons_of_pos (by simpa using h), List.map_cons, List.sum_cons, if_pos h]
  · rw [List.filter_cons_of_neg (by simpa using h), if_neg h, zero_add]

/-- Grants after the window do not count. -/
theorem Covered.windowSum_eq_zero (h : b.Covered s gs) (ht : t₁ < s.time) :
    windowSum t₀ t₁ gs = 0 := by
  induction gs generalizing s with
  | nil => rfl
  | cons g gs ih =>
      obtain ⟨htime, -, hrest⟩ := h
      rw [windowSum_cons, if_neg (fun hin => absurd hin.2 (not_le.2 (ht.trans_le htime))),
        ih hrest (ht.trans_le htime), add_zero]

variable [IsStrictOrderedRing K]

/-- Letting time pass in two parts. -/
theorem levelAt_levelAt (hrate : 0 ≤ b.rate) (htt' : t ≤ t') :
    b.levelAt ⟨b.levelAt s t, t⟩ t' = b.levelAt s t' := by
  have hflow : 0 ≤ b.rate * (t' - t) := mul_nonneg hrate (sub_nonneg.2 htt')
  unfold levelAt
  dsimp only
  rw [← min_add_add_right, min_assoc, min_eq_right (le_add_of_nonneg_right hflow)]
  congr 1
  ring

/-- More at one time is more later. -/
theorem levelAt_mono {a a' : K} (h : a ≤ a') : b.levelAt ⟨a, t⟩ t' ≤ b.levelAt ⟨a', t⟩ t' :=
  min_le_min_right _ (add_le_add_left h _)

/-- From the time of a level on, grants take no more than it and what flows in. -/
theorem Covered.windowSum_le_amount (hrate : 0 ≤ b.rate) (h : b.Covered s gs)
    (hamount : 0 ≤ s.amount) (ht₀ : t₀ ≤ s.time) (ht₁ : s.time ≤ t₁) :
    windowSum t₀ t₁ gs ≤ s.amount + b.rate * (t₁ - s.time) := by
  induction gs generalizing s with
  | nil => exact add_nonneg hamount (mul_nonneg hrate (sub_nonneg.2 ht₁))
  | cons g gs ih =>
      obtain ⟨htime, hsize, hrest⟩ := h
      rw [windowSum_cons]
      rcases le_or_gt g.time t₁ with hin | hout
      · have hrest := ih hrest (sub_nonneg.2 hsize) (ht₀.trans htime) hin
        have hlevel : b.levelAt s g.time ≤ s.amount + b.rate * (g.time - s.time) := min_le_left _ _
        rw [if_pos ⟨ht₀.trans htime, hin⟩]
        calc g.size + windowSum t₀ t₁ gs
            ≤ g.size + (b.levelAt s g.time - g.size + b.rate * (t₁ - g.time)) :=
              add_le_add_right hrest _
          _ ≤ s.amount + b.rate * (t₁ - s.time) := by linarith
      · rw [if_neg (fun h => absurd h.2 (not_le.2 hout)), hrest.windowSum_eq_zero hout, add_zero]
        exact add_nonneg hamount (mul_nonneg hrate (sub_nonneg.2 ht₁))

/-- In any window, covered grants take no more than a full bucket and what flows in meanwhile. -/
theorem Covered.windowSum_le (hrate : 0 ≤ b.rate) (hburst : 0 ≤ b.burst) (h : b.Covered s gs)
    (ht : t₀ ≤ t₁) : windowSum t₀ t₁ gs ≤ b.burst + b.rate * (t₁ - t₀) := by
  induction gs generalizing s with
  | nil => exact add_nonneg hburst (mul_nonneg hrate (sub_nonneg.2 ht))
  | cons g gs ih =>
      obtain ⟨htime, hsize, hrest⟩ := h
      by_cases hin : t₀ ≤ g.time ∧ g.time ≤ t₁
      · -- the first grant of the window: from here on the level decides
        have hsum := hrest.windowSum_le_amount hrate (sub_nonneg.2 hsize) hin.1 hin.2
        have hlevel := b.levelAt_le_burst s g.time
        have hflow : b.rate * (t₁ - g.time) ≤ b.rate * (t₁ - t₀) :=
          mul_le_mul_of_nonneg_left (sub_le_sub_left hin.1 t₁) hrate
        rw [windowSum_cons, if_pos hin]
        calc g.size + windowSum t₀ t₁ gs
            ≤ g.size + (b.levelAt s g.time - g.size + b.rate * (t₁ - g.time)) :=
              add_le_add_right hsum _
          _ ≤ b.burst + b.rate * (t₁ - t₀) := by linarith
      · rw [windowSum_cons, if_neg hin, zero_add]
        exact ih hrest

end Bucket

end TokenBucket
