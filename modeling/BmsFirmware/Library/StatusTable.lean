/- Module: BmsFirmware/Library/StatusTable
   Scope: general
   Digest: A status kept as one cell for each step taken, each cell written at most once. -/

import BmsFirmware.Library.ByteMemory

set_option autoImplicit false
set_option relaxedAutoImplicit false

namespace BmsFirmware.Library.StatusTable

open BmsFirmware.Library.ByteMemory

/-- The highest of the first `n` numbers that satisfies a predicate, counted from one; zero
where none does. -/
def highest (written : Nat → Bool) : Nat → Nat
  | 0 => 0
  | n + 1 => if written n then n + 1 else highest written n

section Highest

variable {written written' : Nat → Bool} {n k : Nat}

theorem highest_le (written : Nat → Bool) (n : Nat) : highest written n ≤ n := by
  induction n with
  | zero => exact Nat.le_refl 0
  | succ n ih =>
    rw [highest]
    split
    · exact Nat.le_refl _
    · omega

theorem highest_congr (same : ∀ i < n, written i = written' i) :
    highest written n = highest written' n := by
  induction n with
  | zero => rfl
  | succ n ih =>
    rw [highest, highest, same n (Nat.lt_succ_self n), ih fun i hi => same i (by omega)]

theorem highest_eq_zero (clear : ∀ i < n, written i = false) : highest written n = 0 := by
  induction n with
  | zero => rfl
  | succ n ih =>
    rw [highest, if_neg (by simp [clear n (Nat.lt_succ_self n)])]
    exact ih fun i hi => clear i (by omega)

/-- Adding one number takes the maximum. -/
theorem highest_insert (k : Nat) (inside : k < n)
    (here : written' k = true) (same : ∀ i < n, i ≠ k → written' i = written i) :
    highest written' n = max (highest written n) (k + 1) := by
  induction n with
  | zero => omega
  | succ n ih =>
    rw [highest, highest]
    rcases Nat.lt_succ_iff_lt_or_eq.mp inside with low | rfl
    · rw [same n (Nat.lt_succ_self n) (by omega), ih low fun i hi ne => same i (by omega) ne]
      split
      · omega
      · rfl
    · have below := highest_le written k
      rw [if_pos here]
      split <;> omega

end Highest

/-! ### Tables in memory -/

section Tables

variable (width : Nat) (mark : Byte)

/-- The status a table shows: the cells carry the mark in their first bytes. -/
def statusAt (m : Memory) (a n : Nat) : Nat :=
  highest (fun i => m (a + width * i) == mark) n

variable {width mark} {m m' : Memory} {a n k : Nat}

theorem statusAt_congr (same : ∀ i < n, m (a + width * i) = m' (a + width * i)) :
    statusAt width mark m a n = statusAt width mark m' a n :=
  highest_congr fun i hi => by rw [same i hi]

/-- A table whose cells are all without the mark. -/
theorem statusAt_clear (clear : ∀ i < n, m (a + width * i) ≠ mark) :
    statusAt width mark m a n = 0 :=
  highest_eq_zero fun i hi => by simp [clear i hi]

/-- Marking a cell raises the status to its number, and never lowers it. -/
theorem statusAt_mark (cell : Nat → Byte) (wide : 0 < width) (inside : k < n)
    (first : cell 0 = mark) :
    statusAt width mark (fill m (a + width * k) width cell) a n =
      max (statusAt width mark m a n) (k + 1) := by
  refine highest_insert k inside ?_ ?_
  · rw [fill_inside (by omega) (by omega), Nat.sub_self, first]
    exact beq_self_eq_true mark
  · intro i hi other
    rw [fill_outside]
    rcases Nat.lt_or_gt_of_ne other with low | high
    · have := Nat.mul_le_mul_left width (show i + 1 ≤ k from low)
      rw [Nat.mul_succ] at this
      omega
    · have := Nat.mul_le_mul_left width (show k + 1 ≤ i from high)
      rw [Nat.mul_succ] at this
      omega

end Tables

end BmsFirmware.Library.StatusTable
