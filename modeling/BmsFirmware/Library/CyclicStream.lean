/- Module: BmsFirmware/Library/CyclicStream
   Scope: general
   Digest: Streams and their windows, repeated lists, and walks that come round. -/

import Mathlib.Data.Fintype.Card
import Mathlib.Data.List.GetD
import Mathlib.Data.Nat.Find
import Mathlib.Logic.Function.Iterate

set_option autoImplicit false
set_option relaxedAutoImplicit false

namespace BmsFirmware.Library.CyclicStream

section Windows

variable {α : Type}

/-- `n` elements of a stream, from a position on. -/
def window (σ : Nat → α) : Nat → Nat → List α
  | _, 0 => []
  | p, n + 1 => σ p :: window σ (p + 1) n

@[simp] theorem length_window (σ : Nat → α) (p n : Nat) : (window σ p n).length = n := by
  induction n generalizing p with
  | zero => rfl
  | succ n ih => simp [window, ih]

private theorem getElem_window (σ : Nat → α) (p n i : Nat) (bound : i < (window σ p n).length) :
    (window σ p n)[i] = σ (p + i) := by
  induction n generalizing p i with
  | zero => exact absurd bound (Nat.not_lt_zero i)
  | succ n ih =>
    cases i with
    | zero => rfl
    | succ i =>
      refine (ih (p + 1) i (by simpa using bound)).trans ?_
      rw [Nat.add_assoc, Nat.add_comm 1 i]

theorem window_append (σ : Nat → α) (p n m : Nat) :
    window σ p (n + m) = window σ p n ++ window σ (p + n) m := by
  induction n generalizing p with
  | zero => simp [window]
  | succ n ih =>
    have place : p + 1 + n = p + (n + 1) := by omega
    rw [Nat.add_right_comm, window, ih, place]
    rfl

theorem window_congr {σ τ : Nat → α} {p q n : Nat} (same : ∀ i < n, σ (p + i) = τ (q + i)) :
    window σ p n = window τ q n := by
  induction n generalizing p q with
  | zero => rfl
  | succ n ih =>
    have first : σ p = τ q := same 0 (by omega)
    have rest : window σ (p + 1) n = window τ (q + 1) n := ih fun i hi => by
      have h := same (i + 1) (by omega)
      rwa [Nat.add_comm i 1, ← Nat.add_assoc, ← Nat.add_assoc] at h
    rw [window, window, first, rest]

/-- A list, and a stream behind it. -/
def precede (front : List α) (σ : Nat → α) : Nat → α := fun p =>
  if inside : p < front.length then front.get ⟨p, inside⟩ else σ (p - front.length)

theorem precede_behind (front : List α) (σ : Nat → α) (p : Nat) :
    precede front σ (front.length + p) = σ p := by
  simp [precede]

theorem window_precede (front : List α) (σ : Nat → α) (n : Nat) :
    window (precede front σ) 0 (front.length + n) = front ++ window σ 0 n := by
  have ahead (front : List α) : window (precede front σ) 0 front.length = front := by
    induction front with
    | nil => rfl
    | cons a front ih =>
      have shifted : window (precede (a :: front) σ) 1 front.length =
          window (precede front σ) 0 front.length := by
        apply window_congr
        intro i hi
        have next : 1 + i < (a :: front).length := by simp; omega
        simp only [precede, next, hi, Nat.zero_add, dif_pos]
        simp [Nat.add_comm 1 i]
      rw [List.length_cons, window, Nat.zero_add, shifted, ih]
      rfl
  rw [window_append, ahead, Nat.zero_add]
  congr 1
  exact window_congr fun i _ => by rw [precede_behind, Nat.zero_add]

/-- The stream that repeats a list. -/
def cycle [Inhabited α] (l : List α) : Nat → α := fun p => l.getD (p % l.length) default

variable [Inhabited α] (l : List α)

theorem cycle_mod (p : Nat) : cycle l (p % l.length) = cycle l p := by
  simp [cycle]

theorem window_cycle_self : window (cycle l) 0 l.length = l := by
  apply List.ext_getElem (length_window _ _ _)
  intro i inside _
  rw [length_window] at inside
  rw [getElem_window, Nat.zero_add, cycle, Nat.mod_eq_of_lt inside, List.getD_eq_getElem _ _ inside]

/-- Positions that differ by whole repetitions see the same. -/
theorem window_cycle_congr {p q : Nat} (same : p % l.length = q % l.length) (n : Nat) :
    window (cycle l) p n = window (cycle l) q n := by
  apply window_congr
  intro i _
  rw [← cycle_mod l (p + i), ← cycle_mod l (q + i), Nat.add_mod, same, ← Nat.add_mod]

theorem window_cycle (n : Nat) :
    window (cycle l) 0 (n * l.length) = (List.replicate n l).flatten := by
  induction n with
  | zero => simp [window]
  | succ n ih =>
    have again : window (cycle l) (0 + n * l.length) l.length = l :=
      (window_cycle_congr l (by simp) l.length).trans (window_cycle_self l)
    rw [Nat.succ_mul, window_append, ih, again, List.replicate_succ', List.flatten_append,
      List.flatten_singleton]

end Windows

/-- A walk in a finite set that ever meets a goal meets it in fewer steps than there are
elements. -/
theorem iterate_meets_early {β : Type} [Fintype β] (step : β → β) (goal : β → Prop) {b : β}
    (met : ∃ n, goal (step^[n] b)) : ∃ n < Fintype.card β, goal (step^[n] b) := by
  classical
  have first : goal (step^[Nat.find met] b) := Nat.find_spec met
  have before {n : Nat} (early : n < Nat.find met) : ¬goal (step^[n] b) := Nat.find_min met early
  refine ⟨Nat.find met, ?_, first⟩
  -- the elements up to the first meeting are distinct: a repetition could be cut out
  have distinct {i j : Nat} (less : i < j) (within : j ≤ Nat.find met) :
      step^[i] b ≠ step^[j] b := by
    intro same
    refine before (n := Nat.find met - j + i) (by omega) ?_
    rw [Function.iterate_add_apply, same, ← Function.iterate_add_apply]
    rwa [Nat.sub_add_cancel within]
  have injective : Function.Injective fun i : Fin (Nat.find met + 1) => step^[i.val] b := by
    intro i j same
    rcases Nat.lt_trichotomy i.val j.val with less | equal | more
    · exact absurd same (distinct less (Nat.le_of_lt_succ j.isLt))
    · exact Fin.ext equal
    · exact absurd same.symm (distinct more (Nat.le_of_lt_succ i.isLt))
  have size := Fintype.card_le_of_injective _ injective
  rwa [Fintype.card_fin] at size

end BmsFirmware.Library.CyclicStream
