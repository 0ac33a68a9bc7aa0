/- Module: BmsFirmware/Library/DownCounter
   Scope: general
   Digest: A counter that runs down from its reload value and notes each reload. -/

import Mathlib.Logic.Function.Iterate
import Mathlib.Tactic.Common

set_option autoImplicit false
set_option relaxedAutoImplicit false

namespace BmsFirmware.Library.DownCounter

structure Counter where
  load : Nat
  val : Nat
  countFlag : Bool
  deriving DecidableEq

/-- One clock: down by one, or from zero back to the reload value. -/
def tick (c : Counter) : Counter :=
  if c.val = 0 then { c with val := c.load, countFlag := true } else { c with val := c.val - 1 }

/-- The counter after `n` clocks. -/
def advance (n : Nat) (c : Counter) : Counter := tick^[n] c

section Advance

variable {c : Counter} {n m : Nat}

@[simp] theorem advance_zero : advance 0 c = c := rfl

theorem advance_add : advance (n + m) c = advance m (advance n c) := by
  rw [advance, Nat.add_comm, Function.iterate_add_apply]
  rfl

private theorem advance_succ : advance (n + 1) c = tick (advance n c) :=
  Function.iterate_succ_apply' tick n c

/-- Down to zero the counter only counts. -/
theorem advance_running (early : n ≤ c.val) : advance n c = { c with val := c.val - n } := by
  induction n with
  | zero => rfl
  | succ n ih =>
    rw [advance_succ, ih (Nat.le_of_succ_le early), tick]
    have positive : c.val - n ≠ 0 := by omega
    rw [if_neg positive]
    congr 1

/-- Behind its reload the counter runs down from the reload value, with the flag set. -/
theorem advance_reloaded (late : c.val < n) (once : n ≤ c.val + c.load + 1) :
    advance n c = { c with val := c.val + c.load + 1 - n, countFlag := true } := by
  obtain ⟨k, rfl⟩ : ∃ k, n = c.val + 1 + k := ⟨n - (c.val + 1), by omega⟩
  have zero : advance (c.val + 1) c = { c with val := c.load, countFlag := true } := by
    rw [advance_succ, advance_running (Nat.le_refl _), tick]
    simp
  rw [advance_add, zero, advance_running (show k ≤ c.load by omega)]
  congr 1
  dsimp only
  omega

end Advance

end BmsFirmware.Library.DownCounter
