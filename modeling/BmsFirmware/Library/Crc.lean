/- Module: BmsFirmware/Library/Crc
   Scope: general
   Digest: Folds that lose nothing, and the shift register of a cyclic redundancy check. -/

import Mathlib.Logic.Function.Iterate
import Mathlib.Tactic.Common

set_option autoImplicit false
set_option relaxedAutoImplicit false

namespace BmsFirmware.Library.Crc

open Function

/-! ### Folds with an injective step -/

section Folds

variable {α β : Type}

/-- A step that can be undone, given the item or given the state before it. -/
structure InjectiveStep (step : β → α → β) : Prop where
  item : ∀ b, Injective (step b)
  state : ∀ a, Injective fun b => step b a

/-- Fold the first `n` items of a sequence. -/
def foldFirst (step : β → α → β) (n : Nat) (items : Nat → α) (start : β) : β :=
  (List.range n).foldl (fun b i => step b (items i)) start

variable {step : β → α → β} {n : Nat} {items items' : Nat → α} {start : β}

@[simp] theorem foldFirst_zero : foldFirst step 0 items start = start := rfl

theorem foldFirst_succ :
    foldFirst step (n + 1) items start = step (foldFirst step n items start) (items n) := by
  simp [foldFirst, List.range_succ]

theorem foldFirst_congr (same : ∀ i < n, items i = items' i) :
    foldFirst step n items start = foldFirst step n items' start := by
  induction n with
  | zero => rfl
  | succ n ih =>
    rw [foldFirst_succ, foldFirst_succ, ih fun i hi => same i (Nat.lt_succ_of_lt hi),
      same n (Nat.lt_succ_self n)]

/-- Two sequences that differ in one of the items fold to different states. -/
theorem foldFirst_ne (injective : InjectiveStep step) {k : Nat} (inside : k < n)
    (differ : items k ≠ items' k) (same : ∀ i < n, i ≠ k → items i = items' i) :
    foldFirst step n items start ≠ foldFirst step n items' start := by
  induction n with
  | zero => omega
  | succ n ih =>
    rw [foldFirst_succ, foldFirst_succ]
    by_cases last : k = n
    · subst last
      rw [foldFirst_congr fun i hi => same i (Nat.lt_succ_of_lt hi) (Nat.ne_of_lt hi)]
      exact (injective.item _).ne differ
    · rw [same n (Nat.lt_succ_self n) fun here => last here.symm]
      apply (injective.state _).ne
      exact ih (by omega) fun i hi => same i (Nat.lt_succ_of_lt hi)

end Folds

/-! ### The shift register -/

section Register

variable {w : Nat}

/-- One shift, most significant bit first; the bit that leaves decides on the feedback. -/
def shift (polynomial : BitVec w) (register : BitVec w) : BitVec w :=
  if register.msb then (register <<< 1) ^^^ polynomial else register <<< 1

/-- A whole word enters the register, which is then shifted once for each bit. -/
def shiftIn (polynomial : BitVec w) (register word : BitVec w) : BitVec w :=
  (shift polynomial)^[w] (register ^^^ word)

theorem getLsbD_shift (polynomial register : BitVec w) (i : Nat) :
    (shift polynomial register).getLsbD i =
      ((decide (i < w) && !decide (i < 1) && register.getLsbD (i - 1)) ^^
        (register.msb && polynomial.getLsbD i)) := by
  unfold shift
  cases out : register.msb <;> simp [BitVec.getLsbD_shiftLeft]

/-- With a constant term in the polynomial, no shift loses anything. -/
theorem shift_injective {polynomial : BitVec w} (odd : polynomial.getLsbD 0 = true) :
    Injective (shift polynomial) := by
  intro x y same
  have bit (i : Nat) := congrArg (fun r => r.getLsbD i) same
  simp only [getLsbD_shift] at bit
  have out : x.msb = y.msb := by simpa [odd] using bit 0
  apply BitVec.eq_of_getLsbD_eq
  intro i bound
  by_cases top : i + 1 = w
  · have last (r : BitVec w) : r.getLsbD i = r.msb := by
      rw [BitVec.msb_eq_getLsbD_last, show w - 1 = i by omega]
    rw [last, last, out]
  · have next := bit (i + 1)
    rw [out] at next
    simpa [show i + 1 < w by omega] using next

theorem shiftIn_injective {polynomial : BitVec w} (odd : polynomial.getLsbD 0 = true) :
    InjectiveStep (shiftIn polynomial) := by
  have shifted := (shift_injective odd).iterate w
  constructor
  · intro register
    exact shifted.comp fun _ _ same => (BitVec.xor_right_inj register).mp same
  · intro word
    exact shifted.comp fun _ _ same => (BitVec.xor_left_inj word).mp same

end Register

end BmsFirmware.Library.Crc
