/- Module: BmsFirmware/Library/ReflectedCrc
   Scope: general
   Digest: Cyclic redundancy checks that take the least significant bit first, with a table in
           place of the single shifts. -/

import BmsFirmware.Library.CrcPolynomial

set_option autoImplicit false
set_option relaxedAutoImplicit false

namespace BmsFirmware.Library.ReflectedCrc

open Function
open BmsFirmware.Library.Crc
open BmsFirmware.Library.CrcPolynomial

variable {w k : Nat}

/-- One shift, least significant bit first; the bit that leaves decides on the feedback. -/
def shiftLow (polynomial register : BitVec w) : BitVec w :=
  if register.getLsbD 0 then (register >>> 1) ^^^ polynomial else register >>> 1

/-- A word enters at the bottom, least significant bit first. -/
def feedLow (polynomial register : BitVec w) (word : BitVec k) : BitVec w :=
  (shiftLow polynomial)^[k] (register ^^^ word.setWidth w)

/-- The same with one look into a table. -/
def tableStep (table : BitVec k → BitVec w) (register : BitVec w) (word : BitVec k) : BitVec w :=
  table ((register ^^^ word.setWidth w).setWidth k) ^^^ (register >>> k)

/-! ### Mirror images -/

theorem reverse_xor (x y : BitVec w) : (x ^^^ y).reverse = x.reverse ^^^ y.reverse := by
  apply BitVec.eq_of_getLsbD_eq
  intro i bound
  simp only [BitVec.getLsbD_xor, BitVec.getLsbD_reverse, BitVec.getMsbD_xor]

theorem reverse_injective : Injective (BitVec.reverse (w := w)) := by
  intro x y same
  rw [← BitVec.reverse_reverse_eq (x := x), same, BitVec.reverse_reverse_eq]

/-- Shifting down is the mirror image of shifting up. -/
theorem reverse_shiftLow (polynomial r : BitVec w) :
    (shiftLow polynomial r).reverse = shift polynomial.reverse r.reverse := by
  have down : (r >>> 1).reverse = r.reverse <<< 1 := by
    apply BitVec.eq_of_getLsbD_eq
    intro i bound
    rw [BitVec.getLsbD_reverse, BitVec.getMsbD_ushiftRight, BitVec.getLsbD_shiftLeft,
      BitVec.getLsbD_reverse, Bool.and_assoc]
  rw [shiftLow, shift, BitVec.msb_reverse]
  split
  · rw [reverse_xor, down]
  · exact down

theorem reverse_iterate (polynomial r : BitVec w) (n : Nat) :
    ((shiftLow polynomial)^[n] r).reverse = (shift polynomial.reverse)^[n] r.reverse :=
  Semiconj.iterate_right (fun r => reverse_shiftLow polynomial r) n r

theorem reverse_setWidth (fits : k ≤ w) (word : BitVec k) :
    (word.setWidth w).reverse = word.reverse.setWidth w <<< (w - k) := by
  apply BitVec.eq_of_getLsbD_eq
  intro i bound
  rw [BitVec.getLsbD_reverse, BitVec.getMsbD_eq_getLsbD, BitVec.getLsbD_setWidth,
    BitVec.getLsbD_shiftLeft, BitVec.getLsbD_setWidth, BitVec.getLsbD_reverse,
    BitVec.getMsbD_eq_getLsbD]
  by_cases high : i < w - k
  · rw [BitVec.getLsbD_of_ge word (w - 1 - i) (by omega)]
    simp [high]
  · rw [show k - 1 - (i - (w - k)) = w - 1 - i by omega]
    simp [high, bound, show w - 1 - i < w by omega, show i - (w - k) < w by omega,
      show i - (w - k) < k by omega]

theorem reverse_feedLow (fits : k ≤ w) (polynomial r : BitVec w) (word : BitVec k) :
    (feedLow polynomial r word).reverse = feed polynomial.reverse r.reverse word.reverse := by
  rw [feedLow, reverse_iterate, reverse_xor, reverse_setWidth fits, feed]

/-- The register behind a list of words is the mirror image of that behind their mirror images. -/
theorem reverse_fold (fits : k ≤ w) (polynomial start : BitVec w) (l : List (BitVec k)) :
    (l.foldl (feedLow polynomial) start).reverse =
      (l.map BitVec.reverse).foldl (feed polynomial.reverse) start.reverse := by
  induction l generalizing start with
  | nil => rfl
  | cons word l ih => rw [List.foldl_cons, ih, reverse_feedLow fits, List.map_cons, List.foldl_cons]

/-- A burst no longer than the register is detected. -/
theorem foldLow_ne_of_burst (fits : k ≤ w) {polynomial : BitVec w}
    (odd : polynomial.reverse.getLsbD 0 = true) (start : BitVec w) {l l' : List (BitVec k)}
    (length : l.length = l'.length) (differ : l ≠ l') {j : Nat}
    (burst : ∀ i, (wordBits (l.map BitVec.reverse))[i]? ≠ (wordBits (l'.map BitVec.reverse))[i]? →
      j ≤ i ∧ i < j + w) :
    l.foldl (feedLow polynomial) start ≠ l'.foldl (feedLow polynomial) start := by
  intro same
  have mirrored := congrArg BitVec.reverse same
  rw [reverse_fold fits, reverse_fold fits] at mirrored
  exact fold_ne_of_burst fits odd start.reverse (by simpa using length)
    (fun equal => differ (List.map_injective_iff.mpr reverse_injective equal)) burst mirrored

/-! ### Tables -/

theorem shiftLow_xor (polynomial x y : BitVec w) :
    shiftLow polynomial (x ^^^ y) = shiftLow polynomial x ^^^ shiftLow polynomial y := by
  apply BitVec.eq_of_getLsbD_eq
  intro i bound
  simp only [shiftLow, BitVec.getLsbD_xor, BitVec.ushiftRight_xor_distrib]
  cases x.getLsbD 0 <;> cases y.getLsbD 0 <;>
    simp [Bool.xor_comm, Bool.xor_left_comm]

theorem iterate_xor (polynomial x y : BitVec w) (n : Nat) :
    (shiftLow polynomial)^[n] (x ^^^ y) =
      (shiftLow polynomial)^[n] x ^^^ (shiftLow polynomial)^[n] y := by
  induction n generalizing x y with
  | zero => rfl
  | succ n ih => rw [iterate_succ_apply, shiftLow_xor, ih, iterate_succ_apply, iterate_succ_apply]

/-- Where no one leaves the register there is no feedback. -/
theorem iterate_clear (polynomial : BitVec w) {x : BitVec w} {n : Nat}
    (clear : ∀ i < n, x.getLsbD i = false) : (shiftLow polynomial)^[n] x = x >>> n := by
  induction n with
  | zero => simp
  | succ n ih =>
    have low : (x >>> n).getLsbD 0 = false := by
      rw [BitVec.getLsbD_ushiftRight]
      exact clear n (Nat.lt_succ_self n)
    rw [iterate_succ_apply', ih fun i less => clear i (Nat.lt_succ_of_lt less), shiftLow, low,
      if_neg (by simp), BitVec.shiftRight_add]

/-- A table that holds what the shifts make of every word takes their place. -/
theorem tableStep_eq {polynomial : BitVec w} {table : BitVec k → BitVec w}
    (entries : ∀ word, table word = (shiftLow polynomial)^[k] (word.setWidth w)) :
    tableStep table = feedLow polynomial := by
  funext r word
  have split : r ^^^ word.setWidth w =
      ((r ^^^ word.setWidth w).setWidth k).setWidth w ^^^ ((r >>> k) <<< k) := by
    apply BitVec.eq_of_getLsbD_eq
    intro i bound
    simp only [BitVec.getLsbD_xor, BitVec.getLsbD_setWidth, BitVec.getLsbD_shiftLeft,
      BitVec.getLsbD_ushiftRight]
    by_cases low : i < k
    · simp [bound, low]
    · rw [BitVec.getLsbD_of_ge word i (by omega)]
      simp [bound, low, show k + (i - k) = i by omega]
  have high : (shiftLow polynomial)^[k] ((r >>> k) <<< k) = r >>> k := by
    rw [iterate_clear polynomial fun i low => by simp [BitVec.getLsbD_shiftLeft, low]]
    apply BitVec.eq_of_getLsbD_eq
    intro i bound
    simp only [BitVec.getLsbD_ushiftRight, BitVec.getLsbD_shiftLeft]
    by_cases inside : k + i < w
    · simp [inside]
    · simp [inside, BitVec.getLsbD_of_ge r (k + i) (by omega)]
  rw [feedLow, split, iterate_xor, high, tableStep, entries]

end BmsFirmware.Library.ReflectedCrc
