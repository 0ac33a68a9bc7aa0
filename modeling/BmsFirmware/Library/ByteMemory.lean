/- Module: BmsFirmware/Library/ByteMemory
   Scope: general
   Digest: Byte-addressed memories, ranged overwriting and little-endian words. -/

import Mathlib.Algebra.Group.Nat.Defs
import Mathlib.Data.List.GetD
import Mathlib.Logic.Function.Basic
import Mathlib.Tactic.Common

set_option autoImplicit false
set_option relaxedAutoImplicit false

namespace BmsFirmware.Library.ByteMemory

abbrev Byte := BitVec 8
abbrev Half := BitVec 16
abbrev Word := BitVec 32

/-- A total map from byte addresses to their contents. -/
abbrev Memory := Nat → Byte

/-- Overwrite `len` bytes from `lo` on; the contents are given relative to `lo`. -/
def fill (m : Memory) (lo len : Nat) (f : Nat → Byte) : Memory :=
  fun x => if lo ≤ x ∧ x < lo + len then f (x - lo) else m x

theorem fill_inside {m : Memory} {lo len x : Nat} {f : Nat → Byte}
    (low : lo ≤ x) (high : x < lo + len) : fill m lo len f x = f (x - lo) := by
  simp only [fill, low, high, and_self, if_true]

theorem fill_outside {m : Memory} {lo len x : Nat} {f : Nat → Byte}
    (away : x < lo ∨ lo + len ≤ x) : fill m lo len f x = m x := by
  unfold fill
  rw [if_neg (by omega)]

@[simp] theorem fill_zero (m : Memory) (lo : Nat) (f : Nat → Byte) : fill m lo 0 f = m := by
  funext x
  exact fill_outside (by omega)

/-- Two adjacent pieces of one source make one longer piece. -/
theorem fill_extend (m : Memory) (lo k j : Nat) (f g : Nat → Byte)
    (same : ∀ i < j, g i = f (k + i)) :
    fill (fill m lo k f) (lo + k) j g = fill m lo (k + j) f := by
  funext x
  simp only [fill]
  by_cases h : lo + k ≤ x ∧ x < lo + k + j
  · rw [if_pos h, if_pos (by omega), same _ (by omega)]
    congr 1
    omega
  · rw [if_neg h]
    by_cases h' : lo ≤ x ∧ x < lo + k
    · rw [if_pos h', if_pos (by omega)]
    · rw [if_neg h', if_neg (by omega)]

/-- An overwriting hides every earlier one inside its range. -/
theorem fill_absorb (m : Memory) (lo k n : Nat) (f g : Nat → Byte) (within : k ≤ n) :
    fill (fill m lo k g) lo n f = fill m lo n f := by
  funext x
  simp only [fill]
  split_ifs <;> first | rfl | omega

/-- Storing one byte past a filled range lengthens the range. -/
theorem fill_snoc (m : Memory) (lo k : Nat) (f : Nat → Byte) :
    Function.update (fill m lo k f) (lo + k) (f k) = fill m lo (k + 1) f := by
  funext x
  simp only [Function.update_apply, fill]
  by_cases h : x = lo + k
  · subst h
    simp
  · rw [if_neg h]
    by_cases h' : lo ≤ x ∧ x < lo + k
    · rw [if_pos h', if_pos (by omega)]
    · rw [if_neg h', if_neg (by omega)]

/-! ### Little-endian words -/

/-- The bytes of a word, least significant first. -/
def wordBytes (w : Word) (i : Nat) : Byte := w.extractLsb' (8 * i) 8

/-- The word stored at an address, least significant byte first. -/
def wordAt (m : Memory) (a : Nat) : Word := m (a + 3) ++ m (a + 2) ++ m (a + 1) ++ m a

/-- The bytes of a half word, least significant first. -/
def halfBytes (w : Half) (i : Nat) : Byte := w.extractLsb' (8 * i) 8

/-- The half word stored at an address, least significant byte first. -/
def halfAt (m : Memory) (a : Nat) : Half := m (a + 1) ++ m a

theorem wordBytes_wordAt (m : Memory) (a i : Nat) (bound : i < 4) :
    wordBytes (wordAt m a) i = m (a + i) := by
  apply BitVec.eq_of_getLsbD_eq
  intro j hj
  have low : j < 8 := hj
  obtain rfl | rfl | rfl | rfl : i = 0 ∨ i = 1 ∨ i = 2 ∨ i = 3 := by omega
  all_goals
    simp only [wordBytes, wordAt, BitVec.getLsbD_extractLsb', BitVec.getLsbD_append, hj,
      decide_true, Bool.true_and]
    grind

theorem halfBytes_halfAt (m : Memory) (a i : Nat) (bound : i < 2) :
    halfBytes (halfAt m a) i = m (a + i) := by
  apply BitVec.eq_of_getLsbD_eq
  intro j hj
  have low : j < 8 := hj
  obtain rfl | rfl : i = 0 ∨ i = 1 := by omega
  all_goals
    simp only [halfBytes, halfAt, BitVec.getLsbD_extractLsb', BitVec.getLsbD_append, hj,
      decide_true, Bool.true_and]
    grind

theorem wordBytes_append (w : Word) :
    wordBytes w 3 ++ wordBytes w 2 ++ wordBytes w 1 ++ wordBytes w 0 = w := by
  apply BitVec.eq_of_getLsbD_eq
  intro j hj
  simp only [wordBytes, BitVec.getLsbD_append, BitVec.getLsbD_extractLsb']
  grind

theorem halfBytes_append (w : Half) : halfBytes w 1 ++ halfBytes w 0 = w := by
  apply BitVec.eq_of_getLsbD_eq
  intro j hj
  simp only [halfBytes, BitVec.getLsbD_append, BitVec.getLsbD_extractLsb']
  grind

/-- The byte that a shift and a mask take out of a value. -/
theorem masked_byte {n : Nat} (w : BitVec n) (k : Nat) :
    ((w >>> k) &&& 0xFF).setWidth 8 = w.extractLsb' k 8 := by
  apply BitVec.eq_of_getLsbD_eq
  intro j hj
  have mask : (0xFF : BitVec n).getLsbD j = decide (j < n) := by
    refine (BitVec.getLsbD_ofNat n 255 j).trans ?_
    rw [Nat.testBit_two_pow_sub_one (n := 8), decide_eq_true hj, Bool.and_true]
  simp only [BitVec.getLsbD_setWidth, BitVec.getLsbD_and, BitVec.getLsbD_ushiftRight,
    BitVec.getLsbD_extractLsb', hj, decide_true, Bool.true_and, mask]
  cases bit : w.getLsbD (k + j) with
  | false => rfl
  | true =>
    have inside := BitVec.lt_of_getLsbD bit
    rw [Bool.true_and, decide_eq_true (by omega)]

/-- A stored word reads back. -/
theorem wordAt_fill (m : Memory) (a : Nat) (w : Word) :
    wordAt (fill m a 4 (wordBytes w)) a = w := by
  have byte (i : Nat) (h : i < 4) : fill m a 4 (wordBytes w) (a + i) = wordBytes w i := by
    rw [fill_inside (by omega) (by omega), Nat.add_sub_cancel_left]
  have first : fill m a 4 (wordBytes w) a = wordBytes w 0 := byte 0 (by omega)
  rw [wordAt, byte 1 (by omega), byte 2 (by omega), byte 3 (by omega), first]
  exact wordBytes_append w

theorem halfAt_fill (m : Memory) (a : Nat) (w : Half) :
    halfAt (fill m a 2 (halfBytes w)) a = w := by
  have byte (i : Nat) (h : i < 2) : fill m a 2 (halfBytes w) (a + i) = halfBytes w i := by
    rw [fill_inside (by omega) (by omega), Nat.add_sub_cancel_left]
  have first : fill m a 2 (halfBytes w) a = halfBytes w 0 := byte 0 (by omega)
  rw [halfAt, byte 1 (by omega), first]
  exact halfBytes_append w

/-- Four equal bytes make equal words, wherever they stand. -/
theorem wordAt_same {m m' : Memory} {a a' : Nat} (same : ∀ i < 4, m (a + i) = m' (a' + i)) :
    wordAt m a = wordAt m' a' := by
  have first : m a = m' a' := same 0 (by omega)
  rw [wordAt, wordAt, first, same 1 (by omega), same 2 (by omega), same 3 (by omega)]

theorem wordAt_congr {m m' : Memory} {a : Nat} (same : ∀ i < 4, m (a + i) = m' (a + i)) :
    wordAt m a = wordAt m' a :=
  wordAt_same same

theorem wordAt_ones (a : Nat) : wordAt (fun _ => 0xFF) a = 0xFFFFFFFF := by
  simp only [wordAt]
  decide

theorem halfAt_congr {m m' : Memory} {a : Nat} (same : ∀ i < 2, m (a + i) = m' (a + i)) :
    halfAt m a = halfAt m' a := by
  have first : m a = m' a := same 0 (by omega)
  rw [halfAt, halfAt, first, same 1 (by omega)]

/-! ### Memories holding a list -/

/-- The memory that holds a list from address zero on, and zeroes behind it. -/
def ofList (l : List Byte) : Memory := fun i => l.getD i 0

@[simp] theorem ofList_nil : ofList [] = fun _ => 0 := by
  funext i
  rfl

theorem ofList_snoc (l : List Byte) (b : Byte) :
    Function.update (ofList l) l.length b = ofList (l ++ [b]) := by
  funext i
  simp only [Function.update_apply, ofList]
  by_cases h : i = l.length
  · subst h
    simp
  · rw [if_neg h]
    rcases Nat.lt_or_gt_of_ne h with low | high
    · rw [List.getD_append _ _ _ _ low]
    · rw [List.getD_eq_default _ _ (by omega), List.getD_eq_default]
      simp only [List.length_append, List.length_singleton]
      omega

theorem ofList_range (l : List Byte) : (List.range l.length).map (ofList l) = l := by
  apply List.ext_getElem
  · simp
  · intro i h h'
    simp [ofList, h']

end BmsFirmware.Library.ByteMemory
