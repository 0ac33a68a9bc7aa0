/- Module: BmsFirmware/Library/CrcPolynomial
   Scope: general
   Digest: Cyclic redundancy checks as remainders over the field of two elements. -/

import BmsFirmware.Library.Crc
import Mathlib.Algebra.Field.ZMod
import Mathlib.Algebra.Polynomial.Div
import Mathlib.Algebra.Polynomial.Monic
import Mathlib.Data.List.GetD
import Mathlib.RingTheory.Coprime.Lemmas
import Mathlib.Tactic.LinearCombination
import Mathlib.Tactic.Ring

set_option autoImplicit false
set_option relaxedAutoImplicit false

namespace BmsFirmware.Library.CrcPolynomial

open Polynomial
open BmsFirmware.Library.Crc

noncomputable section

/-! ### Bit strings as polynomials -/

def bit (b : Bool) : ZMod 2 := if b then 1 else 0

@[simp] theorem bit_false : bit false = 0 := rfl

@[simp] theorem bit_true : bit true = 1 := rfl

theorem bit_xor (a b : Bool) : bit (a ^^ b) = bit a + bit b := by
  cases a <;> cases b <;> decide

theorem bit_injective : Function.Injective bit := by
  intro a b
  cases a <;> cases b <;> decide

private theorem twice (p : (ZMod 2)[X]) : p + p = 0 := CharTwo.add_self_eq_zero p

/-- The polynomial of a bit string, highest power first. -/
def bitPoly (l : List Bool) : (ZMod 2)[X] := l.foldl (fun p b => X * p + C (bit b)) 0

@[simp] theorem bitPoly_nil : bitPoly [] = 0 := rfl

@[simp] theorem bitPoly_snoc (l : List Bool) (b : Bool) :
    bitPoly (l ++ [b]) = X * bitPoly l + C (bit b) := by
  rw [bitPoly, List.foldl_append]
  rfl

theorem bitPoly_append (l l' : List Bool) :
    bitPoly (l ++ l') = X ^ l'.length * bitPoly l + bitPoly l' := by
  induction l' using List.reverseRecOn with
  | nil => simp
  | append_singleton l' b ih =>
    rw [← List.append_assoc, bitPoly_snoc, bitPoly_snoc, ih, List.length_append,
      List.length_singleton]
    ring

theorem coeff_bitPoly (l : List Bool) (i : Nat) :
    (bitPoly l).coeff i = bit (l.reverse.getD i false) := by
  induction l using List.reverseRecOn generalizing i with
  | nil => simp
  | append_singleton l b ih =>
    rw [bitPoly_snoc, List.reverse_append, List.reverse_singleton, List.singleton_append]
    cases i with
    | zero => simp
    | succ i => rw [coeff_add, coeff_X_mul, coeff_C_succ, add_zero, ih, List.getD_cons_succ]

theorem degree_bitPoly (l : List Bool) : (bitPoly l).degree < l.length := by
  rw [degree_lt_iff_coeff_zero]
  intro i high
  rw [coeff_bitPoly, List.getD_eq_default _ _ (by rwa [List.length_reverse]), bit_false]

theorem bitPoly_false (n : Nat) : bitPoly (List.replicate n false) = 0 := by
  induction n with
  | zero => rfl
  | succ n ih =>
    rw [List.replicate_succ', bitPoly_snoc, ih, mul_zero, bit_false, map_zero, add_zero]

/-- Strings of one length add bit by bit. -/
theorem bitPoly_xor {l l' : List Bool} (length : l.length = l'.length) :
    bitPoly (List.zipWith xor l l') = bitPoly l + bitPoly l' := by
  induction l using List.reverseRecOn generalizing l' with
  | nil =>
    obtain rfl : l' = [] := List.length_eq_zero_iff.mp length.symm
    rfl
  | append_singleton l b ih =>
    cases l' using List.reverseRecOn with
    | nil => simp at length
    | append_singleton l' b' =>
      have fronts : l.length = l'.length := by simpa using length
      rw [List.zipWith_append fronts, List.zipWith_cons_cons, List.zipWith_nil_left, bitPoly_snoc,
        bitPoly_snoc, bitPoly_snoc, ih fronts, bit_xor, map_add]
      ring

theorem bitPoly_eq_zero {l : List Bool} (zero : bitPoly l = 0) : ∀ b ∈ l, b = false := by
  intro b member
  obtain ⟨i, bound, rfl⟩ := List.getElem_of_mem (List.mem_reverse.mpr member)
  have bit := congrArg (fun p => p.coeff i) zero
  simp only [coeff_bitPoly, coeff_zero] at bit
  rw [List.getD_eq_getElem _ _ bound] at bit
  exact bit_injective bit

/-- The value at one counts the ones. -/
theorem eval_bitPoly (l : List Bool) : (bitPoly l).eval 1 = (l.count true : ZMod 2) := by
  induction l using List.reverseRecOn with
  | nil => simp
  | append_singleton l b ih =>
    rw [bitPoly_snoc, eval_add, eval_mul, eval_X, one_mul, eval_C, ih, List.count_append]
    cases b <;> simp

/-! ### Registers -/

section Register

variable {w : Nat}

/-- The bits of a word, most significant bit first. -/
def msbFirst (r : BitVec w) : List Bool := (List.range w).map r.getMsbD

@[simp] theorem length_msbFirst (r : BitVec w) : (msbFirst r).length = w := by simp [msbFirst]

def registerPoly (r : BitVec w) : (ZMod 2)[X] := bitPoly (msbFirst r)

@[simp] theorem coeff_registerPoly (r : BitVec w) (i : Nat) :
    (registerPoly r).coeff i = bit (r.getLsbD i) := by
  rw [registerPoly, coeff_bitPoly]
  by_cases inside : i < w
  · have reversed : w - 1 - (w - 1 - i) = i := by omega
    have bound : i < (msbFirst r).reverse.length := by simpa using inside
    rw [List.getD_eq_getElem _ _ bound, List.getElem_reverse]
    simp only [msbFirst, List.getElem_map, List.getElem_range, List.length_map, List.length_range]
    rw [BitVec.getMsbD, reversed, decide_eq_true (by omega), Bool.true_and]
  · rw [List.getD_eq_default _ _ (by simpa using inside),
      BitVec.getLsbD_of_ge _ _ (Nat.le_of_not_lt inside)]

theorem degree_registerPoly (r : BitVec w) : (registerPoly r).degree < w := by
  have bound := degree_bitPoly (msbFirst r)
  rwa [length_msbFirst] at bound

theorem registerPoly_injective : Function.Injective (registerPoly (w := w)) := by
  intro r r' same
  apply BitVec.eq_of_getLsbD_eq
  intro i _
  have coefficient := congrArg (fun p => p.coeff i) same
  simp only [coeff_registerPoly] at coefficient
  exact bit_injective coefficient

@[simp] theorem registerPoly_zero : registerPoly (0 : BitVec w) = 0 := by
  ext i
  simp

@[simp] theorem registerPoly_xor (r r' : BitVec w) :
    registerPoly (r ^^^ r') = registerPoly r + registerPoly r' := by
  ext i
  rw [coeff_add, coeff_registerPoly, coeff_registerPoly, coeff_registerPoly, BitVec.getLsbD_xor,
    bit_xor]

/-- The generator polynomial of a check; its highest power is not in the register. -/
def generator (polynomial : BitVec w) : (ZMod 2)[X] := X ^ w + registerPoly polynomial

theorem generator_monic (polynomial : BitVec w) : (generator polynomial).Monic :=
  monic_X_pow_add (degree_registerPoly polynomial)

theorem degree_generator (polynomial : BitVec w) : (generator polynomial).degree = w := by
  rw [generator, degree_add_eq_left_of_degree_lt, degree_X_pow]
  rw [degree_X_pow]
  exact degree_registerPoly polynomial

/-- One shift multiplies by the indeterminate and takes the generator away. -/
theorem registerPoly_shift (polynomial r : BitVec w) :
    registerPoly (shift polynomial r) =
      X * registerPoly r + C (bit r.msb) * generator polynomial := by
  ext i
  have feedback : bit (r.msb && polynomial.getLsbD i) = bit r.msb * bit (polynomial.getLsbD i) := by
    cases r.msb <;> simp
  rw [coeff_add, coeff_C_mul, coeff_registerPoly, generator, coeff_add, coeff_X_pow,
    coeff_registerPoly, getLsbD_shift, bit_xor, feedback, mul_add, ← add_assoc]
  congr 1
  cases i with
  | zero =>
    cases w with
    | zero =>
      obtain rfl := BitVec.eq_nil r
      simp
    | succ w => simp
  | succ i =>
    rw [coeff_X_mul, coeff_registerPoly]
    by_cases top : i + 1 = w
    · subst top
      have last : r.getLsbD i = r.msb := (BitVec.msb_eq_getLsbD_last r).symm
      rw [last, if_pos rfl, mul_one, CharTwo.add_self_eq_zero]
      simp
    · rw [if_neg top, mul_zero, add_zero]
      by_cases inside : i + 1 < w
      · simp [inside]
      · have outside : r.getLsbD i = false := BitVec.getLsbD_of_ge r i (by omega)
        simp [outside]

/-- A register that is congruent to a polynomial is its remainder. -/
theorem registerPoly_eq_modByMonic {polynomial r : BitVec w} {p : (ZMod 2)[X]}
    (congruent : generator polynomial ∣ p - registerPoly r) :
    registerPoly r = p %ₘ generator polynomial := by
  have monic := generator_monic polynomial
  rw [modByMonic_eq_of_dvd_sub monic congruent, eq_comm, modByMonic_eq_self_iff monic,
    degree_generator]
  exact degree_registerPoly r

private theorem shift_iterate (polynomial r : BitVec w) (n : Nat) :
    generator polynomial ∣ X ^ n * registerPoly r - registerPoly ((shift polynomial)^[n] r) := by
  induction n with
  | zero => simp
  | succ n ih =>
    rw [Function.iterate_succ_apply', registerPoly_shift]
    obtain ⟨q, eq⟩ := ih
    refine ⟨X * q - C (bit ((shift polynomial)^[n] r).msb), ?_⟩
    linear_combination X * eq

/-- A word of at most the register's width enters at the top, most significant bit first. -/
def feed {k : Nat} (polynomial r : BitVec w) (word : BitVec k) : BitVec w :=
  (shift polynomial)^[k] (r ^^^ (word.setWidth w <<< (w - k)))

end Register

section Words

variable {w k : Nat}

private theorem registerPoly_top (word : BitVec k) (fits : k ≤ w) :
    X ^ k * registerPoly (word.setWidth w <<< (w - k)) = X ^ w * registerPoly word := by
  ext i
  rw [coeff_X_pow_mul', coeff_X_pow_mul', coeff_registerPoly, coeff_registerPoly,
    BitVec.getLsbD_shiftLeft, BitVec.getLsbD_setWidth]
  by_cases high : w ≤ i
  · rw [if_pos high, if_pos (Nat.le_trans fits high), show i - k - (w - k) = i - w by omega,
      decide_eq_false (show ¬i - k < w - k by omega)]
    by_cases inside : i - w < k
    · rw [decide_eq_true (show i - k < w by omega), decide_eq_true (show i - w < w by omega)]
      simp
    · rw [BitVec.getLsbD_of_ge word (i - w) (by omega)]
      simp
  · rw [if_neg high]
    by_cases low : k ≤ i
    · rw [if_pos low, decide_eq_true (show i - k < w - k by omega)]
      simp
    · rw [if_neg low]

private theorem registerPoly_feed (fits : k ≤ w) (polynomial r : BitVec w) (word : BitVec k) :
    generator polynomial ∣
      X ^ k * registerPoly r + X ^ w * registerPoly word -
        registerPoly (feed polynomial r word) := by
  have fed := shift_iterate polynomial (r ^^^ (word.setWidth w <<< (w - k))) k
  rwa [registerPoly_xor, mul_add, registerPoly_top word fits] at fed

/-- The bits of a list of words, in the order in which they enter. -/
def wordBits (l : List (BitVec k)) : List Bool := l.flatMap msbFirst

theorem length_wordBits (l : List (BitVec k)) : (wordBits l).length = k * l.length := by
  induction l with
  | nil => rfl
  | cons a l ih =>
    rw [wordBits, List.flatMap_cons, List.length_append, length_msbFirst, List.length_cons,
      Nat.mul_succ, ← ih, Nat.add_comm]
    rfl

theorem bitPoly_wordBits_cons (a : BitVec k) (l : List (BitVec k)) :
    bitPoly (wordBits (a :: l)) = X ^ (k * l.length) * registerPoly a + bitPoly (wordBits l) := by
  rw [← length_wordBits]
  exact bitPoly_append (msbFirst a) (wordBits l)

/-- The register behind a list of words, up to multiples of the generator. -/
theorem fold_feed (fits : k ≤ w) (polynomial start : BitVec w) (l : List (BitVec k)) :
    generator polynomial ∣
      X ^ (k * l.length) * registerPoly start + X ^ w * bitPoly (wordBits l) -
        registerPoly (l.foldl (feed polynomial) start) := by
  induction l generalizing start with
  | nil => simp [wordBits]
  | cons a l ih =>
    obtain ⟨q, eq⟩ := ih (feed polynomial start a)
    obtain ⟨q', eq'⟩ := registerPoly_feed fits polynomial start a
    rw [List.foldl_cons, bitPoly_wordBits_cons, List.length_cons, Nat.mul_succ, pow_add]
    refine ⟨q + X ^ (k * l.length) * q', ?_⟩
    linear_combination eq + X ^ (k * l.length) * eq'

/-- The register behind a list of words is a remainder. -/
theorem fold_remainder (fits : k ≤ w) (polynomial start : BitVec w) (l : List (BitVec k)) :
    registerPoly (l.foldl (feed polynomial) start) =
      (X ^ (k * l.length) * registerPoly start + X ^ w * bitPoly (wordBits l)) %ₘ
        generator polynomial :=
  registerPoly_eq_modByMonic (fold_feed fits polynomial start l)

/-- A list followed by its own check leaves the register empty. -/
theorem fold_check (fits : k ≤ w) (polynomial start : BitVec w) (l check : List (BitVec k))
    (own : wordBits check = msbFirst (l.foldl (feed polynomial) start)) :
    (l ++ check).foldl (feed polynomial) start = 0 := by
  have length : k * check.length = w := by rw [← length_wordBits, own, length_msbFirst]
  have remainder := fold_remainder fits polynomial (l.foldl (feed polynomial) start) check
  rw [own, length, ← mul_add] at remainder
  apply registerPoly_injective
  rw [List.foldl_append, remainder, registerPoly_zero]
  change (X ^ w * (registerPoly _ + registerPoly _)) %ₘ _ = 0
  rw [twice, mul_zero, zero_modByMonic]

end Words

section Ones

variable {w k : Nat}

/-- The first bits of a string inverted. -/
def invertFirst (n : Nat) (l : List Bool) : List Bool := (l.take n).map not ++ l.drop n

private theorem bitPoly_not (l : List Bool) :
    bitPoly (l.map not) = bitPoly l + bitPoly (List.replicate l.length true) := by
  induction l using List.reverseRecOn with
  | nil => simp
  | append_singleton l b ih =>
    have inverted : bit (!b) = bit b + 1 := by cases b <;> decide
    rw [List.map_append, List.map_singleton, bitPoly_snoc, bitPoly_snoc, ih, List.length_append,
      List.length_singleton, List.replicate_succ', bitPoly_snoc, inverted, map_add, bit_true]
    ring

private theorem bitPoly_invertFirst {n : Nat} {l : List Bool} (enough : n ≤ l.length) :
    bitPoly (invertFirst n l) =
      bitPoly l + X ^ (l.length - n) * bitPoly (List.replicate n true) := by
  have whole : bitPoly l = X ^ (l.length - n) * bitPoly (l.take n) + bitPoly (l.drop n) := by
    rw [← List.length_drop, ← bitPoly_append, List.take_append_drop]
  rw [invertFirst, bitPoly_append, bitPoly_not, List.length_take_of_le enough, List.length_drop,
    whole]
  ring

private theorem registerPoly_allOnes :
    registerPoly (BitVec.allOnes w) = bitPoly (List.replicate w true) := by
  ext i
  rw [coeff_registerPoly, coeff_bitPoly, List.reverse_replicate, BitVec.getLsbD_allOnes]
  by_cases inside : i < w
  · simp [inside]
  · simp [inside]

/-- A register full of ones inverts as many leading bits of the string. -/
theorem fold_remainder_ones (fits : k ≤ w) (polynomial : BitVec w) (l : List (BitVec k)) :
    registerPoly (l.foldl (feed polynomial) (BitVec.allOnes w)) =
      bitPoly (invertFirst w (wordBits l ++ List.replicate w false)) %ₘ generator polynomial := by
  have length : (wordBits l ++ List.replicate w false).length = k * l.length + w := by
    rw [List.length_append, length_wordBits, List.length_replicate]
  rw [fold_remainder fits, bitPoly_invertFirst (by rw [length]; exact Nat.le_add_left _ _), length,
    Nat.add_sub_cancel, bitPoly_append, bitPoly_false, List.length_replicate, add_zero,
    registerPoly_allOnes, add_comm]

end Ones

section Detection

variable {w k : Nat} {polynomial : BitVec w}

/-- Equal checks of lists of one length: the difference is a multiple of the generator. -/
theorem dvd_of_fold_eq (fits : k ≤ w) (start : BitVec w) {l l' : List (BitVec k)}
    (length : l.length = l'.length)
    (same : l.foldl (feed polynomial) start = l'.foldl (feed polynomial) start) :
    generator polynomial ∣ X ^ w * bitPoly (List.zipWith xor (wordBits l) (wordBits l')) := by
  have lengths : (wordBits l).length = (wordBits l').length := by
    rw [length_wordBits, length_wordBits, length]
  obtain ⟨q, eq⟩ := fold_feed fits polynomial start l
  obtain ⟨q', eq'⟩ := fold_feed fits polynomial start l'
  rw [← length, ← same] at eq'
  refine ⟨q - q', ?_⟩
  rw [bitPoly_xor lengths]
  linear_combination eq - eq' + X ^ w * twice (bitPoly (wordBits l'))

private theorem coprime_X (odd : polynomial.getLsbD 0 = true) :
    IsCoprime (generator polynomial) X := by
  have positive : w ≠ 0 := Nat.ne_zero_of_lt (BitVec.lt_of_getLsbD odd)
  obtain ⟨h, eq⟩ := X_dvd_sub_C (p := generator polynomial)
  have constant : (generator polynomial).coeff 0 = 1 := by
    rw [generator, coeff_add, coeff_registerPoly, odd, coeff_X_pow, if_neg positive.symm, zero_add,
      bit_true]
  rw [constant, map_one] at eq
  exact ⟨1, -h, by linear_combination eq⟩

private theorem bitPoly_all_false {d : List Bool} (clear : ∀ b ∈ d, b = false) : bitPoly d = 0 := by
  rw [List.eq_replicate_of_mem clear]
  exact bitPoly_false _

/-- Ones within a window: the polynomial of the window, shifted. -/
private theorem bitPoly_window {d : List Bool} {j n : Nat}
    (window : ∀ i, d[i]? = some true → j ≤ i ∧ i < j + n) :
    ∃ t burst, bitPoly d = X ^ t * bitPoly burst ∧ burst.length ≤ n := by
  have before (b : Bool) (member : b ∈ d.take j) : b = false := by
    obtain ⟨i, here⟩ := List.mem_iff_getElem?.mp member
    rw [List.getElem?_take] at here
    split_ifs at here with early
    cases b with
    | false => rfl
    | true => exact absurd (window i here).1 (Nat.not_le_of_lt early)
  have behind (b : Bool) (member : b ∈ (d.drop j).drop n) : b = false := by
    obtain ⟨i, here⟩ := List.mem_iff_getElem?.mp member
    rw [List.drop_drop, List.getElem?_drop] at here
    cases b with
    | false => rfl
    | true => exact absurd (window (j + n + i) here).2 (by omega)
  refine ⟨((d.drop j).drop n).length, (d.drop j).take n, ?_, List.length_take_le _ _⟩
  calc bitPoly d
    _ = bitPoly (d.take j ++ ((d.drop j).take n ++ (d.drop j).drop n)) := by
      rw [List.take_append_drop, List.take_append_drop]
    _ = X ^ ((d.drop j).drop n).length * bitPoly ((d.drop j).take n) := by
      rw [bitPoly_append, bitPoly_append, bitPoly_all_false before, bitPoly_all_false behind,
        mul_zero, zero_add, add_zero]

private theorem eq_of_xor_false {a b : List Bool} (length : a.length = b.length)
    (clear : ∀ x ∈ List.zipWith xor a b, x = false) : a = b := by
  refine List.ext_getElem length fun i here there => ?_
  have same := clear (a[i] ^^ b[i]) (List.mem_iff_getElem.mpr ⟨i, by simp [here, there], by simp⟩)
  simpa using same

theorem wordBits_injective {l l' : List (BitVec k)} (length : l.length = l'.length)
    (same : wordBits l = wordBits l') : l = l' := by
  induction l generalizing l' with
  | nil => exact (List.length_eq_zero_iff.mp length.symm).symm
  | cons a l ih =>
    cases l' with
    | nil => simp at length
    | cons a' l' =>
      obtain ⟨first, rest⟩ := List.append_inj same (by simp)
      rw [registerPoly_injective (congrArg bitPoly first), ih (Nat.succ.inj length) rest]

/-- A burst no longer than the register is detected. -/
theorem fold_ne_of_burst (fits : k ≤ w) (odd : polynomial.getLsbD 0 = true) (start : BitVec w)
    {l l' : List (BitVec k)} (length : l.length = l'.length) (differ : l ≠ l') {j : Nat}
    (burst : ∀ i, (wordBits l)[i]? ≠ (wordBits l')[i]? → j ≤ i ∧ i < j + w) :
    l.foldl (feed polynomial) start ≠ l'.foldl (feed polynomial) start := by
  intro same
  have lengths : (wordBits l).length = (wordBits l').length := by
    rw [length_wordBits, length_wordBits, length]
  obtain ⟨t, window, shape, short⟩ :=
    bitPoly_window (d := List.zipWith xor (wordBits l) (wordBits l')) (j := j) (n := w) (by
      intro i one
      refine burst i fun agree => ?_
      obtain ⟨b, b', here, there, differ⟩ := List.getElem?_zipWith_eq_some.mp one
      obtain rfl : b = b' := Option.some.inj (here.symm.trans (agree.trans there))
      simp at differ)
  have multiple := dvd_of_fold_eq fits start length same
  rw [shape, ← mul_assoc, ← pow_add] at multiple
  have divides := (coprime_X odd).pow_right.dvd_of_dvd_mul_left multiple
  have small : (bitPoly window).degree < (generator polynomial).degree := by
    rw [degree_generator]
    exact (degree_bitPoly window).trans_le (Nat.cast_le.mpr short)
  have zero : bitPoly (List.zipWith xor (wordBits l) (wordBits l')) = 0 := by
    rw [shape, eq_zero_of_dvd_of_degree_lt divides small, mul_zero]
  exact differ (wordBits_injective length (eq_of_xor_false lengths (bitPoly_eq_zero zero)))

/-- A difference with an odd number of ones is detected if one is a root of the generator. -/
theorem fold_ne_of_odd (fits : k ≤ w) (root : (generator polynomial).eval 1 = 0)
    (start : BitVec w) {l l' : List (BitVec k)} (length : l.length = l'.length)
    (ones : Odd ((List.zipWith xor (wordBits l) (wordBits l')).count true)) :
    l.foldl (feed polynomial) start ≠ l'.foldl (feed polynomial) start := by
  intro same
  obtain ⟨q, eq⟩ := dvd_of_fold_eq fits start length same
  have value := congrArg (eval 1) eq
  rw [eval_mul, eval_mul, root, zero_mul, eval_pow, eval_X, one_pow, one_mul, eval_bitPoly,
    ZMod.natCast_eq_zero_iff_even] at value
  exact Nat.not_even_iff_odd.mpr ones value

end Detection

end

end BmsFirmware.Library.CrcPolynomial
