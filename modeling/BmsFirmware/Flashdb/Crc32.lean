/- Module: BmsFirmware/Flashdb/Crc32
   Source: application/flashdb/src/fdb_utils.c
   Digest: The checksum of the key-value records as a polynomial code, piece by piece. -/

import BmsFirmware.Flashdb.Utils
import BmsFirmware.Library.ReflectedCrc

set_option autoImplicit false
set_option relaxedAutoImplicit false

namespace BmsFirmware.Flashdb.Crc32

open Polynomial
open BmsFirmware.Library.ByteMemory
open BmsFirmware.Library.Crc
open BmsFirmware.Library.CrcPolynomial
open BmsFirmware.Library.ReflectedCrc
open BmsFirmware.Flashdb.Utils

/-! ### The table -/

/-- Every entry is what eight shifts make of its index. -/
theorem crc32Table_eq (index : Byte) : crc32Table.getD index.toNat 0 =
    (shiftLow (0xEDB88320 : Word))^[8] (index.setWidth 32) := by
  revert index
  decide +kernel

theorem crc32Step_eq : crc32Step = feedLow (0xEDB88320 : Word) := by
  rw [← tableStep_eq crc32Table_eq]
  funext crc data
  have low (x : Word) : (x &&& 0xFF).toNat = (x.setWidth 8).toNat := by
    rw [BitVec.toNat_and, BitVec.toNat_setWidth]
    exact Nat.and_two_pow_sub_one_eq_mod x.toNat 8
  rw [crc32Step, tableStep, low]

/-- The checksum of a byte string, going on from that of the bytes before it. -/
def crc32 (crc : Word) (m : List Byte) : Word :=
  fdbCalcCrc32 crc (ofList m) (BitVec.ofNat 32 m.length)

theorem crc32_eq (crc : Word) {m : List Byte} (small : m.length < 2 ^ 32) :
    crc32 crc m = ~~~(m.foldl (feedLow (0xEDB88320 : Word)) (~~~crc)) := by
  have ones (x : Word) : x ^^^ ~~~0 = ~~~x := BitVec.xor_allOnes
  have listed (start : Word) : (List.range m.length).foldl
      (fun crc i => feedLow (0xEDB88320 : Word) crc (ofList m i)) start =
      m.foldl (feedLow (0xEDB88320 : Word)) start := by
    conv => rhs; rw [← ofList_range m]
    exact List.foldl_map.symm
  rw [crc32, fdbCalcCrc32, ones, ones, BitVec.toNat_ofNat, Nat.mod_eq_of_lt small, crc32Step_eq,
    listed]

/-! ### The generator -/

theorem reverse_polynomial : (0xEDB88320 : Word).reverse = 0x04C11DB7 := by
  decide +kernel

theorem generator_eq : generator (0x04C11DB7 : Word) =
    X ^ 32 + X ^ 26 + X ^ 23 + X ^ 22 + X ^ 16 + X ^ 12 + X ^ 11 + X ^ 10 + X ^ 8 + X ^ 7 + X ^ 5 +
      X ^ 4 + X ^ 2 + X + 1 := by
  have bits : msbFirst (0x04C11DB7 : Word) = [false, false, false, false, false, true, false, false,
      true, true, false, false, false, false, false, true, false, false, false, true, true, true,
      false, true, true, false, true, true, false, true, true, true] := by
    decide
  rw [generator, registerPoly, bits]
  simp only [bitPoly, List.foldl_cons, List.foldl_nil, bit_false, bit_true, map_zero, map_one]
  ring

/-! ### The polynomial code -/

/-- The bits of a string, the least significant one of each byte first. -/
def lowBits (m : List Byte) : List Bool := wordBits (m.map BitVec.reverse)

/-- The strings differ within 32 consecutive bits. -/
def Burst (m m' : List Byte) : Prop :=
  ∃ j, ∀ i, (lowBits m)[i]? ≠ (lowBits m')[i]? → j ≤ i ∧ i < j + 32

private theorem crc32_remainder {m : List Byte} (small : m.length < 2 ^ 32) :
    registerPoly (~~~(crc32 0 m)).reverse =
      bitPoly (invertFirst 32 (lowBits m ++ List.replicate 32 false)) %ₘ
        (X ^ 32 + X ^ 26 + X ^ 23 + X ^ 22 + X ^ 16 + X ^ 12 + X ^ 11 + X ^ 10 + X ^ 8 + X ^ 7 +
          X ^ 5 + X ^ 4 + X ^ 2 + X + 1) := by
  have full : (~~~(0 : Word)).reverse = BitVec.allOnes 32 := by
    decide +kernel
  rw [crc32_eq 0 small, BitVec.not_not, reverse_fold (by decide), full, reverse_polynomial,
    fold_remainder_ones (by decide), generator_eq]
  rfl

private theorem crc32_append (crc : Word) {m m' : List Byte}
    (small : (m ++ m').length < 2 ^ 32) : crc32 (crc32 crc m) m' = crc32 crc (m ++ m') := by
  have length : (m ++ m').length = m.length + m'.length := List.length_append
  rw [crc32_eq _ (by omega), crc32_eq crc (m := m) (by omega), crc32_eq crc small, BitVec.not_not,
    List.foldl_append]

private theorem crc32_ne (crc : Word) {m m' : List Byte} (length : m.length = m'.length)
    (small : m.length < 2 ^ 32) (differ : m ≠ m') (burst : Burst m m') :
    crc32 crc m ≠ crc32 crc m' := by
  obtain ⟨j, within⟩ := burst
  rw [crc32_eq crc small, crc32_eq crc (length ▸ small)]
  have odd : (0xEDB88320 : Word).reverse.getLsbD 0 = true := by
    rw [reverse_polynomial]
    decide
  intro same
  exact foldLow_ne_of_burst (by decide) odd _ length differ within (BitVec.not_inj.mp same)

/-- The checksum is the remainder of the message in CRC-32 bit order, may be computed piece by
piece, and tells two strings apart that differ in a burst, whatever was in front of them. -/
theorem calcCrc32_polynomial :
    (∀ m : List Byte, m.length < 2 ^ 32 →
      registerPoly (~~~(crc32 0 m)).reverse =
        bitPoly (invertFirst 32 (lowBits m ++ List.replicate 32 false)) %ₘ
          (X ^ 32 + X ^ 26 + X ^ 23 + X ^ 22 + X ^ 16 + X ^ 12 + X ^ 11 + X ^ 10 + X ^ 8 + X ^ 7 +
            X ^ 5 + X ^ 4 + X ^ 2 + X + 1)) ∧
      (∀ crc, ∀ m m' : List Byte, (m ++ m').length < 2 ^ 32 →
        crc32 (crc32 crc m) m' = crc32 crc (m ++ m')) ∧
      ∀ crc, ∀ m m' : List Byte, m.length = m'.length → m.length < 2 ^ 32 → m ≠ m' → Burst m m' →
        crc32 crc m ≠ crc32 crc m' :=
  ⟨fun _ small => crc32_remainder small, fun crc _ _ small => crc32_append crc small,
    fun crc _ _ length small differ burst => crc32_ne crc length small differ burst⟩

example : crc32 0 [0x31, 0x32, 0x33, 0x34, 0x35, 0x36, 0x37, 0x38, 0x39] = 0xCBF43926 := by
  decide +kernel

/-- A message of two bytes in one piece and in two, and one that differs in a bit. -/
theorem calcCrc32_polynomial_pair :
    registerPoly (~~~(crc32 0 [0x12, 0x34])).reverse =
        bitPoly (invertFirst 32 (lowBits [0x12, 0x34] ++ List.replicate 32 false)) %ₘ
          (X ^ 32 + X ^ 26 + X ^ 23 + X ^ 22 + X ^ 16 + X ^ 12 + X ^ 11 + X ^ 10 + X ^ 8 + X ^ 7 +
            X ^ 5 + X ^ 4 + X ^ 2 + X + 1) ∧
      crc32 (crc32 0 [0x12]) [0x34] = crc32 0 [0x12, 0x34] ∧
      crc32 0 [0x12, 0x34] ≠ crc32 0 [0x12, 0x35] := by
  obtain ⟨remainder, pieces, bursts⟩ := calcCrc32_polynomial
  refine ⟨remainder _ (by decide), pieces 0 [0x12] [0x34] (by decide), ?_⟩
  refine bursts 0 _ _ rfl (by decide) (by decide) ⟨0, fun i differ => ⟨Nat.zero_le i, ?_⟩⟩
  by_contra high
  refine differ ?_
  rw [List.getElem?_eq_none (by simp [lowBits, length_wordBits]; omega),
    List.getElem?_eq_none (by simp [lowBits, length_wordBits]; omega)]

end BmsFirmware.Flashdb.Crc32
