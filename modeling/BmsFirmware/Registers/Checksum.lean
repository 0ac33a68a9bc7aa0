/- Module: BmsFirmware/Registers/Checksum
   Source: application/registers/pu_table.c
   Digest: The frame checksum as a polynomial code: its remainder, its own check and what it
           detects. -/

import BmsFirmware.Library.CrcPolynomial
import BmsFirmware.Registers.Frames

set_option autoImplicit false
set_option relaxedAutoImplicit false

namespace BmsFirmware.Registers.Checksum

open Polynomial
open BmsFirmware.Library.ByteMemory
open BmsFirmware.Library.Crc
open BmsFirmware.Library.CrcPolynomial
open BmsFirmware.Registers.Frames

/-! ### The loops as a shift register -/

/-- The 17-bit constant acts as its low half: the turn keeps 16 bits. -/
theorem crcStep_eq : crcStep = shift (0x1021 : Half) := by
  funext crc
  have top : crc &&& 0x8000 ≠ 0 ↔ crc.msb = true := by
    have mask : (0x8000 : Half) = BitVec.twoPow 16 15 := by decide
    rw [mask, BitVec.and_twoPow, BitVec.msb_eq_getLsbD_last]
    cases crc.getLsbD 15 with
    | false => decide
    | true => decide
  have kept : ((crc.setWidth 32 <<< 1) ^^^ POLYNOMIAL).setWidth 16 = (crc <<< 1) ^^^ 0x1021 := by
    have low : POLYNOMIAL.setWidth 16 = (0x1021 : Half) := by decide
    rw [BitVec.setWidth_xor, low]
    congr 1
    apply BitVec.eq_of_getLsbD_eq
    intro i bound
    simp only [BitVec.getLsbD_setWidth, BitVec.getLsbD_shiftLeft]
    simp [bound, show i < 32 by omega, show i - 1 < 32 by omega]
  rw [crcStep, shift, kept]
  exact if_congr top rfl rfl

theorem crcByte_eq : crcByte = feed (0x1021 : Half) := by
  funext crc data
  rw [crcByte, crcStep_eq]
  rfl

theorem crcOf_eq (l : List Byte) :
    crcOf l = l.foldl (feed (0x1021 : Half)) (BitVec.allOnes 16) := by
  rw [crcOf, crcByte_eq]
  rfl

/-! ### The generator -/

theorem generator_eq : generator (0x1021 : Half) = X ^ 16 + X ^ 12 + X ^ 5 + 1 := by
  have bits : msbFirst (0x1021 : Half) = [false, false, false, true, false, false, false, false,
      false, false, true, false, false, false, false, true] := by
    decide
  rw [generator, registerPoly, bits]
  simp only [bitPoly, List.foldl_cons, List.foldl_nil, bit_false, bit_true, map_zero, map_one]
  ring

/-- One is a root: the generator has four terms. -/
theorem generator_root : (generator (0x1021 : Half)).eval 1 = 0 := by
  rw [generator_eq]
  simp only [eval_add, eval_pow, eval_X, eval_one, one_pow]
  decide

/-! ### The polynomial code -/

/-- The checksum of a byte string in memory. -/
def checksum (m : List Byte) : Half := calculateCrc16 (ofList m) (BitVec.ofNat 16 m.length)

/-- The bytes of a checksum as they are sent, most significant first. -/
def crcBytes (crc : Half) : List Byte := [halfBytes crc 1, halfBytes crc 0]

private theorem wordBits_crcBytes (crc : Half) : wordBits (crcBytes crc) = msbFirst crc := by
  simp [wordBits, crcBytes, msbFirst, halfBytes, List.range_succ, BitVec.getMsbD]

private theorem checksum_eq {m : List Byte} (small : m.length < 2 ^ 16) :
    checksum m = m.foldl (feed (0x1021 : Half)) (BitVec.allOnes 16) := by
  rw [checksum, calculateCrc16_ofList m small, crcOf_eq]

/-- The strings differ within 16 consecutive bits. -/
def Burst (m m' : List Byte) : Prop :=
  ∃ j, ∀ i, (wordBits m)[i]? ≠ (wordBits m')[i]? → j ≤ i ∧ i < j + 16

/-- The bitwise difference of two strings of one length. -/
def difference (m m' : List Byte) : List Bool := List.zipWith xor (wordBits m) (wordBits m')

private theorem checksum_remainder {m : List Byte} (small : m.length < 2 ^ 16) :
    registerPoly (checksum m) =
      bitPoly (invertFirst 16 (wordBits m ++ List.replicate 16 false)) %ₘ
        (X ^ 16 + X ^ 12 + X ^ 5 + 1) := by
  rw [checksum_eq small, fold_remainder_ones (by decide), generator_eq]

private theorem checksum_self {m : List Byte} (small : m.length + 2 < 2 ^ 16) :
    checksum (m ++ crcBytes (checksum m)) = 0 := by
  have length : (m ++ crcBytes (checksum m)).length = m.length + 2 := List.length_append
  rw [checksum_eq (by rw [length]; exact small)]
  refine fold_check (by decide) _ _ m _ ?_
  rw [wordBits_crcBytes, checksum_eq (Nat.lt_of_add_right_lt small)]

private theorem checksum_ne {m m' : List Byte} (length : m.length = m'.length)
    (small : m.length < 2 ^ 16) (differ : m ≠ m')
    (kind : Burst m m' ∨ Odd ((difference m m').count true)) : checksum m ≠ checksum m' := by
  rw [checksum_eq small, checksum_eq (length ▸ small)]
  rcases kind with ⟨j, burst⟩ | ones
  · exact fold_ne_of_burst (by decide) (by decide) _ length differ burst
  · exact fold_ne_of_odd (by decide) generator_root _ length ones

/-- The checksum is the remainder of the message, checks itself to zero, and tells two
strings apart that differ in a burst or in an odd number of bits. -/
theorem calculateCrc16_polynomial :
    (∀ m : List Byte, m.length ≤ 65533 →
      registerPoly (checksum m) =
          bitPoly (invertFirst 16 (wordBits m ++ List.replicate 16 false)) %ₘ
            (X ^ 16 + X ^ 12 + X ^ 5 + 1) ∧
        checksum (m ++ crcBytes (checksum m)) = 0) ∧
      ∀ m m' : List Byte, m.length = m'.length → m.length < 2 ^ 16 → m ≠ m' →
        Burst m m' ∨ Odd ((difference m m').count true) → checksum m ≠ checksum m' := by
  refine ⟨fun m bound => ⟨?_, ?_⟩, fun m m' length small differ kind => ?_⟩
  · exact checksum_remainder (by omega)
  · exact checksum_self (by omega)
  · exact checksum_ne length small differ kind

example : checksum [0x31, 0x32, 0x33, 0x34, 0x35, 0x36, 0x37, 0x38, 0x39] = 0x29B1 := by
  decide +kernel

/-- A message of two bytes, and a string that differs from it in one bit. -/
theorem calculateCrc16_polynomial_pair :
    registerPoly (checksum [0x12, 0x34]) =
        bitPoly (invertFirst 16 (wordBits ([0x12, 0x34] : List Byte) ++ List.replicate 16 false)) %ₘ
          (X ^ 16 + X ^ 12 + X ^ 5 + 1) ∧
      checksum ([0x12, 0x34] ++ crcBytes (checksum [0x12, 0x34])) = 0 ∧
      checksum [0x12, 0x34] ≠ checksum [0x12, 0x35] := by
  obtain ⟨remainder, self⟩ := calculateCrc16_polynomial.1 [0x12, 0x34] (by decide)
  refine ⟨remainder, self, calculateCrc16_polynomial.2 _ _ rfl (by decide) (by decide) ?_⟩
  exact .inr (by decide)

end BmsFirmware.Registers.Checksum
