/- Module: BmsFirmware/Upgrade/FirmwareCrc
   Source: application/primary/main.c, application/upgrade/boot.c, gd32f30x_crc.c
   Digest: Which words of the flash the checksum of the application depends on. -/

import BmsFirmware.Library.Crc
import BmsFirmware.Upgrade.Boot

set_option autoImplicit false
set_option relaxedAutoImplicit false

namespace BmsFirmware.Upgrade.FirmwareCrc

open BmsFirmware.Library.ByteMemory
open BmsFirmware.Library.Crc
open BmsFirmware.Flash.Controller
open BmsFirmware.Upgrade.Boot

/-- The CRC unit: the data register after a reset, and after a word has been written to it. -/
structure CrcUnit where
  reset : Word
  fold : Word → Word → Word
  injective : InjectiveStep fold

/-- The unit of the GD32F303. -/
def gd32Crc : CrcUnit where
  reset := 0xFFFFFFFF
  fold := shiftIn 0x04C11DB7
  injective := shiftIn_injective (by decide)

section Checksum

variable (unit : CrcUnit)

def crcDataRegisterReset : Word := unit.reset

/-- `crc_block_data_calculate`; `size` counts the words of the array. -/
def crcBlockDataCalculate (flash : Memory) (array size : Word) (data : Word) : Word :=
  foldFirst unit.fold size.toNat
    (fun index => wordAt flash (array + 4 * BitVec.ofNat 32 index).toNat) data

/-- The checksum from an address on, as both programs compute it. -/
def verifyFirmwareAt (flash : Memory) (address : Word) : Word :=
  let data := crcDataRegisterReset unit
  let currentBlockNumber : Word := 25
  let pageSize : Word := 2048
  crcBlockDataCalculate unit flash address (currentBlockNumber * pageSize) data

/-- `application_address` of `main.c`. -/
def applicationAddress : Word := 0x08008000

/-- `verify_firmware` of the application. -/
def applicationVerifyFirmware (flash : Memory) : Word :=
  verifyFirmwareAt unit flash applicationAddress

/-- `verify_firmware` of the bootloader, which reads from `app_address` on. -/
def bootVerifyFirmware (b : Board) : Word := verifyFirmwareAt unit b.flash b.appAddress

end Checksum

/-! ### Footprints -/

/-- Word `k` of the flash from the application's first page on. -/
def appWord (m : Memory) (k : Nat) : Word := wordAt m (applicationAddress.toNat + 4 * k)

/-- The number of words in the pages the checksum is meant for. -/
def intendedWords : Nat := 25 * 2048 / 4

/-- The two contents differ in word `k` and in no other of the first `n`. -/
structure OneDifference (n k : Nat) (m m' : Memory) : Prop where
  inside : k < n
  differ : appWord m k ≠ appWord m' k
  same : ∀ j < n, j ≠ k → appWord m j = appWord m' j

/-- A checksum covers exactly the first `n` words of the application, as far as two
contents of the flash can tell. -/
structure Covers (n : Nat) (checksum : Memory → Word) (m m' : Memory) : Prop where
  determined : (∀ k < n, appWord m k = appWord m' k) → checksum m = checksum m'
  sensitive : ∀ k, OneDifference n k m m' → checksum m ≠ checksum m'

/-- The two copies of `verify_firmware`. -/
inductive Copy where
  | application
  | bootloader

/-- The checksum of a flash, by either copy; the bootloader's from its variables' initial
values. -/
def Copy.verifyFirmware (unit : CrcUnit) : Copy → Memory → Word
  | .application, m => applicationVerifyFirmware unit m
  | .bootloader, m => bootVerifyFirmware unit (powerOn m)

section Results

variable (unit : CrcUnit) (copy : Copy) {m m' : Memory}

/-- The length handed to the unit is the number of bytes, taken as a number of words. -/
private theorem verifyFirmware_eq (m : Memory) :
    copy.verifyFirmware unit m =
      foldFirst unit.fold (4 * intendedWords) (appWord m) unit.reset := by
  have size : ((25 : Word) * 2048).toNat = 4 * intendedWords := by decide
  have value : verifyFirmwareAt unit m applicationAddress =
      foldFirst unit.fold (4 * intendedWords) (appWord m) unit.reset := by
    simp only [verifyFirmwareAt, crcBlockDataCalculate, size, crcDataRegisterReset]
    apply foldFirst_congr
    intro k bound
    have start : applicationAddress.toNat = 0x08008000 := rfl
    have total : intendedWords = 12800 := rfl
    rw [appWord]
    congr 1
    rw [BitVec.toNat_add, BitVec.toNat_mul, BitVec.toNat_ofNat, start]
    change (_ + 4 * _ % _) % _ = _
    omega
  cases copy with
  | application => exact value
  | bootloader => exact value

/-- What the checksum does cover: four times as many words. -/
theorem verifyFirmware_covers (m m' : Memory) :
    Covers (4 * intendedWords) (copy.verifyFirmware unit) m m' := by
  constructor
  · intro same
    rw [verifyFirmware_eq, verifyFirmware_eq]
    exact foldFirst_congr same
  · intro k one
    rw [verifyFirmware_eq, verifyFirmware_eq]
    exact foldFirst_ne unit.injective one.inside one.differ one.same

/-- Where the words behind the intended pages agree, the checksum covers these pages. -/
private theorem covers_of_tail
    (tail : ∀ k, intendedWords ≤ k → k < 4 * intendedWords → appWord m k = appWord m' k) :
    Covers intendedWords (copy.verifyFirmware unit) m m' := by
  have whole := verifyFirmware_covers unit copy m m'
  constructor
  · intro same
    apply whole.determined
    intro k bound
    by_cases early : k < intendedWords
    · exact same k early
    · exact tail k (by omega) bound
  · intro k one
    apply whole.sensitive k
    refine ⟨?_, one.differ, ?_⟩
    · have inside := one.inside
      omega
    · intro j bound other
      by_cases early : j < intendedWords
      · exact one.same j early other
      · exact tail j (by omega) bound

/-- A single difference behind the intended pages already changes the checksum. -/
private theorem not_covers {k : Nat} (behind : intendedWords ≤ k)
    (one : OneDifference (4 * intendedWords) k m m') :
    ¬Covers intendedWords (copy.verifyFirmware unit) m m' := by
  intro covers
  refine (verifyFirmware_covers unit copy m m').sensitive k one (covers.determined ?_)
  intro j early
  exact one.same j (by omega) (by omega)

end Results

/-- A flash with one word of the application replaced. -/
def withWord (m : Memory) (k : Nat) (w : Word) : Memory :=
  fill m (applicationAddress.toNat + 4 * k) 4 (wordBytes w)

theorem appWord_withWord (m : Memory) (k j : Nat) (w : Word) :
    appWord (withWord m k w) j = if j = k then w else appWord m j := by
  by_cases here : j = k
  · rw [if_pos here, here]
    exact wordAt_fill m _ w
  · rw [if_neg here]
    apply wordAt_congr
    intro i low
    exact fill_outside (by omega)

private theorem oneDifference_withWord (m : Memory) {n k : Nat} (inside : k < n) :
    OneDifference n k m (withWord m k (appWord m k + 1)) := by
  refine ⟨inside, ?_, ?_⟩
  · rw [appWord_withWord, if_pos rfl]
    intro same
    have one := BitVec.add_right_eq_self.mp same.symm
    exact absurd one (by decide)
  · intro j _ other
    rw [appWord_withWord, if_neg other]

/-- A word of the 75 pages behind the intended ones. -/
def Behind (k : Nat) : Prop := intendedWords ≤ k ∧ k < 4 * intendedWords

/-- Two contents that differ in a single word of the flash: the checksum covers the intended
pages unless the word lies behind them. -/
private theorem covers_single_iff (unit : CrcUnit) (copy : Copy) {m m' : Memory} {k : Nat}
    (differ : appWord m k ≠ appWord m' k) (same : ∀ j ≠ k, appWord m j = appWord m' j) :
    Covers intendedWords (copy.verifyFirmware unit) m m' ↔ ¬Behind k := by
  constructor
  · intro covers behind
    exact not_covers unit copy behind.1 ⟨behind.2, differ, fun j _ => same j⟩ covers
  · intro notBehind
    apply covers_of_tail unit copy
    intro j behind inside
    apply same j
    intro here
    exact notBehind (here ▸ ⟨behind, inside⟩)

/-- All contents that agree on a set of words: the checksum covers the intended pages
exactly when the set contains every word behind them. -/
private theorem covers_fixed_iff (unit : CrcUnit) (copy : Copy) (fixed : Nat → Prop) :
    (∀ m m' : Memory, (∀ k, fixed k → appWord m k = appWord m' k) →
        Covers intendedWords (copy.verifyFirmware unit) m m') ↔ ∀ k, Behind k → fixed k := by
  constructor
  · intro covers k behind
    by_contra free
    have one := oneDifference_withWord (fun _ => 0) behind.2
    refine not_covers unit copy behind.1 one (covers _ _ ?_)
    intro j held
    have other : j ≠ k := fun here => free (here ▸ held)
    rw [appWord_withWord, if_neg other]
  · intro tail m m' agree
    exact covers_of_tail unit copy fun k behind inside => agree k (tail k ⟨behind, inside⟩)

/-- The checksum covers exactly its 25 pages as long as the 75 pages behind them stay as
they are, whether one word is compared or all contents that agree on some words. -/
theorem verifyFirmware_covers_iff (unit : CrcUnit) (copy : Copy) :
    (∀ (m m' : Memory) (k : Nat), appWord m k ≠ appWord m' k →
        (∀ j ≠ k, appWord m j = appWord m' j) →
        (Covers intendedWords (copy.verifyFirmware unit) m m' ↔ ¬Behind k)) ∧
      ∀ fixed : Nat → Prop,
        (∀ m m' : Memory, (∀ k, fixed k → appWord m k = appWord m' k) →
          Covers intendedWords (copy.verifyFirmware unit) m m') ↔ ∀ k, Behind k → fixed k :=
  ⟨fun _ _ _ differ same => covers_single_iff unit copy differ same,
    covers_fixed_iff unit copy⟩

/-- Both copies see a word changed in the first page behind the 25. -/
theorem verifyFirmware_seesNextPage :
    ¬Covers intendedWords (Copy.application.verifyFirmware gd32Crc) (fun _ => 0xFF)
        (withWord (fun _ => 0xFF) 12800 0) ∧
      ¬Covers intendedWords (Copy.bootloader.verifyFirmware gd32Crc) (fun _ => 0xFF)
        (withWord (fun _ => 0xFF) 12800 0) := by
  have one : OneDifference (4 * intendedWords) 12800 (fun _ => 0xFF)
      (withWord (fun _ => 0xFF) 12800 0) := by
    refine ⟨by decide, ?_, ?_⟩
    · rw [appWord_withWord, if_pos rfl, appWord, wordAt_ones]
      decide
    · intro j _ other
      rw [appWord_withWord, if_neg other]
  exact ⟨not_covers gd32Crc .application (by decide) one,
    not_covers gd32Crc .bootloader (by decide) one⟩

end BmsFirmware.Upgrade.FirmwareCrc
