/- Module: BmsFirmware/Fal/VerifiedPort
   Source: application/fal/src/fal_port.c, application/flashdb/inc/fdb_cfg.h
   Digest: What the port's return values say about the flash, and what it never touches. -/

import BmsFirmware.Fal.FalPort
import BmsFirmware.Flash.FirstFailure
import BmsFirmware.Upgrade.Boot

set_option autoImplicit false
set_option relaxedAutoImplicit false

namespace BmsFirmware.Fal.VerifiedPort

open BmsFirmware.Library.ByteMemory
open BmsFirmware.Library.PowerLogic
open BmsFirmware.Flash.Controller
open BmsFirmware.Flash.Systick
open BmsFirmware.Flash.PageImage
open BmsFirmware.Flash.FirstFailure
open BmsFirmware.Fal.FalPort
open BmsFirmware.Upgrade.Boot

/-! ### Ranges of the device -/

/-- A range of whole words inside the device, the granularity of `FDB_WRITE_GRAN`. -/
structure WordRange (offset size : Word) : Prop where
  aligned : offset.toNat % 4 = 0
  whole : size.toNat % 4 = 0
  inside : offset.toNat + size.toNat ≤ deviceLen.toNat

/-- A range inside the device that begins with a page. -/
structure PageRange (offset size : Word) : Prop where
  aligned : offset.toNat % pageSize = 0
  inside : offset.toNat + size.toNat ≤ deviceLen.toNat

/-- Where a range begins in the flash. -/
def rangeStart (offset : Word) : Nat := deviceAddr.toNat + offset.toNat

/-- Every byte outside `len` bytes from `start` on is unchanged. -/
def ChangesOnly (start len : Nat) (b s : Board) : Prop :=
  ∀ x, x < start ∨ start + len ≤ x → s.flash x = b.flash x

/-- Power has gone at some operation; otherwise the port returns. -/
def PowerLost (env : Environment) : Prop := ∃ k, env.power k = false

/-- What the value returned by `write` says: the range reads back as the buffer, or the
words before the one whose operation was the last hold theirs. -/
structure VerifiedWrite (offset size : Word) (buf : Memory) (b : Board) (r : Int) (s : Board) :
    Prop where
  reported : r = size.toInt ∨ r = -1
  readsBack : r = size.toInt →
    read offset size s = .done (size.toInt, (List.range size.toNat).map buf) s
  stopped : r = -1 → ∃ k, s.clock = b.clock + k + 1 ∧ 4 * k < size.toNat ∧
    ∀ i < k, wordAt s.flash (rangeStart offset + 4 * i) = wordAt buf (4 * i)
  frame : ChangesOnly (rangeStart offset) size.toNat b s

/-- What the value returned by `erase` says. -/
structure VerifiedErase (offset size : Word) (b : Board) (r : Int) (s : Board) : Prop where
  reported : r = size.toInt ∨ r = -1
  erased : r = size.toInt → ∀ i < size.toNat, s.flash (rangeStart offset + i) = 0xFF
  frame : ChangesOnly (rangeStart offset) (pageSize * ((size.toNat + 2047) / 2048)) b s

section Ranges

variable {offset size : Word}

private theorem range_place (inside : offset.toNat + size.toNat ≤ deviceLen.toNat) :
    (deviceAddr + offset).toNat = rangeStart offset ∧
      rangeStart offset + size.toNat ≤ 0x0807F000 := by
  have device : deviceAddr.toNat = 0x08040000 := rfl
  have length : deviceLen.toNat = 258048 := rfl
  unfold rangeStart
  rw [BitVec.toNat_add]
  omega

/-- A size inside the device is no failure code. -/
private theorem size_ne_failure (inside : offset.toNat + size.toNat ≤ deviceLen.toNat) :
    size.toInt ≠ -1 := by
  have length : deviceLen.toNat = 258048 := rfl
  rw [BitVec.toInt_eq_toNat_of_lt (by omega)]
  omega

/-! ### Writing -/

/-- A byte of a filled range, as `read` takes it. -/
private theorem read_filled {b : Board} {m buf : Memory} (range : WordRange offset size)
    (flash : b.flash = fill m (rangeStart offset) size.toNat buf) :
    read offset size b = .done (size.toInt, (List.range size.toNat).map buf) b := by
  obtain ⟨place, room⟩ := range_place range.inside
  simp only [FalPort.read, get_bind, pure_apply]
  congr 2
  apply List.map_congr_left
  intro i listed
  have bound := List.mem_range.mp listed
  have address : (deviceAddr + offset + BitVec.ofNat 32 i).toNat = rangeStart offset + i := by
    rw [BitVec.toNat_add, place, BitVec.toNat_ofNat]
    omega
  rw [address, flash, fill_inside (by omega) (by omega), Nat.add_sub_cancel_left]

/-- A whole number of words is not rounded up. -/
private theorem writtenWords_whole (range : WordRange offset size) :
    4 * writtenWords size = size.toNat := by
  have whole := range.whole
  unfold writtenWords
  omega

private theorem write_verified (env : Environment) (range : WordRange offset size) (buf : Memory)
    (b : Board) :
    (write env offset buf size b).Sat (VerifiedWrite offset size buf b)
      (fun s => ChangesOnly (rangeStart offset) size.toNat b s ∧ PowerLost env) := by
  obtain ⟨place, room⟩ := range_place range.inside
  have exact := writtenWords_whole range
  have failure := size_ne_failure range.inside
  refine (write_returns env buf (by omega) (by omega) b).mono ?_ ?_
  · intro r s ends
    rcases ends with ⟨rfl, written⟩ | ⟨rfl, k, inside, stopped, -⟩
    · have flash := written.flash
      rw [place, exact] at flash
      refine ⟨Or.inl rfl, fun _ => read_filled range flash, fun failed => absurd failed failure, ?_⟩
      intro x away
      rw [flash, fill_outside away]
    · have flash := stopped.flash
      rw [place] at flash
      refine ⟨Or.inr rfl, fun whole => absurd whole.symm failure, fun _ => ?_, ?_⟩
      · refine ⟨k, stopped.clock, by omega, ?_⟩
        intro i before
        have held (j : Nat) (low : j < 4) :
            s.flash (rangeStart offset + 4 * i + j) = buf (4 * i + j) := by
          rw [flash _ (by omega), fill_inside (by omega) (by omega)]
          congr 1
          omega
        exact wordAt_same held
      · intro x away
        rw [flash x (by omega), fill_outside (by omega)]
  · intro s lost
    obtain ⟨k, inside, written, power⟩ := lost
    refine ⟨?_, _, power⟩
    intro x away
    rw [written.flash, place, fill_outside (by omega)]

/-! ### Erasing -/

/-- The pages of a range are the addressed ones. -/
private theorem erase_place (range : PageRange offset size) :
    (deviceAddr + offset).toNat / pageSize * pageSize = rangeStart offset ∧
      (deviceAddr + offset).toNat + pageSize * (erasePages size).toNat ≤ 2 ^ 32 := by
  obtain ⟨place, room⟩ := range_place range.inside
  have aligned := range.aligned
  have device : deviceAddr.toNat = 0x08040000 := rfl
  rw [place, erasePages_toNat]
  unfold rangeStart pageSize at *
  omega

/-- Erases issued so far stay inside the pages of the range. -/
private theorem erase_frame {env : Environment} {b s : Board} (range : PageRange offset size)
    (begun : Begun env b (eraseOps (deviceAddr + offset) (erasePages size).toNat) s) :
    ChangesOnly (rangeStart offset) (pageSize * ((size.toNat + 2047) / 2048)) b s := by
  obtain ⟨place, room⟩ := erase_place range
  obtain ⟨done, initial, -, flash⟩ := begun
  rw [← erasePages_toNat]
  intro x away
  rw [flash]
  apply replay_outside
  intro op issued
  obtain ⟨i, listed, rfl⟩ := List.mem_map.mp (initial.subset issued)
  have bound := List.mem_range.mp listed
  rw [erase_first room bound, Nat.add_mul, place]
  change x < _ ∨ _ + pageSize ≤ x
  unfold pageSize at *
  omega

private theorem erase_verified {env : Environment} (honest : Honest env)
    (range : PageRange offset size) (b : Board) :
    (erase env offset size b).Sat (VerifiedErase offset size b)
      (fun s => ChangesOnly (rangeStart offset) (pageSize * ((size.toNat + 2047) / 2048)) b s ∧
        PowerLost env) := by
  obtain ⟨place, room⟩ := erase_place range
  have failure := size_ne_failure range.inside
  have run := (guarded_sat env (eraseOps (deviceAddr + offset) (erasePages size).toNat) b).and
    (guarded_begun env (eraseOps (deviceAddr + offset) (erasePages size).toNat) b)
  rw [erase_eq, bind_apply]
  cases result : guarded env (eraseOps (deviceAddr + offset) (erasePages size).toNat) b with
  | cut s =>
    rw [result] at run
    obtain ⟨⟨t, ⟨k, -, -, -, power⟩, -⟩, begun⟩ := run
    exact ⟨erase_frame range begun, _, power⟩
  | done st s =>
    rw [result] at run
    obtain ⟨⟨t, ended, rfl⟩, begun⟩ := run
    have frame := erase_frame range begun
    rcases ended with ⟨rfl, rfl, smooth⟩ | ⟨k, -, bad, -, -, -, -⟩
    · refine ⟨Or.inl rfl, fun _ => ?_, frame⟩
      intro i inside
      have flash := honest.replay (c := b.clock) (m := b.flash) fun k low => (smooth k low).2
      rw [eraseOps_apply room b.flash _ (Nat.le_refl _), place] at flash
      change env.replay b.clock _ b.flash _ = _
      rw [flash, fill_inside (by omega)]
      rw [erasePages_toNat]
      unfold pageSize
      omega
    · dsimp only
      rw [if_neg bad]
      exact ⟨Or.inr rfl, fun whole => absurd whole.symm failure, frame⟩

end Ranges

/-- Both operations of the port are verified: from every board, under every outcome, a
write of whole words and an erase from a page on keep what their return values say. -/
theorem port_verified (env : Environment) (b : Board) :
    (∀ (offset size : Word) (buf : Memory), WordRange offset size →
      (write env offset buf size b).Sat (VerifiedWrite offset size buf b)
        (fun s => ChangesOnly (rangeStart offset) size.toNat b s ∧ PowerLost env)) ∧
    (Honest env → ∀ offset size : Word, PageRange offset size →
      (erase env offset size b).Sat (VerifiedErase offset size b)
        (fun s => ChangesOnly (rangeStart offset) (pageSize * ((size.toNat + 2047) / 2048)) b s ∧
          PowerLost env)) :=
  ⟨fun _ _ buf range => write_verified env range buf b,
    fun honest _ _ range => erase_verified honest range b⟩

/-- Two words at the start of the device, and an erase of 1000 bytes of its last page. -/
theorem port_verified_ends :
    (write (.flawless fun _ => 0) 0 (fun _ => 0x5A) 8 (powerOn fun _ => 0xFF)).Sat
        (VerifiedWrite 0 8 (fun _ => 0x5A) (powerOn fun _ => 0xFF))
        (fun s => ChangesOnly (rangeStart 0) 8 (powerOn fun _ => 0xFF) s ∧
          PowerLost (.flawless fun _ => 0)) ∧
      (erase (.flawless fun _ => 0) 256000 1000 (powerOn fun _ => 0)).Sat
        (VerifiedErase 256000 1000 (powerOn fun _ => 0))
        (fun s => ChangesOnly (rangeStart 256000) 2048 (powerOn fun _ => 0) s ∧
          PowerLost (.flawless fun _ => 0)) :=
  ⟨(port_verified (.flawless fun _ => 0) (powerOn fun _ => 0xFF)).1 0 8 (fun _ => 0x5A)
      ⟨rfl, rfl, by decide⟩,
    (port_verified (.flawless fun _ => 0) (powerOn fun _ => 0)).2 (fun _ _ => rfl) 256000 1000
      ⟨rfl, by decide⟩⟩

end BmsFirmware.Fal.VerifiedPort
