/- Module: BmsFirmware/Upgrade/FirmwareImage
   Source: application/upgrade/boot.c
   Digest: The flash that copying and block programming leave, completed or cut. -/

import BmsFirmware.Upgrade.BlockLoop

set_option autoImplicit false
set_option relaxedAutoImplicit false

namespace BmsFirmware.Upgrade.FirmwareImage

open BmsFirmware.Library.ByteMemory
open BmsFirmware.Library.PowerLogic
open BmsFirmware.Flash.Controller
open BmsFirmware.Flash.Systick
open BmsFirmware.Flash.PageImage
open BmsFirmware.Upgrade.Boot
open BmsFirmware.Upgrade.BlockWriter
open BmsFirmware.Upgrade.BlockLoop

/-- The bytes that backup and recovery copy. -/
def copySize : Nat := pageSize * currentBlockNumber

/-! ### Copying -/

/-- A flash whose first `i` pages from `src` have been copied to `dst`. -/
def copied (m : Memory) (src dst : Word) (i : Nat) : Memory :=
  fill m dst.toNat (pageSize * i) fun o => m (src.toNat + o)

/-- Two regions of copied size that do not meet, the second a sequence of whole pages. -/
structure Separate (src dst : Word) : Prop where
  aligned : PageAligned dst
  room : dst.toNat + copySize ≤ 2 ^ 32
  apart : src.toNat + copySize ≤ dst.toNat ∨ dst.toNat + copySize ≤ src.toNat

theorem backup_separate : Separate appAddress backupAddress := by
  refine ⟨by decide, by decide, ?_⟩
  decide

theorem recover_separate : Separate backupAddress appAddress := by
  refine ⟨by decide, by decide, ?_⟩
  decide

section Copy

variable {src dst : Word}

private theorem Separate.page (h : Separate src dst) {i : Nat} (bound : i < currentBlockNumber) :
    (dst + BitVec.ofNat 32 (i * pageSize)).toNat = dst.toNat + pageSize * i := by
  have room := h.room
  unfold copySize currentBlockNumber pageSize at *
  rw [BitVec.toNat_add, BitVec.toNat_ofNat]
  omega

private theorem Separate.page_aligned (h : Separate src dst) {i : Nat}
    (bound : i < currentBlockNumber) : PageAligned (dst + BitVec.ofNat 32 (i * pageSize)) := by
  have aligned := h.aligned
  unfold PageAligned at *
  rw [h.page bound]
  unfold pageSize at *
  omega

/-- The source of a copy is not disturbed by it. -/
private theorem copyPage_copied (h : Separate src dst) (m : Memory) {i : Nat}
    (bound : i < currentBlockNumber) {k : Nat} (inside : k < pageSize) :
    copyPage (copied m src dst i) src i k = m (src.toNat + (pageSize * i + k)) := by
  have apart := h.apart
  unfold copySize currentBlockNumber pageSize at *
  unfold copyPage copied pageSize
  rw [fill_outside (by omega)]
  congr 1
  omega

private theorem copied_succ (h : Separate src dst) (m : Memory) {i : Nat}
    (bound : i < currentBlockNumber) :
    fill (copied m src dst i) (dst + BitVec.ofNat 32 (i * pageSize)).toNat pageSize
        (copyPage (copied m src dst i) src i) = copied m src dst (i + 1) := by
  rw [h.page bound]
  change _ = fill m dst.toNat (pageSize * i + pageSize) _
  exact fill_extend m dst.toNat (pageSize * i) pageSize _ _ fun k hk =>
    copyPage_copied h m bound hk

/-- What a copy has done after `i` pages. -/
structure CopiedSoFar (b : Board) (src dst : Word) (i : Nat) (s : Board) : Prop where
  flash : s.flash = copied b.flash src dst i
  clock : s.clock = b.clock + 513 * i
  rest : FlashOnly b s

/-- A copy cut by a power loss has touched nothing outside its destination; power went at one
of its operations. -/
structure CopyCut (env : Environment) (b : Board) (dst : Word) (s : Board) : Prop where
  outside : ∀ x, x < dst.toNat ∨ dst.toNat + copySize ≤ x → s.flash x = b.flash x
  lost : ∃ k < 513 * currentBlockNumber, env.power (b.clock + k) = false

theorem copyPages_sat {env : Environment} (ok : env.Succeeds) (h : Separate src dst)
    (b : Board) :
    (copyPages env src dst b).Sat
      (fun _ s => CopiedSoFar b src dst currentBlockNumber s) (CopyCut env b dst) := by
  have start : CopiedSoFar b src dst 0 b := ⟨by simp [copied], rfl, rfl⟩
  refine Triple.forLoop (I := CopiedSoFar b src dst) ?_ (fun _ h => h) b start
  intro i bound s hs
  have aligned := h.page_aligned bound
  have page := h.page bound
  rw [get_bind, bind_apply]
  have written := upgradeWriteData_sat ok (dst + BitVec.ofNat 32 (i * pageSize))
    (copyPage s.flash src i) s
  cases run : upgradeWriteData env (copyPage s.flash src i)
      (dst + BitVec.ofNat 32 (i * pageSize)) s with
  | done code t =>
    rw [run] at written
    have image := written.2.page aligned
    refine ⟨?_, ?_, ?_⟩
    · rw [image, hs.flash]
      exact copied_succ h b.flash bound
    · have before : s.journal.length = b.clock + 513 * i := hs.clock
      rw [image, Board.clock, List.length_append, length_pageOps, before]
      omega
    · rw [image, hs.rest]
      rfl
  | cut t =>
    rw [run] at written
    obtain ⟨k, hk, flash, -, -, lost⟩ := written.page aligned
    rw [hs.clock, Nat.add_assoc] at lost
    refine ⟨?_, _, by omega, lost⟩
    intro x away
    unfold copySize currentBlockNumber at *
    rw [flash, partialPage_outside (by omega) (by rw [page]; unfold pageSize at *; omega),
      hs.flash, copied, fill_outside (by unfold pageSize at *; omega)]

end Copy

/-! ### Backup and recovery -/

theorem upgradeBackup_sat {env : Environment} (ok : env.Succeeds) {b : Board}
    (initial : b.appAddress = appAddress) :
    (upgradeBackup env b).Sat
      (fun _ s => s.flash = copied b.flash appAddress backupAddress currentBlockNumber ∧
        s.appAddress = appAddress ∧ s.received = b.received ∧
        s.clock = b.clock + 513 * currentBlockNumber) (CopyCut env b backupAddress) := by
  rw [upgradeBackup, malloc_bind, if_neg (by simp [ok.malloc]), get_bind]
  dsimp only
  rw [initial]
  refine ((copyPages_sat ok backup_separate _).thenReturn fun _ => ()).mono ?_
    fun _ h => ⟨h.outside, h.lost⟩
  intro _ s h
  refine ⟨h.flash, ?_, ?_, h.clock⟩
  · rw [h.rest]
  · rw [h.rest]

theorem upgradeApplicationRecover_sat {env : Environment} (ok : env.Succeeds) {b : Board}
    (initial : b.appAddress = appAddress) :
    (upgradeApplicationRecover env b).Sat
      (fun _ s => s.flash = copied b.flash backupAddress appAddress currentBlockNumber)
      (CopyCut env b appAddress) := by
  rw [upgradeApplicationRecover, malloc_bind, if_neg (by simp [ok.malloc]), get_bind]
  dsimp only
  rw [initial]
  exact ((copyPages_sat ok recover_separate _).thenReturn fun _ => ()).mono (fun _ _ h => h.flash)
    fun _ h => ⟨h.outside, h.lost⟩

/-! ### Block programming -/

/-- The number of blocks a host announces. -/
def announcedBlocks (uart : Nat → Byte) : Nat := (uint8ArrayToUint32 uart).toNat

/-- The firmware a host sends after the number. -/
def sentFirmware (uart : Nat → Byte) : Memory := fun o => uart (4 + o)

/-- The firmware the host sends, byte by byte. -/
def firmware (env : Environment) (e : Board) : Memory := arriving env (e.received + 4)

/-- The whole of `n` blocks has been programmed. -/
def installed (m : Memory) (payload : Memory) (n : Nat) : Memory :=
  fill m appAddress.toNat (pageSize * n) payload

/-- Programming was cut inside block `j`, after `k` operations of it. -/
structure RunCut (env : Environment) (e : Board) (n j k : Nat) (flash : Memory) : Prop where
  block : j < n
  within : k < 513
  flash : flash = partialPage (installed e.flash (firmware env e) j)
    (appAddress.toNat + pageSize * j) (fun o => firmware env e (pageSize * j + o)) k
  powered : Powered env e.clock (513 * j + k)
  lost : env.power (e.clock + (513 * j + k)) = false

private theorem blockData_firmware (env : Environment) (e : Board) (j : Nat) :
    blockData env (announced env e) j = fun o => firmware env e (pageSize * j + o) := by
  funext o
  simp [blockData, firmware, arriving, announced, Nat.add_assoc]

private theorem installed_succ (m payload : Memory) (j : Nat) :
    fill (installed m payload j) (appAddress.toNat + pageSize * j) pageSize
      (fun o => payload (pageSize * j + o)) = installed m payload (j + 1) := by
  change _ = fill m appAddress.toNat (pageSize * j + pageSize) payload
  exact fill_extend m appAddress.toNat (pageSize * j) pageSize payload _ fun _ _ => rfl

/-- What the run has done after `j` blocks. -/
structure RunSoFar (env : Environment) (e : Board) (j : Nat) (flash : Memory)
    (journal : List FlashOp) : Prop where
  flash : flash = installed e.flash (firmware env e) j
  clock : journal.length = e.clock + 513 * j
  powered : Powered env e.clock (513 * j)

/-- Where allocations and operations succeed, a run installs the firmware or is cut. -/
theorem upgradeRun_installs (env : Environment) (ok : env.Succeeds) {e : Board}
    (initial : e.appAddress = appAddress)
    (few : (blockCount env e.received).toNat ≤ wrapBlock) :
    (upgradeRun env e).Sat
      (fun _ s => RunSoFar env e (blockCount env e.received).toNat s.flash s.journal)
      (fun s => ∃ j k, RunCut env e (blockCount env e.received).toNat j k s.flash) := by
  have first : (announced env e).appAddress = appAddress := initial
  have whole := announced_aligned env initial
  refine upgradeRun_sat ((blockLoop_through env (announced env e) (K := RunSoFar env e)
    (C := fun flash _ => ∃ j k, RunCut env e (blockCount env e.received).toNat j k flash) whole
    (fun _ _ => ok.malloc _)
    ⟨by simp [installed, announced], rfl, fun i hi => by omega⟩ ?_).mono (fun _ _ h => h.1)
    fun _ h => h)
  intro j hj s hs
  have early : j < wrapBlock := Nat.lt_of_lt_of_le hj few
  have aligned := blockAddress_aligned whole j
  have address := blockAddress_toNat first (Nat.le_of_lt early)
  have clock : s.clock = e.clock + 513 * j := hs.clock
  rw [blockOps_before_wrap first early, blockData_firmware]
  refine (guarded_succeeds ok _ s).mono ?_ ?_
  · rintro _ t ⟨-, completed⟩
    have powered := completed.2
    have image := completed.page aligned
    rw [length_pageOps, clock] at powered
    rw [image]
    refine ⟨?_, ?_, hs.powered.append powered⟩
    · dsimp only
      rw [hs.flash, address, installed_succ]
    · dsimp only
      rw [List.length_append, hs.clock, length_pageOps]
      omega
  · intro t cut
    obtain ⟨k, hk, flash, -, powered, lost⟩ := cut.page aligned
    rw [clock] at powered lost
    refine ⟨j, k, hj, hk, ?_, hs.powered.append powered, ?_⟩
    · rw [flash, hs.flash, address]
    · rwa [← Nat.add_assoc]

/-- A run that finds the bytes of `uart` from its first receive on gets that host's
number and firmware. -/
theorem hosted {env : Environment} {b : Board} {uart : Nat → Byte}
    (stream : ∀ r, arriving env (b.received + r) = fun o => uart (r + o)) :
    (blockCount env b.received).toNat = announcedBlocks uart ∧
      firmware env b = sentFirmware uart := by
  have bytes := stream 0
  simp only [Nat.zero_add, Nat.add_zero] at bytes
  exact ⟨congrArg (fun m => (uint8ArrayToUint32 m).toNat) bytes, stream 4⟩

end BmsFirmware.Upgrade.FirmwareImage
