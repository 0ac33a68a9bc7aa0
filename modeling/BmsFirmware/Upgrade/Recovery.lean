/- Module: BmsFirmware/Upgrade/Recovery
   Source: application/upgrade/boot.c, ldscripts/gd32f303_app_flash.ld
   Digest: Recovery restores the region exactly where the pages behind the backup agree. -/

import BmsFirmware.Upgrade.FirmwareImage

set_option autoImplicit false
set_option relaxedAutoImplicit false

namespace BmsFirmware.Upgrade.Recovery

open BmsFirmware.Library.ByteMemory
open BmsFirmware.Library.PowerLogic
open BmsFirmware.Flash.Controller
open BmsFirmware.Flash.Systick
open BmsFirmware.Flash.PageImage
open BmsFirmware.Upgrade.Boot
open BmsFirmware.Upgrade.BlockWriter
open BmsFirmware.Upgrade.BlockLoop
open BmsFirmware.Upgrade.FirmwareImage

/-- The end of the application region of the flash map, 112 pages from its start. -/
def regionEnd : Nat := 0x08040000

/-- The byte that `k` operations of a firmware write leave at offset `o`: on a page that
has been begun, the payload up to the last programmed word and erased bytes behind it. -/
def writtenByte (payload : Memory) (k o : Nat) : Byte :=
  if o % pageSize < 4 * (k - 513 * (o / pageSize) - 1) then payload o else 0xFF

/-- A flash on which `k` operations of an `n`-block firmware write have been done. -/
def programmedPrefix (m payload : Memory) (n k : Nat) : Memory := fun x =>
  if appAddress.toNat ≤ x ∧ x - appAddress.toNat < pageSize * n ∧
      513 * ((x - appAddress.toNat) / pageSize) < k then
    writtenByte payload k (x - appAddress.toNat)
  else m x

private theorem installed_eq (m payload : Memory) {n k : Nat} (all : 513 * n ≤ k) :
    installed m payload n = programmedPrefix m payload n k := by
  funext x
  simp only [installed, fill, programmedPrefix, writtenByte]
  generalize appAddress.toNat = a
  unfold pageSize
  split_ifs <;> first | rfl | omega

private theorem partialPage_eq (m payload : Memory) {n j k : Nat} (block : j < n)
    (within : k < 513) :
    partialPage (installed m payload j) (appAddress.toNat + pageSize * j)
      (fun o => payload (pageSize * j + o)) k = programmedPrefix m payload n (513 * j + k) := by
  funext x
  cases k with
  | zero =>
    simp only [partialPage, installed, fill, programmedPrefix, writtenByte]
    generalize appAddress.toNat = a
    unfold pageSize
    split_ifs <;> first | rfl | omega
  | succ k =>
    have place (a : Nat) (low : a + 2048 * j ≤ x) :
        2048 * j + (x - (a + 2048 * j)) = x - a := by omega
    simp only [partialPage, installed, fill, programmedPrefix, writtenByte]
    generalize appAddress.toNat = a
    unfold pageSize
    split_ifs <;> first | rfl | omega | (rw [place a (by omega)])

section Scenario

variable (uart : Nat → Byte) (k : Nat) (flash : Memory)

/-- The board after the backup of an image. -/
def backedUp : Board := (upgradeBackup (.flawless uart) (powerOn flash)).state

/-- The board after `k` operations of the block programming that follows. -/
def programmed : Board :=
  (upgradeRun ((Environment.poweredFor uart k).startingAt (backedUp uart flash))
    (backedUp uart flash)).state

/-- The flash after a later boot has run the recovery. -/
def recovered : Memory :=
  (upgradeApplicationRecover (.flawless uart) (powerOn (programmed uart k flash).flash)).state.flash

/-- The whole application region is as it was before the upgrade. -/
def Undone : Prop := ∀ x, appAddress.toNat ≤ x → x < regionEnd → recovered uart k flash x = flash x

/-- Behind the copied pages the programmed part of the firmware equals the old image. -/
def TailKept : Prop :=
  ∀ o, copySize ≤ o → o < pageSize * announcedBlocks uart → 513 * (o / pageSize) < k →
    writtenByte (sentFirmware uart) k o = flash (appAddress.toNat + o)

end Scenario

section Results

variable {env : Environment} {b : Board}

private theorem backup_image (ok : env.Succeeds) (power : ∀ i, env.power i = true)
    (initial : b.appAddress = appAddress) :
    (upgradeBackup env b).state.flash =
        copied b.flash appAddress backupAddress currentBlockNumber ∧
      (upgradeBackup env b).state.appAddress = appAddress := by
  refine ((upgradeBackup_sat ok initial).mono (fun _ _ h => ⟨h.1, h.2.1⟩)
    fun _ h => h).returned (P := fun s : Board =>
      s.flash = copied b.flash appAddress backupAddress currentBlockNumber ∧
        s.appAddress = appAddress) ?_
  rintro s ⟨-, i, -, lost⟩
  exact Environment.lasting power _ lost

private theorem recover_image (ok : env.Succeeds) (power : ∀ i, env.power i = true)
    (initial : b.appAddress = appAddress) :
    (upgradeApplicationRecover env b).state.flash =
      copied b.flash backupAddress appAddress currentBlockNumber := by
  refine (upgradeApplicationRecover_sat ok initial).returned (P := fun s : Board =>
    s.flash = copied b.flash backupAddress appAddress currentBlockNumber) ?_
  rintro s ⟨-, i, -, lost⟩
  exact Environment.lasting power _ lost

/-- Power for `k` operations leaves exactly the `k`-prefix of the firmware write. -/
private theorem run_image (ok : env.Succeeds) (initial : b.appAddress = appAddress)
    (few : announcedBlocks env.uart ≤ wrapBlock) {k : Nat}
    (power : ∀ i, env.power i = decide (i < k)) :
    (upgradeRun (env.startingAt b) b).state.flash =
      programmedPrefix b.flash (sentFirmware env.uart) (announcedBlocks env.uart) k := by
  obtain ⟨count, payload⟩ := hosted (arriving_startingAt env b)
  have numbered (i : Nat) : (env.startingAt b).power (b.clock + i) = decide (i < k) := by
    rw [← power i]
    simp [Environment.startingAt]
  have h := upgradeRun_installs (env.startingAt b)
    ⟨fun i => ok.answer _, fun i => ok.malloc _⟩ initial (by rwa [count])
  rw [count] at h
  refine (h.mono ?_ ?_).stopped (P := fun s : Board => s.flash =
    programmedPrefix b.flash (sentFirmware env.uart) (announcedBlocks env.uart) k)
  · intro _ s done
    rw [done.flash, payload]
    refine installed_eq _ _ ?_
    by_contra short
    have last := done.powered k (by omega)
    rw [numbered] at last
    exact absurd (of_decide_eq_true last) (Nat.lt_irrefl k)
  · rintro s ⟨j, i, cut⟩
    have reached : 513 * j + i = k := by
      have lost := cut.lost
      rw [numbered] at lost
      have most := of_decide_eq_false lost
      by_contra other
      have last := cut.powered k (by omega)
      rw [numbered] at last
      exact absurd (of_decide_eq_true last) (Nat.lt_irrefl k)
    rw [cut.flash, payload, partialPage_eq _ _ cut.block cut.within, reached]

end Results

section Region

variable {uart : Nat → Byte} {k : Nat} {flash : Memory}

variable (uart flash) in
private theorem backedUp_image :
    (backedUp uart flash).flash = copied flash appAddress backupAddress currentBlockNumber ∧
      (backedUp uart flash).appAddress = appAddress := by
  unfold backedUp
  exact backup_image (Environment.flawless_succeeds uart) (fun _ => rfl) rfl

private theorem programmed_image (few : announcedBlocks uart ≤ 112) :
    (programmed uart k flash).flash =
      programmedPrefix (copied flash appAddress backupAddress currentBlockNumber)
        (sentFirmware uart) (announcedBlocks uart) k := by
  obtain ⟨image, initial⟩ := backedUp_image uart flash
  have small : announcedBlocks (Environment.poweredFor uart k).uart ≤ wrapBlock := by
    unfold wrapBlock
    exact Nat.le_trans few (by omega)
  rw [← image]
  exact run_image (Environment.poweredFor_succeeds uart k) initial small fun _ => rfl

private theorem recovered_image (few : announcedBlocks uart ≤ 112) :
    recovered uart k flash =
      copied (programmedPrefix (copied flash appAddress backupAddress currentBlockNumber)
        (sentFirmware uart) (announcedBlocks uart) k) backupAddress appAddress
        currentBlockNumber := by
  rw [recovered, recover_image (Environment.flawless_succeeds uart) (fun _ => rfl) rfl,
    powerOn_flash, programmed_image few]

/-- What recovery leaves in the region: the old image in the copied pages, and the
programmed prefix behind them. -/
private theorem recovered_region (few : announcedBlocks uart ≤ 112) {x : Nat}
    (low : appAddress.toNat ≤ x) (high : x < regionEnd) :
    recovered uart k flash x =
      if x < appAddress.toNat + copySize then flash x
      else programmedPrefix flash (sentFirmware uart) (announcedBlocks uart) k x := by
  have place : appAddress.toNat + (backupAddress.toNat + (x - appAddress.toNat) -
      backupAddress.toNat) = x := by omega
  have base : appAddress.toNat = 0x08008000 := rfl
  have bank : backupAddress.toNat = 0x08040000 := rfl
  rw [recovered_image few]
  change fill _ _ copySize _ x = _
  by_cases front : x < appAddress.toNat + copySize
  · rw [if_pos front, fill_inside low front]
    unfold copySize pageSize currentBlockNumber at front
    rw [programmedPrefix, if_neg (by rw [base, bank]; unfold pageSize; omega), copied,
      fill_inside (by omega) (by unfold pageSize currentBlockNumber; omega), place]
  · rw [if_neg front, fill_outside (Or.inr (Nat.le_of_not_lt front))]
    simp only [programmedPrefix]
    rw [copied, fill_outside (Or.inl (by rw [bank]; exact high))]

/-- Recovery undoes the upgrade exactly when the programmed part of the firmware has put
behind the 25 copied pages only bytes that were there before. -/
theorem recovered_undone_iff (few : announcedBlocks uart ≤ 112) :
    Undone uart k flash ↔ TailKept uart k flash := by
  have base : appAddress.toNat = 0x08008000 := rfl
  constructor
  · intro undone o behind within begun
    have inside : appAddress.toNat + o < regionEnd := by
      unfold regionEnd
      unfold pageSize at within
      omega
    have kept := undone (appAddress.toNat + o) (Nat.le_add_right _ _) inside
    rw [recovered_region few (Nat.le_add_right _ _) inside, if_neg (by omega), programmedPrefix,
      Nat.add_sub_cancel_left, if_pos ⟨Nat.le_add_right _ _, within, begun⟩] at kept
    exact kept
  · intro tail x low high
    rw [recovered_region few low high]
    by_cases front : x < appAddress.toNat + copySize
    · rw [if_pos front]
    · rw [if_neg front, programmedPrefix]
      split_ifs with touched
      · have kept := tail (x - appAddress.toNat) (by omega) touched.2.1 touched.2.2
        rwa [Nat.add_sub_cancel' low] at kept
      · rfl

theorem recovered_undone_three :
    Undone (ofList [0, 0, 0, 3]) 600 fun _ => 0 :=
  (recovered_undone_iff (by decide)).mpr fun o behind within => by
    have count : announcedBlocks (ofList [0, 0, 0, 3]) = 3 := by decide
    rw [count] at within
    unfold copySize currentBlockNumber pageSize at *
    omega

/-- The erase of a 26th page is never undone. -/
theorem recovered_loses_page :
    ¬Undone (ofList [0, 0, 0, 26]) (513 * 25 + 1) fun _ => 0 := by
  intro undone
  have count : announcedBlocks (ofList [0, 0, 0, 26]) = 26 := by decide
  have kept := undone (appAddress.toNat + copySize) (by decide) (by decide)
  rw [recovered_region (by rw [count]; omega) (by decide) (by decide),
    if_neg (Nat.lt_irrefl _), programmedPrefix, count, if_pos (by decide)] at kept
  exact absurd kept (by decide)

end Region

end BmsFirmware.Upgrade.Recovery
