/- Module: BmsFirmware/Fal/Partitions
   Source: application/fal/src/fal_partition.c, application/fal/inc/fal_cfg.h
   Digest: Which partition accesses keep the bootloader's part of the flash. -/

import BmsFirmware.Fal.FalPort
import BmsFirmware.Upgrade.FirmwareImage

set_option autoImplicit false
set_option relaxedAutoImplicit false

namespace BmsFirmware.Fal.Partitions

open BmsFirmware.Library.ByteMemory
open BmsFirmware.Library.PowerLogic
open BmsFirmware.Flash.Controller
open BmsFirmware.Flash.Systick
open BmsFirmware.Flash.PageImage
open BmsFirmware.Fal.FalPort
open BmsFirmware.Upgrade.Boot
open BmsFirmware.Upgrade.FirmwareImage

/-! ### The FAL layer -/

/-- `struct fal_flash_dev`, with the operations that write. -/
structure FalFlashDev where
  name : String
  addr : Word
  len : Word
  write : Word → Memory → Word → Proc Board Int
  erase : Word → Word → Proc Board Int

structure FalPartition where
  name : String
  flashName : String
  offset : Word
  len : Word
  deriving DecidableEq

def FLASH_DEV_NAME : String := "gd32f303re_flash"

def gd32f303reFlash (env : Environment) : FalFlashDev where
  name := "gd32f303re_flash"
  addr := deviceAddr
  len := deviceLen
  write := write env
  erase := erase env

def FAL_PART_TABLE : List FalPartition :=
  [⟨"fdb_kvdb1", FLASH_DEV_NAME, 0, 126 * 1024⟩,
    ⟨"fdb_tsdb1", FLASH_DEV_NAME, 126 * 1024, 126 * 1024⟩]

section Layer

variable (env : Environment)

def falFlashDeviceFind (name : String) : Option FalFlashDev :=
  [gd32f303reFlash env].find? fun dev => dev.name = name

/-- The device that `check_and_update_part_cache` has stored for a partition. -/
def flashDeviceFindByPart (part : FalPartition) : Option FalFlashDev :=
  falFlashDeviceFind env part.flashName

def falPartitionWrite (part : FalPartition) (addr : Word) (buf : Memory) (size : Word) :
    Proc Board Int :=
  if part.len < addr + size then return -1
  else match flashDeviceFindByPart env part with
    | none => return -1
    | some flashDev => flashDev.write (part.offset + addr) buf size

def falPartitionErase (part : FalPartition) (addr size : Word) : Proc Board Int :=
  if part.len < addr + size then return -1
  else match flashDeviceFindByPart env part with
    | none => return -1
    | some flashDev => flashDev.erase (part.offset + addr) size

end Layer

/-! ### Footprints -/

/-- The two kinds of partition access that change the flash. -/
inductive Access where
  | write
  | erase

/-- An access with its outcomes and, for a write, its data. -/
def Access.run (kind : Access) (env : Environment) (part : FalPartition) (addr size : Word)
    (buf : Memory) : Proc Board Int :=
  match kind with
  | .write => falPartitionWrite env part addr buf size
  | .erase => falPartitionErase env part addr size

/-- A range inside the partition. -/
def Inside (part : FalPartition) (addr size : Word) : Prop :=
  addr.toNat + size.toNat ≤ part.len.toNat

/-- Where an access begins in the flash. -/
def accessStart (part : FalPartition) (addr : Word) : Nat :=
  deviceAddr.toNat + part.offset.toNat + addr.toNat

/-- The bytes an access may change: whole words from its start, or whole pages. -/
def Footprint (kind : Access) (part : FalPartition) (addr size : Word) (x : Nat) : Prop :=
  match kind with
  | .write => accessStart part addr ≤ x ∧ x < accessStart part addr + 4 * writtenWords size
  | .erase => accessStart part addr / pageSize ≤ x / pageSize ∧
      x / pageSize < accessStart part addr / pageSize + (size.toNat + 2047) / 2048

/-- The backup that `upgrade_backup` fills, and the pages of the three parameter words. -/
def Protected (x : Nat) : Prop :=
  (backupAddress.toNat ≤ x ∧ x < backupAddress.toNat + copySize) ∨
    x / pageSize = upgradeFlagAddress.toNat / pageSize ∨
    x / pageSize = upgradeCrc32Address.toNat / pageSize ∨
    x / pageSize = upgradeApplicationTypeAddress.toNat / pageSize

/-- Whatever the flash holds, the data is and the operations do, no protected byte changes. -/
def KeepsProtected (kind : Access) (part : FalPartition) (addr size : Word) : Prop :=
  ∀ (env : Environment) (b : Board) (buf : Memory) (x : Nat), Protected x →
    (kind.run env part addr size buf b).state.flash x = b.flash x

section Results

variable {part : FalPartition} {addr size : Word}

/-- The bounds of the two partitions of the table. -/
private theorem partition_bounds (listed : part ∈ FAL_PART_TABLE) :
    part.flashName = FLASH_DEV_NAME ∧ part.offset.toNat ≤ 126 * 1024 ∧
      part.len.toNat = 126 * 1024 := by
  rcases List.mem_cons.mp listed with rfl | listed
  · exact ⟨rfl, by decide, by decide⟩
  · obtain rfl := List.mem_singleton.mp listed
    exact ⟨rfl, by decide, by decide⟩

private theorem bound_check (listed : part ∈ FAL_PART_TABLE) (inside : Inside part addr size) :
    ¬part.len < addr + size := by
  obtain ⟨-, -, len⟩ := partition_bounds listed
  unfold Inside at inside
  rw [BitVec.lt_def, BitVec.toNat_add]
  omega

private theorem device_found (env : Environment) (listed : part ∈ FAL_PART_TABLE) :
    flashDeviceFindByPart env part = some (gd32f303reFlash env) := by
  unfold flashDeviceFindByPart
  rw [(partition_bounds listed).1]
  rfl

private theorem port_address (listed : part ∈ FAL_PART_TABLE) (inside : Inside part addr size) :
    (deviceAddr + (part.offset + addr)).toNat = accessStart part addr := by
  obtain ⟨-, offset, len⟩ := partition_bounds listed
  have device : deviceAddr.toNat = 0x08040000 := rfl
  unfold Inside at inside
  unfold accessStart
  rw [BitVec.toNat_add, BitVec.toNat_add, device]
  omega

/-- Inside the partition a write reaches the port. -/
theorem falPartitionWrite_eq (env : Environment) (listed : part ∈ FAL_PART_TABLE)
    (inside : Inside part addr size) (buf : Memory) :
    falPartitionWrite env part addr buf size = write env (part.offset + addr) buf size := by
  rw [falPartitionWrite, if_neg (bound_check listed inside), device_found env listed]
  rfl

theorem falPartitionErase_eq (env : Environment) (listed : part ∈ FAL_PART_TABLE)
    (inside : Inside part addr size) :
    falPartitionErase env part addr size = erase env (part.offset + addr) size := by
  rw [falPartitionErase, if_neg (bound_check listed inside), device_found env listed]
  rfl

/-! ### What an access changes -/

private theorem write_room (listed : part ∈ FAL_PART_TABLE) (inside : Inside part addr size) :
    (deviceAddr + (part.offset + addr)).toNat + 4 * writtenWords size ≤ 2 ^ 32 ∧
      size.toNat + 4 ≤ 2 ^ 32 := by
  obtain ⟨-, offset, len⟩ := partition_bounds listed
  have device : deviceAddr.toNat = 0x08040000 := rfl
  rw [port_address listed inside]
  unfold Inside at inside
  unfold accessStart writtenWords
  omega

private theorem erase_room (listed : part ∈ FAL_PART_TABLE) (inside : Inside part addr size) :
    (deviceAddr + (part.offset + addr)).toNat + pageSize * (erasePages size).toNat ≤ 2 ^ 32 := by
  obtain ⟨-, offset, len⟩ := partition_bounds listed
  have device : deviceAddr.toNat = 0x08040000 := rfl
  rw [port_address listed inside, erasePages_toNat]
  unfold Inside at inside
  unfold accessStart pageSize
  omega

private theorem write_frame (env : Environment) (listed : part ∈ FAL_PART_TABLE)
    (inside : Inside part addr size) (buf : Memory) (b : Board) {x : Nat}
    (outside : ¬Footprint .write part addr size x) :
    (falPartitionWrite env part addr buf size b).state.flash x = b.flash x := by
  have place := port_address listed inside
  obtain ⟨room, few⟩ := write_room listed inside
  rw [falPartitionWrite_eq env listed inside]
  unfold Footprint at outside
  refine ((write_sat env buf room few b).mono ?_ ?_).stopped (P := fun s : Board =>
    s.flash x = b.flash x)
  · rintro r s (⟨-, written⟩ | ⟨-, k, hk, stopped, -⟩)
    · rw [written.flash, place, fill_outside (by omega)]
    · rw [stopped.flash x (by rw [place]; omega), place, fill_outside (by omega)]
  · rintro s ⟨k, hk, written, -⟩
    rw [written.flash, place, fill_outside (by omega)]

private theorem erase_frame (env : Environment) (listed : part ∈ FAL_PART_TABLE)
    (inside : Inside part addr size) (b : Board) {x : Nat}
    (outside : ¬Footprint .erase part addr size x) :
    (falPartitionErase env part addr size b).state.flash x = b.flash x := by
  have place := port_address listed inside
  have room := erase_room listed inside
  rw [falPartitionErase_eq env listed inside, erase_eq]
  unfold Footprint at outside
  rw [← erasePages_toNat, ← place] at outside
  have untouched {s : Board} (begun : Begun env b (eraseOps (deviceAddr + (part.offset + addr))
      (erasePages size).toNat) s) : s.flash x = b.flash x := by
    obtain ⟨done, pre, -, flash⟩ := begun
    rw [flash]
    refine replay_outside ?_ _ _
    intro op hop
    obtain ⟨i, hi, rfl⟩ := List.mem_map.mp (pre.subset hop)
    rw [erase_first room (List.mem_range.mp hi)]
    have bound := List.mem_range.mp hi
    change x < _ ∨ _ + pageSize ≤ x
    unfold pageSize at *
    omega
  have begun := guarded_begun env (eraseOps (deviceAddr + (part.offset + addr))
    (erasePages size).toNat) b
  exact ((begun.mono (fun _ _ => untouched) fun _ => untouched).thenReturn _).stopped
    (P := fun s : Board => s.flash x = b.flash x)

/-- An access leaves everything outside its footprint. -/
theorem access_frame (kind : Access) (env : Environment) (listed : part ∈ FAL_PART_TABLE)
    (inside : Inside part addr size) (buf : Memory) (b : Board) {x : Nat}
    (outside : ¬Footprint kind part addr size x) :
    (kind.run env part addr size buf b).state.flash x = b.flash x := by
  cases kind with
  | write => exact write_frame env listed inside buf b outside
  | erase => exact erase_frame env listed inside b outside

private theorem write_reaches {env : Environment} (ok : env.Succeeds)
    (power : ∀ k, env.power k = true) (listed : part ∈ FAL_PART_TABLE)
    (inside : Inside part addr size) (buf : Memory) (b : Board) {x : Nat}
    (touched : Footprint .write part addr size x) :
    (falPartitionWrite env part addr buf size b).state.flash x =
      buf (x - accessStart part addr) := by
  have place := port_address listed inside
  obtain ⟨room, few⟩ := write_room listed inside
  rw [falPartitionWrite_eq env listed inside]
  refine ((write_sat env buf room few b).mono ?_ ?_).stopped (P := fun s : Board =>
    s.flash x = buf (x - accessStart part addr))
  · rintro r s (⟨-, written⟩ | ⟨-, k, -, -, failed⟩)
    · rw [written.flash, place, fill_inside touched.1 touched.2]
    · exact absurd (ok.answer _) failed
  · rintro s ⟨k, -, -, lost⟩
    exact absurd lost (Environment.lasting power _)

private theorem erase_reaches {env : Environment} (ok : env.Succeeds)
    (power : ∀ k, env.power k = true) (listed : part ∈ FAL_PART_TABLE)
    (inside : Inside part addr size) (b : Board) {x : Nat}
    (touched : Footprint .erase part addr size x) :
    (falPartitionErase env part addr size b).state.flash x = 0xFF := by
  have place := port_address listed inside
  have room := erase_room listed inside
  have image := eraseOps_apply room b.flash (erasePages size).toNat (Nat.le_refl _)
  rw [falPartitionErase_eq env listed inside, erase_eq]
  unfold Footprint at touched
  rw [← erasePages_toNat, ← place] at touched
  refine (((guarded_succeeds ok (eraseOps (deviceAddr + (part.offset + addr))
    (erasePages size).toNat) b).mono ?_ fun _ h => h).thenReturn _).returned
    (P := fun s : Board => s.flash x = 0xFF) ?_
  · rintro _ s ⟨-, done⟩
    rw [done.1]
    change List.foldl _ b.flash _ x = 0xFF
    rw [image, fill_inside]
    all_goals
      unfold pageSize at *
      omega
  · rintro s ⟨k, -, -, -, lost⟩
    exact Environment.lasting power _ lost

/-- Any byte of a footprint can be changed by the access. -/
private theorem access_reaches (kind : Access) (listed : part ∈ FAL_PART_TABLE)
    (inside : Inside part addr size) (b : Board) (zeros : b.flash = fun _ => 0) {x : Nat}
    (touched : Footprint kind part addr size x) :
    (kind.run (.flawless fun _ => 0) part addr size (fun _ => 0xFF) b).state.flash x ≠
      b.flash x := by
  have ok := Environment.flawless_succeeds fun _ => 0
  have different : (0xFF : Byte) ≠ 0 := by decide
  rw [zeros]
  cases kind with
  | write =>
    have byte := write_reaches ok (fun _ => rfl) listed inside (fun _ => 0xFF) b touched
    exact fun same => different (byte.symm.trans same)
  | erase =>
    have byte := erase_reaches ok (fun _ => rfl) listed inside b touched
    exact fun same => different (byte.symm.trans same)

/-- An access inside a partition spares the backup and the parameter pages exactly when
its footprint does. -/
theorem access_keepsProtected_iff (kind : Access) (listed : part ∈ FAL_PART_TABLE)
    (inside : Inside part addr size) :
    KeepsProtected kind part addr size ↔
      ∀ x, Footprint kind part addr size x → ¬Protected x := by
  constructor
  · intro keeps x touched guarded
    exact access_reaches kind listed inside (powerOn fun _ => 0) rfl touched
      (keeps (.flawless fun _ => 0) (powerOn fun _ => 0) (fun _ => 0xFF) x guarded)
  · intro spared env b buf x guarded
    exact access_frame kind env listed inside buf b fun touched => spared x touched guarded

end Results

/-- The key-value partition. -/
def kvdb : FalPartition := ⟨"fdb_kvdb1", FLASH_DEV_NAME, 0, 126 * 1024⟩

/-- Behind the 25 backup pages the key-value partition is clear of the bootloader. -/
theorem access_keepsProtected_kvdb : KeepsProtected .erase kvdb 51200 2048 :=
  (access_keepsProtected_iff .erase (by decide) (by unfold Inside; decide)).mpr
    fun x touched => by
      have start : accessStart kvdb 51200 = 134531072 := by decide
      have size : (2048 : Word).toNat = 2048 := by decide
      have words : upgradeFlagAddress.toNat = 0x08078000 ∧ upgradeCrc32Address.toNat = 0x08078008 ∧
          upgradeApplicationTypeAddress.toNat = 0x08078800 ∧
          backupAddress.toNat = 0x08040000 ∧ copySize = 51200 := by decide
      unfold Footprint at touched
      unfold Protected
      rw [start, size] at touched
      unfold pageSize at *
      omega

/-- Erasing the first page of the key-value partition erases the backup. -/
theorem access_erasesBackup : ¬KeepsProtected .erase kvdb 0 2048 := by
  intro keeps
  have inside : Inside kvdb 0 2048 := by
    unfold Inside
    decide
  have touched : Footprint .erase kvdb 0 2048 backupAddress.toNat := by
    unfold Footprint
    decide
  exact access_reaches .erase (by decide) inside (powerOn fun _ => 0) rfl touched
    (keeps _ _ _ _ (Or.inl (by decide)))

end BmsFirmware.Fal.Partitions
