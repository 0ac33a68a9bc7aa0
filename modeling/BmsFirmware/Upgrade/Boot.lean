/- Module: BmsFirmware/Upgrade/Boot
   Source: application/upgrade/boot.c
   Digest: The bootloader: backup, block programming, recovery and the boot decision. -/

import BmsFirmware.Flash.PageImage

set_option autoImplicit false
set_option relaxedAutoImplicit false

namespace BmsFirmware.Upgrade.Boot

open BmsFirmware.Library.ByteMemory
open BmsFirmware.Library.PowerLogic
open BmsFirmware.Flash.Controller
open BmsFirmware.Flash.Systick

def commandStart : List Byte :=
  [0x01, 0x5E, 0x00, 0x01, 0x80, 0x00, 0x00, 0x00, 0x00, 0x00, 0x10, 0x00, 0xD0, 0xCF]

/-- The initial value of the variable `app_address`. -/
def appAddress : Word := 0x08008000

/-- `backup_address`, which nothing assigns. -/
def backupAddress : Word := 0x08040000

def uint32ToUint8Array (input : Word) : List Byte :=
  [((input >>> 24) &&& 0xFF).setWidth 8, ((input >>> 16) &&& 0xFF).setWidth 8,
    ((input >>> 8) &&& 0xFF).setWidth 8, (input &&& 0xFF).setWidth 8]

def uint8ArrayToUint32 (input : Memory) : Word :=
  ((input 0).setWidth 32 <<< 24) ||| ((input 1).setWidth 32 <<< 16) |||
    ((input 2).setWidth 32 <<< 8) ||| (input 3).setWidth 32

/-- The variables of a boot as the reset leaves them. -/
def powerOn (flash : Memory) : Board where
  flash := flash
  locked := true
  journal := []
  mallocs := 0
  received := 0
  sent := []
  appAddress := appAddress
  totalBlock := 0
  upgradeBlockNumber := fun _ => 0
  updateData := fun _ => 0

@[simp] theorem powerOn_flash (flash : Memory) : (powerOn flash).flash = flash := rfl

section Procedures

variable (env : Environment)

/-! ### The page writer of the block loop -/

/-- The loop `while (current_address < end_address)`. A loop that outlives its fuel never
leaves: the addresses a 32-bit counter can take in steps of four are used up. -/
def programUntil (data : Memory) (endAddress : Word) :
    Nat → Word → Nat → FmcState → Proc Board FmcState
  | 0, _, _, _ => fun b => .cut b
  | fuel + 1, currentAddress, i, state =>
      if currentAddress < endAddress then do
        let state ← fmcWordProgram env currentAddress (wordAt data (4 * i))
        if state ≠ .ready then
          fmcLock
          return state
        programUntil data endAddress fuel (currentAddress + 4) (i + 1) state
      else do
        fmcLock
        return state

/-- The number of word addresses of the 32-bit space. -/
def wordAddresses : Nat := 2 ^ 30

def upgradeFmcWriteMultipleData (address : Word) (data : Memory) (length : Word) :
    Proc Board FmcState := do
  let pageAddress := address &&& ~~~(2048 - 1)
  let endAddress := address + length
  fmcUnlock
  let state ← fmcPageErase env pageAddress
  if state ≠ .ready then
    fmcLock
    return state
  programUntil env data endAddress (wordAddresses + 1) address 0 state

/-! ### Receiving and programming blocks -/

/-- Receive `n` bytes into a buffer; `store` puts byte `i` there. -/
def receiveInto (store : Nat → Byte → Board → Board) (n : Nat) : Proc Board (Option Unit) :=
  forLoop n fun i => do
    let r ← usartReceiveWithTimeout env
    Proc.modify (store i r.2)
    if r.1 ≠ 0 then
      return some ()
    return none

def storeBlockNumber (i : Nat) (byte : Byte) (b : Board) : Board :=
  { b with upgradeBlockNumber := Function.update b.upgradeBlockNumber i byte }

def storeUpdateData (i : Nat) (byte : Byte) (b : Board) : Board :=
  { b with updateData := Function.update b.updateData i byte }

/-- The word that answers a block: its address, or the error code. -/
def blockReply (result : FmcState) (address : Word) : Word :=
  if result = .ready then address else result.code

/-- One turn of the loop over the blocks. -/
def upgradeBlock (_j : Nat) : Proc Board (Option Unit) := do
  let updateData ← malloc env
  if updateData = false then
    return some ()
  match ← receiveInto env storeUpdateData pageSize with
  | some () => return some ()
  | none =>
      let b ← Proc.get
      let result ← upgradeFmcWriteMultipleData env b.appAddress b.updateData
        (BitVec.ofNat 32 pageSize)
      let reply := uint32ToUint8Array (blockReply result b.appAddress)
      Proc.modify fun b => { b with upgradeBlockNumber := ofList reply }
      usartSend reply
      Proc.modify fun b => { b with appAddress := b.appAddress + BitVec.ofNat 32 pageSize }
      return none

def upgradeRun : Proc Board Unit := do
  usartSend commandStart
  match ← receiveInto env storeBlockNumber 4 with
  | some () => return ()
  | none =>
      Proc.modify fun b => { b with totalBlock := uint8ArrayToUint32 b.upgradeBlockNumber }
      let b ← Proc.get
      Proc.modify fun b => { b with upgradeBlockNumber := ofList (uint32ToUint8Array b.totalBlock) }
      usartSend (uint32ToUint8Array b.totalBlock)
      let _ ← forLoop b.totalBlock.toNat (upgradeBlock env)
      return ()

/-! ### Backup and recovery -/

/-- The number of pages that backup and recovery copy. -/
def currentBlockNumber : Nat := 25

/-- `memcpy(buffer, src + i * page_size, page_size)` out of the flash. -/
def copyPage (m : Memory) (src : Word) (i : Nat) : Memory :=
  fun k => m (src.toNat + i * pageSize + k)

def copyPages (src dst : Word) : Proc Board (Option Unit) :=
  forLoop currentBlockNumber fun i => do
    let b ← Proc.get
    let _ ← upgradeWriteData env (copyPage b.flash src i) (dst + BitVec.ofNat 32 (i * pageSize))
    return none

def upgradeBackup : Proc Board Unit := do
  let backupBuffer ← malloc env
  if backupBuffer = false then
    return ()
  let b ← Proc.get
  let _ ← copyPages env b.appAddress backupAddress
  return ()

def upgradeApplicationRecover : Proc Board Unit := do
  let backupBuffer ← malloc env
  if backupBuffer = false then
    return ()
  let b ← Proc.get
  let _ ← copyPages env backupAddress b.appAddress
  return ()

end Procedures

/-! ### The boot decision -/

/-- How a boot ends when power lasts. -/
inductive BootExit where
  | systemReset
  | jumpToApplication
  deriving DecidableEq

/-- The upgrade branch of `handle_upgrade` up to its reset. The environments of the
parameter writes, of the backup and of the block programming are separate arguments, so
that failures can be confined to a phase. -/
def upgradeBranch (params backup run : Environment) : Proc Board Unit := do
  let _ ← upgradeFmcWriteData params upgradeFlagAddress UPGRADESTOP
  let _ ← upgradeFmcWriteData params upgradeApplicationTypeAddress 2000
  upgradeBackup backup
  upgradeRun run
  let _ ← upgradeFmcWriteData params upgradeApplicationTypeAddress 1000
  return ()

def handleUpgrade (env : Environment) : Proc Board BootExit := do
  let flag ← upgradeReadFlag
  if flag.1 = 0 ∧ flag.2 = UPGRADESTART then
    upgradeBranch env env env
    return .systemReset
  let applicationType ← readApplicationType
  if applicationType = 2000 then
    upgradeApplicationRecover env
    let _ ← upgradeFmcWriteData env upgradeApplicationTypeAddress 1000
    return .systemReset
  return .jumpToApplication

end BmsFirmware.Upgrade.Boot
