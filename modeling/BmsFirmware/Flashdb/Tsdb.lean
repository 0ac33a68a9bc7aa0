/- Module: BmsFirmware/Flashdb/Tsdb
   Source: application/flashdb/src/fdb_tsdb.c, application/flashdb/src/fdb.c
   Digest: The time series database: sectors that are filled with logs one after the other. -/

import BmsFirmware.Flashdb.Utils

set_option autoImplicit false
set_option relaxedAutoImplicit false

namespace BmsFirmware.Flashdb.Tsdb

open BmsFirmware.Library.ByteMemory
open BmsFirmware.Library.PowerLogic
open BmsFirmware.Flash.Controller
open BmsFirmware.Fal.Partitions
open BmsFirmware.Flashdb.Utils

/-! ### Types -/

/-- `fdb_tsl_status_t`. -/
inductive TslStatus where
  | unused
  | preWrite
  | write
  | userStatus1
  | deleted
  | userStatus2
  deriving DecidableEq

def FDB_TSL_STATUS_NUM : Nat := 6

def TslStatus.index : TslStatus → Nat
  | .unused => 0
  | .preWrite => 1
  | .write => 2
  | .userStatus1 => 3
  | .deleted => 4
  | .userStatus2 => 5

def TslStatus.ofIndex : Nat → TslStatus
  | 0 => .unused
  | 1 => .preWrite
  | 2 => .write
  | 3 => .userStatus1
  | 4 => .deleted
  | _ => .userStatus2

/-- `fdb_sector_store_status_t`. -/
inductive SectorStatus where
  | storeUnused
  | storeEmpty
  | storeUsing
  | storeFull
  deriving DecidableEq

def FDB_SECTOR_STORE_STATUS_NUM : Nat := 4

def SectorStatus.index : SectorStatus → Nat
  | .storeUnused => 0
  | .storeEmpty => 1
  | .storeUsing => 2
  | .storeFull => 3

def SectorStatus.ofIndex : Nat → SectorStatus
  | 0 => .storeUnused
  | 1 => .storeEmpty
  | 2 => .storeUsing
  | _ => .storeFull

/-- `fdb_time_t`, a signed 32-bit number; it is compared by `BitVec.toInt`. -/
abbrev FdbTime := Word

/-- `struct tsdb_sec_info`. -/
structure TsdbSecInfo where
  checkOk : Bool
  status : SectorStatus
  addr : Word
  magic : Word
  startTime : FdbTime
  endTime : FdbTime
  endIdx : Word
  endInfoStat0 : TslStatus
  endInfoStat1 : TslStatus
  remain : Word
  emptyIdx : Word
  emptyData : Word

/-- `struct fdb_tsl`; `index` and `log` are the two addresses. -/
structure FdbTsl where
  status : TslStatus
  time : FdbTime
  logLen : Word
  index : Word
  log : Word

/-- `struct fdb_tsdb`, without the user's data; the time function is an argument below. -/
structure FdbTsdb where
  parent : FdbDb
  curSec : TsdbSecInfo
  lastTime : FdbTime
  maxLen : Word
  rollover : Bool

/-! ### Layout -/

def SECTOR_MAGIC_WORD : Word := 0x304C5354

/-- The size of `struct sector_hdr_data`. -/
def SECTOR_HDR_DATA_SIZE : Word := fdbWgAlign 80

/-- The size of `struct log_idx_data`. -/
def LOG_IDX_DATA_SIZE : Word := fdbWgAlign 32

def LOG_IDX_TS_OFFSET : Word := 20
def SECTOR_MAGIC_OFFSET : Word := 12
def SECTOR_START_TIME_OFFSET : Word := 16
def SECTOR_END0_TIME_OFFSET : Word := 20
def SECTOR_END0_IDX_OFFSET : Word := 24
def SECTOR_END0_STATUS_OFFSET : Word := 28
def SECTOR_END1_TIME_OFFSET : Word := 48
def SECTOR_END1_IDX_OFFSET : Word := 52
def SECTOR_END1_STATUS_OFFSET : Word := 56

def FAILED_ADDR : Word := 0xFFFFFFFF

/-- More turns than any loop over 32-bit addresses takes. -/
def loopFuel : Nat := 2 ^ 32

/-- Results of reading functions; none of a loop or an assertion that never lets go. -/
def orHang {α : Type} : Option α → Proc Board α
  | some a => pure a
  | none => hang

/-- A word as a buffer to write from. -/
def wordBuf (w : Word) : Memory := fill (fun _ => 0) 0 4 (wordBytes w)

/-! ### Addresses -/

def getNextSectorAddr (db : FdbTsdb) (preSec : TsdbSecInfo) (traversedLen : Word) : Word :=
  if traversedLen + db.parent.secSize ≤ db.parent.maxSize then
    if preSec.addr + db.parent.secSize < db.parent.maxSize then preSec.addr + db.parent.secSize
    else 0
  else FAILED_ADDR

def getLastSectorAddr (db : FdbTsdb) (preSec : TsdbSecInfo) (traversedLen : Word) : Word :=
  if traversedLen + db.parent.secSize ≤ db.parent.maxSize then
    if db.parent.secSize ≤ preSec.addr then preSec.addr - db.parent.secSize
    else db.parent.maxSize - db.parent.secSize
  else FAILED_ADDR

def getNextTslAddr (sector : TsdbSecInfo) (preTsl : FdbTsl) : Word :=
  if sector.status = .storeEmpty then FAILED_ADDR
  else if preTsl.index + LOG_IDX_DATA_SIZE ≤ sector.endIdx then preTsl.index + LOG_IDX_DATA_SIZE
  else FAILED_ADDR

def getLastTslAddr (sector : TsdbSecInfo) (preTsl : FdbTsl) : Word :=
  if sector.status = .storeEmpty then FAILED_ADDR
  else if sector.addr + SECTOR_HDR_DATA_SIZE + LOG_IDX_DATA_SIZE ≤ preTsl.index then
    preTsl.index - LOG_IDX_DATA_SIZE
  else FAILED_ADDR

/-! ### Reading -/

section Reading

-- `junk` is what an uninitialised buffer holds.
variable (env : Environment) (junk m : Memory) (db : FdbTsdb)

def readTsl (index : Word) : FdbTsl :=
  let idx := (fdbFlashRead env m db.parent index junk 32).2
  let status : TslStatus := .ofIndex (fdbGetStatus idx FDB_TSL_STATUS_NUM)
  if status = TslStatus.preWrite ∨ status = TslStatus.unused then
    { status := status, logLen := db.maxLen, log := FDB_DATA_UNUSED, time := 0, index := index }
  else
    { status := status, logLen := wordAt idx 24, log := wordAt idx 28, time := wordAt idx 20,
      index := index }

/-- The loop of `read_sector_info` over the logs of a sector. -/
def traverseTsl : Nat → Word → TsdbSecInfo → Option (FdbErr × TsdbSecInfo)
  | 0, _, _ => none
  | fuel + 1, index, sector =>
      let tsl := readTsl env junk m db index
      if tsl.status = .unused then some (.noErr, sector)
      else
        let need := LOG_IDX_DATA_SIZE + fdbWgAlign tsl.logLen
        let passed := { sector with
          endTime := if tsl.status = TslStatus.preWrite then sector.endTime else tsl.time
          endIdx := index
          emptyIdx := sector.emptyIdx + LOG_IDX_DATA_SIZE
          emptyData := sector.emptyData - fdbWgAlign tsl.logLen }
        if need < sector.remain then
          traverseTsl fuel (index + LOG_IDX_DATA_SIZE)
            { passed with remain := sector.remain - need }
        else some (.readErr, { passed with remain := 0 })

/-- `read_sector_info` into a structure that holds `sector`. -/
def readSectorInfo (addr : Word) (sector : TsdbSecInfo) (traversal : Bool) :
    Option (FdbErr × TsdbSecInfo) :=
  let secHdr := (fdbFlashRead env m db.parent addr junk 80).2
  let magic := wordAt secHdr 12
  if magic ≠ SECTOR_MAGIC_WORD then
    some (.initFailed, { sector with addr := addr, magic := magic, checkOk := false })
  else
    let stat0 := TslStatus.ofIndex (fdbGetStatus (fun i => secHdr (28 + i)) FDB_TSL_STATUS_NUM)
    let stat1 := TslStatus.ofIndex (fdbGetStatus (fun i => secHdr (56 + i)) FDB_TSL_STATUS_NUM)
    let opened := { sector with
      addr := addr
      magic := magic
      checkOk := true
      status := SectorStatus.ofIndex (fdbGetStatus secHdr FDB_SECTOR_STORE_STATUS_NUM)
      startTime := wordAt secHdr 16
      endInfoStat0 := stat0
      endInfoStat1 := stat1
      endTime := if stat0 = .write then wordAt secHdr 20
        else if stat1 = .write then wordAt secHdr 48 else sector.endTime
      endIdx := if stat0 = .write then wordAt secHdr 24
        else if stat1 = .write then wordAt secHdr 52 else sector.endIdx
      emptyIdx := addr + SECTOR_HDR_DATA_SIZE
      emptyData := addr + db.parent.secSize
      remain := (addr + db.parent.secSize) - (addr + SECTOR_HDR_DATA_SIZE) }
    -- the assertion on two end infos that were begun and not finished
    if stat0 = TslStatus.preWrite ∧ stat1 = TslStatus.preWrite then none
    else if opened.status = .storeUsing ∧ traversal then
      traverseTsl env junk m db loopFuel opened.emptyIdx opened
    else some (.noErr, opened)

end Reading

/-! ### Sectors -/

section Sectors

variable (env : Environment) (junk : Memory)

def formatSector (db : FdbTsdb) (addr : Word) : Proc Board FdbErr := do
  fdbAssert (addr % db.parent.secSize = 0)
  let result ← fdbFlashErase env db.parent addr db.parent.secSize
  if result ≠ .noErr then
    return result
  orReturn (fdbWriteStatus env db.parent addr junk FDB_SECTOR_STORE_STATUS_NUM
      SectorStatus.storeEmpty.index)
    (fdbFlashWrite env db.parent (addr + SECTOR_MAGIC_OFFSET) (wordBuf SECTOR_MAGIC_WORD) 4)

/-- The loop of `sector_iterator`; the callback works on a state of its own. -/
def sectorIterator {σ : Type} (db : FdbTsdb) (status : SectorStatus)
    (callback : TsdbSecInfo → σ → Proc Board (Bool × σ)) (traversal : Bool) :
    Nat → Word → Word → TsdbSecInfo → σ → Proc Board σ
  | 0, _, _, _, _ => hang
  | fuel + 1, secAddr, traversedLen, sector, state => do
      let b ← Proc.get
      let read ← orHang (readSectorInfo env junk b.flash db secAddr sector false)
      let chosen := status = .storeUnused ∨ status = read.2.status
      let read ← if chosen ∧ traversal then
          orHang (readSectorInfo env junk b.flash db secAddr read.2 true)
        else pure read
      let turn ← if chosen then callback read.2 state else pure (false, state)
      if turn.1 then
        return turn.2
      let traversedLen := traversedLen + db.parent.secSize
      let secAddr := getNextSectorAddr db read.2 traversedLen
      if secAddr = FAILED_ADDR then
        return turn.2
      sectorIterator db status callback traversal fuel secAddr traversedLen read.2 turn.2

/-- The buffer that `write_tsl` writes from `idx.time` on. -/
def idxBuf (time : FdbTime) (logLen logAddr : Word) : Memory :=
  fill (fill (wordBuf time) 4 4 (wordBytes logLen)) 8 4 (wordBytes logAddr)

def writeTsl (db : FdbTsdb) (blob : FdbBlob) (time : FdbTime) : Proc Board FdbErr :=
  let idxAddr := db.curSec.emptyIdx
  let logAddr := db.curSec.emptyData - fdbWgAlign blob.size
  orReturn (fdbWriteStatus env db.parent idxAddr junk FDB_TSL_STATUS_NUM TslStatus.preWrite.index)
    (orReturn (fdbFlashWrite env db.parent (idxAddr + LOG_IDX_TS_OFFSET)
        (idxBuf time blob.size logAddr) 12)
      (orReturn (fdbFlashWrite env db.parent logAddr blob.buf blob.size)
        (fdbWriteStatus env db.parent idxAddr junk FDB_TSL_STATUS_NUM TslStatus.write.index)))

/-- The four writes into one of the two end infos of a sector. -/
def saveEndInfo (db : FdbTsdb) (statusOffset timeOffset idxOffset endIndex : Word) :
    Proc Board FdbErr :=
  let addr := db.curSec.addr
  orReturn (fdbWriteStatus env db.parent (addr + statusOffset) junk FDB_TSL_STATUS_NUM
      TslStatus.preWrite.index)
    (orReturn (fdbFlashWrite env db.parent (addr + timeOffset) (wordBuf db.lastTime) 4)
      (orReturn (fdbFlashWrite env db.parent (addr + idxOffset) (wordBuf endIndex) 4)
        (fdbWriteStatus env db.parent (addr + statusOffset) junk FDB_TSL_STATUS_NUM
          TslStatus.write.index)))

/-- The end info that is still unused is written, then the sector is marked full. -/
def closeSector (db : FdbTsdb) : Proc Board FdbErr :=
  let endIndex := db.curSec.emptyIdx - LOG_IDX_DATA_SIZE
  let save :=
    if db.curSec.endInfoStat0 = .unused then
      saveEndInfo env junk db SECTOR_END0_STATUS_OFFSET SECTOR_END0_TIME_OFFSET
        SECTOR_END0_IDX_OFFSET endIndex
    else if db.curSec.endInfoStat1 = .unused then
      saveEndInfo env junk db SECTOR_END1_STATUS_OFFSET SECTOR_END1_TIME_OFFSET
        SECTOR_END1_IDX_OFFSET endIndex
    else pure .noErr
  orReturn save (fdbWriteStatus env db.parent db.curSec.addr junk FDB_SECTOR_STORE_STATUS_NUM
    SectorStatus.storeFull.index)

/-- Go to the next sector; one that is not empty holds the oldest logs and is formatted.
The results of `read_sector_info` and `format_sector` are not looked at. -/
def enterSector (db : FdbTsdb) (newSecAddr : Word) : Proc Board FdbTsdb := do
  let b ← Proc.get
  let read ← orHang (readSectorInfo env junk b.flash db newSecAddr db.curSec false)
  let db := { db with curSec := read.2 }
  if db.curSec.status ≠ .storeEmpty then
    let oldest := if newSecAddr + db.parent.secSize < db.parent.maxSize then
      newSecAddr + db.parent.secSize else 0
    let db := { db with parent := { db.parent with oldestAddr := oldest } }
    let _ ← formatSector env junk db newSecAddr
    let b ← Proc.get
    let read ← orHang (readSectorInfo env junk b.flash db newSecAddr db.curSec false)
    return { db with curSec := read.2 }
  else
    return db

/-- An empty sector becomes the one in use, with the time of its first log. -/
def openSector (db : FdbTsdb) (curTime : FdbTime) : Proc Board (FdbErr × FdbTsdb) := do
  if db.curSec.status = .storeEmpty then
    let db := { db with curSec := { db.curSec with status := .storeUsing, startTime := curTime } }
    let result ← orReturn (fdbWriteStatus env db.parent db.curSec.addr junk
        FDB_SECTOR_STORE_STATUS_NUM SectorStatus.storeUsing.index)
      (fdbFlashWrite env db.parent (db.curSec.addr + SECTOR_START_TIME_OFFSET)
        (wordBuf curTime) 4)
    return (result, db)
  else
    return (.noErr, db)

/-- `update_sec_status`; its only caller passes the current sector. -/
def updateSecStatus (db : FdbTsdb) (blob : FdbBlob) (curTime : FdbTime) :
    Proc Board (FdbErr × FdbTsdb) := do
  if db.curSec.status = .storeUsing ∧
      db.curSec.remain < LOG_IDX_DATA_SIZE + fdbWgAlign blob.size then
    let result ← closeSector env junk db
    if result ≠ .noErr then
      return (result, db)
    let db := { db with curSec := { db.curSec with status := .storeFull } }
    if db.curSec.addr + db.parent.secSize < db.parent.maxSize then
      let db ← enterSector env junk db (db.curSec.addr + db.parent.secSize)
      openSector env junk db curTime
    else if db.rollover then
      let db ← enterSector env junk db 0
      openSector env junk db curTime
    else
      return (.savedFull, db)
  else if db.curSec.status = .storeFull then
    return (.savedFull, db)
  else
    openSector env junk db curTime

/-- The sector's values behind a log that has been written. -/
def advance (sector : TsdbSecInfo) (size : Word) (curTime : FdbTime) : TsdbSecInfo :=
  { sector with
    endIdx := sector.emptyIdx
    endTime := curTime
    emptyIdx := sector.emptyIdx + LOG_IDX_DATA_SIZE
    emptyData := sector.emptyData - fdbWgAlign size
    remain := sector.remain - (LOG_IDX_DATA_SIZE + fdbWgAlign size) }

def tslAppend (db : FdbTsdb) (blob : FdbBlob) (curTime : FdbTime) :
    Proc Board (FdbErr × FdbTsdb) := do
  if db.maxLen < blob.size then
    return (.writeErr, db)
  if curTime.toInt ≤ db.lastTime.toInt then
    return (.writeErr, db)
  let updated ← updateSecStatus env junk db blob curTime
  if updated.1 ≠ .noErr then
    return updated
  let db := updated.2
  let result ← writeTsl env junk db blob curTime
  if result ≠ .noErr then
    return (result, db)
  return (.noErr, { db with curSec := advance db.curSec blob.size curTime, lastTime := curTime })

/-- `fdb_tsl_append_with_ts`; `fdb_tsl_append` is the same with the time it is told. -/
def fdbTslAppendWithTs (db : FdbTsdb) (blob : FdbBlob) (timestamp : FdbTime) :
    Proc Board (FdbErr × FdbTsdb) :=
  if db.parent.initOk then tslAppend env junk db blob timestamp else return (.initFailed, db)

/-- `fdb_tsl_set_status`. -/
def fdbTslSetStatus (db : FdbTsdb) (tsl : FdbTsl) (status : TslStatus) : Proc Board FdbErr :=
  fdbWriteStatus env db.parent tsl.index junk FDB_TSL_STATUS_NUM status.index

end Sectors

/-! ### Iterating -/

section Iterating

variable {α σ : Type} (env : Environment) (junk m : Memory) (db : FdbTsdb)

/-- The loop over the logs of one sector: whether it was broken off, and the argument. -/
def tslLoop (next : TsdbSecInfo → FdbTsl → Word) (sector : TsdbSecInfo)
    (cb : FdbTsl → α → Bool × α) : Nat → Word → α → Option (Bool × α)
  | 0, _, _ => none
  | fuel + 1, index, arg =>
      let tsl := readTsl env junk m db index
      let called := cb tsl arg
      if called.1 then some called
      else if next sector tsl = FAILED_ADDR then some called
      else tslLoop next sector cb fuel (next sector tsl) called.2

/-- What the visit of a sector leaves: whether to leave the loop, the structure and the state. -/
structure Visit (σ : Type) where
  stop : Bool
  sector : TsdbSecInfo
  state : σ

/-- The loop over the sectors that the three iterators share; a sector that cannot be read
is passed over. -/
def walkSectors (next : FdbTsdb → TsdbSecInfo → Word → Word)
    (visit : Word → TsdbSecInfo → σ → Option (Visit σ)) :
    Nat → Word → Word → TsdbSecInfo → σ → Option σ
  | 0, _, _, _, _ => none
  | fuel + 1, secAddr, traversedLen, sector, state => do
      let traversedLen := traversedLen + db.parent.secSize
      let read ← readSectorInfo env junk m db secAddr sector false
      let turn ← if read.1 ≠ .noErr then some ⟨false, read.2, state⟩
        else visit secAddr read.2 state
      if turn.stop ∨ next db turn.sector traversedLen = FAILED_ADDR then
        return turn.state
      walkSectors next visit fuel (next db turn.sector traversedLen) traversedLen turn.sector
        turn.state

/-- A sector that holds logs. -/
def TsdbSecInfo.hasTsl (sector : TsdbSecInfo) : Bool :=
  sector.status = .storeUsing ∨ sector.status = .storeFull

/-- For the sector in use the structure in memory stands. -/
def currentInfo (sector : TsdbSecInfo) : TsdbSecInfo :=
  if sector.status = .storeUsing then db.curSec else sector

/-- `fdb_tsl_iter`; `stack` is the uninitialised structure on its stack. -/
def fdbTslIter (stack : TsdbSecInfo) (cb : FdbTsl → α → Bool × α) (arg : α) : Option α :=
  walkSectors env junk m db getNextSectorAddr
    (fun _ sector arg =>
      if sector.hasTsl then do
        let sector := currentInfo db sector
        let looped ← tslLoop env junk m db getNextTslAddr sector cb loopFuel
          (sector.addr + SECTOR_HDR_DATA_SIZE) arg
        return ⟨looped.1, sector, looped.2⟩
      else return ⟨false, sector, arg⟩)
    loopFuel db.parent.oldestAddr 0 stack arg

def fdbTslIterReverse (stack : TsdbSecInfo) (cb : FdbTsl → α → Bool × α) (arg : α) : Option α :=
  walkSectors env junk m db getLastSectorAddr
    (fun _ sector arg =>
      if sector.hasTsl then do
        let sector := currentInfo db sector
        let looped ← tslLoop env junk m db getLastTslAddr sector cb loopFuel sector.endIdx arg
        return ⟨looped.1, sector, looped.2⟩
      else return ⟨sector.status = .storeEmpty ∨ sector.status = .storeUnused, sector, arg⟩)
    loopFuel db.curSec.addr 0 stack arg

/-- The loop of `search_start_tsl_addr`; its two addresses are signed. -/
def searchStartTslAddr (fromTime toTime : FdbTime) : Nat → Word → Word → Option Word
  | 0, _, _ => none
  | fuel + 1, start, ended =>
      let index := start + fdbAlign ((ended - start).sdiv 2) LOG_IDX_DATA_SIZE
      let tsl := readTsl env junk m db index
      if tsl.time.toInt = fromTime.toInt then some index
      else
        let low := if tsl.time.toInt < fromTime.toInt then index + LOG_IDX_DATA_SIZE else start
        let high := if fromTime.toInt < tsl.time.toInt then index - LOG_IDX_DATA_SIZE else ended
        if high.toInt < low.toInt then
          if toTime.toInt < fromTime.toInt ∧
              fromTime.toInt < (readTsl env junk m db low).time.toInt then
            some (low - LOG_IDX_DATA_SIZE)
          else some low
        else searchStartTslAddr fromTime toTime fuel low high

/-- Whether the first log wanted may be in a sector, while none has been found. -/
def mayStart (fromTime toTime : FdbTime) (isFirst : Bool) (sector : TsdbSecInfo) : Bool :=
  (fromTime.toInt ≤ toTime.toInt ∧
      ((isFirst ∧ fromTime.toInt ≤ sector.startTime.toInt) ∨
        fromTime.toInt ≤ sector.endTime.toInt)) ∨
    (toTime.toInt < fromTime.toInt ∧
      ((isFirst ∧ sector.endTime.toInt ≤ fromTime.toInt) ∨
        sector.startTime.toInt ≤ fromTime.toInt))

/-- Whether a time is between the two, in either order. -/
def inPeriod (fromTime toTime time : FdbTime) : Bool :=
  (fromTime.toInt ≤ toTime.toInt ∧ fromTime.toInt ≤ time.toInt ∧ time.toInt ≤ toTime.toInt) ∨
    (toTime.toInt < fromTime.toInt ∧ time.toInt ≤ fromTime.toInt ∧ toTime.toInt ≤ time.toInt)

/-- What `fdb_tsl_iter_by_time` does with a log: the first one out of the period ends it. -/
def periodCb (fromTime toTime : FdbTime) (cb : FdbTsl → α → Bool × α) (tsl : FdbTsl) (arg : α) :
    Bool × α :=
  if tsl.status = .unused then (false, arg)
  else if inPeriod fromTime toTime tsl.time then cb tsl arg
  else (true, arg)

/-- `fdb_tsl_iter_by_time`; the state of its loop is `found_start_tsl` and the argument. -/
def fdbTslIterByTime (stack : TsdbSecInfo) (fromTime toTime : FdbTime) (cb : FdbTsl → α → Bool × α)
    (arg : α) : Option α := do
  let forward := fromTime.toInt ≤ toTime.toInt
  let startAddr := if forward then db.parent.oldestAddr else db.curSec.addr
  let left ← walkSectors env junk m db
    (if forward then getNextSectorAddr else getLastSectorAddr)
    (fun secAddr sector (state : Bool × α) =>
      if sector.hasTsl then do
        let sector := currentInfo db sector
        if state.1 ∨ mayStart fromTime toTime (secAddr = startAddr) sector then
          let first ← searchStartTslAddr env junk m db fromTime toTime loopFuel
            (sector.addr + SECTOR_HDR_DATA_SIZE) sector.endIdx
          let looped ← tslLoop env junk m db
            (if forward then getNextTslAddr else getLastTslAddr) sector
            (periodCb fromTime toTime cb) loopFuel first state.2
          return ⟨looped.1, sector, (true, looped.2)⟩
        else return ⟨false, sector, state⟩
      else return ⟨sector.status = .storeEmpty, sector, state⟩)
    loopFuel startAddr 0 stack (false, arg)
  return left.2

/-- `query_count_cb`. -/
def queryCountCb (status : TslStatus) (tsl : FdbTsl) (count : Word) : Bool × Word :=
  (false, if tsl.status = status then count + 1 else count)

def fdbTslQueryCount (stack : TsdbSecInfo) (fromTime toTime : FdbTime) (status : TslStatus) :
    Option Word :=
  if db.parent.initOk then
    fdbTslIterByTime env junk m db stack fromTime toTime (queryCountCb status) 0
  else some 0

/-- `fdb_tsl_to_blob`. -/
def fdbTslToBlob (tsl : FdbTsl) (blob : FdbBlob) : FdbBlob :=
  { blob with savedAddr := tsl.log, savedMetaAddr := tsl.index, savedLen := tsl.logLen }

end Iterating

/-! ### Formatting and initialising -/

section Initialising

variable (env : Environment) (junk : Memory) (stack : TsdbSecInfo)

def formatAllCb (db : FdbTsdb) (sector : TsdbSecInfo) (state : Unit) :
    Proc Board (Bool × Unit) := do
  let _ ← formatSector env junk db sector.addr
  return (false, state)

def tslFormatAll (db : FdbTsdb) : Proc Board FdbTsdb := do
  let _ ← sectorIterator env junk db .storeUnused (formatAllCb env junk db) false loopFuel 0 0
    { stack with addr := 0 } ()
  let db := { db with
    parent := { db.parent with oldestAddr := 0 }
    curSec := { db.curSec with addr := 0 }
    lastTime := 0 }
  let b ← Proc.get
  let read ← orHang (readSectorInfo env junk b.flash db db.curSec.addr db.curSec false)
  return { db with curSec := read.2 }

/-- `fdb_tsl_clean`. -/
def fdbTslClean (db : FdbTsdb) : Proc Board FdbTsdb := tslFormatAll env junk stack db

/-- `struct check_sec_hdr_cb_args`; `curSec` is `db->cur_sec`. -/
structure CheckSecHdr where
  curSec : TsdbSecInfo
  checkFailed : Bool
  emptyNum : Nat
  emptyAddr : Word

def checkSecHdrCb (sector : TsdbSecInfo) (arg : CheckSecHdr) : Proc Board (Bool × CheckSecHdr) :=
  if sector.checkOk = false then return (true, { arg with checkFailed := true })
  else if sector.status = .storeUsing then
    if arg.curSec.addr = FDB_DATA_UNUSED then return (false, { arg with curSec := sector })
    else return (true, { arg with checkFailed := true })
  else if sector.status = .storeEmpty then
    return (false, { arg with
      emptyNum := arg.emptyNum + 1
      emptyAddr := sector.addr
      curSec := if arg.emptyNum + 1 = 1 ∧ arg.curSec.addr = FDB_DATA_UNUSED then sector
        else arg.curSec })
  else return (false, arg)

/-- `gd32f303re_flash.blk_size`, the block size of the only device. -/
def blkSize : Word := 2 * 1024

def falPartitionFind (name : String) : Option FalPartition :=
  FAL_PART_TABLE.find? fun part => part.name = name

/-- `_fdb_init_ex`; none where the assertion on the sector size loops for ever. -/
def fdbInitEx (db : FdbDb) (path : String) : Option (FdbErr × FdbDb) :=
  if db.initOk then some (.noErr, db)
  else
    let opened :=
      if db.fileMode then (FdbErr.noErr, db)
      else match falPartitionFind path with
        | none => (.partNotFound, db)
        | some part =>
            if db.secSize ≠ 0 ∧ db.secSize % blkSize ≠ 0 then
              (.initFailed, { db with part := part })
            else (.noErr, { db with
              part := part
              secSize := if db.secSize = 0 then blkSize else db.secSize
              maxSize := part.len })
    if opened.1 ≠ .noErr then some opened
    else if opened.2.secSize &&& (opened.2.secSize - 1) ≠ 0 then none
    else if opened.2.maxSize % opened.2.secSize ≠ 0 then some (.initFailed, opened.2)
    else if opened.2.maxSize / opened.2.secSize < 2 then some (.initFailed, opened.2)
    else some opened

/-- `_fdb_init_finish`, without what it prints. -/
def fdbInitFinish (db : FdbTsdb) (result : FdbErr) : FdbErr × FdbTsdb :=
  (result, if result = .noErr then { db with parent := { db.parent with initOk := true } } else db)

/-- Which sector is the oldest, behind the latest one. -/
def oldestBehind (db : FdbTsdb) (latestAddr : Word) : Word :=
  if db.parent.maxSize ≤ latestAddr + db.parent.secSize then 0
  else latestAddr + db.parent.secSize

/-- The last time saved, from the sector in use or from the one before an empty one. -/
def lastSaved (m : Memory) (db : FdbTsdb) : Option FdbTime :=
  if db.curSec.status = .storeUsing then some db.curSec.endTime
  else if db.curSec.status = .storeEmpty ∧ db.parent.oldestAddr ≠ db.curSec.addr then do
    let addr := if db.curSec.addr = 0 then db.parent.maxSize - db.parent.secSize
      else db.curSec.addr - db.parent.secSize
    let read ← readSectorInfo env junk m db addr stack false
    return read.2.endTime
  else some db.lastTime

def fdbTsdbInit (db : FdbTsdb) (path : String) (maxLen : Word) :
    Proc Board (FdbErr × FdbTsdb) := do
  let opened ← orHang (fdbInitEx db.parent path)
  if opened.1 ≠ .noErr then
    return fdbInitFinish { db with parent := opened.2 } opened.1
  let db := { db with
    parent := { opened.2 with oldestAddr := FDB_DATA_UNUSED }
    maxLen := maxLen
    rollover := true
    curSec := { db.curSec with addr := FDB_DATA_UNUSED } }
  fdbAssert (maxLen < db.parent.secSize)
  let check ← sectorIterator env junk db .storeUnused checkSecHdrCb true loopFuel 0 0
    { stack with addr := 0 } ⟨db.curSec, false, 0, 0⟩
  let db := { db with curSec := check.curSec }
  if check.checkFailed ∧ db.parent.notFormatable then
    return fdbInitFinish db .readErr
  let db ← if check.checkFailed then tslFormatAll env junk stack db
    else
      let latestAddr :=
        if 0 < check.emptyNum then check.emptyAddr
        else if db.rollover then db.curSec.addr
        else db.parent.maxSize - db.parent.secSize
      let cur := if check.emptyNum = 0 ∧ db.rollover = false then
        { db.curSec with addr := latestAddr } else db.curSec
      pure { db with
        curSec := cur
        parent := { db.parent with oldestAddr := oldestBehind db latestAddr } }
  let b ← Proc.get
  let read ← orHang (readSectorInfo env junk b.flash db db.curSec.addr db.curSec true)
  let db := { db with curSec := read.2 }
  let last ← orHang (lastSaved env junk stack b.flash db)
  return fdbInitFinish { db with lastTime := last } .noErr

end Initialising

end BmsFirmware.Flashdb.Tsdb
