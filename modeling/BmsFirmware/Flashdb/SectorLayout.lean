/- Module: BmsFirmware/Flashdb/SectorLayout
   Source: application/flashdb/src/fdb_tsdb.c
   Digest: How a sector holds its logs, and what the functions that read it make of it. -/

import BmsFirmware.Flashdb.Storage
import BmsFirmware.Flashdb.Tsdb
import Mathlib.Algebra.Ring.Nat

set_option autoImplicit false
set_option relaxedAutoImplicit false

namespace BmsFirmware.Flashdb.SectorLayout

open BmsFirmware.Library.ByteMemory
open BmsFirmware.Library.PowerLogic
open BmsFirmware.Library.StatusTable
open BmsFirmware.Flash.Controller
open BmsFirmware.Flashdb.Utils
open BmsFirmware.Flashdb.Storage
open BmsFirmware.Flashdb.Tsdb

/-! ### Addresses and sizes -/

abbrev w32 (n : Nat) : Word := BitVec.ofNat 32 n

theorem toNat_w32 {n : Nat} (small : n < 2 ^ 32) : (w32 n).toNat = n := by
  rw [BitVec.toNat_ofNat, Nat.mod_eq_of_lt small]

theorem w32_add (a b : Nat) : w32 a + w32 b = w32 (a + b) := (BitVec.ofNat_add a b).symm

theorem w32_sub {a b : Nat} (low : b ≤ a) : w32 a - w32 b = w32 (a - b) := by
  have sum := w32_add (a - b) b
  rw [Nat.sub_add_cancel low] at sum
  rw [← sum]
  bv_omega

@[simp] theorem sectorHdrDataSize_eq : SECTOR_HDR_DATA_SIZE = w32 80 := by decide

@[simp] theorem logIdxDataSize_eq : LOG_IDX_DATA_SIZE = w32 32 := by decide

/-- A length rounded up to whole words. -/
def wholeWords (n : Nat) : Nat := (n + 3) / 4 * 4

theorem fdbWgAlign_eq {w : Word} (small : w.toNat + 3 < 2 ^ 32) :
    fdbWgAlign w = w32 (wholeWords w.toNat) := by
  have size : (w + 4 - 1).toNat = w.toNat + 3 := by
    bv_omega
  have rest : ((w + 4 - 1) % 4).toNat = (w.toNat + 3) % 4 := by
    rw [BitVec.toNat_umod, size]
    rfl
  apply BitVec.eq_of_toNat_eq
  change ((w + 4 - 1) - (w + 4 - 1) % 4).toNat = _
  rw [BitVec.toNat_sub, size, rest, toNat_w32 (by unfold wholeWords; omega)]
  unfold wholeWords
  omega

/-- Where a sector begins. -/
def secStart (s : Nat) : Nat := 2048 * s

/-- The index address of the `i`-th log of a sector. -/
def slotAddr (s i : Nat) : Nat := secStart s + 80 + 32 * i

/-! ### Status tables -/

/-- A table that shows `k` and whose cells from there on are erased. -/
structure TableAt (V : Memory) (a num k : Nat) : Prop where
  shows : shown V a num = k
  clear : ∀ i, 4 * k ≤ i → i < 4 * (num - 1) → V (a + i) = 0xFF

section Tables

variable {V V' : Memory} {a num k : Nat}

theorem TableAt.congr (table : TableAt V a num k)
    (same : ∀ i < 4 * (num - 1), V' (a + i) = V (a + i)) :
    TableAt V' a num k := by
  constructor
  · rw [← table.shows]
    exact statusAt_congr fun i low => same (4 * i) (by omega)
  · intro i high low
    rw [same i low]
    exact table.clear i high low

theorem TableAt.erased (ones : ∀ i < 4 * (num - 1), V (a + i) = 0xFF) : TableAt V a num 0 := by
  constructor
  · refine statusAt_clear fun i low => ?_
    rw [ones (4 * i) (by omega)]
    decide
  · intro i _ low
    exact ones i low

/-- Marking a cell that is still erased raises the status. -/
theorem TableAt.mark (table : TableAt V a num k) {j : Nat} (next : k ≤ j) (inside : j + 1 < num) :
    TableAt (fill V (a + 4 * j) 4 markWord) a num (j + 1) := by
  constructor
  · have marked := statusAt_mark (m := V) (a := a) (n := num - 1) (k := j) markWord
      (show 0 < 4 by omega) (by omega) (show markWord 0 = FDB_BYTE_WRITTEN from rfl)
    have before := table.shows
    unfold shown at *
    omega
  · intro i high low
    rw [fill_outside (by omega)]
    exact table.clear i (by omega) low

end Tables

/-! ### Logs -/

/-- A log that has been written: the first `size` bytes of `data`. -/
structure Record where
  status : TslStatus
  time : FdbTime
  size : Word
  data : Memory

/-- What a place in the index holds: a log, or one whose writing was cut off. -/
inductive Slot where
  | torn
  | saved (record : Record)

/-- The room a log takes from the end of its sector; a torn one counts as the longest. -/
def Slot.room (maxLen : Word) : Slot → Nat
  | .torn => wholeWords maxLen.toNat
  | .saved r => wholeWords r.size.toNat

def used (maxLen : Word) (slots : List Slot) : Nat := (slots.map (Slot.room maxLen)).sum

/-- What logs take of the 1968 bytes behind the header, with their index entries. -/
def total (maxLen : Word) (slots : List Slot) : Nat := 32 * slots.length + used maxLen slots

/-- A log at the index address `a`, whose data ends before `d`. -/
structure SavedAt (V : Memory) (a d : Nat) (r : Record) : Prop where
  table : TableAt V a FDB_TSL_STATUS_NUM r.status.index
  written : 2 ≤ r.status.index
  time : wordAt V (a + 20) = r.time
  size : wordAt V (a + 24) = r.size
  log : wordAt V (a + 28) = w32 (d - wholeWords r.size.toNat)
  data : ∀ j < r.size.toNat, V (d - wholeWords r.size.toNat + j) = r.data j

def SlotAt (V : Memory) (a d : Nat) : Slot → Prop
  | .torn => TableAt V a FDB_TSL_STATUS_NUM 1
  | .saved r => SavedAt V a d r

section Lists

variable {maxLen : Word} {slots : List Slot} {e : Slot}

@[simp] theorem used_nil : used maxLen [] = 0 := rfl

@[simp] theorem used_append (slots more : List Slot) :
    used maxLen (slots ++ more) = used maxLen slots + used maxLen more := by
  simp [used]

@[simp] theorem used_singleton : used maxLen [e] = e.room maxLen := by
  simp [used]

@[simp] theorem total_nil : total maxLen [] = 0 := rfl

theorem total_snoc : total maxLen (slots ++ [e]) = total maxLen slots + 32 + e.room maxLen := by
  simp only [total, List.length_append, used_append, used_singleton, List.length_singleton]
  omega

theorem total_take_succ (maxLen : Word) {i : Nat} (here : slots[i]? = some e) :
    total maxLen (slots.take (i + 1)) = total maxLen (slots.take i) + 32 + e.room maxLen := by
  rw [List.take_add_one, here]
  exact total_snoc

theorem used_take_succ (maxLen : Word) {i : Nat} (here : slots[i]? = some e) :
    used maxLen (slots.take (i + 1)) = used maxLen (slots.take i) + e.room maxLen := by
  rw [List.take_add_one, here, used_append]
  simp

end Lists

/-- The logs of a sector: each in its place, its data behind the data of the later ones, and
room for each where the ones before it end. -/
structure SlotsAt (maxLen : Word) (V : Memory) (s : Nat) (slots : List Slot) : Prop where
  each : ∀ i e, slots[i]? = some e →
    SlotAt V (slotAddr s i) (secStart (s + 1) - used maxLen (slots.take i)) e
  fits : ∀ i < slots.length, total maxLen (slots.take i) + 32 ≤ 1968
  savedFits : ∀ i r, slots[i]? = some (.saved r) → total maxLen (slots.take (i + 1)) ≤ 1968

/-! ### What is read -/

/-- A database whose sizes `_fdb_init_ex` has set, with room for the longest log in a sector;
the last bound is not checked anywhere. -/
structure Opened (db : FdbTsdb) : Prop where
  stored : Stored db.parent
  secSize : db.parent.secSize = w32 2048
  maxSize : db.parent.maxSize = w32 129024
  roomy : wholeWords db.maxLen.toNat ≤ 1936

/-- The log that reading an index entry gives. -/
def tslAt (maxLen : Word) (V : Memory) (a : Nat) : FdbTsl :=
  let status : TslStatus := .ofIndex (shown V a FDB_TSL_STATUS_NUM)
  if status = .preWrite ∨ status = .unused then
    { status := status, logLen := maxLen, log := FDB_DATA_UNUSED, time := 0, index := w32 a }
  else
    { status := status, logLen := wordAt V (a + 24), log := wordAt V (a + 28),
      time := wordAt V (a + 20), index := w32 a }

/-- The values that a sector's header gives, over those that the structure held. -/
def openedInfo (V : Memory) (s : Nat) (sector : TsdbSecInfo) : TsdbSecInfo :=
  let stat0 : TslStatus := .ofIndex (shown V (secStart s + 28) FDB_TSL_STATUS_NUM)
  let stat1 : TslStatus := .ofIndex (shown V (secStart s + 56) FDB_TSL_STATUS_NUM)
  { sector with
    addr := w32 (secStart s)
    magic := SECTOR_MAGIC_WORD
    checkOk := true
    status := .ofIndex (shown V (secStart s) FDB_SECTOR_STORE_STATUS_NUM)
    startTime := wordAt V (secStart s + 16)
    endInfoStat0 := stat0
    endInfoStat1 := stat1
    endTime := if stat0 = .write then wordAt V (secStart s + 20)
      else if stat1 = .write then wordAt V (secStart s + 48) else sector.endTime
    endIdx := if stat0 = .write then wordAt V (secStart s + 24)
      else if stat1 = .write then wordAt V (secStart s + 52) else sector.endIdx
    emptyIdx := w32 (slotAddr s 0)
    emptyData := w32 (secStart (s + 1))
    remain := w32 1968 }

/-- Both end infos of a sector were begun and not finished: reading its header never ends. -/
def Stuck (V : Memory) (s : Nat) : Prop :=
  TslStatus.ofIndex (shown V (secStart s + 28) FDB_TSL_STATUS_NUM) = .preWrite ∧
    TslStatus.ofIndex (shown V (secStart s + 56) FDB_TSL_STATUS_NUM) = .preWrite

section Reads

variable {V : Memory} {n : Nat}

private theorem wordAt_copied {junk : Memory} {a off : Nat} (inside : off + 4 ≤ n) :
    wordAt (fill junk 0 n fun i => V (a + i)) off = wordAt V (a + off) := by
  refine wordAt_same fun i low => ?_
  rw [fill_inside (by omega) (by omega)]
  congr 1
  omega

private theorem shown_copied (V junk : Memory) (a off num : Nat) (inside : off + 4 * num ≤ n) :
    fdbGetStatus (fun i => (fill junk 0 n fun i => V (a + i)) (off + i)) num =
      shown V (a + off) num := by
  rw [fdbGetStatus_eq]
  refine highest_congr fun i low => ?_
  have byte : fill junk 0 n (fun i => V (a + i)) (off + (0 + 4 * i)) = V (a + off + 4 * i) := by
    rw [fill_inside (by omega) (by omega)]
    congr 1
    omega
  simp only [byte]

variable (env : Environment) (junk m : Memory) {db : FdbTsdb}

/-- Reading an index entry inside the partition. -/
theorem readTsl_eq (opened : Opened db) {a : Nat} (inside : a + 32 ≤ partLen) :
    readTsl env junk m db (w32 a) = tslAt db.maxLen (view db.parent.part m) a := by
  have length : partLen = 129024 := rfl
  have place : (w32 a).toNat = a := toNat_w32 (by omega)
  have size : (32 : Word).toNat = 32 := rfl
  have read := fdbFlashRead_eq env opened.stored (w32 a) 32 (by rw [place, size]; omega) m junk
  rw [place, size] at read
  have table := shown_copied (n := 32) (view db.parent.part m) junk a 0 FDB_TSL_STATUS_NUM
    (by decide)
  simp only [Nat.zero_add, Nat.add_zero] at table
  rw [readTsl, tslAt, read]
  simp only [table, wordAt_copied (show 20 + 4 ≤ 32 by omega),
    wordAt_copied (show 24 + 4 ≤ 32 by omega), wordAt_copied (show 28 + 4 ≤ 32 by omega)]

private theorem header_read (opened : Opened db) {s : Nat} (low : s < 63) :
    (fdbFlashRead env m db.parent (w32 (secStart s)) junk 80).2 =
      fill junk 0 80 fun i => view db.parent.part m (secStart s + i) := by
  have place : (w32 (secStart s)).toNat = secStart s :=
    toNat_w32 (by unfold secStart; omega)
  have size : (80 : Word).toNat = 80 := rfl
  have read := fdbFlashRead_eq env opened.stored (w32 (secStart s)) 80
    (by rw [place, size]; unfold secStart partLen; omega) m junk
  rw [place, size] at read
  rw [read]

/-- A sector without the magic word is not read any further. -/
theorem readSectorInfo_unformatted (opened : Opened db) {s : Nat} (low : s < 63)
    (magic : wordAt (view db.parent.part m) (secStart s + 12) ≠ SECTOR_MAGIC_WORD)
    (sector : TsdbSecInfo) (traversal : Bool) :
    readSectorInfo env junk m db (w32 (secStart s)) sector traversal =
      some (.initFailed, { sector with
        addr := w32 (secStart s)
        magic := wordAt (view db.parent.part m) (secStart s + 12)
        checkOk := false }) := by
  rw [readSectorInfo, header_read env junk m opened low]
  simp only [wordAt_copied (show 12 + 4 ≤ 80 by omega)]
  rw [if_pos magic]

/-- The header of a formatted sector, and its logs where they are asked for. -/
theorem readSectorInfo_eq (opened : Opened db) {s : Nat} (low : s < 63)
    (magic : wordAt (view db.parent.part m) (secStart s + 12) = SECTOR_MAGIC_WORD)
    (free : ¬Stuck (view db.parent.part m) s) (sector : TsdbSecInfo) (traversal : Bool) :
    readSectorInfo env junk m db (w32 (secStart s)) sector traversal =
      if (openedInfo (view db.parent.part m) s sector).status = .storeUsing ∧ traversal then
        traverseTsl env junk m db loopFuel (w32 (slotAddr s 0))
          (openedInfo (view db.parent.part m) s sector)
      else some (.noErr, openedInfo (view db.parent.part m) s sector) := by
  have store := shown_copied (n := 80) (view db.parent.part m) junk (secStart s) 0
    FDB_SECTOR_STORE_STATUS_NUM (by decide)
  simp only [Nat.zero_add, Nat.add_zero] at store
  have first : w32 (secStart s) + w32 80 = w32 (slotAddr s 0) := w32_add _ _
  have last : w32 (secStart s) + w32 2048 = w32 (secStart (s + 1)) := w32_add _ _
  have room : w32 (secStart (s + 1)) - w32 (slotAddr s 0) = w32 1968 := by
    rw [← last, ← first]
    bv_omega
  unfold Stuck at free
  rw [readSectorInfo, header_read env junk m opened low]
  simp only [wordAt_copied (show 12 + 4 ≤ 80 by omega), magic, ne_eq, not_true_eq_false, if_false,
    shown_copied _ _ _ _ _ (show 28 + 4 * FDB_TSL_STATUS_NUM ≤ 80 by decide),
    shown_copied _ _ _ _ _ (show 56 + 4 * FDB_TSL_STATUS_NUM ≤ 80 by decide), store, if_neg free,
    wordAt_copied (show 16 + 4 ≤ 80 by omega), wordAt_copied (show 20 + 4 ≤ 80 by omega),
    wordAt_copied (show 24 + 4 ≤ 80 by omega), wordAt_copied (show 48 + 4 ≤ 80 by omega),
    wordAt_copied (show 52 + 4 ≤ 80 by omega), opened.secSize, sectorHdrDataSize_eq, first, last,
    room]
  rfl

/-! ### Logs as they are read -/

theorem TslStatus.ofIndex_index (status : TslStatus) : TslStatus.ofIndex status.index = status := by
  cases status <;> rfl

/-- The log that is read where a slot is stored. -/
def Slot.tsl (maxLen : Word) (a d : Nat) : Slot → FdbTsl
  | .torn =>
      { status := .preWrite, logLen := maxLen, log := FDB_DATA_UNUSED, time := 0, index := w32 a }
  | .saved r =>
      { status := r.status, logLen := r.size, log := w32 (d - wholeWords r.size.toNat),
        time := r.time, index := w32 a }

variable {maxLen : Word} {a d : Nat} {e : Slot}

theorem tslAt_slot (stored : SlotAt V a d e) : tslAt maxLen V a = e.tsl maxLen a d := by
  cases e with
  | torn =>
    have torn : TableAt V a FDB_TSL_STATUS_NUM 1 := stored
    simp only [tslAt, torn.shows]
    rfl
  | saved r =>
    have saved : SavedAt V a d r := stored
    have status : ¬(r.status = .preWrite ∨ r.status = .unused) := by
      have written := saved.written
      intro early
      rcases early with early | early <;> rw [early] at written <;> revert written <;> decide
    simp only [tslAt, saved.table.shows, TslStatus.ofIndex_index, if_neg status, saved.size,
      saved.log, saved.time]
    rfl

theorem tslAt_unused (clear : TableAt V a FDB_TSL_STATUS_NUM 0) :
    (tslAt maxLen V a).status = .unused := by
  simp only [tslAt, clear.shows]
  rfl

/-- A slot is not taken for the end of the logs. -/
theorem Slot.tsl_used (stored : SlotAt V a d e) : (e.tsl maxLen a d).status ≠ .unused := by
  cases e with
  | torn =>
    exact fun unused => TslStatus.noConfusion (show TslStatus.preWrite = .unused from unused)
  | saved r =>
    have written := (show SavedAt V a d r from stored).written
    intro unused
    rw [show r.status = .unused from unused] at written
    revert written
    decide

/-- The time of a log that was saved; a torn one leaves the time before. -/
def Slot.timeFrom (before : FdbTime) : Slot → FdbTime
  | .torn => before
  | .saved r => r.time

/-- The time of the last log saved, behind an earlier one. -/
def lastTimeOf (before : FdbTime) (slots : List Slot) : FdbTime := slots.foldl Slot.timeFrom before

/-- The structure behind a traversal of all logs of a sector. -/
def traversed (maxLen : Word) (s : Nat) (slots : List Slot) (sector : TsdbSecInfo) : TsdbSecInfo :=
  { sector with
    endTime := lastTimeOf sector.endTime slots
    endIdx := if slots = [] then sector.endIdx else w32 (slotAddr s (slots.length - 1))
    emptyIdx := w32 (slotAddr s slots.length)
    emptyData := w32 (secStart (s + 1)) - w32 (used maxLen slots)
    remain := w32 (1968 - total maxLen slots) }

theorem Slot.room_eq (maxLen : Word) (a d : Nat) (e : Slot) (small : 32 + e.room maxLen < 2 ^ 32) :
    LOG_IDX_DATA_SIZE + fdbWgAlign (e.tsl maxLen a d).logLen = w32 (32 + e.room maxLen) ∧
      fdbWgAlign (e.tsl maxLen a d).logLen = w32 (e.room maxLen) := by
  have aligned : fdbWgAlign (e.tsl maxLen a d).logLen = w32 (e.room maxLen) := by
    cases e with
    | torn =>
      change 32 + wholeWords maxLen.toNat < 2 ^ 32 at small
      change fdbWgAlign maxLen = w32 (wholeWords maxLen.toNat)
      exact fdbWgAlign_eq (by unfold wholeWords at small; omega)
    | saved r =>
      change 32 + wholeWords r.size.toNat < 2 ^ 32 at small
      change fdbWgAlign r.size = w32 (wholeWords r.size.toNat)
      exact fdbWgAlign_eq (by unfold wholeWords at small; omega)
  exact ⟨by rw [aligned, logIdxDataSize_eq, w32_add], aligned⟩

theorem SlotsAt.room_le (slots : List Slot) {s : Nat} (stored : SlotsAt maxLen V s slots)
    (roomy : wholeWords maxLen.toNat ≤ 1936) {i : Nat} (here : slots[i]? = some e) :
    e.room maxLen ≤ 1936 := by
  cases e with
  | torn => exact roomy
  | saved r =>
    have fits := stored.savedFits i r here
    rw [total_take_succ maxLen here] at fits
    omega

/-- One turn of the traversal: the structure goes from `i` logs to one more. -/
private theorem traversed_step (slots : List Slot) {s i : Nat} (sector : TsdbSecInfo)
    (here : slots[i]? = some e) (written : ∀ r, e = .saved r → r.status ≠ .preWrite)
    (bound : e.room maxLen ≤ 1936) (d : Nat) :
    { traversed maxLen s (slots.take i) sector with
      endTime := if (e.tsl maxLen (slotAddr s i) d).status = .preWrite then
        (traversed maxLen s (slots.take i) sector).endTime
        else (e.tsl maxLen (slotAddr s i) d).time
      endIdx := w32 (slotAddr s i)
      emptyIdx := (traversed maxLen s (slots.take i) sector).emptyIdx + LOG_IDX_DATA_SIZE
      emptyData := (traversed maxLen s (slots.take i) sector).emptyData -
        fdbWgAlign (e.tsl maxLen (slotAddr s i) d).logLen
      remain := w32 (1968 - total maxLen (slots.take (i + 1))) } =
      traversed maxLen s (slots.take (i + 1)) sector := by
  have inside : i < slots.length := (List.getElem?_eq_some_iff.mp here).1
  have count (j : Nat) (low : j ≤ slots.length) : (slots.take j).length = j := by
    rw [List.length_take, Nat.min_eq_left low]
  have grown : slots.take (i + 1) = slots.take i ++ [e] := by
    rw [List.take_add_one, here]
    rfl
  have filled : slots.take (i + 1) ≠ [] := by
    rw [grown]
    simp
  have aligned := (e.room_eq maxLen (slotAddr s i) d (by omega)).2
  have time : (if (e.tsl maxLen (slotAddr s i) d).status = .preWrite then
      lastTimeOf sector.endTime (slots.take i) else (e.tsl maxLen (slotAddr s i) d).time) =
      lastTimeOf sector.endTime (slots.take (i + 1)) := by
    rw [grown, lastTimeOf, lastTimeOf, List.foldl_append]
    cases e with
    | torn => rfl
    | saved r => exact if_neg (written r rfl)
  have idx : w32 (slotAddr s i) + w32 32 = w32 (slotAddr s (i + 1)) := w32_add _ _
  have data : w32 (secStart (s + 1)) - w32 (used maxLen (slots.take i)) - w32 (e.room maxLen) =
      w32 (secStart (s + 1)) - w32 (used maxLen (slots.take (i + 1))) := by
    rw [used_take_succ maxLen here, ← w32_add]
    bv_omega
  simp only [traversed, count i (by omega), count (i + 1) inside, if_neg filled, aligned,
    logIdxDataSize_eq, Nat.add_sub_cancel, time, idx, data]

/-- The place behind the last log reads as unused, unless the sector is filled to the end. -/
def Ends (maxLen : Word) (V : Memory) (s : Nat) (slots : List Slot) : Prop :=
  total maxLen slots < 1968 → total maxLen slots + 32 ≤ 1968 ∧
    TableAt V (slotAddr s slots.length) FDB_TSL_STATUS_NUM 0

theorem SlotAt.written {r : Record} (stored : SlotAt V a d (.saved r)) : r.status ≠ .preWrite := by
  intro early
  have written := (show SavedAt V a d r from stored).written
  rw [early] at written
  revert written
  decide

theorem total_ge (maxLen : Word) (slots : List Slot) : 32 * slots.length ≤ total maxLen slots :=
  Nat.le_add_right _ _

theorem SlotsAt.inside {slots : List Slot} {s i : Nat} (stored : SlotsAt maxLen V s slots)
    (low : s < 63) (here : i < slots.length) : slotAddr s i + 32 ≤ partLen := by
  have fits := stored.fits i here
  have entries := total_ge maxLen (slots.take i)
  rw [List.length_take, Nat.min_eq_left (by omega)] at entries
  unfold slotAddr secStart partLen
  omega

/-- The traversal passes all the logs of a sector. -/
theorem traverseTsl_eq (opened : Opened db) {s : Nat} {slots : List Slot} (low : s < 63)
    (stored : SlotsAt db.maxLen (view db.parent.part m) s slots)
    (ends : Ends db.maxLen (view db.parent.part m) s slots) (sector : TsdbSecInfo)
    {fuel i : Nat} (inside : i ≤ slots.length) (enough : slots.length - i < fuel)
    (room : total db.maxLen (slots.take i) < 1968) :
    ∃ err, traverseTsl env junk m db fuel (w32 (slotAddr s i))
        (traversed db.maxLen s (slots.take i) sector) =
      some (err, traversed db.maxLen s slots sector) := by
  induction fuel generalizing i with
  | zero => omega
  | succ fuel ih =>
    rcases Nat.lt_or_eq_of_le inside with more | rfl
    · obtain ⟨e, here⟩ : ∃ e, slots[i]? = some e := ⟨_, List.getElem?_eq_getElem more⟩
      have place := stored.each i e here
      have bound := stored.room_le slots opened.roomy here
      have taken := total_take_succ db.maxLen here
      have need := (e.room_eq db.maxLen (slotAddr s i)
        (secStart (s + 1) - used db.maxLen (slots.take i)) (by omega)).1
      have step := traversed_step slots (s := s) sector here
        (fun r saved => SlotAt.written (saved ▸ place)) bound
        (secStart (s + 1) - used db.maxLen (slots.take i))
      have next : w32 (slotAddr s i) + LOG_IDX_DATA_SIZE = w32 (slotAddr s (i + 1)) := by
        rw [logIdxDataSize_eq]
        exact w32_add _ _
      rw [traverseTsl, readTsl_eq env junk m opened (stored.inside low more), tslAt_slot place]
      simp only [if_neg (Slot.tsl_used place), need, next]
      have remain : (traversed db.maxLen s (slots.take i) sector).remain =
        w32 (1968 - total db.maxLen (slots.take i)) := rfl
      by_cases goesOn : total db.maxLen (slots.take (i + 1)) < 1968
      · have less : w32 (32 + e.room db.maxLen) < w32 (1968 - total db.maxLen (slots.take i)) := by
          rw [BitVec.lt_def, toNat_w32 (by omega), toNat_w32 (by omega)]
          omega
        have rest : w32 (1968 - total db.maxLen (slots.take i)) - w32 (32 + e.room db.maxLen) =
            w32 (1968 - total db.maxLen (slots.take (i + 1))) := by
          rw [w32_sub (by omega)]
          congr 1
          omega
        rw [remain, if_pos less, rest, step]
        exact ih more (by omega) goesOn
      · have full : ¬w32 (32 + e.room db.maxLen) <
            w32 (1968 - total db.maxLen (slots.take i)) := by
          rw [BitVec.lt_def, toNat_w32 (by omega), toNat_w32 (by omega)]
          omega
        have last : slots.take (i + 1) = slots := by
          rcases Nat.lt_or_eq_of_le (show i + 1 ≤ slots.length from more) with another | ended
          · have fits := stored.fits (i + 1) another
            omega
          · rw [ended, List.take_length]
        have none : (0 : Word) = w32 (1968 - total db.maxLen (slots.take (i + 1))) := by
          rw [show 1968 - total db.maxLen (slots.take (i + 1)) = 0 by omega]
          rfl
        rw [remain, if_neg full, none, step, last]
        exact ⟨.readErr, rfl⟩
    · rw [List.take_length] at room ⊢
      obtain ⟨gap, clear⟩ := ends room
      have entries := total_ge db.maxLen slots
      rw [traverseTsl, readTsl_eq env junk m opened (by unfold slotAddr secStart partLen; omega),
        tslAt_unused clear]
      exact ⟨.noErr, if_pos rfl⟩

end Reads

end BmsFirmware.Flashdb.SectorLayout
