/- Module: BmsFirmware/Flashdb/Period
   Source: application/flashdb/src/fdb_tsdb.c
   Digest: Iterating by time visits the logs of a period, found by a binary search. -/

import BmsFirmware.Flashdb.Chronology
import BmsFirmware.Flashdb.Traversal

set_option autoImplicit false
set_option relaxedAutoImplicit false

namespace BmsFirmware.Flashdb.Period

open BmsFirmware.Library.ByteMemory
open BmsFirmware.Library.EarlyExit
open BmsFirmware.Flash.Controller
open BmsFirmware.Flashdb.Utils
open BmsFirmware.Flashdb.Storage
open BmsFirmware.Flashdb.Tsdb
open BmsFirmware.Flashdb.SectorLayout
open BmsFirmware.Flashdb.SectorWrites
open BmsFirmware.Flashdb.LogBook
open BmsFirmware.Flashdb.Appending
open BmsFirmware.Flashdb.Chronology
open BmsFirmware.Flashdb.Traversal

/-! ### The search in a sector -/

section Search

variable (env : Environment) (junk m : Memory) {db : FdbTsdb} {s : Nat} {slots : List Slot}
  {fromTime toTime : FdbTime}

/-- The middle of a range of index entries. -/
private theorem middle_addr {lo h : Nat} (low : s < 63) (room : slotAddr s h ≤ partLen)
    (order : lo < h) :
    w32 (slotAddr s lo) + fdbAlign ((w32 (secStart s + 48 + 32 * h) - w32 (slotAddr s lo)).sdiv 2)
      LOG_IDX_DATA_SIZE = w32 (slotAddr s (lo + (h - lo) / 2)) := by
  have length : partLen = 129024 := rfl
  have begin : secStart s = 2048 * s := rfl
  have place (i : Nat) : slotAddr s i = secStart s + 80 + 32 * i := rfl
  have top := place h
  have distance : w32 (secStart s + 48 + 32 * h) - w32 (slotAddr s lo) =
      w32 (32 * (h - 1 - lo)) := by
    rw [place, w32_sub (by omega)]
    congr 1
    omega
  have half : (w32 (32 * (h - 1 - lo))).sdiv 2 = w32 (16 * (h - 1 - lo)) := by
    have small : (w32 (32 * (h - 1 - lo))).toNat = 32 * (h - 1 - lo) := toNat_w32 (by omega)
    have positive : (w32 (32 * (h - 1 - lo))).msb = false :=
      BitVec.msb_eq_false_iff_two_mul_lt.mpr (by omega)
    rw [BitVec.sdiv_eq, positive]
    change w32 (32 * (h - 1 - lo)) / 2 = _
    apply BitVec.eq_of_toNat_eq
    rw [BitVec.toNat_udiv, small, toNat_w32 (by omega)]
    change 32 * (h - 1 - lo) / 2 = _
    omega
  have whole : fdbAlign (w32 (16 * (h - 1 - lo))) LOG_IDX_DATA_SIZE =
      w32 (32 * ((h - lo) / 2)) := by
    have one : (1 : Word) = w32 1 := rfl
    have size : w32 (16 * (h - 1 - lo)) + w32 32 - w32 1 = w32 (16 * (h - 1 - lo) + 31) := by
      rw [w32_add, w32_sub (by omega)]
      rfl
    have rest : w32 (16 * (h - 1 - lo) + 31) % w32 32 = w32 ((16 * (h - 1 - lo) + 31) % 32) := by
      apply BitVec.eq_of_toNat_eq
      rw [BitVec.toNat_umod, toNat_w32 (by omega), toNat_w32 (by omega), toNat_w32 (by omega)]
    rw [fdbAlign, logIdxDataSize_eq, one, size, rest, w32_sub (by omega)]
    congr 1
    omega
  rw [distance, half, whole, w32_add]
  congr 1
  have := place (lo + (h - lo) / 2)
  have := place lo
  omega

private theorem slot_up (s c : Nat) :
    w32 (slotAddr s c) + LOG_IDX_DATA_SIZE = w32 (slotAddr s (c + 1)) := by
  rw [logIdxDataSize_eq]
  exact w32_add _ _

private theorem slot_down {c : Nat} (room : slotAddr s c ≤ partLen) :
    w32 (slotAddr s c) - LOG_IDX_DATA_SIZE = w32 (secStart s + 48 + 32 * c) := by
  have length : partLen = 129024 := rfl
  have place : slotAddr s c = secStart s + 80 + 32 * c := rfl
  rw [logIdxDataSize_eq, w32_sub (by omega)]
  congr 1
  omega

/-- A range of index entries is empty where its last one is in front of its first one. -/
private theorem range_empty {lo h : Nat} (room : slotAddr s lo ≤ partLen)
    (room' : slotAddr s h ≤ partLen) :
    (w32 (secStart s + 48 + 32 * h)).toInt < (w32 (slotAddr s lo)).toInt ↔ h ≤ lo := by
  have length : partLen = 129024 := rfl
  have first : slotAddr s lo = secStart s + 80 + 32 * lo := rfl
  have last : slotAddr s h = secStart s + 80 + 32 * h := rfl
  rw [BitVec.toInt_eq_toNat_of_lt (by rw [toNat_w32 (by omega)]; omega),
    BitVec.toInt_eq_toNat_of_lt (by rw [toNat_w32 (by omega)]; omega), toNat_w32 (by omega),
    toNat_w32 (by omega)]
  omega

/-- The logs below `k` are earlier than the time, those from `k` on are not. -/
structure Split (times : Nat → Int) (n : Nat) (time : Int) (k : Nat) : Prop where
  bound : k ≤ n
  below : ∀ i < k, times i < time
  above : ∀ i, k ≤ i → i < n → time ≤ times i

/-- The time of the `i`-th log of a sector. -/
def timeAt (maxLen : Word) (s : Nat) (slots : List Slot) (i : Nat) : Int :=
  (((tslsOf maxLen s slots)[i]?.map FdbTsl.time).getD 0).toInt

private theorem timeAt_read (opened : Opened db) (low : s < 63)
    (stored : SlotsAt db.maxLen (view db.parent.part m) s slots) {c : Nat}
    (bound : c < slots.length) :
    (readTsl env junk m db (w32 (slotAddr s c))).time.toInt = timeAt db.maxLen s slots c := by
  have listed : c < (tslsOf db.maxLen s slots).length := by
    rwa [length_tslsOf]
  have here := List.getElem?_eq_getElem listed
  rw [(readTsl_slot env junk m opened low stored here).1, timeAt, here]
  rfl

/-- The search ends at the first log that is not earlier than the time it looks for; backwards it
may end in front of that. -/
theorem searchStartTslAddr_eq (fromTime toTime : FdbTime) (opened : Opened db) (low : s < 63)
    (stored : SlotsAt db.maxLen (view db.parent.part m) s slots)
    (ordered : ∀ i j, i < j → j < slots.length →
      timeAt db.maxLen s slots i < timeAt db.maxLen s slots j)
    {fuel lo h : Nat} (order : lo < h) (inside : h ≤ slots.length) (enough : h - lo ≤ fuel)
    (below : ∀ i < lo, timeAt db.maxLen s slots i < fromTime.toInt)
    (above : ∀ i, h ≤ i → i < slots.length → fromTime.toInt < timeAt db.maxLen s slots i) :
    ∃ k, Split (timeAt db.maxLen s slots) slots.length fromTime.toInt k ∧
      searchStartTslAddr env junk m db fromTime toTime fuel (w32 (slotAddr s lo))
          (w32 (secStart s + 48 + 32 * h)) =
        some (if toTime.toInt < fromTime.toInt ∧
            fromTime.toInt < (readTsl env junk m db (w32 (slotAddr s k))).time.toInt then
          w32 (slotAddr s k) - LOG_IDX_DATA_SIZE else w32 (slotAddr s k)) := by
  induction fuel generalizing lo h with
  | zero => omega
  | succ fuel ih =>
    have mid : lo + (h - lo) / 2 < slots.length := by omega
    have read := timeAt_read env junk m opened low stored mid
    have last := stored.inside low (show slots.length - 1 < slots.length by omega)
    have room (i : Nat) (bound : i ≤ slots.length) : slotAddr s i ≤ partLen := by
      unfold slotAddr at *
      omega
    have empty {lo h : Nat} (inside : h ≤ slots.length) (inside' : lo ≤ slots.length) :=
      range_empty (room lo inside') (room h inside)
    obtain ⟨c, middle⟩ : ∃ c, c = lo + (h - lo) / 2 := ⟨_, rfl⟩
    rw [searchStartTslAddr, middle_addr low (room h inside) order]
    rw [← middle] at mid read ⊢
    have up := slot_up s c
    have down := slot_down (room c (Nat.le_of_lt mid))
    have later (i : Nat) (high : c < i) (bound : i < slots.length) :=
      ordered c i high bound
    have earlier (i : Nat) (less : i < c) := ordered i c less mid
    simp only [read, up, down]
    rcases Int.lt_trichotomy (timeAt db.maxLen s slots c) fromTime.toInt with less | same | more
    · have lower : ∀ i < c + 1, timeAt db.maxLen s slots i < fromTime.toInt := by
        intro i hi
        rcases Nat.lt_succ_iff_lt_or_eq.mp hi with before | rfl
        · exact Int.lt_trans (earlier i before) less
        · exact less
      have different : ¬timeAt db.maxLen s slots c = fromTime.toInt := by omega
      have notMore : ¬fromTime.toInt < timeAt db.maxLen s slots c := by omega
      simp only [if_neg different, if_pos less, if_neg notMore]
      by_cases done : h ≤ c + 1
      · refine ⟨c + 1, ⟨by omega, lower, fun i left right => ?_⟩, ?_⟩
        · exact Int.le_of_lt (above i (by omega) right)
        · rw [if_pos ((empty inside (by omega)).mpr done)]
          split <;> rfl
      · rw [if_neg fun crossed => done ((empty inside (by omega)).mp crossed)]
        exact ih (by omega) inside (by omega) lower above
    · refine ⟨c, ⟨by omega, fun i hi => ?_, fun i left right => ?_⟩, ?_⟩
      · have := earlier i hi
        omega
      · rcases Nat.lt_or_eq_of_le left with high | rfl
        · have := later i high right
          omega
        · omega
      · rw [if_pos same, if_neg fun both => by omega]
    · have upper : ∀ i, c ≤ i → i < slots.length → fromTime.toInt < timeAt db.maxLen s slots i := by
        intro i left right
        rcases Nat.lt_or_eq_of_le left with high | rfl
        · exact Int.lt_trans more (later i high right)
        · exact more
      have different : ¬timeAt db.maxLen s slots c = fromTime.toInt := by omega
      have notLess : ¬timeAt db.maxLen s slots c < fromTime.toInt := by omega
      simp only [if_neg different, if_neg notLess, if_pos more]
      by_cases done : c ≤ lo
      · have first : c = lo := by omega
        refine ⟨lo, ⟨by omega, below, fun i left right => ?_⟩, ?_⟩
        · exact Int.le_of_lt (upper i (by omega) right)
        · rw [if_pos ((empty (by omega) (by omega)).mpr done)]
          split <;> rfl
      · rw [if_neg fun crossed => done ((empty (by omega) (by omega)).mp crossed)]
        exact ih (by omega) (by omega) (by omega) below upper

end Search

/-! ### Times of the logs -/

section Times

variable {maxLen : Word} {s : Nat} {slots : List Slot} {book : Book}

theorem tsl_time (maxLen : Word) (a d : Nat) (e : Slot) :
    (e.tsl maxLen a d).time.toInt = timeOf e := by
  cases e <;> rfl

theorem times_tslsFrom (maxLen : Word) (a d : Nat) (slots : List Slot) :
    (tslsFrom maxLen a d slots).map (fun tsl => tsl.time.toInt) = slots.map timeOf := by
  induction slots generalizing a d with
  | nil => rfl
  | cons e rest ih => rw [tslsFrom, List.map_cons, List.map_cons, ih, tsl_time]

/-- The logs that are visited have the times of the book's logs. -/
theorem times_tsls (maxLen : Word) (book : Book) :
    (tsls maxLen book).map (fun tsl => tsl.time.toInt) = book.logs.map timeOf := by
  rw [tsls, List.map_flatMap, ← book.flatMap_pages, List.map_flatMap]
  exact congrArg (fun f => (List.range 63).flatMap f) (funext fun o => times_tslsFrom _ _ _ _)

theorem tsls_ordered (maxLen : Word) (dated : Dated book) :
    (tsls maxLen book).Pairwise fun tsl tsl' => tsl.time.toInt < tsl'.time.toInt := by
  have times : ((tsls maxLen book).map fun tsl => tsl.time.toInt).Pairwise (· < ·) := by
    rw [times_tsls, List.pairwise_map]
    exact dated.ordered
  exact List.pairwise_map.mp times

theorem timeAt_eq {i : Nat} {e : Slot} (here : slots[i]? = some e) :
    timeAt maxLen s slots i = timeOf e := by
  rw [timeAt, getElem?_tslsOf _ _ here]
  exact tsl_time _ _ _ _

/-- The end time of a sector is the time of its last log. -/
theorem endTime_eq (maxLen : Word) (s : Nat) {sec : Sector} (intact : ∀ e ∈ sec.slots, e ≠ .torn) :
    sec.endTime.toInt = timeAt maxLen s sec.slots (sec.slots.length - 1) := by
  rcases List.eq_nil_or_concat sec.rest with none | ⟨rest, e, last⟩
  · have slots : sec.slots = [.saved sec.first] := by
      rw [Sector.slots, none]
    rw [Sector.endTime, none, slots]
    exact (timeAt_eq (e := .saved sec.first) rfl).symm
  · rw [List.concat_eq_append] at last
    have slots : sec.slots = (.saved sec.first :: rest) ++ [e] := by
      rw [Sector.slots, last]
      rfl
    have here : sec.slots[sec.slots.length - 1]? = some e := by
      rw [slots, List.length_append, List.length_singleton, Nat.add_sub_cancel,
        List.getElem?_concat_length]
    rw [timeAt_eq here, Sector.endTime, last, lastTimeOf, List.foldl_append]
    cases e with
    | torn => exact absurd rfl (intact .torn (by rw [slots]; simp))
    | saved r => rfl

/-- The logs of the `o`-th page. -/
def tslsAt (maxLen : Word) (book : Book) (o : Nat) : List FdbTsl :=
  tslsOf maxLen (book.place o) (book.page o).slots

theorem page_ordered (maxLen : Word) (dated : Dated book) {o : Nat} (low : o < 63) :
    (tslsAt maxLen book o).Pairwise fun tsl tsl' => tsl.time.toInt < tsl'.time.toInt :=
  (List.pairwise_flatMap.mp (tsls_ordered maxLen dated)).1 o (List.mem_range.mpr low)

theorem pages_ordered (dated : Dated book) {o o' : Nat} (order : o < o') (low : o' < 63)
    {tsl tsl' : FdbTsl} (here : tsl ∈ tslsAt maxLen book o) (there : tsl' ∈ tslsAt maxLen book o') :
    tsl.time.toInt < tsl'.time.toInt := by
  have pages := (List.pairwise_flatMap.mp (tsls_ordered maxLen dated)).2
  have pair := List.pairwise_iff_getElem.mp pages o o' (by rw [List.length_range]; omega)
    (by rw [List.length_range]; omega) order
  rw [List.getElem_range, List.getElem_range] at pair
  exact pair tsl here tsl' there

theorem page_intact (dated : Dated book) {o : Nat} (low : o < 63) :
    ∀ e ∈ (book.page o).slots, e ≠ .torn := by
  intro e listed
  refine dated.intact e ?_
  rw [← book.flatMap_pages]
  exact List.mem_flatMap.mpr ⟨o, List.mem_range.mpr low, listed⟩

theorem timeAt_getElem {i : Nat} (inside : i < (tslsOf maxLen s slots).length) :
    timeAt maxLen s slots i = (tslsOf maxLen s slots)[i].time.toInt := by
  rw [timeAt, List.getElem?_eq_getElem inside]
  rfl

theorem timeAt_ordered (ordered : (tslsOf maxLen s slots).Pairwise fun tsl tsl' =>
    tsl.time.toInt < tsl'.time.toInt) (i j : Nat) (order : i < j) (inside : j < slots.length) :
    timeAt maxLen s slots i < timeAt maxLen s slots j := by
  have bound : j < (tslsOf maxLen s slots).length := by rwa [length_tslsOf]
  rw [timeAt_getElem (Nat.lt_trans order bound), timeAt_getElem bound]
  exact List.pairwise_iff_getElem.mp ordered i j _ bound order

/-- The logs from the split on are those that are not earlier than the time. -/
theorem Split.filter {time : Int} {k : Nat}
    (split : Split (timeAt maxLen s slots) slots.length time k) :
    (tslsOf maxLen s slots).filter (fun tsl => time ≤ tsl.time.toInt) =
      (tslsOf maxLen s slots).drop k := by
  have length : (tslsOf maxLen s slots).length = slots.length := length_tslsOf
  have early : ((tslsOf maxLen s slots).take k).filter (fun tsl => time ≤ tsl.time.toInt) = [] := by
    refine List.filter_eq_nil_iff.mpr fun tsl listed => ?_
    obtain ⟨i, inside, rfl⟩ := List.mem_take_iff_getElem.mp listed
    have before := split.below i (by omega)
    rw [timeAt_getElem (by omega)] at before
    simpa using before
  have late : ((tslsOf maxLen s slots).drop k).filter (fun tsl => time ≤ tsl.time.toInt) =
      (tslsOf maxLen s slots).drop k := by
    refine List.filter_eq_self.mpr fun tsl listed => ?_
    obtain ⟨i, inside, rfl⟩ := List.mem_drop_iff_getElem.mp listed
    have behind := split.above (k + i) (by omega) (by omega)
    rw [timeAt_getElem (by omega)] at behind
    simpa [Nat.add_comm] using behind
  conv => lhs; rw [← List.take_append_drop k (tslsOf maxLen s slots)]
  rw [List.filter_append, early, late, List.nil_append]

end Times

/-! ### Iterating forwards by time -/

section Forward

variable {α : Type} {env : Environment} {junk m : Memory} {db : FdbTsdb} {book : Book}
  {fromTime toTime : FdbTime} {maxLen : Word} {V : Memory}

/-- What the forward visit does with a sector; the state says whether the first log wanted has been
found. -/
def stepForward (maxLen : Word) (book : Book) (fromTime toTime : FdbTime)
    (cb : FdbTsl → α → Bool × α) (o : Nat) (state : Bool × α) : Bool × (Bool × α) :=
  match sectorOf (book.page o) with
  | none => (true, state)
  | some sec =>
      if state.1 = true ∨ fromTime.toInt ≤ sec.endTime.toInt then
        let looped := visit (periodCb fromTime toTime cb)
          ((tslsAt maxLen book o).filter fun tsl => fromTime.toInt ≤ tsl.time.toInt) state.2
        (looped.1, (true, looped.2))
      else (false, state)

/-- Once the first log wanted has been found, all sectors from here on end later. -/
def FoundBefore (book : Book) (fromTime : FdbTime) (o : Nat) (state : Bool × α) : Prop :=
  state.1 = true → ∀ o', o ≤ o' → o' < 63 → ∀ sec, sectorOf (book.page o') = some sec →
    fromTime.toInt ≤ sec.endTime.toInt

/-- The first and the last log of a sector have its start and end times. -/
theorem sector_times (maxLen : Word) (dated : Dated book) {o : Nat} (low : o < 63) {sec : Sector}
    (held : sectorOf (book.page o) = some sec) :
    (book.page o).slots = sec.slots ∧
      sec.startTime.toInt = timeAt maxLen (book.place o) sec.slots 0 ∧
      sec.endTime.toInt = timeAt maxLen (book.place o) sec.slots (sec.slots.length - 1) ∧
      sec.startTime.toInt ≤ sec.endTime.toInt := by
  have slots : (book.page o).slots = sec.slots := by
    cases shape : book.page o <;> rw [shape] at held <;> cases held <;> rfl
  have intact := page_intact dated low
  have ordered := page_ordered maxLen dated low
  rw [tslsAt, slots] at ordered
  rw [slots] at intact
  have first : sec.startTime.toInt = timeAt maxLen (book.place o) sec.slots 0 :=
    (timeAt_eq (e := .saved sec.first) rfl).symm
  have last := endTime_eq maxLen (book.place o) intact
  refine ⟨slots, first, last, ?_⟩
  rw [first, last]
  rcases Nat.eq_zero_or_pos (sec.slots.length - 1) with one | more
  · exact Int.le_of_eq (by rw [one])
  · exact Int.le_of_lt (timeAt_ordered ordered 0 _ more (by have := sec.length_pos; omega))

/-- Forwards the first log may be in a sector that does not end before it. -/
theorem mayStart_forward (forward : fromTime.toInt ≤ toTime.toInt) (info : TsdbSecInfo)
    (times : info.startTime.toInt ≤ info.endTime.toInt) (isFirst : Bool) :
    mayStart fromTime toTime isFirst info = true ↔ fromTime.toInt ≤ info.endTime.toInt := by
  have notBackward : ¬toTime.toInt < fromTime.toInt := by omega
  simp only [mayStart, forward, notBackward, true_and, false_and, or_false, decide_eq_true_eq,
    Bool.decide_or, Bool.or_eq_true, Bool.decide_and, Bool.and_eq_true]
  constructor
  · rintro (⟨-, first⟩ | last)
    · omega
    · exact last
  · exact fun last => .inr last

/-- What `fdb_tsl_iter_by_time` does with a sector on its way forward. -/
def forwardTurn (env : Environment) (junk m : Memory) (db : FdbTsdb) (fromTime toTime : FdbTime)
    (cb : FdbTsl → α → Bool × α) (secAddr : Word) (sector : TsdbSecInfo) (state : Bool × α) :
    Option (Visit (Bool × α)) :=
  if sector.hasTsl = true then
    if state.1 = true ∨ mayStart fromTime toTime (secAddr = db.parent.oldestAddr)
        (currentInfo db sector) = true then do
      let first ← searchStartTslAddr env junk m db fromTime toTime loopFuel
        ((currentInfo db sector).addr + SECTOR_HDR_DATA_SIZE) (currentInfo db sector).endIdx
      let looped ← tslLoop env junk m db getNextTslAddr (currentInfo db sector)
        (periodCb fromTime toTime cb) loopFuel first state.2
      return ⟨looped.1, currentInfo db sector, (true, looped.2)⟩
    else return ⟨false, currentInfo db sector, state⟩
  else return ⟨sector.status = .storeEmpty, sector, state⟩

private theorem iterByTime_walk (forward : fromTime.toInt ≤ toTime.toInt) (stack : TsdbSecInfo)
    (cb : FdbTsl → α → Bool × α) (arg : α) :
    fdbTslIterByTime env junk m db stack fromTime toTime cb arg =
      (walkSectors env junk m db getNextSectorAddr
        (forwardTurn env junk m db fromTime toTime cb) loopFuel db.parent.oldestAddr 0 stack
        (false, arg)).map Prod.snd := by
  unfold fdbTslIterByTime
  simp only [if_pos forward, Option.map_eq_bind]
  rfl

private theorem forward_turn (memory : InMemory db book)
    (shows : OnFlash db.maxLen (view db.parent.part m) book) (dated : Dated book)
    (forward : fromTime.toInt ≤ toTime.toInt) (cb : FdbTsl → α → Bool × α) {o : Nat} (low : o < 63)
    (sector : TsdbSecInfo) (state : Bool × α) (found : FoundBefore book fromTime o state) :
    ∃ info sector',
      readSectorInfo env junk m db (w32 (secStart (book.place o))) sector false =
        some (.noErr, info) ∧ sector'.addr = w32 (secStart (book.place o)) ∧
      forwardTurn env junk m db fromTime toTime cb (w32 (secStart (book.place o))) info state =
        some ⟨(stepForward db.maxLen book fromTime toTime cb o state).1, sector',
          (stepForward db.maxLen book fromTime toTime cb o state).2⟩ := by
  have read := readSectorInfo_page env junk m memory.opened (book.place_lt o) (shows o low) sector
  cases held : sectorOf (book.page o) with
  | none =>
    have status := PageAt.openedInfo_status (shows o low) sector
    rw [slots_of_none held] at status
    refine ⟨_, openedInfo (view db.parent.part m) (book.place o) sector, read, rfl, ?_⟩
    rw [forwardTurn, TsdbSecInfo.hasTsl, status, stepForward, held]
    rfl
  | some sec =>
    obtain ⟨busy, covered, stored⟩ := covers memory shows low held sector
    obtain ⟨slots, first, last, order⟩ := sector_times db.maxLen dated low held
    have may := mayStart_forward forward
      (currentInfo db (openedInfo (view db.parent.part m) (book.place o) sector))
      (by rw [covered.startTime, covered.endTime]; exact order)
      (decide (w32 (secStart (book.place o)) = db.parent.oldestAddr))
    rw [covered.endTime] at may
    refine ⟨_, _, read, covered.addr, ?_⟩
    rw [forwardTurn, if_pos busy, stepForward, held]
    simp only [may]
    by_cases goes : state.1 = true ∨ fromTime.toInt ≤ sec.endTime.toInt
    · have ends : fromTime.toInt ≤ sec.endTime.toInt := by
        rcases goes with before | here
        · exact found before o (Nat.le_refl _) low sec held
        · exact here
      have ordered := page_ordered db.maxLen dated low
      rw [tslsAt, slots] at ordered
      have some := sec.length_pos
      have short := SlotsAt.length_le stored
      obtain ⟨k, split, searched⟩ := searchStartTslAddr_eq env junk m fromTime toTime memory.opened
        (book.place_lt o) stored (timeAt_ordered ordered) some
        (Nat.le_refl _) (show sec.slots.length - 0 ≤ loopFuel by unfold loopFuel; omega)
        (fun i low => absurd low (Nat.not_lt_zero i)) (fun i high inside => by omega)
      have inside : k < sec.slots.length := by
        by_contra beyond
        have := split.below (sec.slots.length - 1) (by omega)
        omega
      have firstAddr : (currentInfo db (openedInfo (view db.parent.part m) (book.place o)
          sector)).addr + SECTOR_HDR_DATA_SIZE = w32 (slotAddr (book.place o) 0) := by
        rw [covered.addr, sectorHdrDataSize_eq]
        exact w32_add _ _
      have lastAddr : (currentInfo db (openedInfo (view db.parent.part m) (book.place o)
          sector)).endIdx = w32 (secStart (book.place o) + 48 + 32 * sec.slots.length) := by
        rw [covered.endIdx]
        congr 1
        unfold slotAddr
        omega
      rw [if_neg fun both => by omega] at searched
      have loop := tslLoop_forward env junk m memory.opened (book.place_lt o) stored covered.busy
        covered.endIdx (periodCb fromTime toTime cb) inside
        (show sec.slots.length - k ≤ loopFuel by unfold loopFuel; omega) state.2
      rw [← split.filter] at loop
      rw [if_pos goes, if_pos goes, firstAddr, lastAddr, searched, tslsAt, slots]
      simp only [Option.bind_eq_bind, Option.bind_some, loop]
      rfl
    · rw [if_neg goes, if_neg goes]
      rfl

/-- The time of the last log of a sector, and the times up to it. -/
theorem endTime_spec (maxLen : Word) (dated : Dated book) {o : Nat} (low : o < 63) {sec : Sector}
    (held : sectorOf (book.page o) = some sec) :
    (∃ tsl ∈ tslsAt maxLen book o, tsl.time.toInt = sec.endTime.toInt) ∧
      ∀ tsl ∈ tslsAt maxLen book o, tsl.time.toInt ≤ sec.endTime.toInt := by
  obtain ⟨slots, -, last, -⟩ := sector_times maxLen dated low held
  have ordered := page_ordered maxLen dated low
  rw [tslsAt, slots] at ordered ⊢
  have length : (tslsOf maxLen (book.place o) sec.slots).length = sec.slots.length := length_tslsOf
  have some := sec.length_pos
  rw [timeAt_getElem (by omega)] at last
  refine ⟨⟨_, List.getElem_mem _, last.symm⟩, fun tsl listed => ?_⟩
  obtain ⟨i, inside, rfl⟩ := List.mem_iff_getElem.mp listed
  rw [last]
  rcases Nat.lt_or_ge i (sec.slots.length - 1) with before | here
  · exact Int.le_of_lt (List.pairwise_iff_getElem.mp ordered i _ inside (by omega) before)
  · obtain rfl : i = sec.slots.length - 1 := by omega
    exact Int.le_refl _

/-- Sectors end one after the other. -/
theorem endTimes_ordered (dated : Dated book) {o o' : Nat} (order : o < o') (low : o' < 63)
    {sec sec' : Sector} (held : sectorOf (book.page o) = some sec)
    (held' : sectorOf (book.page o') = some sec') :
    sec.endTime.toInt < sec'.endTime.toInt := by
  obtain ⟨⟨tsl, here, time⟩, -⟩ := endTime_spec 0 dated (Nat.lt_trans order low) held
  obtain ⟨⟨tsl', there, time'⟩, -⟩ := endTime_spec 0 dated low held'
  rw [← time, ← time']
  exact pages_ordered dated order low here there

theorem FoundBefore.next (dated : Dated book) {cb : FdbTsl → α → Bool × α} {o : Nat} (low : o < 63)
    {state : Bool × α} (found : FoundBefore book fromTime o state)
    (goesOn : (stepForward maxLen book fromTime toTime cb o state).1 = false) :
    FoundBefore book fromTime (o + 1) (stepForward maxLen book fromTime toTime cb o state).2 := by
  unfold stepForward at *
  cases held : sectorOf (book.page o) with
  | none =>
    rw [held] at goesOn
    cases goesOn
  | some sec =>
    by_cases goes : state.1 = true ∨ fromTime.toInt ≤ sec.endTime.toInt
    · have ends : fromTime.toInt ≤ sec.endTime.toInt := by
        rcases goes with before | here
        · exact found before o (Nat.le_refl _) low sec held
        · exact here
      intro _ o' behind low' sec' held'
      exact Int.le_trans ends (Int.le_of_lt (endTimes_ordered dated behind low' held held'))
    · simp only [if_neg goes]
      exact fun before o' behind => found before o' (Nat.le_of_succ_le behind)

/-- How many pages hold logs. -/
def held (book : Book) : Nat := book.closed.length + if book.current.isSome then 1 else 0

theorem page_held {o : Nat} (low : o < held book) :
    ∃ sec, sectorOf (book.page o) = some sec := by
  unfold held at low
  rcases Nat.lt_or_ge o book.closed.length with before | here
  · exact ⟨_, by rw [Book.page_closed _ (List.getElem?_eq_getElem before)]; rfl⟩
  · cases current : book.current with
    | none =>
      rw [current] at low
      simp only [Option.isSome_none, Bool.false_eq_true, if_false] at low
      omega
    | some sec =>
      rw [current] at low
      simp only [Option.isSome_some, if_true] at low
      obtain rfl : o = book.closed.length := by omega
      exact ⟨sec, by rw [Book.page_current, Book.currentPage, current]; rfl⟩

theorem page_free {o : Nat} (high : held book ≤ o) : book.page o = .empty := by
  unfold held at high
  rcases Nat.lt_or_ge book.closed.length o with behind | here
  · exact Book.page_behind _ behind
  · cases current : book.current with
    | some sec =>
      rw [current] at high
      simp only [Option.isSome_some, if_true] at high
      omega
    | none =>
      obtain rfl : o = book.closed.length := by omega
      rw [Book.page_current, Book.currentPage, current]
      rfl

/-- Where every sector with logs is visited for them, and an empty one ends the visit, all logs
are visited. -/
theorem visit_pages (book : Book) {σ : Type} {step : Nat → σ → Bool × σ}
    {cb : FdbTsl → α → Bool × α} (view : σ → α) (items : Nat → List FdbTsl)
    (each : ∀ o < held book, ∀ s, (step o s).1 = (visit cb (items o) (view s)).1 ∧
      view (step o s).2 = (visit cb (items o) (view s)).2)
    (ended : ∀ o, held book ≤ o → ∀ s, step o s = (true, s)) (s : σ) :
    view (visit step (List.range 63) s).2 =
      (visit cb ((List.range (held book)).flatMap items) (view s)).2 := by
  have few : held book ≤ 63 := by
    have short := book.closed_le
    unfold held
    split <;> omega
  obtain ⟨stop, state⟩ := visit_project view
    (fun o listed => each o (List.mem_range.mp listed)) s
  rw [visit_flatMap] at stop state
  have split : List.range 63 = List.range (held book) ++
      (List.range (63 - held book)).map (held book + ·) := by
    rw [← List.range_add]
    congr 1
    omega
  rw [split, visit_append]
  by_cases done : (visit step (List.range (held book)) s).1 = true
  · rw [if_pos done, state]
  · rw [if_neg done, ← state]
    cases left : 63 - held book with
    | zero => rfl
    | succ n =>
      rw [List.range_succ_eq_map, List.map_cons,
        visit_stop _ (ended (held book + 0) (Nat.le_refl _) _)]

theorem tsls_held (maxLen : Word) (book : Book) :
    tsls maxLen book = (List.range (held book)).flatMap (tslsAt maxLen book) := by
  have few : held book ≤ 63 := by
    have short := book.closed_le
    unfold held
    split <;> omega
  have rest : (List.range (63 - held book)).flatMap (fun o => tslsAt maxLen book (held book + o)) =
      [] := by
    refine List.flatMap_eq_nil_iff.mpr fun o _ => ?_
    rw [tslsAt, page_free (Nat.le_add_right _ _)]
    rfl
  have split : List.range 63 = List.range (held book) ++
      (List.range (63 - held book)).map (held book + ·) := by
    rw [← List.range_add]
    congr 1
    omega
  rw [tsls, split, List.flatMap_append, List.flatMap_map]
  exact (congrArg (_ ++ ·) rest).trans (List.append_nil _)

/-- No log in flash reads as unused. -/
theorem tsls_used (shows : OnFlash maxLen V book) :
    ∀ tsl ∈ tsls maxLen book, tsl.status ≠ .unused := by
  intro tsl listed
  obtain ⟨o, low, here⟩ := List.mem_flatMap.mp listed
  obtain ⟨i, inside, rfl⟩ := List.mem_iff_getElem.mp here
  have bound : i < (book.page o).slots.length := by rwa [length_tslsOf] at inside
  have slot := List.getElem?_eq_getElem bound
  have stored := PageAt.stored (shows o (List.mem_range.mp low))
  have value := getElem?_tslsOf maxLen (book.place o) slot
  rw [List.getElem?_eq_getElem inside] at value
  rw [Option.some.inj value]
  exact Slot.tsl_used (stored.each i _ slot)

/-- On logs that are not earlier than the first time, leaving at the first one behind the period is
the same as visiting those in it. -/
theorem visit_period (ordered : (tsls maxLen book).Pairwise fun tsl tsl' =>
      tsl.time.toInt < tsl'.time.toInt)
    (used : ∀ tsl ∈ tsls maxLen book, tsl.status ≠ .unused)
    (forward : fromTime.toInt ≤ toTime.toInt) (cb : FdbTsl → α → Bool × α) (arg : α) :
    (visit (periodCb fromTime toTime cb)
        ((tsls maxLen book).filter fun tsl => fromTime.toInt ≤ tsl.time.toInt) arg).2 =
      (visit cb ((tsls maxLen book).filter fun tsl => inPeriod fromTime toTime tsl.time)
        arg).2 := by
  have notBackward : ¬toTime.toInt < fromTime.toInt := by omega
  have period (time : FdbTime) : inPeriod fromTime toTime time = true ↔
      fromTime.toInt ≤ time.toInt ∧ time.toInt ≤ toTime.toInt := by
    simp only [inPeriod, forward, notBackward, true_and, false_and, or_false, decide_eq_true_eq]
  have front : ((tsls maxLen book).filter fun tsl => fromTime.toInt ≤ tsl.time.toInt).Pairwise
      fun a b =>
        inPeriod fromTime toTime b.time = true → inPeriod fromTime toTime a.time = true := by
    refine List.Pairwise.imp_of_mem ?_ (ordered.sublist List.filter_sublist)
    intro a b here there order wanted
    have first : fromTime.toInt ≤ a.time.toInt := by
      simpa using (List.mem_filter.mp here).2
    have last := ((period b.time).mp wanted).2
    exact (period a.time).mpr ⟨first, by omega⟩
  have step (tsl : FdbTsl)
      (listed : tsl ∈ (tsls maxLen book).filter fun tsl => fromTime.toInt ≤ tsl.time.toInt)
      (arg : α) : periodCb fromTime toTime cb tsl arg =
        if inPeriod fromTime toTime tsl.time = true then cb tsl arg else (true, arg) := by
    rw [periodCb, if_neg (used tsl (List.mem_filter.mp listed).1)]
  rw [visit_congr step, visit_wanted front, List.filter_filter]
  congr 2
  refine List.filter_congr fun tsl _ => ?_
  rw [Bool.eq_iff_iff, Bool.and_eq_true, period, decide_eq_true_eq]
  exact ⟨fun both => both.1, fun both => ⟨both, both.1⟩⟩

theorem stepForward_all (dated : Dated book)
    (used : ∀ tsl ∈ tsls maxLen book, tsl.status ≠ .unused)
    (forward : fromTime.toInt ≤ toTime.toInt) (cb : FdbTsl → α → Bool × α) (arg : α) :
    (visit (stepForward maxLen book fromTime toTime cb) (List.range 63) (false, arg)).2.2 =
      (visit cb ((tsls maxLen book).filter fun tsl => inPeriod fromTime toTime tsl.time)
        arg).2 := by
  have each (o : Nat) (low : o < held book) (state : Bool × α) :
      (stepForward maxLen book fromTime toTime cb o state).1 =
          (visit (periodCb fromTime toTime cb) ((tslsAt maxLen book o).filter fun tsl =>
            fromTime.toInt ≤ tsl.time.toInt) state.2).1 ∧
        (stepForward maxLen book fromTime toTime cb o state).2.2 =
          (visit (periodCb fromTime toTime cb) ((tslsAt maxLen book o).filter fun tsl =>
            fromTime.toInt ≤ tsl.time.toInt) state.2).2 := by
    obtain ⟨sec, here⟩ := page_held low
    have short := book.closed_le
    have inside : o < 63 := by
      unfold held at low
      split at low <;> omega
    rw [stepForward, here]
    by_cases goes : state.1 = true ∨ fromTime.toInt ≤ sec.endTime.toInt
    · simp only [if_pos goes, and_self]
    · have none : (tslsAt maxLen book o).filter (fun tsl => fromTime.toInt ≤ tsl.time.toInt) =
          [] := by
        refine List.filter_eq_nil_iff.mpr fun tsl listed => ?_
        have early := (endTime_spec maxLen dated inside here).2 tsl listed
        have := goes ∘ Or.inr
        simp only [decide_eq_true_eq]
        omega
      rw [none]
      dsimp only
      rw [if_neg goes]
      exact ⟨rfl, rfl⟩
  have ended (o : Nat) (high : held book ≤ o) (state : Bool × α) :
      stepForward maxLen book fromTime toTime cb o state = (true, state) := by
    rw [stepForward, page_free high]
    rfl
  refine (visit_pages book Prod.snd _ each ended (false, arg)).trans ?_
  rw [← List.filter_flatMap, ← tsls_held]
  exact visit_period (tsls_ordered maxLen dated) used forward cb arg

/-- `fdb_tsl_iter_by_time` from an earlier time to a later one calls back for the logs between
them, in their order. -/
theorem fdbTslIterByTime_forward (memory : InMemory db book)
    (shows : OnFlash db.maxLen (view db.parent.part m) book) (dated : Dated book)
    (forward : fromTime.toInt ≤ toTime.toInt) (stack : TsdbSecInfo) (cb : FdbTsl → α → Bool × α)
    (arg : α) :
    fdbTslIterByTime env junk m db stack fromTime toTime cb arg =
      some (visit cb ((tsls db.maxLen book).filter fun tsl =>
        inPeriod fromTime toTime tsl.time) arg).2 := by
  have walk := walkSectors_eq env junk m memory.opened book.place
    (stepForward db.maxLen book fromTime toTime cb) (FoundBefore book fromTime)
    (fun o low sector state found => forward_turn memory shows dated forward cb low sector state
      found)
    (fun o low state found goesOn => FoundBefore.next dated low found goesOn)
    (nexts_forward memory.opened book) (fun o => secStart_valid (book.place_lt o))
    (show 0 + (62 + 1) = 63 from rfl) (show 62 < loopFuel by unfold loopFuel; omega) stack
    (show FoundBefore book fromTime 0 (false, arg) from fun found => absurd found (by simp))
  rw [iterByTime_walk forward, memory.oldest]
  refine (congrArg (Option.map Prod.snd) walk).trans ?_
  rw [← List.range_eq_range']
  exact congrArg some (stepForward_all dated (tsls_used shows) forward cb arg)

end Forward

end BmsFirmware.Flashdb.Period
