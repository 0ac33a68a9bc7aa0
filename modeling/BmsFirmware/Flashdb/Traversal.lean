/- Module: BmsFirmware/Flashdb/Traversal
   Source: application/flashdb/src/fdb_tsdb.c
   Digest: Iterating visits the logs of the book in the order of their times, or backwards. -/

import BmsFirmware.Flashdb.Appending
import BmsFirmware.Library.EarlyExit

set_option autoImplicit false
set_option relaxedAutoImplicit false

namespace BmsFirmware.Flashdb.Traversal

open BmsFirmware.Library.ByteMemory
open BmsFirmware.Library.PowerLogic
open BmsFirmware.Library.EarlyExit
open BmsFirmware.Flash.Controller
open BmsFirmware.Flashdb.Utils
open BmsFirmware.Flashdb.Storage
open BmsFirmware.Flashdb.Tsdb
open BmsFirmware.Flashdb.SectorLayout
open BmsFirmware.Flashdb.SectorWrites
open BmsFirmware.Flashdb.LogBook
open BmsFirmware.Flashdb.Appending

/-! ### The logs of a book as a callback gets them -/

/-- The logs of a sector whose first index entry is at `a` and whose data end at `d`. -/
def tslsFrom (maxLen : Word) : Nat → Nat → List Slot → List FdbTsl
  | _, _, [] => []
  | a, d, e :: rest => e.tsl maxLen a d :: tslsFrom maxLen (a + 32) (d - e.room maxLen) rest

def tslsOf (maxLen : Word) (s : Nat) (slots : List Slot) : List FdbTsl :=
  tslsFrom maxLen (slotAddr s 0) (secStart (s + 1)) slots

/-- The logs of the book in the order in which they were appended. -/
def tsls (maxLen : Word) (book : Book) : List FdbTsl :=
  (List.range 63).flatMap fun o => tslsOf maxLen (book.place o) (book.page o).slots

section Logs

variable {maxLen : Word} {slots : List Slot} {s : Nat}

@[simp] theorem length_tslsFrom (a d : Nat) (slots : List Slot) :
    (tslsFrom maxLen a d slots).length = slots.length := by
  induction slots generalizing a d with
  | nil => rfl
  | cons e rest ih => exact congrArg Nat.succ (ih _ _)

theorem getElem?_tslsFrom (a d : Nat) {slots : List Slot} {i : Nat} {e : Slot}
    (here : slots[i]? = some e) :
    (tslsFrom maxLen a d slots)[i]? =
      some (e.tsl maxLen (a + 32 * i) (d - used maxLen (slots.take i))) := by
  induction slots generalizing a d i with
  | nil => simp at here
  | cons first rest ih =>
    cases i with
    | zero =>
      obtain rfl : first = e := by simpa using here
      rfl
    | succ i =>
      have next := ih (a + 32) (d - first.room maxLen) (by simpa using here)
      rw [tslsFrom, List.getElem?_cons_succ, next, List.take_succ_cons]
      congr 2
      · omega
      · rw [used, used, List.map_cons, List.sum_cons]
        omega

@[simp] theorem length_tslsOf : (tslsOf maxLen s slots).length = slots.length :=
  length_tslsFrom _ _ _

theorem getElem?_tslsOf (maxLen : Word) (s : Nat) {i : Nat} {e : Slot} (here : slots[i]? = some e) :
    (tslsOf maxLen s slots)[i]? =
      some (e.tsl maxLen (slotAddr s i) (secStart (s + 1) - used maxLen (slots.take i))) :=
  getElem?_tslsFrom _ _ here

end Logs

/-! ### The loop over the logs of a sector -/

section Loops

variable {α : Type} (env : Environment) (junk m : Memory) {db : FdbTsdb} {s : Nat}
  {slots : List Slot} {sector : TsdbSecInfo}

/-- Reading the `i`-th index entry of a sector gives its `i`-th log. -/
theorem readTsl_slot (opened : Opened db) (low : s < 63)
    (stored : SlotsAt db.maxLen (view db.parent.part m) s slots) {i : Nat} {tsl : FdbTsl}
    (here : (tslsOf db.maxLen s slots)[i]? = some tsl) :
    readTsl env junk m db (w32 (slotAddr s i)) = tsl ∧ tsl.index = w32 (slotAddr s i) := by
  have inside : i < slots.length := by
    have bound := (List.getElem?_eq_some_iff.mp here).1
    rwa [length_tslsOf] at bound
  have slot := List.getElem?_eq_getElem inside
  rw [getElem?_tslsOf db.maxLen s slot] at here
  obtain rfl := Option.some.inj here
  refine ⟨?_, ?_⟩
  · rw [readTsl_eq env junk m opened (stored.inside low inside)]
    exact tslAt_slot (stored.each i _ slot)
  · cases slots[i] <;> rfl

private theorem unstopped {p : Bool × α} (stop : ¬p.1 = true) : p = (false, p.2) :=
  Prod.ext (Bool.eq_false_iff.mpr stop) rfl

theorem slotAddr_valid {i : Nat} (inside : slotAddr s i + 32 ≤ partLen) :
    w32 (slotAddr s i) ≠ FAILED_ADDR := by
  have length : partLen = 129024 := rfl
  intro same
  have value : (w32 (slotAddr s i)).toNat = 2 ^ 32 - 1 := by
    rw [same]
    rfl
  rw [toNat_w32 (by omega)] at value
  omega

/-- From the `i`-th log on, the loop calls back for each one. -/
theorem tslLoop_forward (opened : Opened db) (low : s < 63)
    (stored : SlotsAt db.maxLen (view db.parent.part m) s slots)
    (busy : sector.status ≠ .storeEmpty)
    (endIdx : sector.endIdx = w32 (slotAddr s (slots.length - 1)))
    (cb : FdbTsl → α → Bool × α) {fuel i : Nat} (inside : i < slots.length)
    (enough : slots.length - i ≤ fuel) (arg : α) :
    tslLoop env junk m db getNextTslAddr sector cb fuel (w32 (slotAddr s i)) arg =
      some (visit cb ((tslsOf db.maxLen s slots).drop i) arg) := by
  have top := stored.inside low (show slots.length - 1 < slots.length by omega)
  have length : partLen = 129024 := rfl
  induction fuel generalizing i arg with
  | zero => omega
  | succ fuel ih =>
    have bound : i < (tslsOf db.maxLen s slots).length := by rwa [length_tslsOf]
    obtain ⟨read, index⟩ := readTsl_slot env junk m opened low stored
      (List.getElem?_eq_getElem bound)
    have place := stored.inside low inside
    have next : w32 (slotAddr s i) + LOG_IDX_DATA_SIZE = w32 (slotAddr s (i + 1)) := by
      rw [logIdxDataSize_eq]
      exact w32_add _ _
    have goesOn : w32 (slotAddr s (i + 1)) ≤ w32 (slotAddr s (slots.length - 1)) ↔
        i + 1 < slots.length := by
      rw [BitVec.le_def, toNat_w32 (by unfold slotAddr at *; omega), toNat_w32 (by omega)]
      unfold slotAddr
      omega
    rw [tslLoop, read, List.drop_eq_getElem_cons bound, visit_cons]
    simp only [getNextTslAddr, if_neg busy, index, next, endIdx, goesOn]
    by_cases stop : (cb (tslsOf db.maxLen s slots)[i] arg).1 = true
    · rw [if_pos stop, if_pos stop]
    · rw [if_neg stop, if_neg stop]
      by_cases more : i + 1 < slots.length
      · simp only [if_pos more]
        rw [if_neg (slotAddr_valid (stored.inside low more))]
        exact ih more (by omega) _
      · have last : (tslsOf db.maxLen s slots).drop (i + 1) = [] :=
          List.drop_eq_nil_of_le (by rw [length_tslsOf]; omega)
        simp only [if_neg more, last, if_true]
        exact congrArg some (unstopped stop)

/-- From the `i`-th log down, the loop calls back for each one. -/
theorem tslLoop_backward (opened : Opened db) (low : s < 63)
    (stored : SlotsAt db.maxLen (view db.parent.part m) s slots)
    (busy : sector.status ≠ .storeEmpty) (addr : sector.addr = w32 (secStart s))
    (cb : FdbTsl → α → Bool × α) {fuel i : Nat} (inside : i < slots.length)
    (enough : i < fuel) (arg : α) :
    tslLoop env junk m db getLastTslAddr sector cb fuel (w32 (slotAddr s i)) arg =
      some (visit cb ((tslsOf db.maxLen s slots).take (i + 1)).reverse arg) := by
  have length : partLen = 129024 := rfl
  induction fuel generalizing i arg with
  | zero => omega
  | succ fuel ih =>
    have bound : i < (tslsOf db.maxLen s slots).length := by rwa [length_tslsOf]
    obtain ⟨read, index⟩ := readTsl_slot env junk m opened low stored
      (List.getElem?_eq_getElem bound)
    have place := stored.inside low inside
    have first : sector.addr + SECTOR_HDR_DATA_SIZE + LOG_IDX_DATA_SIZE = w32 (slotAddr s 1) := by
      rw [addr, sectorHdrDataSize_eq, logIdxDataSize_eq, w32_add, w32_add]
      rfl
    have goesOn : w32 (slotAddr s 1) ≤ w32 (slotAddr s i) ↔ 0 < i := by
      rw [BitVec.le_def, toNat_w32 (by unfold slotAddr secStart; omega), toNat_w32 (by omega)]
      unfold slotAddr
      omega
    rw [tslLoop, read, List.take_succ_eq_append_getElem bound, List.reverse_append,
      List.reverse_singleton, List.singleton_append, visit_cons]
    simp only [getLastTslAddr, if_neg busy, index, first, goesOn]
    by_cases stop : (cb (tslsOf db.maxLen s slots)[i] arg).1 = true
    · rw [if_pos stop, if_pos stop]
    · rw [if_neg stop, if_neg stop]
      by_cases more : 0 < i
      · obtain ⟨j, rfl⟩ : ∃ j, i = j + 1 := ⟨i - 1, by omega⟩
        have before : w32 (slotAddr s (j + 1)) - LOG_IDX_DATA_SIZE = w32 (slotAddr s j) := by
          rw [logIdxDataSize_eq, w32_sub (by unfold slotAddr; omega)]
          congr 1
        simp only [if_pos more, before]
        rw [if_neg (slotAddr_valid (stored.inside low (by omega)))]
        exact ih (by omega) (by omega) _
      · obtain rfl : i = 0 := by omega
        simp only [if_neg more, if_true]
        exact congrArg some (unstopped stop)

/-! ### The loop over the sectors -/

/-- Turns that leave the structure at the sectors of a ring visit them one by one, where every
turn that does not stop keeps what the next one needs. -/
theorem walkSectors_eq {σ : Type} (opened : Opened db)
    {next : FdbTsdb → TsdbSecInfo → Word → Word}
    {turn : Word → TsdbSecInfo → σ → Option (Visit σ)} (pos : Nat → Nat)
    (step : Nat → σ → Bool × σ) (I : Nat → σ → Prop)
    (each : ∀ o < 63, ∀ sector state, I o state → ∃ info sector',
      readSectorInfo env junk m db (w32 (secStart (pos o))) sector false = some (.noErr, info) ∧
        sector'.addr = w32 (secStart (pos o)) ∧ turn (w32 (secStart (pos o))) info state =
          some ⟨(step o state).1, sector', (step o state).2⟩)
    (keeps : ∀ o < 63, ∀ state, I o state → (step o state).1 = false → I (o + 1) (step o state).2)
    (nexts : ∀ o < 63, ∀ sector, sector.addr = w32 (secStart (pos o)) →
      next db sector (w32 (2048 * (o + 1))) =
        if o + 1 < 63 then w32 (secStart (pos (o + 1))) else FAILED_ADDR)
    (valid : ∀ o, w32 (secStart (pos o)) ≠ FAILED_ADDR)
    {fuel o k : Nat} (count : o + (k + 1) = 63) (enough : k < fuel) (sector : TsdbSecInfo)
    {state : σ} (here : I o state) :
    walkSectors env junk m db next turn fuel (w32 (secStart (pos o))) (w32 (2048 * o)) sector
      state = some (visit step (List.range' o (k + 1)) state).2 := by
  induction fuel generalizing o k sector state with
  | zero => omega
  | succ fuel ih =>
    obtain ⟨info, sector', read, addr, turned⟩ := each o (by omega) sector state here
    have length : w32 (2048 * o) + db.parent.secSize = w32 (2048 * (o + 1)) := by
      rw [opened.secSize]
      exact w32_add _ _
    have onward := nexts o (by omega) sector' addr
    rw [walkSectors, length, read, List.range'_succ, visit_cons]
    simp only [Option.bind_eq_bind, Option.bind_some, ne_eq, not_true_eq_false, if_false, turned]
    by_cases stop : (step o state).1 = true
    · simp only [stop, true_or, if_true]
      rfl
    · rw [if_neg stop]
      by_cases more : o + 1 < 63
      · obtain ⟨k, rfl⟩ : ∃ k', k = k' + 1 := ⟨k - 1, by omega⟩
        simp only [stop, onward, if_pos more, valid, or_false]
        exact ih (by omega) (by omega) _
          (keeps o (by omega) state here (Bool.eq_false_iff.mpr stop))
      · obtain rfl : k = 0 := by omega
        simp only [onward, if_neg more, or_true, if_true]
        rfl

end Loops

/-! ### The sectors of a book -/

/-- The sector that a page holds. -/
def sectorOf : Page → Option Sector
  | .empty => none
  | .active sec => some sec
  | .full sec => some sec

/-- A structure in memory that describes the logs of a sector. -/
structure Covers (info : TsdbSecInfo) (s : Nat) (sec : Sector) : Prop where
  addr : info.addr = w32 (secStart s)
  busy : info.status ≠ .storeEmpty
  startTime : info.startTime = sec.startTime
  endTime : info.endTime = sec.endTime
  endIdx : info.endIdx = w32 (slotAddr s (sec.slots.length - 1))

section Sectors

variable {db : FdbTsdb} {book : Book} {V : Memory}

theorem page_active (book : Book) {o : Nat} {sec : Sector} (here : book.page o = .active sec) :
    o = book.closed.length ∧ book.current = some sec := by
  rcases Nat.lt_trichotomy o book.closed.length with before | rfl | behind
  · rw [Book.page_closed _ (List.getElem?_eq_getElem before)] at here
    cases here
  · rw [Book.page_current, Book.currentPage] at here
    refine ⟨rfl, ?_⟩
    cases current : book.current with
    | none =>
      rw [current] at here
      cases here
    | some sec' =>
      rw [current] at here
      cases here
      rfl
  · rw [Book.page_behind _ behind] at here
    cases here

/-- Behind the header of a sector with logs, the structure that is used describes them. -/
theorem covers (memory : InMemory db book) (shows : OnFlash db.maxLen V book) {o : Nat}
    (low : o < 63) {sec : Sector} (here : sectorOf (book.page o) = some sec)
    (sector : TsdbSecInfo) :
    (openedInfo V (book.place o) sector).hasTsl = true ∧
      Covers (currentInfo db (openedInfo V (book.place o) sector)) (book.place o) sec ∧
      SlotsAt db.maxLen V (book.place o) sec.slots := by
  have page := shows o low
  have status := PageAt.openedInfo_status page sector
  cases shape : book.page o with
  | empty =>
    rw [shape] at here
    cases here
  | active sec' =>
    rw [shape] at here page status
    cases here
    obtain ⟨rfl, current⟩ := page_active book shape
    have active : ActiveAt db.maxLen V _ sec.startTime sec.slots := page
    have inUse := memory.inUse sec current
    rw [book.place_cursor] at *
    have described : currentInfo db (openedInfo V book.cursor sector) = db.curSec := by
      rw [currentInfo]
      exact if_pos status
    refine ⟨by simp [TsdbSecInfo.hasTsl, status, Appending.status], ?_, active.body.stored⟩
    rw [described]
    refine ⟨memory.tracks.addr, ?_, inUse.startTime, inUse.endTime, inUse.endIdx⟩
    rw [inUse.status]
    exact fun empty => nomatch empty
  | full sec' =>
    rw [shape] at here page status
    cases here
    have full : FullAt db.maxLen V _ sec.startTime sec.endTime sec.slots := page
    have ended := PageAt.endInfo page
    have described : currentInfo db (openedInfo V (book.place o) sector) =
        openedInfo V (book.place o) sector := by
      rw [currentInfo, if_neg]
      rw [status]
      exact fun other => nomatch other
    refine ⟨by simp [TsdbSecInfo.hasTsl, status, Appending.status], ?_, full.body.stored⟩
    rw [described]
    refine ⟨rfl, ?_, full.start, ?_, ?_⟩
    · rw [status]
      exact fun empty => nomatch empty
    · refine Eq.trans ?_ full.ended
      exact if_pos ended
    · refine Eq.trans ?_ full.endIdx
      exact if_pos ended

theorem slots_of_none {o : Nat} (here : sectorOf (book.page o) = none) :
    book.page o = .empty := by
  cases shape : book.page o with
  | empty => rfl
  | active sec =>
    rw [shape] at here
    cases here
  | full sec =>
    rw [shape] at here
    cases here

end Sectors

/-! ### Iterating -/

section Iterating

variable {α : Type} {env : Environment} {junk m : Memory} {db : FdbTsdb} {book : Book}

theorem secStart_valid {s : Nat} (low : s < 63) : w32 (secStart s) ≠ FAILED_ADDR := by
  have begin : secStart s = 2048 * s := rfl
  intro same
  have value : (w32 (secStart s)).toNat = 2 ^ 32 - 1 := by
    rw [same]
    rfl
  rw [toNat_w32 (by omega)] at value
  omega

/-- The sector behind one, until all have been visited. -/
theorem getNextSectorAddr_eq (opened : Opened db) {s o : Nat} (here : s < 63) (low : o < 63)
    (sector : TsdbSecInfo) (addr : sector.addr = w32 (secStart s)) :
    getNextSectorAddr db sector (w32 (2048 * (o + 1))) =
      if o + 1 < 63 then w32 (secStart ((s + 1) % 63)) else FAILED_ADDR := by
  have size : (w32 129024).toNat = 129024 := rfl
  have more : w32 (2048 * (o + 1)) + db.parent.secSize ≤ db.parent.maxSize ↔ o + 1 < 63 := by
    rw [opened.secSize, opened.maxSize, w32_add, BitVec.le_def, toNat_w32 (by omega), size]
    omega
  rw [getNextSectorAddr, addr, nextAddr_eq opened here]
  by_cases goesOn : o + 1 < 63
  · rw [if_pos (more.mpr goesOn), if_pos goesOn]
  · rw [if_neg fun before => goesOn (more.mp before), if_neg goesOn]

/-- The sectors from the oldest on follow one another. -/
theorem nexts_forward (opened : Opened db) (book : Book) (o : Nat) (low : o < 63)
    (sector : TsdbSecInfo) (addr : sector.addr = w32 (secStart (book.place o))) :
    getNextSectorAddr db sector (w32 (2048 * (o + 1))) =
      if o + 1 < 63 then w32 (secStart (book.place (o + 1))) else FAILED_ADDR := by
  have next : book.place (o + 1) = (book.place o + 1) % 63 := by
    unfold Book.place
    omega
  rw [next]
  exact getNextSectorAddr_eq opened (book.place_lt o) low sector addr

/-- What `fdb_tsl_iter` does with a sector. -/
private theorem iter_turn (memory : InMemory db book)
    (shows : OnFlash db.maxLen (view db.parent.part m) book) (cb : FdbTsl → α → Bool × α)
    {o : Nat} (low : o < 63) (sector : TsdbSecInfo) (arg : α) :
    ∃ info sector',
      readSectorInfo env junk m db (w32 (secStart (book.place o))) sector false =
        some (.noErr, info) ∧ sector'.addr = w32 (secStart (book.place o)) ∧
      (if info.hasTsl then do
          let sector := currentInfo db info
          let looped ← tslLoop env junk m db getNextTslAddr sector cb loopFuel
            (sector.addr + SECTOR_HDR_DATA_SIZE) arg
          return (⟨looped.1, sector, looped.2⟩ : Visit α)
        else return ⟨false, info, arg⟩) =
        some ⟨(visit cb (tslsOf db.maxLen (book.place o) (book.page o).slots) arg).1, sector',
          (visit cb (tslsOf db.maxLen (book.place o) (book.page o).slots) arg).2⟩ := by
  have read := readSectorInfo_page env junk m memory.opened (book.place_lt o) (shows o low) sector
  cases held : sectorOf (book.page o) with
  | none =>
    have empty := slots_of_none held
    have status := PageAt.openedInfo_status (shows o low) sector
    rw [empty] at status ⊢
    refine ⟨_, openedInfo (view db.parent.part m) (book.place o) sector, read, rfl, ?_⟩
    rw [TsdbSecInfo.hasTsl, status]
    rfl
  | some sec =>
    obtain ⟨busy, covered, stored⟩ := covers memory shows low held sector
    have slots : (book.page o).slots = sec.slots := by
      cases shape : book.page o <;> rw [shape] at held <;> cases held <;> rfl
    have first : (currentInfo db (openedInfo (view db.parent.part m) (book.place o) sector)).addr +
        SECTOR_HDR_DATA_SIZE = w32 (slotAddr (book.place o) 0) := by
      rw [covered.addr, sectorHdrDataSize_eq]
      exact w32_add _ _
    have enough : sec.slots.length - 0 ≤ loopFuel := by
      have short := SlotsAt.length_le stored
      unfold loopFuel
      omega
    have loop := tslLoop_forward env junk m memory.opened (book.place_lt o) stored covered.busy
      covered.endIdx cb sec.length_pos enough arg
    refine ⟨_, _, read, covered.addr, ?_⟩
    rw [if_pos busy, slots]
    simp only [first, loop, List.drop_zero]
    rfl

/-- `fdb_tsl_iter` calls back for the logs of the book in their order, until one stops it. -/
theorem fdbTslIter_eq (memory : InMemory db book)
    (shows : OnFlash db.maxLen (view db.parent.part m) book) (stack : TsdbSecInfo)
    (cb : FdbTsl → α → Bool × α) (arg : α) :
    fdbTslIter env junk m db stack cb arg = some (visit cb (tsls db.maxLen book) arg).2 := by
  rw [fdbTslIter, memory.oldest]
  refine (walkSectors_eq env junk m memory.opened book.place
    (fun o => visit cb (tslsOf db.maxLen (book.place o) (book.page o).slots)) (fun _ _ => True)
    (fun o low sector state _ => iter_turn memory shows cb low sector state)
    (fun _ _ _ _ _ => trivial) (nexts_forward memory.opened book)
    (fun o => secStart_valid (book.place_lt o))
    (show 0 + (62 + 1) = 63 from rfl) (by unfold loopFuel; omega) stack trivial).trans ?_
  rw [← List.range_eq_range', visit_flatMap]
  rfl

/-- Which page the `o`-th one back from the sector in use is. -/
def pageBack (book : Book) (o : Nat) : Nat := (book.closed.length + 63 - o) % 63

/-- The sectors back from the one in use precede one another. -/
theorem nexts_backward (opened : Opened db) (book : Book) (o : Nat) (low : o < 63)
    (sector : TsdbSecInfo) (addr : sector.addr = w32 (secStart (book.place (pageBack book o)))) :
    getLastSectorAddr db sector (w32 (2048 * (o + 1))) =
      if o + 1 < 63 then w32 (secStart (book.place (pageBack book (o + 1)))) else FAILED_ADDR := by
  have size : (w32 129024).toNat = 129024 := rfl
  have page : (w32 2048).toNat = 2048 := rfl
  have inside := book.inside
  have short := book.closed_le
  have here := book.place_lt (pageBack book o)
  have begin : secStart (book.place (pageBack book o)) = 2048 * book.place (pageBack book o) := rfl
  have more : w32 (2048 * (o + 1)) + db.parent.secSize ≤ db.parent.maxSize ↔ o + 1 < 63 := by
    rw [opened.secSize, opened.maxSize, w32_add, BitVec.le_def, toNat_w32 (by omega), size]
    omega
  have back : o + 1 < 63 →
      book.place (pageBack book (o + 1)) = (book.place (pageBack book o) + 62) % 63 := by
    intro goesOn
    unfold Book.place pageBack
    omega
  have room : w32 2048 ≤ w32 (secStart (book.place (pageBack book o))) ↔
      0 < book.place (pageBack book o) := by
    rw [BitVec.le_def, page, toNat_w32 (by omega)]
    omega
  rw [getLastSectorAddr, addr]
  by_cases goesOn : o + 1 < 63
  · rw [if_pos (more.mpr goesOn), if_pos goesOn, back goesOn, opened.secSize, opened.maxSize]
    rcases Nat.eq_zero_or_pos (book.place (pageBack book o)) with first | later
    · rw [if_neg fun before => by have := room.mp before; omega, first, w32_sub (by omega)]
      exact congrArg w32 (show 129024 - 2048 = 2048 * 62 by omega)
    · rw [if_pos (room.mpr later), w32_sub (by omega)]
      refine congrArg w32 ?_
      unfold secStart
      omega
  · rw [if_neg fun before => goesOn (more.mp before), if_neg goesOn]

/-- The step of a backward visit: an empty sector ends it. -/
def stepBack (maxLen : Word) (book : Book) (cb : FdbTsl → α → Bool × α) (o : Nat) (arg : α) :
    Bool × α :=
  if (sectorOf (book.page (pageBack book o))).isSome then
    visit cb (tslsOf maxLen (book.place (pageBack book o))
      (book.page (pageBack book o)).slots).reverse arg
  else (true, arg)

private theorem pageBack_low {book : Book} {o : Nat} (low : o < book.closed.length + 1) :
    pageBack book o = book.closed.length - o := by
  have short := book.closed_le
  unfold pageBack
  omega

private theorem occupied {book : Book} (busy : book.current ≠ none) {o : Nat}
    (low : o ≤ book.closed.length) : (sectorOf (book.page o)).isSome = true := by
  rcases Nat.lt_or_eq_of_le low with before | rfl
  · rw [Book.page_closed _ (List.getElem?_eq_getElem before)]
    rfl
  · rw [Book.page_current, Book.currentPage]
    cases current : book.current with
    | none => exact absurd current busy
    | some sec => rfl

/-- The logs are in the pages up to the one in use. -/
private theorem tsls_eq (maxLen : Word) (book : Book) :
    tsls maxLen book = (List.range (book.closed.length + 1)).flatMap fun o =>
      tslsOf maxLen (book.place o) (book.page o).slots := by
  have short := book.closed_le
  have rest : (List.range (62 - book.closed.length)).flatMap (fun o =>
      tslsOf maxLen (book.place (book.closed.length + 1 + o))
        (book.page (book.closed.length + 1 + o)).slots) = [] := by
    refine List.flatMap_eq_nil_iff.mpr fun o _ => ?_
    rw [Book.page_behind _ (by omega)]
    rfl
  rw [tsls, show 63 = book.closed.length + 1 + (62 - book.closed.length) by omega,
    List.range_add, List.flatMap_append, List.flatMap_map, rest, List.append_nil]

theorem stepBack_all (maxLen : Word) {book : Book} (busy : book.current ≠ none)
    (cb : FdbTsl → α → Bool × α) (arg : α) :
    (visit (stepBack maxLen book cb) (List.range 63) arg).2 =
      (visit cb (tsls maxLen book).reverse arg).2 := by
  have short := book.closed_le
  have logs : visit (stepBack maxLen book cb) (List.range (book.closed.length + 1)) arg =
      visit cb (tsls maxLen book).reverse arg := by
    have each (o : Nat) (listed : o ∈ List.range (book.closed.length + 1)) (arg : α) :
        stepBack maxLen book cb o arg =
          visit cb (tslsOf maxLen (book.place (book.closed.length - o))
            (book.page (book.closed.length - o)).slots).reverse arg := by
      have low := List.mem_range.mp listed
      rw [stepBack, pageBack_low low, if_pos (occupied busy (Nat.sub_le _ _))]
    have order : (List.range (book.closed.length + 1)).reverse =
        (List.range (book.closed.length + 1)).map (book.closed.length - ·) := by
      rw [List.range_eq_range', List.reverse_range', ← List.range_eq_range']
      refine List.map_congr_left fun o _ => ?_
      omega
    rw [visit_congr each, visit_flatMap, tsls_eq, List.reverse_flatMap, order, List.flatMap_map]
    rfl
  have split : List.range 63 = List.range (book.closed.length + 1) ++
      (List.range (62 - book.closed.length)).map (book.closed.length + 1 + ·) := by
    rw [← List.range_add]
    congr 1
    omega
  rw [split, visit_append, logs]
  by_cases stop : (visit cb (tsls maxLen book).reverse arg).1 = true
  · rw [if_pos stop]
  · rw [if_neg stop]
    cases left : 62 - book.closed.length with
    | zero => rfl
    | succ n =>
      have ended : stepBack maxLen book cb (book.closed.length + 1 + 0)
          (visit cb (tsls maxLen book).reverse arg).2 =
          (true, (visit cb (tsls maxLen book).reverse arg).2) := by
        have behind : pageBack book (book.closed.length + 1 + 0) = 62 := by
          unfold pageBack
          omega
        rw [stepBack, behind, Book.page_behind _ (by omega)]
        rfl
      rw [List.range_succ_eq_map, List.map_cons, visit_stop _ ended]

/-- What `fdb_tsl_iter_reverse` does with a sector. -/
private theorem reverse_turn (memory : InMemory db book)
    (shows : OnFlash db.maxLen (view db.parent.part m) book) (cb : FdbTsl → α → Bool × α)
    {o : Nat} (sector : TsdbSecInfo) (arg : α) :
    ∃ info sector',
      readSectorInfo env junk m db (w32 (secStart (book.place (pageBack book o)))) sector false =
        some (.noErr, info) ∧
      sector'.addr = w32 (secStart (book.place (pageBack book o))) ∧
      (if info.hasTsl then do
          let sector := currentInfo db info
          let looped ← tslLoop env junk m db getLastTslAddr sector cb loopFuel sector.endIdx arg
          return (⟨looped.1, sector, looped.2⟩ : Visit α)
        else return ⟨info.status = .storeEmpty ∨ info.status = .storeUnused, info, arg⟩) =
        some ⟨(stepBack db.maxLen book cb o arg).1, sector',
          (stepBack db.maxLen book cb o arg).2⟩ := by
  have low : pageBack book o < 63 := Nat.mod_lt _ (by omega)
  have here := shows (pageBack book o) low
  have read := readSectorInfo_page env junk m memory.opened (book.place_lt (pageBack book o)) here
    sector
  have status := PageAt.openedInfo_status here sector
  cases held : sectorOf (book.page (pageBack book o)) with
  | none =>
    have empty := slots_of_none held
    rw [empty] at status
    refine ⟨_, openedInfo (view db.parent.part m) (book.place (pageBack book o)) sector, read, rfl,
      ?_⟩
    rw [TsdbSecInfo.hasTsl, status, stepBack, held]
    rfl
  | some sec =>
    obtain ⟨busy, covered, stored⟩ := covers memory shows low held sector
    have slots : (book.page (pageBack book o)).slots = sec.slots := by
      cases shape : book.page (pageBack book o) <;> rw [shape] at held <;> cases held <;> rfl
    have last := sec.length_pos
    have enough : sec.slots.length - 1 < loopFuel := by
      have short := SlotsAt.length_le stored
      unfold loopFuel
      omega
    have loop := tslLoop_backward env junk m memory.opened (book.place_lt (pageBack book o)) stored
      covered.busy covered.addr cb (show sec.slots.length - 1 < sec.slots.length by omega) enough
      arg
    have all : (tslsOf db.maxLen (book.place (pageBack book o)) sec.slots).take
        (sec.slots.length - 1 + 1) =
        tslsOf db.maxLen (book.place (pageBack book o)) sec.slots :=
      List.take_of_length_le (by rw [length_tslsOf]; omega)
    rw [all] at loop
    refine ⟨_, _, read, covered.addr, ?_⟩
    rw [if_pos busy, stepBack, held, slots]
    simp only [covered.endIdx, loop]
    rfl

/-- `fdb_tsl_iter_reverse` calls back for the logs of the book from the last one on. -/
theorem fdbTslIterReverse_eq (memory : InMemory db book)
    (shows : OnFlash db.maxLen (view db.parent.part m) book) (busy : book.current ≠ none)
    (stack : TsdbSecInfo) (cb : FdbTsl → α → Bool × α) (arg : α) :
    fdbTslIterReverse env junk m db stack cb arg =
      some (visit cb (tsls db.maxLen book).reverse arg).2 := by
  have first : book.place (pageBack book 0) = book.cursor := by
    rw [pageBack_low (Nat.succ_pos _), Nat.sub_zero, book.place_cursor]
  rw [fdbTslIterReverse, memory.tracks.addr, ← first]
  refine (walkSectors_eq env junk m memory.opened (fun o => book.place (pageBack book o))
    (stepBack db.maxLen book cb) (fun _ _ => True)
    (fun o _ sector state _ => reverse_turn memory shows cb sector state)
    (fun _ _ _ _ _ => trivial) (nexts_backward memory.opened book)
    (fun o => secStart_valid (book.place_lt _))
    (show 0 + (62 + 1) = 63 from rfl) (by unfold loopFuel; omega) stack trivial).trans ?_
  rw [← List.range_eq_range', stepBack_all db.maxLen busy]

end Iterating

end BmsFirmware.Flashdb.Traversal
