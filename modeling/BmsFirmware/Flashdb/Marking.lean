/- Module: BmsFirmware/Flashdb/Marking
   Source: application/flashdb/src/fdb_tsdb.c
   Digest: Giving one log a later status changes that log and no other. -/

import BmsFirmware.Flashdb.Chronology
import BmsFirmware.Flashdb.Traversal
import Mathlib.Data.List.Basic

set_option autoImplicit false
set_option relaxedAutoImplicit false

namespace BmsFirmware.Flashdb.Marking

open BmsFirmware.Library.ByteMemory
open BmsFirmware.Library.PowerLogic
open BmsFirmware.Flash.Controller
open BmsFirmware.Flashdb.Utils
open BmsFirmware.Flashdb.Storage
open BmsFirmware.Flashdb.Tsdb
open BmsFirmware.Flashdb.SectorLayout
open BmsFirmware.Flashdb.SectorWrites
open BmsFirmware.Flashdb.LogBook
open BmsFirmware.Flashdb.Appending
open BmsFirmware.Flashdb.Chronology
open BmsFirmware.Flashdb.Traversal

/-! ### A book with another status -/

section Marked

variable (time : FdbTime) (status : TslStatus)

/-- The log of that time gets the status. -/
def Record.marked (r : Record) : Record := if r.time = time then { r with status := status } else r

def Slot.marked : Slot → Slot
  | .torn => .torn
  | .saved r => .saved (Record.marked time status r)

def Sector.marked (sec : Sector) : Sector :=
  ⟨Record.marked time status sec.first, sec.rest.map (Slot.marked time status)⟩

def Page.marked : Page → Page
  | .empty => .empty
  | .active sec => .active (Sector.marked time status sec)
  | .full sec => .full (Sector.marked time status sec)

theorem marked_time (r : Record) : (Record.marked time status r).time = r.time := by
  unfold Record.marked
  split <;> rfl

theorem marked_size (r : Record) : (Record.marked time status r).size = r.size := by
  unfold Record.marked
  split <;> rfl

theorem marked_slots (sec : Sector) :
    (Sector.marked time status sec).slots = sec.slots.map (Slot.marked time status) := rfl

theorem marked_startTime (sec : Sector) :
    (Sector.marked time status sec).startTime = sec.startTime := marked_time time status sec.first

theorem marked_lastTimeOf (before : FdbTime) (slots : List Slot) :
    lastTimeOf before (slots.map (Slot.marked time status)) = lastTimeOf before slots := by
  induction slots generalizing before with
  | nil => rfl
  | cons e slots ih =>
    have same : (Slot.marked time status e).timeFrom before = e.timeFrom before := by
      cases e with
      | torn => rfl
      | saved r => exact marked_time time status r
    change lastTimeOf ((Slot.marked time status e).timeFrom before)
      (slots.map (Slot.marked time status)) = lastTimeOf (e.timeFrom before) slots
    rw [ih, same]

theorem marked_endTime (sec : Sector) : (Sector.marked time status sec).endTime = sec.endTime := by
  have first := marked_time time status sec.first
  change lastTimeOf (Record.marked time status sec.first).time _ =
    lastTimeOf sec.first.time sec.rest
  rw [first]
  exact marked_lastTimeOf time status _ _

theorem marked_used (maxLen : Word) (slots : List Slot) :
    used maxLen (slots.map (Slot.marked time status)) = used maxLen slots := by
  have same : Slot.room maxLen ∘ Slot.marked time status = Slot.room maxLen := by
    funext e
    cases e with
    | torn => rfl
    | saved r => exact congrArg (fun size => wholeWords size.toNat) (marked_size time status r)
  rw [used, List.map_map, same, used]

theorem marked_total (maxLen : Word) (slots : List Slot) :
    total maxLen (slots.map (Slot.marked time status)) = total maxLen slots := by
  rw [total, marked_used, List.length_map, total]

/-- The log of that time gets the status, in whatever sector it is. -/
def Book.marked (book : Book) : Book where
  closed := book.closed.map (Sector.marked time status)
  current := book.current.map (Sector.marked time status)
  cursor := book.cursor
  last := book.last
  inside := book.inside
  ring := by
    rw [List.length_map]
    exact book.ring
  latest := by
    intro sec some
    obtain ⟨sec', current, rfl⟩ := Option.map_eq_some_iff.mp some
    rw [marked_endTime]
    exact book.latest sec' current

variable (book : Book)

theorem marked_current :
    (Book.marked time status book).current = book.current.map (Sector.marked time status) := rfl

theorem marked_closed :
    (Book.marked time status book).closed = book.closed.map (Sector.marked time status) := rfl

theorem marked_place (o : Nat) : (Book.marked time status book).place o = book.place o := by
  rw [Book.place, Book.place, marked_closed, List.length_map]
  rfl

theorem marked_page (o : Nat) :
    (Book.marked time status book).page o = Page.marked time status (book.page o) := by
  have pages : (Book.marked time status book).pages =
      book.pages.map (Page.marked time status) := by
    have current : (Book.marked time status book).currentPage =
        Page.marked time status book.currentPage := by
      rw [Book.currentPage, Book.currentPage, marked_current]
      cases book.current <;> rfl
    rw [Book.pages, Book.pages, current, List.map_append, List.map_map, marked_closed, List.map_map]
    rfl
  rw [Book.page, pages]
  exact List.getD_map book.pages Page.empty (Page.marked time status)

theorem marked_pageSlots (page : Page) :
    (Page.marked time status page).slots = page.slots.map (Slot.marked time status) := by
  cases page <;> rfl

theorem marked_bookSlots :
    (Book.marked time status book).slots = book.slots.map (Slot.marked time status) := by
  rw [Book.slots, Book.slots, marked_current]
  cases book.current <;> rfl

theorem marked_logs :
    (Book.marked time status book).logs = book.logs.map (Slot.marked time status) := by
  rw [Book.logs, Book.logs, marked_bookSlots, List.map_append, List.map_flatMap, marked_closed,
    List.flatMap_map]
  rfl

theorem marked_saved (slots : List Slot) :
    saved (slots.map (Slot.marked time status)) =
      (saved slots).map (Record.marked time status) := by
  rw [saved, saved, List.filterMap_map, List.map_filterMap]
  congr 1
  funext e
  cases e <;> rfl

end Marked

/-! ### The word in flash -/

/-- The word of a status at an index address. -/
def markAt (V : Memory) (a : Nat) (status : TslStatus) : Memory :=
  fill V (a + 4 * (status.index - 1)) 4 markWord

/-- The log at the place `i` of the `o`-th sector has that time, and no other log has. -/
structure Alone (book : Book) (time : FdbTime) (o i : Nat) : Prop where
  low : o < 63
  here : ∃ r, (book.page o).slots[i]? = some (.saved r) ∧ r.time = time
  only : ∀ o' < 63, ∀ i' r, (book.page o').slots[i']? = some (.saved r) → r.time = time →
    o' = o ∧ i' = i

/-- In the order of the times no two logs have one time. -/
theorem Alone.ofOrdered {book : Book} {o i : Nat} {r : Record}
    (ordered : (saved book.logs).Pairwise fun r r' => r.time.toInt < r'.time.toInt) (low : o < 63)
    (here : (book.page o).slots[i]? = some (.saved r)) : Alone book r.time o i := by
  rw [← book.flatMap_pages, saved, List.filterMap_flatMap, List.pairwise_flatMap] at ordered
  obtain ⟨within, across⟩ := ordered
  have record {o' i' : Nat} {r' : Record} (there : (book.page o').slots[i']? = some (.saved r')) :
      r' ∈ (book.page o').slots.filterMap recordIn :=
    List.mem_filterMap.mpr ⟨_, List.mem_of_getElem? there, rfl⟩
  have pages {o₁ o₂ i₁ i₂ : Nat} {r₁ r₂ : Record} (less : o₁ < o₂) (bound : o₂ < 63)
      (first : (book.page o₁).slots[i₁]? = some (.saved r₁))
      (second : (book.page o₂).slots[i₂]? = some (.saved r₂)) : r₁.time.toInt < r₂.time.toInt := by
    have apart := List.pairwise_iff_getElem.mp across o₁ o₂ (by simp; omega) (by simpa) less
    rw [List.getElem_range, List.getElem_range] at apart
    exact apart r₁ (record first) r₂ (record second)
  have places {o' i₁ i₂ : Nat} {r₁ r₂ : Record} (bound : o' < 63) (less : i₁ < i₂)
      (first : (book.page o').slots[i₁]? = some (.saved r₁))
      (second : (book.page o').slots[i₂]? = some (.saved r₂)) : r₁.time.toInt < r₂.time.toInt := by
    have listed := within o' (List.mem_range.mpr bound)
    obtain ⟨inside, value⟩ := List.getElem?_eq_some_iff.mp first
    obtain ⟨inside', value'⟩ := List.getElem?_eq_some_iff.mp second
    have apart := List.pairwise_iff_getElem.mp (List.pairwise_filterMap.mp listed) i₁ i₂ inside
      inside' less
    rw [value, value'] at apart
    exact apart r₁ rfl r₂ rfl
  refine ⟨low, ⟨r, here, rfl⟩, fun o' low' i' r' there dated => ?_⟩
  have equal : r'.time.toInt = r.time.toInt := congrArg BitVec.toInt dated
  rcases Nat.lt_trichotomy o' o with before | rfl | behind
  · have := pages before low there here
    omega
  · refine ⟨rfl, ?_⟩
    rcases Nat.lt_trichotomy i' i with before | same | behind
    · have := places low before there here
      omega
    · exact same
    · have := places low behind here there
      omega
  · have := pages behind low' here there
    omega

section Flash

variable {maxLen : Word} {V : Memory} {s i : Nat} {slots : List Slot} {time : FdbTime}
  {status : TslStatus}

theorem TslStatus.index_lt (status : TslStatus) : status.index < 6 := by
  cases status <;> decide

theorem markAt_outside {a x : Nat} (status : TslStatus) (away : x < a ∨ a + 20 ≤ x) :
    markAt V a status x = V x := by
  have bound := TslStatus.index_lt status
  exact fill_outside (by omega)

/-- A later status is shown instead, and the rest of the log stays. -/
theorem SavedAt.raise {a d : Nat} {r : Record} (saved : SavedAt V a d r)
    (later : r.status.index < status.index) (apart : a + 32 ≤ d - wholeWords r.size.toNat) :
    SavedAt (markAt V a status) a d { r with status := status } := by
  have bound := TslStatus.index_lt status
  have count : FDB_TSL_STATUS_NUM = 6 := rfl
  have word (off : Nat) (behind : 20 ≤ off) : wordAt (markAt V a status) (a + off) =
      wordAt V (a + off) :=
    wordAt_congr fun j _ => markAt_outside status (by omega)
  have table := saved.table.mark (j := status.index - 1) (by omega) (by omega)
  rw [Nat.sub_add_cancel (by omega)] at table
  refine ⟨table, ?_, ?_, ?_, ?_, ?_⟩
  · have written := saved.written
    change 2 ≤ status.index
    omega
  · rw [word 20 (by omega), saved.time]
  · rw [word 24 (by omega), saved.size]
  · rw [word 28 (by omega), saved.log]
  · intro j low
    change j < r.size.toNat at low
    change markAt V a status (d - wholeWords r.size.toNat + j) = r.data j
    rw [markAt_outside status (by omega)]
    exact saved.data j low

/-- The data of every log is behind all index entries. -/
theorem SlotsAt.apart (stored : SlotsAt maxLen V s slots) {i' : Nat} {r : Record}
    (inside : i < slots.length) (here : slots[i']? = some (.saved r)) :
    slotAddr s i + 32 ≤
      secStart (s + 1) - used maxLen (slots.take i') - wholeWords r.size.toNat := by
  have taken := used_take_succ maxLen here
  change _ = _ + wholeWords r.size.toNat at taken
  have split (k : Nat) (low : k ≤ slots.length) :
      total maxLen (slots.take k) = 32 * k + used maxLen (slots.take k) := by
    rw [total, List.length_take, Nat.min_eq_left low]
  have inside' : i' < slots.length := (List.getElem?_eq_some_iff.mp here).1
  have place : slotAddr s i = secStart s + 80 + 32 * i := rfl
  have sector : secStart (s + 1) = secStart s + 2048 := rfl
  rcases Nat.lt_or_ge i' i with before | behind
  · -- the entry is behind the log's own: what was in front of it left room for it
    have fits := stored.fits i inside
    have monotone := used_take_le maxLen (slots.take i) (i' + 1)
    rw [List.take_take, Nat.min_eq_left (by omega)] at monotone
    rw [split i (by omega)] at fits
    omega
  · have fits := stored.savedFits i' r here
    rw [split (i' + 1) (by omega)] at fits
    omega

/-- One log of a sector gets a later status; no other log of that sector has its time. -/
theorem SlotsAt.raise (stored : SlotsAt maxLen V s slots) {r : Record}
    (here : slots[i]? = some (.saved r)) (dated : r.time = time)
    (later : r.status.index < status.index)
    (only : ∀ i' r', slots[i']? = some (.saved r') → r'.time = time → i' = i) :
    SlotsAt maxLen (markAt V (slotAddr s i) status) s (slots.map (Slot.marked time status)) := by
  have inside : i < slots.length := (List.getElem?_eq_some_iff.mp here).1
  have room (k : Nat) : used maxLen ((slots.map (Slot.marked time status)).take k) =
      used maxLen (slots.take k) := by
    rw [← List.map_take, marked_used]
  have all (k : Nat) : total maxLen ((slots.map (Slot.marked time status)).take k) =
      total maxLen (slots.take k) := by
    rw [← List.map_take, marked_total]
  refine ⟨?_, ?_, ?_⟩
  · intro i' e listed
    rw [List.getElem?_map] at listed
    obtain ⟨e', there, rfl⟩ := Option.map_eq_some_iff.mp listed
    rw [room]
    by_cases same : i' = i
    · subst same
      obtain rfl := Option.some.inj (here.symm.trans there)
      have saved : SavedAt V _ _ r := stored.each i' _ here
      have raised := SavedAt.raise saved later (SlotsAt.apart stored inside here)
      have marked : Record.marked time status r = { r with status := status } := if_pos dated
      change SavedAt _ _ _ (Record.marked time status r)
      rwa [marked]
    · have unmarked : Slot.marked time status e' = e' := by
        cases e' with
        | torn => rfl
        | saved r' =>
          exact congrArg Slot.saved (if_neg fun dated' => same (only i' r' there dated'))
      rw [unmarked]
      refine SlotAt.congr (stored.each i' e' there) ?_ ?_
      · intro j low
        exact markAt_outside status (by unfold slotAddr; omega)
      · rintro r' rfl
        have apart := SlotsAt.apart stored inside there
        exact ⟨by unfold slotAddr at apart; omega, fun x left _ =>
          markAt_outside status (by omega)⟩
  · intro k low
    rw [all]
    exact stored.fits k (by rwa [List.length_map] at low)
  · intro k r' listed
    rw [List.getElem?_map] at listed
    obtain ⟨e', there, marked⟩ := Option.map_eq_some_iff.mp listed
    rw [all]
    cases e' with
    | torn => cases marked
    | saved r'' => exact stored.savedFits k r'' there

theorem SlotsAt.markAt_kept (stored : SlotsAt maxLen V s slots) (inside : i < slots.length)
    (status : TslStatus) :
    KeptOff (secStart s + 80) (secStart (s + 1)) V (markAt V (slotAddr s i) status) := by
  have short := SlotsAt.length_le stored
  have sector : secStart (s + 1) = secStart s + 2048 := rfl
  intro x away
  refine markAt_outside status ?_
  unfold slotAddr
  omega

theorem Body.raise (body : Body maxLen V s slots) {r : Record}
    (here : slots[i]? = some (.saved r)) (dated : r.time = time)
    (later : r.status.index < status.index)
    (only : ∀ i' r', slots[i']? = some (.saved r') → r'.time = time → i' = i) :
    Body maxLen (markAt V (slotAddr s i) status) s (slots.map (Slot.marked time status)) := by
  have inside : i < slots.length := (List.getElem?_eq_some_iff.mp here).1
  refine ⟨SlotsAt.raise body.stored here dated later only, ?_⟩
  rw [List.length_map, marked_used]
  intro j left right
  rw [markAt_outside status (by unfold slotAddr; omega)]
  exact body.clear j left right

/-- The page of the log shows it with the later status. -/
theorem PageAt.raise {page : Page} (shown : PageAt maxLen V s page) {r : Record}
    (here : page.slots[i]? = some (.saved r)) (dated : r.time = time)
    (later : r.status.index < status.index)
    (only : ∀ i' r', page.slots[i']? = some (.saved r') → r'.time = time → i' = i) :
    PageAt maxLen (markAt V (slotAddr s i) status) s (Page.marked time status page) := by
  have inside : i < page.slots.length := (List.getElem?_eq_some_iff.mp here).1
  have kept := SlotsAt.markAt_kept (PageAt.stored shown) inside status
  have header (j : Nat) (low : j < 80) :
      markAt V (slotAddr s i) status (secStart s + j) = V (secStart s + j) := kept _ (by omega)
  have word (off : Nat) (low : off + 4 ≤ 80) :
      wordAt (markAt V (slotAddr s i) status) (secStart s + off) = wordAt V (secStart s + off) := by
    refine wordAt_congr fun j small => ?_
    rw [Nat.add_assoc]
    exact header _ (by omega)
  cases page with
  | empty => exact absurd inside (Nat.not_lt_zero i)
  | active sec =>
    have active : ActiveAt maxLen V s sec.startTime sec.slots := shown
    refine ⟨active.header.congr fun j low => header j (by omega), ?_, fun j left right => ?_,
      Body.raise active.body here dated later only⟩
    · rw [word 16 (by omega), active.start, marked_startTime]
    · rw [header j right]
      exact active.unclosed j left right
  | full sec =>
    have full : FullAt maxLen V s sec.startTime sec.endTime sec.slots := shown
    have cells : 4 * (FDB_TSL_STATUS_NUM - 1) = 20 := rfl
    refine ⟨full.header.congr fun j low => header j (by omega), ?_,
      full.table.congr fun j low => ?_,
      ?_, ?_, Body.raise full.body here dated later only⟩
    · rw [word 16 (by omega), full.start, marked_startTime]
    · rw [Nat.add_assoc]
      exact header _ (by omega)
    · rw [word 20 (by omega), full.ended, marked_endTime]
    · rw [word 24 (by omega), full.endIdx, marked_slots, List.length_map]

/-- A page without a log of that time is the page it was. -/
theorem marked_same {page : Page}
    (without : ∀ (i' : Nat) (r : Record), page.slots[i']? = some (.saved r) → r.time ≠ time) :
    Page.marked time status page = page := by
  have slot (e : Slot) (listed : e ∈ page.slots) : Slot.marked time status e = e := by
    obtain ⟨i', there⟩ := List.mem_iff_getElem?.mp listed
    cases e with
    | torn => rfl
    | saved r => exact congrArg Slot.saved (if_neg (without i' r there))
  have sector (sec : Sector) (held : page.slots = sec.slots) :
      Sector.marked time status sec = sec := by
    rw [held] at slot
    have first : Slot.marked time status (.saved sec.first) = .saved sec.first :=
      slot _ List.mem_cons_self
    have rest : sec.rest.map (Slot.marked time status) = sec.rest := by
      rw [List.map_congr_left fun e listed => slot e (List.mem_cons_of_mem _ listed)]
      exact List.map_id' _
    rw [Sector.marked, Slot.saved.inj first, rest]
  cases page with
  | empty => rfl
  | active sec => exact congrArg Page.active (sector sec rfl)
  | full sec => exact congrArg Page.full (sector sec rfl)

variable {book : Book} {o : Nat}

/-- The flash shows the book with the later status. -/
theorem OnFlash.raise (shows : OnFlash maxLen V book) (alone : Alone book time o i)
    (later : ∀ r, (book.page o).slots[i]? = some (.saved r) → r.status.index < status.index) :
    OnFlash maxLen (markAt V (slotAddr (book.place o) i) status)
      (Book.marked time status book) := by
  obtain ⟨r, here, dated⟩ := alone.here
  have inside : i < (book.page o).slots.length := (List.getElem?_eq_some_iff.mp here).1
  intro o' low
  rw [marked_place, marked_page]
  by_cases same : o' = o
  · subst same
    exact PageAt.raise (shows o' low) here dated (later r here)
      fun i' r' there dated' => (alone.only o' low i' r' there dated').2
  · rw [marked_same fun i' r' there dated' => same (alone.only o' low i' r' there dated').1]
    refine PageAt.kept (shows o' low) (fun place => same (book.place_inj low alone.low place)) ?_
    exact (SlotsAt.markAt_kept (PageAt.stored (shows o alone.low)) inside status).widen
      (by omega) (Nat.le_refl _)

end Flash

section Memory

variable {db : FdbTsdb} {book : Book}

/-- The database in memory does not keep statuses. -/
theorem InMemory.marked (memory : InMemory db book) (time : FdbTime) (status : TslStatus) :
    InMemory db (Book.marked time status book) := by
  refine ⟨memory.opened, memory.initOk, memory.rollover, ?_, ?_, memory.lastTime, ?_, ?_⟩
  · rw [marked_place, memory.oldest]
  · have tracks := memory.tracks
    rw [marked_bookSlots]
    refine ⟨tracks.addr, tracks.unclosed, ?_, ?_, ?_⟩
    · rw [List.length_map, tracks.emptyIdx]
      rfl
    · rw [marked_used, tracks.emptyData]
      rfl
    · rw [marked_total, tracks.remain]
  · exact fun none => memory.idle (Option.map_eq_none_iff.mp none)
  · intro sec some
    obtain ⟨sec', current, rfl⟩ := Option.map_eq_some_iff.mp some
    have inUse := memory.inUse sec' current
    refine ⟨inUse.status, ?_, ?_, ?_⟩
    · rw [inUse.startTime, marked_startTime]
    · rw [inUse.endTime, marked_endTime]
    · rw [inUse.endIdx, marked_slots, List.length_map]
      rfl

variable {env : Environment} {V : Memory} {start : Board} {time : FdbTime} {status : TslStatus}
  {o i : Nat} {tsl : FdbTsl}

/-- `fdb_tsl_set_status` programs the one word; power may go before it. -/
theorem fdbTslSetStatus_triple (ok : env.Succeeds) (junk : Memory) (opened : Opened db)
    (shows : OnFlash db.maxLen V book) (alone : Alone book time o i)
    (index : tsl.index = w32 (slotAddr (book.place o) i))
    (later : ∀ r, (book.page o).slots[i]? = some (.saved r) → r.status.index < status.index) :
    Triple (Holds db.parent start V) (fdbTslSetStatus env junk db tsl status)
      (fun r b => r = .noErr ∧ ∃ W, OnFlash db.maxLen W (Book.marked time status book) ∧
        Holds db.parent start W b)
      (Lost env db.parent start fun W => W = V) := by
  obtain ⟨r, here, -⟩ := alone.here
  have stored := PageAt.stored (shows o alone.low)
  have within := SlotsAt.inside stored (book.place_lt o) (List.getElem?_eq_some_iff.mp here).1
  have saved : SavedAt V _ _ r := stored.each i _ here
  have raises := later r here
  have bound := TslStatus.index_lt status
  have length : partLen = 129024 := rfl
  have place : (w32 (slotAddr (book.place o) i)).toNat = slotAddr (book.place o) i :=
    toNat_w32 (by omega)
  obtain ⟨k, number⟩ : ∃ k, status.index = k + 1 := ⟨status.index - 1, by omega⟩
  unfold fdbTslSetStatus
  rw [index, number]
  have erased : ∀ j < 4, V ((w32 (slotAddr (book.place o) i)).toNat + 4 * k + j) = 0xFF := by
    intro j low
    rw [place, Nat.add_assoc]
    exact saved.table.clear _ (by omega) (by unfold FDB_TSL_STATUS_NUM; omega)
  have write : Triple (Holds db.parent start V) (fdbWriteStatus env db.parent
      (w32 (slotAddr (book.place o) i)) junk FDB_TSL_STATUS_NUM (k + 1)) _ _ :=
    fdbWriteStatus_triple ok opened.stored _ junk (by unfold FDB_TSL_STATUS_NUM; omega)
      (by rw [place]; omega) erased
  refine write.mono ?_ fun _ lost => lost
  rintro r' b ⟨done, holds⟩
  refine ⟨done, _, OnFlash.raise shows alone later, ?_⟩
  rw [markAt, number, Nat.add_sub_cancel]
  rwa [place] at holds

/-! ### What is read afterwards -/

/-- A log that iterating calls back for, and that was not cut off, is one of the book. -/
theorem mem_tsls {maxLen : Word} (listed : tsl ∈ tsls maxLen book)
    (complete : tsl.status ≠ .preWrite) :
    ∃ o < 63, ∃ i r, (book.page o).slots[i]? = some (.saved r) ∧ tsl.status = r.status ∧
      tsl.time = r.time ∧ tsl.index = w32 (slotAddr (book.place o) i) := by
  obtain ⟨o, low, listed⟩ := List.mem_flatMap.mp listed
  obtain ⟨i, value⟩ := List.mem_iff_getElem?.mp listed
  have inside : i < (book.page o).slots.length := by
    have bound := (List.getElem?_eq_some_iff.mp value).1
    rwa [length_tslsOf] at bound
  have here := List.getElem?_eq_getElem inside
  rw [getElem?_tslsOf maxLen _ here] at value
  obtain rfl := Option.some.inj value
  refine ⟨o, List.mem_range.mp low, i, ?_⟩
  cases shape : (book.page o).slots[i] with
  | torn =>
    rw [shape] at complete
    exact absurd rfl complete
  | saved r => exact ⟨r, here.trans (congrArg some shape), rfl, rfl, rfl⟩

/-- Another status for the log at the same index address. -/
def retag (tsl : FdbTsl) (status : TslStatus) (other : FdbTsl) : FdbTsl :=
  if other.index = tsl.index then { other with status := status } else other

/-- What is read at the place `i'` of the `o'`-th sector. -/
private theorem marked_tsl {maxLen : Word} (shows : OnFlash maxLen V book)
    (alone : Alone book time o i) (index : tsl.index = w32 (slotAddr (book.place o) i))
    {o' i' : Nat} (low : o' < 63) {e : Slot} (there : (book.page o').slots[i']? = some e)
    (d : Nat) :
    (Slot.marked time status e).tsl maxLen (slotAddr (book.place o') i') d =
      retag tsl status (e.tsl maxLen (slotAddr (book.place o') i') d) := by
  obtain ⟨r, here, dated⟩ := alone.here
  have place : w32 (slotAddr (book.place o') i') = w32 (slotAddr (book.place o) i) ↔
      o' = o ∧ i' = i := by
    have inside : i < (book.page o).slots.length := (List.getElem?_eq_some_iff.mp here).1
    have inside' : i' < (book.page o').slots.length := (List.getElem?_eq_some_iff.mp there).1
    have short := SlotsAt.length_le (PageAt.stored (shows o alone.low))
    have short' := SlotsAt.length_le (PageAt.stored (shows o' low))
    have first := book.place_lt o
    have second := book.place_lt o'
    constructor
    · intro same
      have address := congrArg BitVec.toNat same
      rw [toNat_w32 (by unfold slotAddr secStart; omega),
        toNat_w32 (by unfold slotAddr secStart; omega)] at address
      unfold slotAddr secStart at address
      exact ⟨book.place_inj low alone.low (by omega), by omega⟩
    · rintro ⟨rfl, rfl⟩
      rfl
  by_cases same : o' = o ∧ i' = i
  · obtain ⟨rfl, rfl⟩ := same
    obtain rfl := Option.some.inj (here.symm.trans there)
    have marked : Record.marked time status r = { r with status := status } := if_pos dated
    change (Slot.saved (Record.marked time status r)).tsl _ _ _ = _
    rw [marked]
    exact (if_pos index.symm).symm
  · have other : ¬w32 (slotAddr (book.place o') i') = tsl.index :=
      fun index' => same (place.mp (index'.trans index))
    cases e with
    | torn => exact (if_neg other).symm
    | saved r' =>
      have unmarked : Record.marked time status r' = r' :=
        if_neg fun dated' => same (alone.only o' low i' r' there dated')
      change (Slot.saved (Record.marked time status r')).tsl _ _ _ = _
      rw [unmarked]
      exact (if_neg other).symm

/-- Iterating calls back for the same logs, the one log with its new status. -/
theorem tsls_marked {maxLen : Word} (shows : OnFlash maxLen V book) (alone : Alone book time o i)
    (index : tsl.index = w32 (slotAddr (book.place o) i)) :
    tsls maxLen (Book.marked time status book) = (tsls maxLen book).map (retag tsl status) := by
  rw [tsls, tsls, List.map_flatMap]
  refine List.flatMap_congr fun o' listed => ?_
  rw [marked_place, marked_page, marked_pageSlots]
  refine List.ext_getElem? fun i' => ?_
  cases there : (book.page o').slots[i']? with
  | none =>
    have behind := List.getElem?_eq_none_iff.mp there
    rw [List.getElem?_eq_none (by simpa using behind),
      List.getElem?_eq_none (by simpa using behind)]
  | some e =>
    have mapped : ((book.page o').slots.map (Slot.marked time status))[i']? =
        some (Slot.marked time status e) := by
      rw [List.getElem?_map, there]
      rfl
    rw [getElem?_tslsOf maxLen _ mapped, List.getElem?_map, getElem?_tslsOf maxLen _ there,
      ← List.map_take, marked_used]
    exact congrArg some (marked_tsl shows alone index (List.mem_range.mp listed) there _)

end Memory

end BmsFirmware.Flashdb.Marking
