/- Module: BmsFirmware/Flashdb/LogBook
   Source: application/flashdb/src/fdb_tsdb.c
   Digest: The database as a book of logs, and how memory and flash stand for it. -/

import BmsFirmware.Flashdb.SectorWrites

set_option autoImplicit false
set_option relaxedAutoImplicit false

namespace BmsFirmware.Flashdb.LogBook

open BmsFirmware.Library.ByteMemory
open BmsFirmware.Library.PowerLogic
open BmsFirmware.Flash.Controller
open BmsFirmware.Flashdb.Utils
open BmsFirmware.Flashdb.Storage
open BmsFirmware.Flashdb.Tsdb
open BmsFirmware.Flashdb.SectorLayout
open BmsFirmware.Flashdb.SectorWrites

/-! ### The book -/

/-- The logs of a sector; the first one was saved, and its time is the sector's. -/
structure Sector where
  first : Record
  rest : List Slot

namespace Sector

def slots (sec : Sector) : List Slot := .saved sec.first :: sec.rest

def startTime (sec : Sector) : FdbTime := sec.first.time

def endTime (sec : Sector) : FdbTime := lastTimeOf sec.first.time sec.rest

def push (sec : Sector) (e : Slot) : Sector := { sec with rest := sec.rest ++ [e] }

/-- Whether the sector has room for a log of `n` bytes. -/
def Takes (maxLen : Word) (sec : Sector) (n : Nat) : Prop :=
  total maxLen sec.slots + 32 + wholeWords n ≤ 1968

instance (maxLen : Word) (sec : Sector) (n : Nat) : Decidable (sec.Takes maxLen n) :=
  inferInstanceAs (Decidable (_ ≤ _))

theorem slots_ne_nil (sec : Sector) : sec.slots ≠ [] := List.cons_ne_nil _ _

theorem length_pos (sec : Sector) : 0 < sec.slots.length := Nat.succ_pos _

theorem endTime_push_saved (sec : Sector) (r : Record) :
    (sec.push (.saved r)).endTime = r.time := by
  rw [endTime, push, lastTimeOf, List.foldl_append]
  rfl

theorem endTime_push_torn (sec : Sector) : (sec.push .torn).endTime = sec.endTime := by
  rw [endTime, push, lastTimeOf, List.foldl_append]
  rfl

end Sector

/-- What a sector of the flash is used for. -/
inductive Page where
  | empty
  | active (sec : Sector)
  | full (sec : Sector)

def Page.slots : Page → List Slot
  | .empty => []
  | .active sec => sec.slots
  | .full sec => sec.slots

/-- The closed sectors from the oldest on, the one in use, if it holds a log, and where that
one is; the sectors are used in a ring. -/
structure Book where
  closed : List Sector
  current : Option Sector
  cursor : Nat
  last : FdbTime
  inside : cursor < 63
  ring : closed.length = 62 ∨ closed.length = cursor
  latest : ∀ sec, current = some sec → last = sec.endTime

/-- Looking up every position of a list, and further ones where there is nothing. -/
theorem flatMap_getD {α β : Type} {g : α → List β} {d : α} (none : g d = []) {l : List α} {n : Nat}
    (short : l.length ≤ n) : (List.range n).flatMap (fun i => g (l.getD i d)) = l.flatMap g := by
  induction l generalizing n with
  | nil => simp [none]
  | cons a l ih =>
    obtain ⟨m, rfl⟩ : ∃ m, n = m + 1 := ⟨n - 1, by rw [List.length_cons] at short; omega⟩
    rw [List.range_succ_eq_map, List.flatMap_cons, List.flatMap_map, List.flatMap_cons]
    congr 1
    exact ih (by simpa using short)

namespace Book

variable (book : Book)

/-- The logs of the sector in use. -/
def slots : List Slot := (book.current.map Sector.slots).getD []

/-- The page in use. -/
def currentPage : Page := (book.current.map Page.active).getD .empty

/-- The pages from the oldest on. -/
def pages : List Page := book.closed.map .full ++ [book.currentPage]

/-- The `o`-th page from the oldest on. -/
def page (o : Nat) : Page := book.pages.getD o .empty

/-- Where the `o`-th page from the oldest on is. -/
def place (o : Nat) : Nat := (book.cursor + 63 - book.closed.length + o) % 63

/-- All logs in the order in which they were appended. -/
def logs : List Slot := book.closed.flatMap Sector.slots ++ book.slots

theorem closed_le : book.closed.length ≤ 62 := by
  have inside := book.inside
  rcases book.ring with full | level <;> omega

theorem place_lt (o : Nat) : book.place o < 63 := Nat.mod_lt _ (by omega)

theorem place_cursor : book.place book.closed.length = book.cursor := by
  have inside := book.inside
  have short := book.closed_le
  unfold place
  omega

theorem place_inj {o o' : Nat} (low : o < 63) (low' : o' < 63)
    (same : book.place o = book.place o') :
    o = o' := by
  unfold place at same
  omega

theorem page_closed {o : Nat} {sec : Sector} (here : book.closed[o]? = some sec) :
    book.page o = .full sec := by
  have low : o < book.closed.length := (List.getElem?_eq_some_iff.mp here).1
  rw [page, pages, List.getD_append _ _ _ _ (by simpa using low), List.getD_eq_getElem?_getD,
    List.getElem?_map, here]
  rfl

theorem page_current : book.page book.closed.length = book.currentPage := by
  rw [page, pages, List.getD_append_right _ _ _ _ (by simp)]
  simp

theorem page_behind {o : Nat} (behind : book.closed.length < o) : book.page o = .empty := by
  rw [page, pages, List.getD_eq_default]
  simp only [List.length_append, List.length_map, List.length_singleton]
  exact behind

/-- The pages of all sectors hold the logs of the book. -/
theorem flatMap_pages : (List.range 63).flatMap (fun o => (book.page o).slots) = book.logs := by
  have short := book.closed_le
  have fits : book.pages.length ≤ 63 := by
    simp only [pages, List.length_append, List.length_map, List.length_singleton]
    omega
  unfold page
  rw [flatMap_getD rfl fits, pages, List.flatMap_append, List.flatMap_map, List.flatMap_singleton]
  congr 1
  unfold currentPage slots
  cases book.current <;> rfl

/-! ### Appending to the book -/

/-- The first log of a sector. -/
def opened (r : Record) : Book :=
  { book with current := some ⟨r, []⟩, last := r.time, latest := by rintro sec ⟨⟩; rfl }

/-- One more slot in the sector in use. -/
def grown (sec : Sector) (e : Slot) : Book :=
  { book with
    current := some (sec.push e), last := (sec.push e).endTime, latest := by rintro _ ⟨⟩; rfl }

/-- The sector in use is closed; where all others are closed too, the oldest is given up. -/
def turned (sec : Sector) : Book where
  closed := (book.closed ++ [sec]).drop (book.closed.length - 61)
  current := none
  cursor := (book.cursor + 1) % 63
  last := book.last
  inside := Nat.mod_lt _ (by omega)
  ring := by
    have inside := book.inside
    have ring := book.ring
    simp only [List.length_drop, List.length_append, List.length_singleton]
    omega
  latest := nofun

/-- The book before a log of `n` bytes is put in: its sector in use has room for it. -/
def target (maxLen : Word) (n : Nat) : Book :=
  match book.current with
  | none => book
  | some sec => if sec.Takes maxLen n then book else book.turned sec

/-- Put a log into the sector in use. -/
def put (r : Record) : Book :=
  match book.current with
  | none => book.opened r
  | some sec => book.grown sec (.saved r)

/-- The book behind a log that has been appended. -/
def add (maxLen : Word) (r : Record) : Book := (book.target maxLen r.size.toNat).put r

/-- What `put` makes of the sector in use. -/
theorem put_current (r : Record) :
    ∃ sec, (book.put r).current = some sec ∧ sec.slots = book.slots ++ [.saved r] ∧
      sec.startTime = (book.current.map Sector.startTime).getD r.time ∧ sec.endTime = r.time := by
  unfold put slots
  cases current : book.current with
  | none => exact ⟨⟨r, []⟩, rfl, rfl, rfl, rfl⟩
  | some sec => exact ⟨sec.push (.saved r), rfl, rfl, rfl, sec.endTime_push_saved r⟩

/-- What `put` leaves alone. -/
theorem put_closed (r : Record) :
    (book.put r).closed = book.closed ∧ (book.put r).cursor = book.cursor := by
  unfold put
  cases book.current <;> exact ⟨rfl, rfl⟩

theorem target_room (maxLen : Word) {n : Nat} (small : wholeWords n ≤ 1936) :
    total maxLen (book.target maxLen n).slots + 32 + wholeWords n ≤ 1968 := by
  unfold target
  cases current : book.current with
  | none =>
    have slots : book.slots = [] := by
      rw [slots, current]
      rfl
    simp only [slots, total_nil]
    omega
  | some sec =>
    by_cases takes : sec.Takes maxLen n
    · have slots : book.slots = sec.slots := by
        rw [slots, current]
        rfl
      simp only [if_pos takes, slots]
      exact takes
    · simp only [if_neg takes]
      change total maxLen [] + 32 + wholeWords n ≤ 1968
      rw [total_nil]
      omega

theorem turned_length (sec : Sector) :
    (book.turned sec).closed.length = book.closed.length + 1 - (book.closed.length - 61) := by
  simp only [turned, List.length_drop, List.length_append, List.length_singleton]

theorem turned_place (sec : Sector) (o : Nat) :
    (book.turned sec).place o = book.place (o + (book.closed.length - 61)) := by
  have inside := book.inside
  have ring := book.ring
  unfold place
  rw [turned_length]
  change ((book.cursor + 1) % 63 + 63 - _ + o) % 63 = _
  omega

theorem turned_page (sec : Sector) (o : Nat) :
    (book.turned sec).page o =
      if o + (book.closed.length - 61) < book.closed.length then
        book.page (o + (book.closed.length - 61))
      else if o + (book.closed.length - 61) = book.closed.length then .full sec
      else .empty := by
  have short := book.closed_le
  have count := book.turned_length sec
  have listed : (book.turned sec).closed[o]? =
      (book.closed ++ [sec])[o + (book.closed.length - 61)]? := by
    rw [turned, List.getElem?_drop, Nat.add_comm]
  split
  case isTrue low =>
    rw [List.getElem?_append_left low] at listed
    have here := List.getElem?_eq_getElem low
    rw [page_closed _ (listed.trans here), page_closed _ here]
  case isFalse high =>
    split
    case isTrue last =>
      rw [last, List.getElem?_concat_length] at listed
      exact page_closed _ listed
    case isFalse behind =>
      rcases Nat.lt_or_ge (book.turned sec).closed.length o with after | level
      · exact page_behind _ after
      · obtain rfl : o = (book.turned sec).closed.length := by omega
        exact page_current _

end Book

/-! ### The book in flash and in memory -/

def PageAt (maxLen : Word) (V : Memory) (s : Nat) : Page → Prop
  | .empty => EmptyAt V s
  | .active sec => ActiveAt maxLen V s sec.startTime sec.slots
  | .full sec => FullAt maxLen V s sec.startTime sec.endTime sec.slots

/-- Every sector shows its page. -/
def OnFlash (maxLen : Word) (V : Memory) (book : Book) : Prop :=
  ∀ o < 63, PageAt maxLen V (book.place o) (book.page o)

/-- The structure in memory knows where the next log goes. -/
structure Tracks (maxLen : Word) (info : TsdbSecInfo) (s : Nat) (slots : List Slot) : Prop where
  addr : info.addr = w32 (secStart s)
  unclosed : info.endInfoStat0 = .unused
  emptyIdx : info.emptyIdx = w32 (slotAddr s slots.length)
  emptyData : info.emptyData = w32 (secStart (s + 1)) - w32 (used maxLen slots)
  remain : info.remain = w32 (1968 - total maxLen slots)

/-- The structure in memory knows the logs of the sector in use. -/
structure InUse (info : TsdbSecInfo) (s : Nat) (sec : Sector) : Prop where
  status : info.status = .storeUsing
  startTime : info.startTime = sec.startTime
  endTime : info.endTime = sec.endTime
  endIdx : info.endIdx = w32 (slotAddr s (sec.slots.length - 1))

/-- The database in memory stands for the book. -/
structure InMemory (db : FdbTsdb) (book : Book) : Prop where
  opened : Opened db
  initOk : db.parent.initOk = true
  rollover : db.rollover = true
  oldest : db.parent.oldestAddr = w32 (secStart (book.place 0))
  tracks : Tracks db.maxLen db.curSec book.cursor book.slots
  lastTime : db.lastTime = book.last
  idle : book.current = none → db.curSec.status = .storeEmpty
  inUse : ∀ sec, book.current = some sec → InUse db.curSec book.cursor sec

section Pages

variable {maxLen : Word} {V W X : Memory} {s : Nat} {page : Page} {book : Book}

theorem PageAt.congr (here : PageAt maxLen V s page) (same : SameSector V W s) :
    PageAt maxLen W s page := by
  have header {k : Nat} (formatted : Formatted V s k) : Formatted W s k :=
    formatted.congr fun i low => same i (by omega)
  cases page with
  | empty =>
    have empty : EmptyAt V s := here
    refine ⟨header empty.header, fun i left right => ?_⟩
    rw [same i right]
    exact empty.clear i left right
  | active sec =>
    have active : ActiveAt maxLen V s sec.startTime sec.slots := here
    refine ⟨header active.header, ?_, fun i left right => ?_, active.body.congr fun i _ => same i⟩
    · rw [same.word (by omega), active.start]
    · rw [same i (by omega)]
      exact active.unclosed i left right
  | full sec =>
    have full : FullAt maxLen V s sec.startTime sec.endTime sec.slots := here
    have statuses : 4 * (FDB_TSL_STATUS_NUM - 1) = 20 := rfl
    refine ⟨header full.header, ?_, full.table.congr fun i low => ?_, ?_, ?_,
      full.body.congr fun i _ => same i⟩
    · rw [same.word (by omega), full.start]
    · rw [Nat.add_assoc]
      exact same _ (by omega)
    · rw [same.word (by omega), full.ended]
    · rw [same.word (by omega), full.endIdx]

/-- The logs of a page are in its sector. -/
theorem PageAt.stored (here : PageAt maxLen V s page) : SlotsAt maxLen V s page.slots := by
  cases page with
  | empty =>
    exact ⟨fun i e there => by simp [Page.slots] at there,
      fun i low => absurd low (Nat.not_lt_zero i), fun i r there => by simp [Page.slots] at there⟩
  | active sec => exact (show ActiveAt maxLen V s _ sec.slots from here).body.stored
  | full sec => exact (show FullAt maxLen V s _ _ sec.slots from here).body.stored

/-- Sectors other than one that has changed show their pages as before. -/
theorem PageAt.kept (here : PageAt maxLen V s page) {s' : Nat} (other : s ≠ s')
    (kept : KeptOff (secStart s') (secStart (s' + 1)) V W) : PageAt maxLen W s page := by
  refine here.congr (kept.sameSector ?_)
  unfold secStart
  omega

/-- A change of the page in use. -/
theorem OnFlash.current (shows : OnFlash maxLen V book) {book' : Book}
    (closed : book'.closed = book.closed) (cursor : book'.cursor = book.cursor)
    (kept : KeptOff (secStart book.cursor) (secStart (book.cursor + 1)) V W)
    (here : PageAt maxLen W book.cursor book'.currentPage) : OnFlash maxLen W book' := by
  intro o low
  have place : book'.place o = book.place o := by
    rw [Book.place, Book.place, closed, cursor]
  by_cases current : o = book.closed.length
  · rw [place, current, book.place_cursor, ← closed, Book.page_current]
    exact here
  · have page : book'.page o = book.page o := by
      rcases Nat.lt_or_gt_of_ne current with before | behind
      · have listed := List.getElem?_eq_getElem before
        rw [Book.page_closed _ listed, Book.page_closed _ ((congrArg (·[o]?) closed).trans listed)]
      · rw [Book.page_behind _ behind, Book.page_behind _ (by rw [closed]; exact behind)]
    rw [place, page]
    refine (shows o low).kept (fun same => current ?_) kept
    rw [← book.place_cursor] at same
    have short := book.closed_le
    exact book.place_inj low (by omega) same

theorem Book.place_next (book : Book) :
    book.place (book.closed.length + 1) = (book.cursor + 1) % 63 := by
  have inside := book.inside
  have short := book.closed_le
  unfold Book.place
  omega

/-- Closing the sector in use and formatting the next one, if that is not empty. -/
theorem OnFlash.turned {sec : Sector} (shows : OnFlash maxLen V book)
    (closing : KeptOff (secStart book.cursor) (secStart (book.cursor + 1)) V W)
    (full : FullAt maxLen W book.cursor sec.startTime sec.endTime sec.slots)
    (formatting : KeptOff (secStart ((book.cursor + 1) % 63))
      (secStart ((book.cursor + 1) % 63 + 1)) W X)
    (empty : EmptyAt X ((book.cursor + 1) % 63)) : OnFlash maxLen X (book.turned sec) := by
  have inside := book.inside
  have short := book.closed_le
  have next := book.place_next
  have here := book.place_cursor
  have apart : book.cursor ≠ (book.cursor + 1) % 63 := by omega
  have elsewhere {o : Nat} (low : o < 63) (notHere : o ≠ book.closed.length)
      (notNext : book.place o ≠ (book.cursor + 1) % 63) :
      PageAt maxLen X (book.place o) (book.page o) := by
    refine ((shows o low).kept (fun same => notHere ?_) closing).kept notNext formatting
    rw [← here] at same
    exact book.place_inj low (by omega) same
  intro o low
  rw [Book.turned_place, Book.turned_page]
  split
  case isTrue before =>
    refine elsewhere (by omega) (by omega) ?_
    rw [← next]
    unfold Book.place
    omega
  case isFalse after =>
    split
    case isTrue last =>
      rw [last, here]
      have closed : PageAt maxLen W book.cursor (.full sec) := full
      exact closed.kept apart formatting
    case isFalse behind =>
      by_cases new : o + (book.closed.length - 61) = book.closed.length + 1
      · rw [new, next]
        exact empty
      · have still := elsewhere (o := o + (book.closed.length - 61)) (by omega) (by omega) (by
          rw [← next]
          unfold Book.place
          omega)
        rwa [Book.page_behind _ (by omega)] at still

end Pages

end BmsFirmware.Flashdb.LogBook
