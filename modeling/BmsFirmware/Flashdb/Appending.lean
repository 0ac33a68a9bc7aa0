/- Module: BmsFirmware/Flashdb/Appending
   Source: application/flashdb/src/fdb_tsdb.c
   Digest: Appending a log adds it to the book, in memory and in flash. -/

import BmsFirmware.Flashdb.LogBook

set_option autoImplicit false
set_option relaxedAutoImplicit false

namespace BmsFirmware.Flashdb.Appending

open BmsFirmware.Library.ByteMemory
open BmsFirmware.Library.PowerLogic
open BmsFirmware.Flash.Controller
open BmsFirmware.Fal.FalPort
open BmsFirmware.Fal.WriteOnce
open BmsFirmware.Flashdb.Utils
open BmsFirmware.Flashdb.Storage
open BmsFirmware.Flashdb.Tsdb
open BmsFirmware.Flashdb.SectorLayout
open BmsFirmware.Flashdb.SectorWrites
open BmsFirmware.Flashdb.LogBook

/-! ### Reading the header of a page -/

section Headers

variable {maxLen : Word} {V : Memory} {s : Nat} {page : Page}

/-- The status that the header of a page shows. -/
def status : Page → SectorStatus
  | .empty => .storeEmpty
  | .active _ => .storeUsing
  | .full _ => .storeFull

theorem PageAt.formatted (here : PageAt maxLen V s page) : Formatted V s (status page).index := by
  cases page with
  | empty => exact (show EmptyAt V s from here).header
  | active sec => exact (show ActiveAt maxLen V s sec.startTime sec.slots from here).header
  | full sec => exact (show FullAt maxLen V s sec.startTime sec.endTime sec.slots from here).header

theorem erased_unused {a : Nat} (ones : ∀ i < 20, V (a + i) = 0xFF) :
    TslStatus.ofIndex (shown V a FDB_TSL_STATUS_NUM) = .unused := by
  have cells : 4 * (FDB_TSL_STATUS_NUM - 1) = 20 := rfl
  have table : TableAt V a FDB_TSL_STATUS_NUM 0 := TableAt.erased fun i low => ones i (by omega)
  rw [table.shows]
  rfl

/-- The first end info of a page. -/
theorem PageAt.endInfo (here : PageAt maxLen V s page) :
    TslStatus.ofIndex (shown V (secStart s + 28) FDB_TSL_STATUS_NUM) =
      if (status page) = .storeFull then .write else .unused := by
  cases page with
  | empty =>
    refine erased_unused fun i low => ?_
    rw [Nat.add_assoc]
    exact (show EmptyAt V s from here).clear _ (by omega) (by omega)
  | active sec =>
    refine erased_unused fun i low => ?_
    rw [Nat.add_assoc]
    exact (show ActiveAt maxLen V s sec.startTime sec.slots from here).unclosed _ (by omega)
      (by omega)
  | full sec =>
    rw [(show FullAt maxLen V s sec.startTime sec.endTime sec.slots from here).table.shows]
    rfl

theorem PageAt.free (here : PageAt maxLen V s page) : ¬Stuck V s := by
  rintro ⟨first, -⟩
  rw [PageAt.endInfo here] at first
  split at first <;> cases first

theorem PageAt.openedInfo_status (here : PageAt maxLen V s page) (sector : TsdbSecInfo) :
    (openedInfo V s sector).status = status page := by
  change SectorStatus.ofIndex _ = _
  rw [(PageAt.formatted here).table.shows]
  cases page <;> rfl

/-- The header of a page is read without its logs. -/
theorem readSectorInfo_page (env : Environment) (junk m : Memory) {db : FdbTsdb}
    (opened : Opened db) (low : s < 63) (here : PageAt maxLen (view db.parent.part m) s page)
    (sector : TsdbSecInfo) :
    readSectorInfo env junk m db (w32 (secStart s)) sector false =
      some (.noErr, openedInfo (view db.parent.part m) s sector) := by
  rw [readSectorInfo_eq env junk m opened low (PageAt.formatted here).magic (PageAt.free here)]
  exact if_neg fun both => Bool.false_ne_true both.2

/-- Behind the header of an empty page the first log goes. -/
theorem openedInfo_tracks (here : PageAt maxLen V s .empty) (sector : TsdbSecInfo) :
    Tracks maxLen (openedInfo V s sector) s [] := by
  refine ⟨rfl, PageAt.endInfo here, rfl, ?_, rfl⟩
  rw [used_nil]
  exact (BitVec.sub_zero _).symm

end Headers

/-! ### Going to the next sector -/

section Steps

variable {env : Environment} {db : FdbTsdb} {V : Memory} {start : Board} {s : Nat}

/-- The database behind the change to another sector. -/
def entered (db : FdbTsdb) (oldestAddr : Word) (sector : TsdbSecInfo) : FdbTsdb :=
  { db with parent := { db.parent with oldestAddr := oldestAddr }, curSec := sector }

theorem entered_opened (opened : Opened db) (oldestAddr : Word) (sector : TsdbSecInfo) :
    Opened (entered db oldestAddr sector) :=
  ⟨⟨opened.stored.listed, opened.stored.flash⟩, opened.secSize, opened.maxSize, opened.roomy⟩

/-- The address behind a sector, from the end of the partition back to its start. -/
theorem nextAddr_eq (opened : Opened db) (low : s < 63) :
    (if w32 (secStart s) + db.parent.secSize < db.parent.maxSize then
      w32 (secStart s) + db.parent.secSize else 0) = w32 (secStart ((s + 1) % 63)) := by
  have begin : secStart s = 2048 * s := rfl
  have size : (w32 129024).toNat = 129024 := rfl
  have bound : w32 (secStart s + 2048) < w32 129024 ↔ secStart s + 2048 < 129024 := by
    rw [BitVec.lt_def, toNat_w32 (by omega), size]
  rw [opened.secSize, opened.maxSize, w32_add]
  rcases Nat.lt_or_ge (secStart s + 2048) 129024 with more | last
  · rw [if_pos (bound.mpr more), Nat.mod_eq_of_lt (by omega)]
    rfl
  · obtain rfl : s = 62 := by omega
    rw [if_neg fun less => by have := bound.mp less; omega]
    rfl

variable (start) in
/-- The next sector is empty, or it holds the oldest logs and is formatted. -/
theorem enterSector_triple (ok : env.Succeeds) (junk : Memory) (opened : Opened db) (low : s < 63)
    {page : Page} (here : PageAt db.maxLen V s page) :
    Triple (Holds db.parent start V) (enterSector env junk db (w32 (secStart s)))
      (fun r b => ∃ W sector, r = entered db (if status page = .storeEmpty then
          db.parent.oldestAddr else w32 (secStart ((s + 1) % 63))) (openedInfo W s sector) ∧
        KeptOff (secStart s) (secStart (s + 1)) V W ∧ EmptyAt W s ∧ Holds db.parent start W b)
      (Lost env db.parent start (KeptOff (secStart s) (secStart (s + 1)) V)) := by
  intro b holds
  have shows : PageAt db.maxLen (view db.parent.part b.flash) s page := holds.shows.symm ▸ here
  unfold enterSector
  rw [get_bind, readSectorInfo_page env junk b.flash opened low shows, orHang, pure_bind]
  simp only [PageAt.openedInfo_status shows]
  by_cases empty : status page = .storeEmpty
  · rw [if_neg (show ¬status page ≠ .storeEmpty from fun other => other empty), if_pos empty]
    have nothing : page = .empty := by
      cases page with
      | empty => rfl
      | active sec => cases empty
      | full sec => cases empty
    subst nothing
    rw [holds.shows]
    exact ⟨V, db.curSec, rfl, KeptOff.refl _ _ V, here, holds⟩
  · rw [if_pos (show status page ≠ .storeEmpty from empty), if_neg empty]
    refine Triple.bind ((formatSector_triple ok junk opened low).mono (fun _ _ post => post)
      fun b lost => lost.mono fun W half => half.1) ?_ b holds
    rintro r b' ⟨-, W, kept, here, holds⟩
    have formatted : PageAt db.maxLen (view db.parent.part b'.flash) s .empty :=
      holds.shows.symm ▸ here
    have read := readSectorInfo_page env junk b'.flash
      (entered_opened opened (w32 (secStart ((s + 1) % 63)))
        (openedInfo (view db.parent.part b.flash) s db.curSec)) low formatted
      (openedInfo (view db.parent.part b.flash) s db.curSec)
    rw [get_bind, nextAddr_eq opened low]
    change (orHang (readSectorInfo env junk b'.flash (entered db (w32 (secStart ((s + 1) % 63)))
      (openedInfo (view db.parent.part b.flash) s db.curSec)) _ _ _) >>= _) b' |>.Sat _ _
    rw [read, orHang, pure_bind]
    refine ⟨W, openedInfo (view db.parent.part b.flash) s db.curSec, ?_, kept, here, holds⟩
    rw [← holds.shows]
    rfl

end Steps

/-! ### Making room -/

/-- The start time of the sector in use, or the one that it will have. -/
def startTimeOf (book : Book) (time : FdbTime) : FdbTime :=
  (book.current.map Sector.startTime).getD time

/-- The next log goes into the sector in use of `base`. -/
structure Ready (db : FdbTsdb) (V : Memory) (base : Book) (time : FdbTime) : Prop where
  opened : Opened db
  initOk : db.parent.initOk = true
  rollover : db.rollover = true
  oldest : db.parent.oldestAddr = w32 (secStart (base.place 0))
  tracks : Tracks db.maxLen db.curSec base.cursor base.slots
  status : db.curSec.status = .storeUsing
  startTime : db.curSec.startTime = startTimeOf base time
  active : ActiveAt db.maxLen V base.cursor (startTimeOf base time) base.slots
  others : ∃ U, OnFlash db.maxLen U base ∧
    KeptOff (secStart base.cursor) (secStart (base.cursor + 1)) U V

/-- The sector in use of `base` is empty, and the database in memory knows it. -/
structure Waiting (db : FdbTsdb) (base : Book) : Prop where
  opened : Opened db
  initOk : db.parent.initOk = true
  rollover : db.rollover = true
  oldest : db.parent.oldestAddr = w32 (secStart (base.place 0))
  tracks : Tracks db.maxLen db.curSec base.cursor []
  status : db.curSec.status = .storeEmpty
  none : base.current = none

/-- What no step of an append changes. -/
def SameParts (db db' : FdbTsdb) : Prop :=
  db'.parent.part = db.parent.part ∧ db'.maxLen = db.maxLen ∧ db'.lastTime = db.lastTime

/-- All sectors but the one in use and the next one are left alone. -/
def Elsewhere (book : Book) (V W : Memory) : Prop :=
  ∀ s, s ≠ book.cursor → s ≠ (book.cursor + 1) % 63 → SameSector V W s

/-- What is left of an append of `n` bytes that power went away from. -/
structure CutOff (maxLen : Word) (V : Memory) (book : Book) (n : Nat) (W : Memory) : Prop where
  elsewhere : Elsewhere book V W
  within : ∀ sec, book.current = some sec → sec.Takes maxLen n →
    Interrupted maxLen V book.cursor sec.slots W

section Room

variable {env : Environment} {db : FdbTsdb} {V W X : Memory} {start : Board} {book : Book}

theorem Elsewhere.refl (book : Book) (V : Memory) : Elsewhere book V V := fun _ _ _ _ _ => rfl

theorem Elsewhere.trans (first : Elsewhere book V W) (second : Elsewhere book W X) :
    Elsewhere book V X :=
  fun s here next i low => (second s here next i low).trans (first s here next i low)

theorem Elsewhere.ofKept (book : Book) {lo hi : Nat} (kept : KeptOff lo hi V W)
    (away : (secStart book.cursor ≤ lo ∧ hi ≤ secStart (book.cursor + 1)) ∨
      secStart ((book.cursor + 1) % 63) ≤ lo ∧ hi ≤ secStart ((book.cursor + 1) % 63 + 1)) :
    Elsewhere book V W := by
  intro s here next
  refine kept.sameSector ?_
  unfold secStart at *
  omega

/-- The sector behind the one in use is empty, or it holds the oldest logs. -/
theorem OnFlash.next {maxLen : Word} (shows : OnFlash maxLen V book) (sec : Sector) :
    ∃ page, PageAt maxLen V ((book.cursor + 1) % 63) page ∧
      (if status page = .storeEmpty then book.place 0 else ((book.cursor + 1) % 63 + 1) % 63) =
        (book.turned sec).place 0 := by
  have inside := book.inside
  have short := book.closed_le
  have next := book.place_next
  rw [Book.turned_place]
  rcases Nat.lt_or_ge book.closed.length 62 with more | turned
  · refine ⟨_, next ▸ shows (book.closed.length + 1) (by omega), ?_⟩
    rw [Book.page_behind _ (Nat.lt_succ_self _), show book.closed.length - 61 = 0 by omega]
    exact if_pos rfl
  · have first := List.getElem?_eq_getElem (show 0 < book.closed.length by omega)
    have place : book.place 0 = (book.cursor + 1) % 63 := by
      unfold Book.place
      omega
    refine ⟨_, place ▸ shows 0 (by omega), ?_⟩
    have full : status (book.page 0) ≠ .storeEmpty := by
      rw [Book.page_closed _ first]
      exact fun empty => nomatch empty
    rw [if_neg full]
    unfold Book.place
    omega

theorem Holds.samePart {db db' : FdbDb} {b : Board} (holds : Holds db start V b)
    (same : db'.part = db.part) : Holds db' start V b := by
  refine ⟨?_, ?_, holds.reached⟩
  · rw [same]
    exact holds.shows
  · rw [same]
    exact holds.outside

theorem Lost.samePart {db db' : FdbDb} {K : Memory → Prop} {b : Board}
    (lost : Lost env db start K b) (same : db'.part = db.part) : Lost env db' start K b := by
  obtain ⟨power, V, kept, holds⟩ := lost
  exact ⟨power, V, kept, Holds.samePart holds same⟩

variable (start) in
/-- The first log of an empty sector. -/
theorem Waiting.openSector (ok : env.Succeeds) (junk : Memory) {base : Book}
    (waiting : Waiting db base) (shows : OnFlash db.maxLen V base) (time : FdbTime) :
    Triple (Holds db.parent start V) (openSector env junk db time)
      (fun r b => r.1 = .noErr ∧ SameParts db r.2 ∧ ∃ W, Ready r.2 W base time ∧
        KeptOff (secStart base.cursor) (secStart (base.cursor + 1)) V W ∧
        Holds db.parent start W b)
      (Lost env db.parent start
        (KeptOff (secStart base.cursor) (secStart (base.cursor + 1)) V)) := by
  have sector : secStart (base.cursor + 1) = secStart base.cursor + 2048 := rfl
  have short := base.closed_le
  have page : base.currentPage = .empty := by
    rw [Book.currentPage, waiting.none]
    rfl
  have slots : base.slots = [] := by
    rw [Book.slots, waiting.none]
    rfl
  have begin : startTimeOf base time = time := by
    rw [startTimeOf, waiting.none]
    rfl
  have empty : EmptyAt V base.cursor := by
    have here := shows base.closed.length (by omega)
    rw [base.place_cursor, base.page_current, page] at here
    exact here
  refine (openSector_triple ok junk waiting.opened base.inside empty waiting.tracks.addr
    waiting.status time).mono ?_ ?_
  · rintro r b ⟨rfl, W, kept, active, holds⟩
    have wide := kept.widen (Nat.le_refl _) (show _ ≤ secStart (base.cursor + 1) by omega)
    refine ⟨rfl, ⟨rfl, rfl, rfl⟩, W, ⟨?_, waiting.initOk, waiting.rollover, waiting.oldest, ?_, rfl,
      begin.symm, ?_, V, shows, wide⟩, wide, holds⟩
    · exact ⟨waiting.opened.stored, waiting.opened.secSize, waiting.opened.maxSize,
        waiting.opened.roomy⟩
    · rw [slots]
      exact ⟨waiting.tracks.addr, waiting.tracks.unclosed, waiting.tracks.emptyIdx,
        waiting.tracks.emptyData, waiting.tracks.remain⟩
    · rw [slots, begin]
      exact active
  · exact fun b lost => lost.mono fun W kept => kept.widen (Nat.le_refl _) (by omega)

/-- The page in use, seen in flash. -/
theorem OnFlash.active {maxLen : Word} {sec : Sector} (shows : OnFlash maxLen V book)
    (current : book.current = some sec) :
    ActiveAt maxLen V book.cursor sec.startTime sec.slots := by
  have short := book.closed_le
  have here := shows book.closed.length (by omega)
  rw [book.place_cursor, book.page_current, Book.currentPage, current] at here
  exact here

theorem remain_lt {sec : Sector} (memory : InMemory db book)
    (current : book.current = some sec) {size : Word} (small : size.toNat ≤ db.maxLen.toNat) :
    db.curSec.remain < LOG_IDX_DATA_SIZE + fdbWgAlign size ↔ ¬sec.Takes db.maxLen size.toNat := by
  have roomy := memory.opened.roomy
  have slots : book.slots = sec.slots := by
    rw [Book.slots, current]
    rfl
  have larger := wholeWords_ge db.maxLen.toNat
  have bound : wholeWords size.toNat ≤ 1940 := by
    unfold wholeWords
    omega
  rw [memory.tracks.remain, slots, logIdxDataSize_eq, fdbWgAlign_eq (by omega), w32_add,
    BitVec.lt_def, toNat_w32 (by omega), toNat_w32 (by omega)]
  unfold Sector.Takes
  omega

/-- Entering the sector behind one that has been closed. -/
theorem enterAndOpen (ok : env.Succeeds) (junk : Memory) {sec : Sector}
    (memory : InMemory db book) (shows : OnFlash db.maxLen V book)
    (closing : KeptOff (secStart book.cursor) (secStart (book.cursor + 1)) V W)
    (closed : FullAt db.maxLen W book.cursor sec.startTime sec.endTime sec.slots)
    (time : FdbTime) (info : TsdbSecInfo) :
    Triple (Holds db.parent start W)
      (enterSector env junk { db with curSec := info }
          (w32 (secStart ((book.cursor + 1) % 63))) >>= fun db' =>
        openSector env junk db' time)
      (fun r b => r.1 = .noErr ∧ SameParts db r.2 ∧ ∃ X, Ready r.2 X (book.turned sec) time ∧
        Elsewhere book V X ∧ Holds db.parent start X b)
      (Lost env db.parent start (Elsewhere book V)) := by
  have inside := book.inside
  have low : (book.cursor + 1) % 63 < 63 := Nat.mod_lt _ (by omega)
  have opened : Opened { db with curSec := info } :=
    ⟨memory.opened.stored, memory.opened.secSize, memory.opened.maxSize, memory.opened.roomy⟩
  obtain ⟨page, here, oldest⟩ := OnFlash.next shows sec
  have still : PageAt db.maxLen W ((book.cursor + 1) % 63) page := by
    refine here.kept ?_ closing
    omega
  have away := Elsewhere.ofKept book closing (.inl ⟨Nat.le_refl _, Nat.le_refl _⟩)
  refine Triple.bind ((enterSector_triple start ok junk opened low still).mono
    (fun r b post => post) ?_) ?_
  · exact fun b lost => lost.mono fun X kept =>
      away.trans (Elsewhere.ofKept book kept (.inr ⟨Nat.le_refl _, Nat.le_refl _⟩))
  rintro r b ⟨X, sector, rfl, formatting, empty, holds⟩
  have onward := away.trans
    (Elsewhere.ofKept book formatting (.inr ⟨Nat.le_refl _, Nat.le_refl _⟩))
  have turned := OnFlash.turned shows closing closed formatting empty
  have blank : PageAt db.maxLen X ((book.cursor + 1) % 63) .empty := empty
  have waiting : Waiting (entered { db with curSec := info }
      (if status page = .storeEmpty then db.parent.oldestAddr
        else w32 (secStart (((book.cursor + 1) % 63 + 1) % 63)))
      (openedInfo X ((book.cursor + 1) % 63) sector)) (book.turned sec) := by
    refine ⟨entered_opened opened _ _, memory.initOk, memory.rollover, ?_,
      openedInfo_tracks blank _, PageAt.openedInfo_status blank _, rfl⟩
    change (if _ then _ else _) = _
    rw [← oldest, memory.oldest]
    split <;> rfl
  have opening := waiting.openSector start ok junk turned time b
    (Holds.samePart holds rfl)
  refine opening.mono ?_ ?_
  · rintro r b' ⟨ready, same, Y, stands, kept, holds'⟩
    exact ⟨ready, same, Y, stands,
      onward.trans (Elsewhere.ofKept book kept (.inr ⟨Nat.le_refl _, Nat.le_refl _⟩)),
      Holds.samePart holds' rfl⟩
  · intro b' lost
    exact Lost.samePart (lost.mono fun Y kept =>
      onward.trans (Elsewhere.ofKept book kept (.inr ⟨Nat.le_refl _, Nat.le_refl _⟩))) rfl

/-- The sector in use has no room: it is closed, and the next one is entered. -/
theorem closeAndEnter (ok : env.Succeeds) (junk : Memory) (memory : InMemory db book)
    (shows : OnFlash db.maxLen V book) {sec : Sector} (current : book.current = some sec)
    {blob : FdbBlob} (small : blob.size.toNat ≤ db.maxLen.toNat)
    (full : ¬sec.Takes db.maxLen blob.size.toNat) (time : FdbTime) :
    Triple (Holds db.parent start V) (updateSecStatus env junk db blob time)
      (fun r b => r.1 = .noErr ∧ SameParts db r.2 ∧ ∃ W, Ready r.2 W (book.turned sec) time ∧
        Elsewhere book V W ∧ Holds db.parent start W b)
      (Lost env db.parent start (Elsewhere book V)) := by
  have inside := book.inside
  have using_status := (memory.inUse sec current).status
  have need := (remain_lt memory current small).mpr full
  have slots : book.slots = sec.slots := by
    rw [Book.slots, current]
    rfl
  have last : db.lastTime = sec.endTime := by
    rw [memory.lastTime, book.latest sec current]
  have idx := memory.tracks.emptyIdx
  rw [slots] at idx
  have closing := closeSector_triple start ok junk memory.opened inside
    (OnFlash.active shows current) sec.slots_ne_nil memory.tracks.addr memory.tracks.unclosed idx
  have narrow {W : Memory} (kept : KeptOff (secStart book.cursor) (secStart book.cursor + 80) V W) :
      KeptOff (secStart book.cursor) (secStart (book.cursor + 1)) V W :=
    kept.widen (Nat.le_refl _) (by unfold secStart; omega)
  have next := nextAddr_eq memory.opened inside
  unfold updateSecStatus
  rw [if_pos ⟨using_status, need⟩]
  refine Triple.bind (closing.mono (fun r b post => post) ?_) ?_
  · exact fun b lost => lost.mono fun W kept =>
      Elsewhere.ofKept book (narrow kept) (.inl ⟨Nat.le_refl _, Nat.le_refl _⟩)
  rintro r b ⟨rfl, W, kept, closed, holds⟩
  rw [last] at closed
  rw [if_neg (by simp)]
  simp only [memory.tracks.addr]
  by_cases more : w32 (secStart book.cursor) + db.parent.secSize < db.parent.maxSize
  · rw [if_pos more] at next ⊢
    rw [next]
    exact enterAndOpen ok junk memory shows (narrow kept) closed time _ b holds
  · rw [if_neg more] at next ⊢
    rw [if_pos memory.rollover, next]
    exact enterAndOpen ok junk memory shows (narrow kept) closed time _ b holds

/-- `update_sec_status` leaves a sector in use with room for the log. -/
theorem updateSecStatus_triple (ok : env.Succeeds) (junk : Memory) (memory : InMemory db book)
    (shows : OnFlash db.maxLen V book) {blob : FdbBlob}
    (small : blob.size.toNat ≤ db.maxLen.toNat) (time : FdbTime) :
    Triple (Holds db.parent start V) (updateSecStatus env junk db blob time)
      (fun r b => r.1 = .noErr ∧ SameParts db r.2 ∧
        ∃ W, Ready r.2 W (book.target db.maxLen blob.size.toNat) time ∧ Elsewhere book V W ∧
          (∀ sec, book.current = some sec → sec.Takes db.maxLen blob.size.toNat → W = V) ∧
          Holds db.parent start W b)
      (Lost env db.parent start (CutOff db.maxLen V book blob.size.toNat)) := by
  cases current : book.current with
  | none =>
    have target : book.target db.maxLen blob.size.toNat = book := by
      rw [Book.target, current]
    have idle := memory.idle current
    have slots : book.slots = [] := by
      rw [Book.slots, current]
      rfl
    have waiting : Waiting db book :=
      ⟨memory.opened, memory.initOk, memory.rollover, memory.oldest, slots ▸ memory.tracks, idle,
        current⟩
    unfold updateSecStatus
    rw [if_neg (by simp [idle]), if_neg (by simp [idle]), target]
    refine (waiting.openSector start ok junk shows time).mono ?_ ?_
    · rintro r b ⟨done, same, W, ready, kept, holds⟩
      exact ⟨done, same, W, ready, Elsewhere.ofKept book kept (.inl ⟨Nat.le_refl _, Nat.le_refl _⟩),
        by rintro sec ⟨⟩, holds⟩
    · exact fun b lost => lost.mono fun W kept =>
        ⟨Elsewhere.ofKept book kept (.inl ⟨Nat.le_refl _, Nat.le_refl _⟩),
          fun sec some _ => absurd (current.symm.trans some) (Option.some_ne_none sec).symm⟩
  | some sec =>
    by_cases takes : sec.Takes db.maxLen blob.size.toNat
    · have target : book.target db.maxLen blob.size.toNat = book := by
        rw [Book.target, current]
        exact if_pos takes
      have status := (memory.inUse sec current).status
      have slots : book.slots = sec.slots := by
        rw [Book.slots, current]
        rfl
      have begin : startTimeOf book time = sec.startTime := by
        rw [startTimeOf, current]
        rfl
      unfold updateSecStatus openSector
      rw [if_neg fun both => (remain_lt memory current small).mp both.2 takes,
        if_neg (by simp [status]), if_neg (by simp [status]), target]
      intro b holds
      refine ⟨rfl, ⟨rfl, rfl, rfl⟩, V, ⟨memory.opened, memory.initOk, memory.rollover,
        memory.oldest, memory.tracks, status, ?_, ?_, V, shows, KeptOff.refl _ _ V⟩,
        Elsewhere.refl book V, fun _ _ _ => rfl, holds⟩
      · rw [begin]
        exact (memory.inUse sec current).startTime
      · rw [begin, slots]
        exact OnFlash.active shows current
    · have target : book.target db.maxLen blob.size.toNat = book.turned sec := by
        rw [Book.target, current]
        exact if_neg takes
      have never {sec' : Sector} (some : some sec = .some sec') :
          ¬sec'.Takes db.maxLen blob.size.toNat := by
        cases some
        exact takes
      rw [target]
      refine (closeAndEnter ok junk memory shows current small takes time).mono ?_ ?_
      · rintro r b ⟨done, same, W, ready, away, holds⟩
        exact ⟨done, same, W, ready, away,
          fun sec' some takes' => absurd takes' (never some), holds⟩
      · exact fun b lost => lost.mono fun W away =>
          ⟨away, fun sec' some takes' => absurd takes' (never (current.symm.trans some))⟩

end Room

/-! ### Appending a log -/

def recordOf (blob : FdbBlob) (time : FdbTime) : Record := ⟨.write, time, blob.size, blob.buf⟩

/-- A log that is not longer than the longest one and later than the last one. -/
def Accepted (maxLen : Word) (book : Book) (blob : FdbBlob) (time : FdbTime) : Prop :=
  blob.size.toNat ≤ maxLen.toNat ∧ book.last.toInt < time.toInt

instance (maxLen : Word) (book : Book) (blob : FdbBlob) (time : FdbTime) :
    Decidable (Accepted maxLen book blob time) :=
  inferInstanceAs (Decidable (_ ∧ _))

section Append

variable {env : Environment} {db : FdbTsdb} {V W : Memory} {start : Board} {book : Book}

/-- The database in memory behind a log that has been written. -/
theorem Ready.advanced {base : Book} {blob : FdbBlob} {time : FdbTime}
    (ready : Ready db V base time)
    (room : total db.maxLen base.slots + 32 + wholeWords blob.size.toNat ≤ 1968) :
    InMemory { db with curSec := advance db.curSec blob.size time, lastTime := time }
      (base.put (recordOf blob time)) := by
  have grow := wholeWords_ge blob.size.toNat
  have aligned : fdbWgAlign blob.size = w32 (wholeWords blob.size.toNat) :=
    fdbWgAlign_eq (by omega)
  obtain ⟨sec, current, slots, first, last⟩ := base.put_current (recordOf blob time)
  obtain ⟨closed, cursor⟩ := base.put_closed (recordOf blob time)
  have put : (base.put (recordOf blob time)).slots =
      base.slots ++ [.saved (recordOf blob time)] := by
    rw [Book.slots, current, ← slots]
    rfl
  have entries : w32 (slotAddr base.cursor base.slots.length) + LOG_IDX_DATA_SIZE =
      w32 (slotAddr base.cursor (base.slots.length + 1)) := by
    rw [logIdxDataSize_eq, w32_add]
    rfl
  refine ⟨⟨ready.opened.stored, ready.opened.secSize, ready.opened.maxSize, ready.opened.roomy⟩,
    ready.initOk, ready.rollover, ?_, ⟨?_, ready.tracks.unclosed, ?_, ?_, ?_⟩, ?_, ?_, ?_⟩
  · rw [Book.place, cursor, closed]
    exact ready.oldest
  · rw [cursor]
    exact ready.tracks.addr
  · rw [cursor, put, List.length_append, List.length_singleton, ← entries, ← ready.tracks.emptyIdx]
    rfl
  · rw [cursor, put, used_append, used_singleton, ← w32_add]
    change db.curSec.emptyData - fdbWgAlign blob.size = _ - (_ + w32 (wholeWords blob.size.toNat))
    rw [ready.tracks.emptyData, aligned]
    bv_omega
  · rw [put, total_snoc]
    change db.curSec.remain - (LOG_IDX_DATA_SIZE + fdbWgAlign blob.size) =
      w32 (1968 - (total db.maxLen base.slots + 32 + wholeWords blob.size.toNat))
    rw [ready.tracks.remain, aligned, logIdxDataSize_eq, w32_add, w32_sub (by omega)]
    congr 1
    omega
  · rw [(base.put (recordOf blob time)).latest sec current, last]
    rfl
  · exact fun none => absurd (current.symm.trans none) (Option.some_ne_none sec)
  · intro sec' some
    obtain rfl := Option.some.inj (current.symm.trans some)
    refine ⟨ready.status, ?_, last.symm, ?_⟩
    · rw [first]
      exact ready.startTime
    · rw [cursor, slots, List.length_append, List.length_singleton, Nat.add_sub_cancel,
        ← ready.tracks.emptyIdx]
      rfl

/-- More logs in a sector in use leave its header alone. -/
theorem ActiveAt.grown {maxLen : Word} {s : Nat} {first : FdbTime} {slots slots' : List Slot}
    (active : ActiveAt maxLen V s first slots)
    (kept : KeptOff (secStart s + 80) (secStart (s + 1)) V W) (body : Body maxLen W s slots') :
    ActiveAt maxLen W s first slots' := by
  refine ⟨active.header.congr fun i low => kept _ (by omega), ?_, fun i left right => ?_, body⟩
  · rw [← active.start]
    exact wordAt_congr fun i low => kept _ (by omega)
  · rw [kept _ (by omega)]
    exact active.unclosed i left right

/-- The flash behind a log that has been written. -/
theorem Ready.written {base : Book} {blob : FdbBlob} {time : FdbTime} (ready : Ready db V base time)
    (kept : KeptOff (secStart base.cursor + 80) (secStart (base.cursor + 1)) V W)
    (body : Body db.maxLen W base.cursor (base.slots ++ [.saved (recordOf blob time)])) :
    OnFlash db.maxLen W (base.put (recordOf blob time)) := by
  obtain ⟨sec, current, slots, first, -⟩ := base.put_current (recordOf blob time)
  obtain ⟨closed, cursor⟩ := base.put_closed (recordOf blob time)
  obtain ⟨U, shows, others⟩ := ready.others
  have grown := ActiveAt.grown ready.active kept body
  refine OnFlash.current shows closed cursor
    (others.trans (kept.widen (by omega) (Nat.le_refl _))) ?_
  rw [Book.currentPage, current]
  change ActiveAt db.maxLen W base.cursor sec.startTime sec.slots
  rw [slots, first]
  exact grown

/-- The log goes into the sector in use or into the next one. -/
theorem Elsewhere.ofTarget {maxLen : Word} {n : Nat}
    (kept : KeptOff (secStart (book.target maxLen n).cursor + 80)
      (secStart ((book.target maxLen n).cursor + 1)) V W) : Elsewhere book V W := by
  have here : (book.target maxLen n).cursor = book.cursor ∨
      (book.target maxLen n).cursor = (book.cursor + 1) % 63 := by
    unfold Book.target
    cases book.current with
    | none => exact .inl rfl
    | some sec =>
      by_cases takes : sec.Takes maxLen n
      · exact .inl (by simp only [if_pos takes])
      · exact .inr (by simp only [if_neg takes]; rfl)
  refine Elsewhere.ofKept book kept ?_
  rcases here with here | next
  · rw [here]
    exact .inl ⟨by omega, Nat.le_refl _⟩
  · rw [next]
    exact .inr ⟨by omega, Nat.le_refl _⟩

/-- One append: the log is added to the book, in memory and in flash, or it is refused. -/
theorem fdbTslAppend_triple (ok : env.Succeeds) (junk : Memory) (memory : InMemory db book)
    (shows : OnFlash db.maxLen V book) (blob : FdbBlob) (time : FdbTime) :
    Triple (Holds db.parent start V) (fdbTslAppendWithTs env junk db blob time)
      (fun r b => if Accepted db.maxLen book blob time then
          r.1 = .noErr ∧ r.2.parent.part = db.parent.part ∧ r.2.maxLen = db.maxLen ∧
            InMemory r.2 (book.add db.maxLen (recordOf blob time)) ∧
            ∃ W, OnFlash db.maxLen W (book.add db.maxLen (recordOf blob time)) ∧
              Elsewhere book V W ∧ Holds db.parent start W b
        else r = (.writeErr, db) ∧ Holds db.parent start V b)
      (Lost env db.parent start (CutOff db.maxLen V book blob.size.toNat)) := by
  unfold fdbTslAppendWithTs
  rw [if_pos memory.initOk]
  unfold tslAppend
  by_cases long : db.maxLen < blob.size
  · have refused : ¬Accepted db.maxLen book blob time := by
      rw [BitVec.lt_def] at long
      exact fun accepted => absurd accepted.1 (by omega)
    rw [if_pos long]
    simp only [if_neg refused]
    exact Triple.pure fun b holds => ⟨rfl, holds⟩
  rw [if_neg long]
  by_cases early : time.toInt ≤ db.lastTime.toInt
  · have refused : ¬Accepted db.maxLen book blob time := by
      rw [memory.lastTime] at early
      exact fun accepted => absurd accepted.2 (by omega)
    rw [if_pos early]
    simp only [if_neg refused]
    exact Triple.pure fun b holds => ⟨rfl, holds⟩
  rw [if_neg early]
  have accepted : Accepted db.maxLen book blob time := by
    rw [BitVec.lt_def] at long
    rw [memory.lastTime] at early
    exact ⟨by omega, by omega⟩
  have roomy := memory.opened.roomy
  have shorter : wholeWords blob.size.toNat ≤ 1936 := by
    have small := accepted.1
    unfold wholeWords at *
    omega
  have room := book.target_room db.maxLen shorter
  simp only [if_pos accepted]
  refine Triple.bind (updateSecStatus_triple ok junk memory shows accepted.1 time) ?_
  rintro r b ⟨done, ⟨part, maxLen, lastTime⟩, W, ready, away, still, holds⟩
  rw [if_neg (by simp [done]), ← maxLen]
  rw [← maxLen] at room ready still accepted
  refine Triple.bind (P := Holds db.parent start W) (R := fun st b => st = .noErr ∧ ∃ X,
    OnFlash r.2.maxLen X (book.add r.2.maxLen (recordOf blob time)) ∧ Elsewhere book V X ∧
      Holds db.parent start X b) ?_ ?_ b holds
  · intro b holds
    have run := writeTsl_triple ok junk ready.opened
      (book.target r.2.maxLen blob.size.toNat).inside ready.active.body ready.tracks.emptyIdx
      ready.tracks.emptyData accepted.1 room time start b (Holds.samePart holds part)
    refine run.mono ?_ ?_
    · rintro st b ⟨rfl, X, kept, body, holds⟩
      exact ⟨rfl, X, ready.written kept body, away.trans (Elsewhere.ofTarget kept),
        Holds.samePart holds part.symm⟩
    · intro b lost
      refine Lost.samePart (lost.mono ?_) part.symm
      intro X left
      refine ⟨?_, fun sec some takes => ?_⟩
      · rcases left with rfl | ⟨kept, -⟩
        · exact away
        · exact away.trans (Elsewhere.ofTarget kept)
      · have same : book.target r.2.maxLen blob.size.toNat = book := by
          rw [Book.target, some]
          exact if_pos takes
        have slots : book.slots = sec.slots := by
          rw [Book.slots, some]
          rfl
        rw [same, still sec some takes, slots] at left
        exact left
  · rintro st b ⟨rfl, X, shows', away', holds⟩
    rw [if_neg (by simp)]
    exact ⟨rfl, part, rfl, ready.advanced room, X, shows', away', holds⟩

end Append

/-- A call of `fdb_tsl_append_with_ts`, and what the buffers on its stack hold. -/
structure Request where
  blob : FdbBlob
  time : FdbTime
  junk : Memory

def Request.record (req : Request) : Record := recordOf req.blob req.time

end BmsFirmware.Flashdb.Appending
