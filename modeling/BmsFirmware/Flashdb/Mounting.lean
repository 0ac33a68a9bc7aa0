/- Module: BmsFirmware/Flashdb/Mounting
   Source: application/flashdb/src/fdb_tsdb.c, application/flashdb/src/fdb.c
   Digest: Initialising finds the book again that the flash holds, or formats all sectors. -/

import BmsFirmware.Flashdb.Appending
import BmsFirmware.Flashdb.Traversal

set_option autoImplicit false
set_option relaxedAutoImplicit false

namespace BmsFirmware.Flashdb.Mounting

open BmsFirmware.Library.ByteMemory
open BmsFirmware.Library.PowerLogic
open BmsFirmware.Flash.Controller
open BmsFirmware.Fal.Partitions
open BmsFirmware.Fal.WriteOnce
open BmsFirmware.Flashdb.Utils
open BmsFirmware.Flashdb.Storage
open BmsFirmware.Flashdb.Tsdb
open BmsFirmware.Flashdb.SectorLayout
open BmsFirmware.Flashdb.SectorWrites
open BmsFirmware.Flashdb.LogBook
open BmsFirmware.Flashdb.Appending
open BmsFirmware.Flashdb.Traversal

/-! ### The sizes -/

/-- A database that has not been initialised, with the default sector size. -/
structure Closed (db : FdbTsdb) (path : String) (part : FalPartition) : Prop where
  initOk : db.parent.initOk = false
  fileMode : db.parent.fileMode = false
  secSize : db.parent.secSize = 0 ∨ db.parent.secSize = w32 2048
  found : falPartitionFind path = some part

/-- What `_fdb_init_ex` makes of the database. -/
def located (db : FdbDb) (part : FalPartition) : FdbDb :=
  { db with part := part, secSize := w32 2048, maxSize := w32 129024 }

theorem fdbInitEx_eq {db : FdbTsdb} {path : String} {part : FalPartition}
    (closed : Closed db path part) :
    fdbInitEx db.parent path = some (.noErr, located db.parent part) ∧ part ∈ FAL_PART_TABLE := by
  have listed : part ∈ FAL_PART_TABLE := List.mem_of_find?_eq_some closed.found
  have length : part.len = w32 129024 := by
    rcases List.mem_cons.mp listed with rfl | other
    · rfl
    · obtain rfl := List.mem_singleton.mp other
      rfl
  refine ⟨?_, listed⟩
  have whole : ¬(db.parent.secSize ≠ 0 ∧ db.parent.secSize % blkSize ≠ 0) := by
    rcases closed.secSize with unset | set
    · exact fun both => both.1 unset
    · rw [set]
      exact fun both => both.2 rfl
  have size : (if db.parent.secSize = 0 then blkSize else db.parent.secSize) = w32 2048 := by
    rcases closed.secSize with unset | set
    · rw [if_pos unset]
      rfl
    · rw [set]
      rfl
  have power : ¬(w32 2048 &&& (w32 2048 - 1)) ≠ 0 := by decide
  have pages : ¬w32 129024 % w32 2048 ≠ 0 := by decide
  have enough : ¬w32 129024 / w32 2048 < 2 := by decide
  unfold fdbInitEx
  simp only [closed.initOk, closed.fileMode, closed.found, if_neg whole, size, length,
    Bool.false_eq_true, if_false]
  rw [if_neg (fun other => other rfl), if_neg power, if_neg pages, if_neg enough]
  exact congrArg some (congrArg (Prod.mk _) (by
    rw [located, closed.initOk, closed.fileMode]))

/-! ### Reading a sector with its logs -/

/-- Between the index and the data of the sector in use there is either no free byte left or room
for an index entry; a traversal would take a smaller gap for a log. -/
def Gap (maxLen : Word) (book : Book) : Prop :=
  ∀ sec, book.current = some sec → total maxLen sec.slots < 1968 →
    total maxLen sec.slots + 32 ≤ 1968

/-- The structure behind reading a sector with its logs. -/
def scanned (maxLen : Word) (V : Memory) (s : Nat) (page : Page) (sector : TsdbSecInfo) :
    TsdbSecInfo :=
  match page with
  | .active sec => traversed maxLen s sec.slots (openedInfo V s sector)
  | _ => openedInfo V s sector

section Scanning

variable {maxLen : Word} {V : Memory} {s : Nat} {page : Page} {book : Book}

theorem scanned_addr (sector : TsdbSecInfo) :
    (scanned maxLen V s page sector).addr = w32 (secStart s) := by
  cases page <;> rfl

theorem scanned_checkOk (sector : TsdbSecInfo) :
    (scanned maxLen V s page sector).checkOk = true := by
  cases page <;> rfl

theorem scanned_status (here : PageAt maxLen V s page) (sector : TsdbSecInfo) :
    (scanned maxLen V s page sector).status = status page := by
  rw [← PageAt.openedInfo_status here sector]
  cases page <;> rfl

/-- Behind the logs of a sector in use nothing is taken for one. -/
theorem ends_of_gap {sec : Sector} (here : PageAt maxLen V s (.active sec))
    (gap : total maxLen sec.slots < 1968 → total maxLen sec.slots + 32 ≤ 1968) :
    Ends maxLen V s sec.slots := by
  have active : ActiveAt maxLen V s sec.startTime sec.slots := here
  have split : total maxLen sec.slots = 32 * sec.slots.length + used maxLen sec.slots := rfl
  have cells : 4 * (FDB_TSL_STATUS_NUM - 1) = 20 := rfl
  intro room
  have free := gap room
  refine ⟨free, TableAt.erased fun i low => ?_⟩
  rw [show slotAddr s sec.slots.length + i = secStart s + (80 + 32 * sec.slots.length + i) by
    unfold slotAddr; omega]
  exact active.body.clear _ (by omega) (by omega)

theorem readSectorInfo_scanned (env : Environment) (junk m : Memory) {db : FdbTsdb}
    (opened : Opened db) (low : s < 63) (here : PageAt db.maxLen (view db.parent.part m) s page)
    (gap : ∀ sec, page = .active sec → total db.maxLen sec.slots < 1968 →
      total db.maxLen sec.slots + 32 ≤ 1968) (sector : TsdbSecInfo) :
    ∃ err, readSectorInfo env junk m db (w32 (secStart s)) sector true =
      some (err, scanned db.maxLen (view db.parent.part m) s page sector) := by
  have status := PageAt.openedInfo_status here sector
  rw [readSectorInfo_eq env junk m opened low (PageAt.formatted here).magic (PageAt.free here)]
  cases page with
  | empty =>
    rw [if_neg (by rw [status]; exact fun both => nomatch both.1)]
    exact ⟨_, rfl⟩
  | full sec =>
    rw [if_neg (by rw [status]; exact fun both => nomatch both.1)]
    exact ⟨_, rfl⟩
  | active sec =>
    have active : ActiveAt db.maxLen (view db.parent.part m) s sec.startTime sec.slots := here
    have short := SlotsAt.length_le active.body.stored
    rw [if_pos ⟨status, rfl⟩]
    have none : total db.maxLen (sec.slots.take 0) < 1968 := by
      rw [List.take_zero, total_nil]
      omega
    have start : traversed db.maxLen s (sec.slots.take 0)
        (openedInfo (view db.parent.part m) s sector) =
        openedInfo (view db.parent.part m) s sector := by
      rw [List.take_zero, traversed, used_nil]
      simp only [BitVec.sub_zero]
      rfl
    have scan := traverseTsl_eq env junk m opened low active.body.stored
      (ends_of_gap here (gap sec rfl)) (openedInfo (view db.parent.part m) s sector)
      (Nat.zero_le _) (show sec.slots.length - 0 < loopFuel by unfold loopFuel; omega) none
    rw [start] at scan
    exact scan

/-- The page of a sector, by its number: the one in use, a full one before it or behind it in the
ring, or an empty one that has not been used yet. -/
structure Placed (book : Book) (s : Nat) (page : Page) : Prop where
  level : s = book.cursor → page = book.currentPage
  other : s ≠ book.cursor →
    (∃ sec, page = .full sec) ∧ (s < book.cursor ∨ book.closed.length = 62) ∨
      page = .empty ∧ book.closed.length = book.cursor ∧ book.cursor < s

theorem Placed.active {sec : Sector} (placed : Placed book s (.active sec)) :
    book.current = some sec := by
  by_cases level : s = book.cursor
  · have shape := placed.level level
    unfold Book.currentPage at shape
    cases current : book.current with
    | none =>
      rw [current] at shape
      cases shape
    | some sec' =>
      rw [current] at shape
      cases shape
      rfl
  · rcases placed.other level with ⟨⟨sec', full⟩, -⟩ | ⟨empty, -⟩
    · cases full
    · cases empty

theorem OnFlash.placed (shows : OnFlash maxLen V book) (low : s < 63) :
    ∃ page, PageAt maxLen V s page ∧ Placed book s page := by
  have inside := book.inside
  have ring := book.ring
  have short := book.closed_le
  obtain ⟨o, least, place⟩ : ∃ o < 63, book.place o = s :=
    ⟨(s + book.closed.length + 63 - book.cursor) % 63, Nat.mod_lt _ (by omega), by
      unfold Book.place
      omega⟩
  have here := shows o least
  rw [place] at here
  refine ⟨_, here, ⟨fun level => ?_, fun other => ?_⟩⟩
  · have current : o = book.closed.length := by
      unfold Book.place at place
      omega
    rw [current, Book.page_current]
  · rcases Nat.lt_trichotomy o book.closed.length with before | current | behind
    · refine .inl ⟨⟨_, Book.page_closed _ (List.getElem?_eq_getElem before)⟩, ?_⟩
      unfold Book.place at place
      omega
    · rw [current, book.place_cursor] at place
      exact absurd place.symm other
    · refine .inr ⟨Book.page_behind _ behind, ?_⟩
      unfold Book.place at place
      omega

end Scanning

/-! ### The loop over the sectors from the first one on -/

/-- What a turn of `sector_iterator` reads: the header, and then the logs where they are asked
for. -/
def scanSector (env : Environment) (junk m : Memory) (db : FdbTsdb) (addr : Word)
    (sector : TsdbSecInfo) (traversal : Bool) : Option (FdbErr × TsdbSecInfo) := do
  let read ← readSectorInfo env junk m db addr sector false
  if traversal then readSectorInfo env junk m db addr read.2 true else pure read

section Iterator

variable {σ : Type} {env : Environment} {junk : Memory} {db : FdbTsdb} {traversal : Bool}
  {callback : TsdbSecInfo → σ → Proc Board (Bool × σ)} {I : Nat → σ → Board → Prop}
  {Q : σ → Board → Prop} {C : Board → Prop}

/-- What a turn owes the next one, or whoever called the iterator. -/
def Kept (I : Nat → σ → Board → Prop) (Q : σ → Board → Prop) (s : Nat) (turn : Bool × σ)
    (b : Board) : Prop :=
  if turn.1 then Q turn.2 b else I (s + 1) turn.2 b

/-- A turn for every sector, whatever its status. -/
theorem sectorIterator_turn (fuel : Nat) (secAddr traversedLen : Word) (sector : TsdbSecInfo)
    (state : σ) :
    sectorIterator env junk db .storeUnused callback traversal (fuel + 1) secAddr traversedLen
      sector state = (do
        let b ← Proc.get
        let read ← orHang (scanSector env junk b.flash db secAddr sector traversal)
        let turn ← callback read.2 state
        if turn.1 then
          return turn.2
        let traversedLen := traversedLen + db.parent.secSize
        let secAddr := getNextSectorAddr db read.2 traversedLen
        if secAddr = FAILED_ADDR then
          return turn.2
        sectorIterator env junk db .storeUnused callback traversal fuel secAddr traversedLen
          read.2 turn.2) := by
  funext b
  rw [sectorIterator, get_bind, get_bind, scanSector]
  cases readSectorInfo env junk b.flash db secAddr sector false with
  | none => rfl
  | some read =>
    cases traversal with
    | false =>
      simp only [orHang, pure_bind, true_or, true_and, Bool.false_eq_true, if_false, if_true]; rfl
    | true => simp only [orHang, pure_bind, true_or, true_and, if_true]; rfl

/-- The rule of `sector_iterator`: an invariant that every sector's turn carries on. -/
theorem sectorIterator_triple (env : Environment) (junk : Memory)
    (callback : TsdbSecInfo → σ → Proc Board (Bool × σ)) (traversal : Bool) (opened : Opened db)
    (turn : ∀ s < 63, ∀ sector state b, I s state b → ∃ read,
      scanSector env junk b.flash db (w32 (secStart s)) sector traversal = some read ∧
        read.2.addr = w32 (secStart s) ∧ (callback read.2 state b).Sat (Kept I Q s) C)
    (leave : ∀ state b, I 63 state b → Q state b) {fuel s k : Nat} (count : s + (k + 1) = 63)
    (enough : k < fuel) (sector : TsdbSecInfo) (state : σ) :
    Triple (I s state)
      (sectorIterator env junk db .storeUnused callback traversal fuel (w32 (secStart s))
        (w32 (2048 * s)) sector state) Q C := by
  induction fuel generalizing s k sector state with
  | zero => omega
  | succ fuel ih =>
    intro b here
    obtain ⟨last, scan, addr, turned⟩ := turn s (by omega) sector state b here
    have length : w32 (2048 * s) + db.parent.secSize = w32 (2048 * (s + 1)) := by
      rw [opened.secSize]
      exact w32_add _ _
    have onward := getNextSectorAddr_eq opened (show s < 63 by omega) (show s < 63 by omega)
      last.2 addr
    rw [sectorIterator_turn, get_bind, scan, orHang, pure_bind, bind_apply]
    cases result : callback last.2 state b with
    | cut b' =>
      rw [result] at turned
      exact turned
    | done r b' =>
      rw [result] at turned
      change Kept I Q s r b' at turned
      unfold Kept at turned
      dsimp only
      by_cases stop : r.1 = true
      · rw [if_pos stop] at turned ⊢
        exact turned
      · rw [if_neg stop] at turned ⊢
        rw [length, onward]
        by_cases more : s + 1 < 63
        · obtain ⟨k, rfl⟩ : ∃ k', k = k' + 1 := ⟨k - 1, by omega⟩
          rw [if_pos more, Nat.mod_eq_of_lt more, if_neg (secStart_valid more)]
          exact ih (k := k) (by omega) (by omega) _ _ b' turned
        · obtain rfl : s = 62 := by omega
          rw [if_neg more, if_pos rfl]
          exact leave _ _ turned

end Iterator

/-! ### Checking the sectors -/

/-- What the check has found of a book when it comes to the `s`-th sector. -/
structure Checked (book : Book) (s : Nat) (arg : CheckSecHdr) : Prop where
  passed : arg.checkFailed = false
  before : s ≤ book.cursor → arg.curSec.addr = FDB_DATA_UNUSED ∧ arg.emptyNum = 0
  behind : book.cursor < s → arg.curSec.addr = w32 (secStart book.cursor)
  latest : arg.emptyNum ≠ 0 →
    book.closed.length = book.cursor ∧ arg.emptyAddr = w32 (secStart (s - 1)) ∨
      book.closed.length = 62 ∧ arg.emptyAddr = w32 (secStart book.cursor)
  crowded : arg.emptyNum = 0 → book.cursor + 1 < s → book.closed.length = 62

section Checking

variable (env : Environment) (junk : Memory) {m : Memory} {db : FdbTsdb} {book : Book}

/-- The turn of a sector scans its logs where it is in use. -/
theorem scanSector_page (opened : Opened db) {s : Nat} (low : s < 63) {page : Page}
    (here : PageAt db.maxLen (view db.parent.part m) s page)
    (gap : ∀ sec, page = .active sec → total db.maxLen sec.slots < 1968 →
      total db.maxLen sec.slots + 32 ≤ 1968) (sector : TsdbSecInfo) :
    ∃ err before, scanSector env junk m db (w32 (secStart s)) sector true =
      some (err, scanned db.maxLen (view db.parent.part m) s page before) := by
  obtain ⟨err, read⟩ := readSectorInfo_scanned env junk m opened low here gap
    (openedInfo (view db.parent.part m) s sector)
  refine ⟨err, openedInfo (view db.parent.part m) s sector, ?_⟩
  rw [scanSector, readSectorInfo_page env junk m opened low here]
  exact read

theorem secStart_used {s : Nat} (low : s < 63) : w32 (secStart s) ≠ FDB_DATA_UNUSED :=
  secStart_valid low

/-- A sector in use or an empty one, seen for the first time, becomes the one to go on with. -/
theorem Checked.turn {s : Nat} {arg : CheckSecHdr} (checked : Checked book s arg) (low : s < 63)
    {page : Page} {info : TsdbSecInfo} (ok : info.checkOk = true)
    (addr : info.addr = w32 (secStart s)) (status : info.status = Appending.status page)
    (placed : Placed book s page) (b : Board) :
    ∃ arg', checkSecHdrCb info arg b = .done (false, arg') b ∧ Checked book (s + 1) arg' := by
  have inside := book.inside
  have ring := book.ring
  unfold checkSecHdrCb
  rw [ok, if_neg (by simp), status]
  by_cases here : s = book.cursor
  · obtain ⟨unset, none⟩ := checked.before (Nat.le_of_eq here)
    have shape := placed.level here
    unfold Book.currentPage at shape
    cases current : book.current with
    | none =>
      rw [current] at shape
      subst shape
      refine ⟨_, rfl, checked.passed, fun less => by omega, fun _ => ?_, fun _ => ?_,
        fun zero => by simp at zero⟩
      · rw [none, unset, if_pos ⟨rfl, rfl⟩, addr, here]
      · rw [addr, here]
        rcases ring with full | levels
        · exact .inr ⟨full, rfl⟩
        · exact .inl ⟨levels, rfl⟩
    | some sec =>
      rw [current] at shape
      subst shape
      refine ⟨{ arg with curSec := info }, ?_, checked.passed, fun less => by omega,
        fun _ => here ▸ addr, fun some => absurd none some, fun _ more => by omega⟩
      rw [unset]
      rfl
  · rcases placed.other here with ⟨⟨sec, rfl⟩, place⟩ | ⟨rfl, levels, later⟩
    · refine ⟨arg, rfl, checked.passed, fun less => checked.before (by omega),
        fun more => checked.behind (by omega), fun some => ?_, fun zero more => ?_⟩
      · rcases checked.latest some with ⟨levels, found⟩ | full
        · exact absurd (checked.before (by omega)).2 some
        · exact .inr full
      · omega
    · refine ⟨_, rfl, checked.passed, fun less => by omega, fun _ => ?_, fun _ => ?_,
        fun zero => by simp at zero⟩
      · have set := checked.behind later
        rw [if_neg, set]
        rintro ⟨-, unset⟩
        rw [set] at unset
        exact secStart_used inside unset
      · exact .inl ⟨levels, addr⟩

/-- The check of all sectors finds the one in use, and which one is the oldest. -/
theorem check_all (opened : Opened db) {b : Board}
    (shows : OnFlash db.maxLen (view db.parent.part b.flash) book) (gap : Gap db.maxLen book)
    (unset : db.curSec.addr = FDB_DATA_UNUSED) (sector : TsdbSecInfo) :
    ∃ arg, sectorIterator env junk db .storeUnused checkSecHdrCb true loopFuel 0 0 sector
        ⟨db.curSec, false, 0, 0⟩ b = .done arg b ∧ Checked book 63 arg := by
  have run := sectorIterator_triple (I := fun s arg b' => b' = b ∧ Checked book s arg)
    (Q := fun arg b' => b' = b ∧ Checked book 63 arg) (C := fun _ => False) env junk checkSecHdrCb
    true opened ?_ (fun state b' here => here) (show 0 + (62 + 1) = 63 from rfl)
    (show 62 < loopFuel by unfold loopFuel; omega) sector ⟨db.curSec, false, 0, 0⟩ b ?_
  · obtain ⟨arg, b', done, rfl, checked⟩ := run.returns
    exact ⟨arg, done, checked⟩
  · rintro s low sector arg b' ⟨rfl, checked⟩
    obtain ⟨page, here, placed⟩ := OnFlash.placed shows low
    obtain ⟨err, before, scan⟩ := scanSector_page env junk opened low here
      (by rintro sec rfl; exact gap sec placed.active) sector
    obtain ⟨arg', turned, next⟩ := checked.turn low (scanned_checkOk before) (scanned_addr before)
      (scanned_status here before) placed b'
    refine ⟨_, scan, scanned_addr before, ?_⟩
    rw [turned]
    exact ⟨rfl, next⟩
  · refine ⟨rfl, rfl, fun _ => ⟨unset, rfl⟩, fun less => by omega, fun some => absurd rfl some,
      fun _ less => by omega⟩

end Checking

/-! ### Finding the book again -/

/-- The time of the last log, as far as it can be read off the sectors. -/
def lastIn (book : Book) (otherwise : FdbTime) : FdbTime :=
  match book.current with
  | some sec => sec.endTime
  | none => (book.closed.getLast?.map Sector.endTime).getD otherwise

/-- The book as it is found again. -/
def mounted (book : Book) (otherwise : FdbTime) : Book :=
  { book with
    last := lastIn book otherwise
    latest := by
      intro sec current
      rw [lastIn, current] }

/-- The database before its sectors are checked. -/
def loaded (db : FdbTsdb) (part : FalPartition) (maxLen : Word) : FdbTsdb :=
  { db with
    parent := { located db.parent part with oldestAddr := FDB_DATA_UNUSED }
    maxLen := maxLen
    rollover := true
    curSec := { db.curSec with addr := FDB_DATA_UNUSED } }

section Mounted

variable {env : Environment} {junk : Memory} {db : FdbTsdb} {book : Book} {m : Memory}

theorem secStart_inj {s s' : Nat} (low : s < 63) (low' : s' < 63)
    (same : w32 (secStart s) = w32 (secStart s')) : s = s' := by
  have begin : secStart s = 2048 * s := rfl
  have begin' : secStart s' = 2048 * s' := rfl
  have values := congrArg BitVec.toNat same
  rw [toNat_w32 (by omega), toNat_w32 (by omega)] at values
  omega

theorem oldestBehind_eq (opened : Opened db) {s : Nat} (low : s < 63) :
    oldestBehind db (w32 (secStart s)) = w32 (secStart ((s + 1) % 63)) := by
  have begin : secStart s = 2048 * s := rfl
  have bound : w32 129024 ≤ w32 (secStart s + 2048) ↔ 129024 ≤ secStart s + 2048 := by
    rw [BitVec.le_def, toNat_w32 (by omega), toNat_w32 (by omega)]
  rw [oldestBehind, opened.secSize, opened.maxSize, w32_add]
  rcases Nat.lt_or_ge (secStart s + 2048) 129024 with more | last
  · rw [if_neg fun less => by have := bound.mp less; omega, Nat.mod_eq_of_lt (by omega)]
    rfl
  · obtain rfl : s = 62 := by omega
    rw [if_pos (bound.mpr last)]
    rfl

/-- Which sector the check takes for the latest one: the oldest is behind it. -/
theorem Checked.oldest {arg : CheckSecHdr} (checked : Checked book 63 arg) :
    ∃ s < 63, (if 0 < arg.emptyNum then arg.emptyAddr else arg.curSec.addr) = w32 (secStart s) ∧
      (s + 1) % 63 = book.place 0 := by
  have inside := book.inside
  have ring := book.ring
  have behind := checked.behind inside
  unfold Book.place
  by_cases none : arg.emptyNum = 0
  · rw [if_neg (by omega)]
    refine ⟨book.cursor, inside, behind, ?_⟩
    have full : book.closed.length = 62 := by
      rcases Nat.lt_or_ge (book.cursor + 1) 63 with more | last
      · exact checked.crowded none more
      · omega
    omega
  · rw [if_pos (by omega)]
    rcases checked.latest none with ⟨levels, found⟩ | ⟨full, found⟩
    · exact ⟨62, by omega, found, by omega⟩
    · exact ⟨book.cursor, inside, found, by omega⟩

/-- The last time is that of the sector in use, or that of the sector closed last. -/
theorem lastSaved_eq (env : Environment) (junk : Memory) (opened : Opened db)
    (shows : OnFlash db.maxLen (view db.parent.part m) book)
    (oldest : db.parent.oldestAddr = w32 (secStart (book.place 0))) {sector : TsdbSecInfo}
    (info : db.curSec =
      scanned db.maxLen (view db.parent.part m) book.cursor book.currentPage sector)
    (stack : TsdbSecInfo) : lastSaved env junk stack m db = some (lastIn book db.lastTime) := by
  have inside := book.inside
  have short := book.closed_le
  have here : PageAt db.maxLen (view db.parent.part m) book.cursor book.currentPage := by
    have page := shows book.closed.length (by omega)
    rwa [book.place_cursor, book.page_current] at page
  have status := scanned_status here sector
  rw [← info] at status
  have addr : db.curSec.addr = w32 (secStart book.cursor) := by
    rw [info, scanned_addr]
  unfold Book.currentPage at info status
  unfold lastSaved lastIn
  cases current : book.current with
  | some sec =>
    rw [current] at info status
    rw [if_pos (show db.curSec.status = .storeUsing from status), info]
    rfl
  | none =>
    rw [current] at status
    rw [if_neg (by rw [status]; exact fun other => nomatch other), addr, oldest]
    cases closed : book.closed.length with
    | zero =>
      have first : book.place 0 = book.cursor := by
        unfold Book.place
        omega
      rw [if_neg (fun both => both.2 (by rw [first])), List.eq_nil_of_length_eq_zero closed]
      rfl
    | succ n =>
      have listed := List.getElem?_eq_getElem (show n < book.closed.length by omega)
      have behind : book.closed.getLast? = book.closed[n]? := by
        rw [List.getLast?_eq_getElem?, closed, Nat.add_sub_cancel]
      have place : secStart (book.place n) =
          if book.cursor = 0 then 129024 - 2048 else secStart book.cursor - 2048 := by
        unfold Book.place secStart
        split <;> omega
      have full := shows n (by omega)
      rw [book.page_closed listed] at full
      have ended := PageAt.endInfo full
      have time : (openedInfo (view db.parent.part m) (book.place n) stack).endTime =
          book.closed[n].endTime := by
        refine Eq.trans (if_pos ended) ?_
        exact (show FullAt db.maxLen (view db.parent.part m) (book.place n) _ _ _ from full).ended
      have before : (if w32 (secStart book.cursor) = 0 then db.parent.maxSize - db.parent.secSize
          else w32 (secStart book.cursor) - db.parent.secSize) = w32 (secStart (book.place n)) := by
        have zero : w32 (secStart book.cursor) = 0 ↔ book.cursor = 0 :=
          ⟨secStart_inj inside (show 0 < 63 by omega), fun first => by rw [first]; rfl⟩
        rw [place, opened.secSize, opened.maxSize]
        by_cases first : book.cursor = 0
        · rw [if_pos (zero.mpr first), if_pos first]
          exact w32_sub (by omega)
        · rw [if_neg fun none => first (zero.mp none), if_neg first]
          exact w32_sub (by unfold secStart; omega)
      have apart : w32 (secStart (book.place 0)) ≠ w32 (secStart book.cursor) := by
        intro same
        have level := secStart_inj (book.place_lt 0) inside same
        unfold Book.place at level
        omega
      rw [if_pos ⟨by rw [status]; rfl, apart⟩, before, behind, listed]
      dsimp only
      rw [readSectorInfo_page env junk m opened (book.place_lt n) full]
      exact congrArg some time

/-- The structures that initialising leaves stand for the book. -/
theorem mounted_inMemory (V : Memory) (sector : TsdbSecInfo) (opened : Opened db)
    (initOk : db.parent.initOk = true)
    (rollover : db.rollover = true) (shows : OnFlash db.maxLen V book)
    (oldest : db.parent.oldestAddr = w32 (secStart (book.place 0)))
    (info : db.curSec = scanned db.maxLen V book.cursor book.currentPage sector)
    {otherwise : FdbTime} (last : db.lastTime = lastIn book otherwise) :
    InMemory db (mounted book otherwise) := by
  have short := book.closed_le
  have here : PageAt db.maxLen V book.cursor book.currentPage := by
    have page := shows book.closed.length (by omega)
    rwa [book.place_cursor, book.page_current] at page
  have status := scanned_status here sector
  have unclosed := PageAt.endInfo here
  rw [← info] at status
  unfold Book.currentPage at here info status unclosed
  cases current : book.current with
  | none =>
    have slots : (mounted book otherwise).slots = [] := by
      change (book.current.map Sector.slots).getD [] = []
      rw [current]
      rfl
    rw [current] at here info status
    refine ⟨opened, initOk, rollover, oldest, ?_, last, fun _ => status, fun sec some => ?_⟩
    · rw [slots, info]
      exact openedInfo_tracks here sector
    · exact nomatch current.symm.trans some
  | some sec =>
    have slots : (mounted book otherwise).slots = sec.slots := by
      change (book.current.map Sector.slots).getD [] = _
      rw [current]
      rfl
    rw [current] at here info status unclosed
    have active : ActiveAt db.maxLen V book.cursor sec.startTime sec.slots := here
    refine ⟨opened, initOk, rollover, oldest, ?_, last,
      fun none => (nomatch current.symm.trans none), fun sec' some => ?_⟩
    · rw [slots, info]
      exact ⟨rfl, unclosed, rfl, rfl, rfl⟩
    · obtain rfl := Option.some.inj (current.symm.trans some)
      refine ⟨status, ?_, ?_, ?_⟩
      · rw [info]
        exact active.start
      · rw [info]
        rfl
      · rw [info]
        rfl

/-- The sizes of a database before its sectors are checked. -/
theorem loaded_opened {path : String} {part : FalPartition} (closed : Closed db path part)
    {maxLen : Word} (roomy : wholeWords maxLen.toNat ≤ 1936) : Opened (loaded db part maxLen) :=
  ⟨⟨(fdbInitEx_eq closed).2, closed.fileMode⟩, rfl, rfl, roomy⟩

/-- What initialising does last, whether it has formatted the sectors or not. -/
def readBack (env : Environment) (junk : Memory) (stack : TsdbSecInfo) (db : FdbTsdb) :
    Proc Board (FdbErr × FdbTsdb) := do
  let b ← Proc.get
  let read ← orHang (readSectorInfo env junk b.flash db db.curSec.addr db.curSec true)
  let db := { db with curSec := read.2 }
  let last ← orHang (lastSaved env junk stack b.flash db)
  return fdbInitFinish { db with lastTime := last } .noErr

theorem readBack_done (env : Environment) (junk : Memory) (opened : Opened db)
    (rollover : db.rollover = true) {b : Board}
    (shows : OnFlash db.maxLen (view db.parent.part b.flash) book) (gap : Gap db.maxLen book)
    (addr : db.curSec.addr = w32 (secStart book.cursor))
    (oldest : db.parent.oldestAddr = w32 (secStart (book.place 0))) (stack : TsdbSecInfo) :
    ∃ db', readBack env junk stack db b = .done (.noErr, db') b ∧
      InMemory db' (mounted book db.lastTime) ∧ db'.maxLen = db.maxLen ∧
      db'.parent.part = db.parent.part := by
  have short := book.closed_le
  have here : PageAt db.maxLen (view db.parent.part b.flash) book.cursor book.currentPage := by
    have page := shows book.closed.length (by omega)
    rwa [book.place_cursor, book.page_current] at page
  have placed : ∀ sec, book.currentPage = .active sec → book.current = some sec := by
    intro sec active
    have page := page_active book (book.page_current.trans active)
    exact page.2
  obtain ⟨err, read⟩ := readSectorInfo_scanned env junk b.flash opened book.inside here
    (fun sec active => gap sec (placed sec active)) db.curSec
  obtain ⟨info, shape⟩ : ∃ info, info =
    scanned db.maxLen (view db.parent.part b.flash) book.cursor book.currentPage db.curSec :=
    ⟨_, rfl⟩
  have stands : Opened { db with curSec := info } :=
    ⟨opened.stored, opened.secSize, opened.maxSize, opened.roomy⟩
  have last : lastSaved env junk stack b.flash { db with curSec := info } =
      some (lastIn book db.lastTime) := lastSaved_eq env junk stands shows oldest shape stack
  rw [← shape] at read
  rw [readBack, get_bind, addr, read, orHang, pure_bind]
  simp only [last, orHang, pure_bind]
  refine ⟨_, rfl, ?_, rfl, rfl⟩
  refine mounted_inMemory (view db.parent.part b.flash) db.curSec ?_ rfl ?_ ?_ ?_ ?_ rfl
  · exact ⟨⟨opened.stored.listed, opened.stored.flash⟩, opened.secSize, opened.maxSize,
      opened.roomy⟩
  · exact rollover
  · exact shows
  · exact oldest
  · exact shape

/-- Initialising up to the check of the sectors. -/
theorem fdbTsdbInit_check {path : String} {part : FalPartition} (closed : Closed db path part)
    {maxLen : Word} (short : maxLen < w32 2048) {stack : TsdbSecInfo} {arg : CheckSecHdr}
    {b b' : Board} (check : sectorIterator env junk (loaded db part maxLen) .storeUnused
      checkSecHdrCb true loopFuel 0 0 { stack with addr := 0 }
      ⟨(loaded db part maxLen).curSec, false, 0, 0⟩ b = .done arg b') :
    (arg.checkFailed = false → fdbTsdbInit env junk stack db path maxLen b =
      readBack env junk stack (entered (loaded db part maxLen)
        (oldestBehind { loaded db part maxLen with curSec := arg.curSec }
          (if 0 < arg.emptyNum then arg.emptyAddr else arg.curSec.addr)) arg.curSec) b') ∧
    (arg.checkFailed = true → db.parent.notFormatable = false →
      fdbTsdbInit env junk stack db path maxLen b =
        (tslFormatAll env junk stack { loaded db part maxLen with curSec := arg.curSec } >>=
          readBack env junk stack) b') := by
  have fits : decide (maxLen < (located db.parent part).secSize) = true := decide_eq_true short
  rw [fdbTsdbInit, (fdbInitEx_eq closed).1, orHang, pure_bind]
  simp only [ne_eq, not_true_eq_false, if_false, fits, fdbAssert, if_true, pure_bind]
  constructor
  · intro passed
    refine (bind_done check).trans ?_
    simp only [passed, Bool.false_eq_true, false_and, if_false, reduceCtorEq, and_false]
    rfl
  · intro failed formatable
    have formats : ¬(located db.parent part).notFormatable = true := by
      rw [show (located db.parent part).notFormatable = false from formatable]
      exact Bool.false_ne_true
    refine (bind_done check).trans ?_
    simp only [failed, true_and, if_true]
    rw [if_neg formats]
    rfl

/-- Initialising finds the book again that the flash holds, and writes nothing. -/
theorem fdbTsdbInit_mounts (env : Environment) (junk : Memory) {path : String}
    {part : FalPartition} (closed : Closed db path part)
    {maxLen : Word} (roomy : wholeWords maxLen.toNat ≤ 1936) {b : Board}
    (shows : OnFlash maxLen (view part b.flash) book) (gap : Gap maxLen book)
    (stack : TsdbSecInfo) :
    ∃ db', fdbTsdbInit env junk stack db path maxLen b = .done (.noErr, db') b ∧
      InMemory db' (mounted book db.lastTime) ∧ db'.maxLen = maxLen ∧ db'.parent.part = part := by
  have opened := loaded_opened closed roomy
  have short : maxLen < w32 2048 := by
    rw [BitVec.lt_def, toNat_w32 (by omega)]
    unfold wholeWords at roomy
    omega
  obtain ⟨arg, check, checked⟩ := check_all env junk opened shows gap rfl { stack with addr := 0 }
  obtain ⟨s, low, latest, oldest⟩ := checked.oldest
  have run := (fdbTsdbInit_check closed short check).1 checked.passed
  have stands : Opened { loaded db part maxLen with curSec := arg.curSec } :=
    ⟨opened.stored, opened.secSize, opened.maxSize, opened.roomy⟩
  rw [latest, oldestBehind_eq stands low, oldest] at run
  obtain ⟨db', done, memory, maxLen', part'⟩ := readBack_done env junk
    (entered_opened opened (w32 (secStart (book.place 0))) arg.curSec) rfl shows gap
    (checked.behind book.inside) rfl stack
  exact ⟨db', run.trans done, memory, maxLen', part'⟩

end Mounted

end BmsFirmware.Flashdb.Mounting
