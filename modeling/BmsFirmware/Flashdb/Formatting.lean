/- Module: BmsFirmware/Flashdb/Formatting
   Source: application/flashdb/src/fdb_tsdb.c
   Digest: Formatting all sectors leaves an empty book; one that was cut off is made up for. -/

import BmsFirmware.Flashdb.Mounting

set_option autoImplicit false
set_option relaxedAutoImplicit false

namespace BmsFirmware.Flashdb.Formatting

open BmsFirmware.Library.ByteMemory
open BmsFirmware.Library.PowerLogic
open BmsFirmware.Library.StatusTable
open BmsFirmware.Flash.Controller
open BmsFirmware.Fal.Partitions
open BmsFirmware.Fal.WriteOnce
open BmsFirmware.Flashdb.Utils
open BmsFirmware.Flashdb.Storage
open BmsFirmware.Flashdb.Tsdb
open BmsFirmware.Flashdb.SectorLayout
open BmsFirmware.Flashdb.SectorWrites
open BmsFirmware.Flashdb.LogBook
open BmsFirmware.Flashdb.Appending
open BmsFirmware.Flashdb.Traversal
open BmsFirmware.Flashdb.Mounting

/-! ### The empty book -/

/-- A book without logs, with the first sector in use. -/
def blank (time : FdbTime) : Book where
  closed := []
  current := none
  cursor := 0
  last := time
  inside := Nat.succ_pos 62
  ring := .inr rfl
  latest := fun sec some => absurd some (Option.some_ne_none sec).symm

section Blank

variable {maxLen : Word} {V W : Memory} {time : FdbTime}

theorem page_blank (o : Nat) : (blank time).page o = .empty := by
  rcases Nat.eq_zero_or_pos o with rfl | behind
  · exact Book.page_current (blank time)
  · exact Book.page_behind (blank time) behind

theorem onFlash_blank (time : FdbTime) (empty : ∀ s < 63, EmptyAt V s) :
    OnFlash maxLen V (blank time) := by
  intro o _
  rw [page_blank]
  exact empty _ (Book.place_lt _ o)

theorem gap_blank : Gap maxLen (blank time) := fun _ current => nomatch current

end Blank

/-! ### Formatting the sectors one by one -/

/-- No sector's header keeps `read_sector_info` from returning. -/
def Readable (V : Memory) : Prop := ∀ s < 63, Unformatted V s ∨ ¬Stuck V s

/-- The first `s` sectors have been formatted, the others are as they were. -/
structure Wiped (V : Memory) (s : Nat) (W : Memory) : Prop where
  done : ∀ s' < s, EmptyAt W s'
  left : ∀ s', s ≤ s' → s' < 63 → SameSector V W s'

/-- Power went away while a sector was being formatted. -/
def CutShort (V W : Memory) : Prop := ∃ s < 63, ∃ U, Wiped V s U ∧ Halfway U s W

section Sectors

variable {V W U : Memory} {s : Nat}

theorem Unformatted.congr (raw : Unformatted V s) (same : SameSector V W s) : Unformatted W s := by
  rw [Unformatted, same.word (by omega)]
  exact raw

theorem Stuck.congr (stuck : Stuck V s) (same : SameSector V W s) : Stuck W s := by
  have table {off : Nat} (inside : off + 20 ≤ 2048) :
      shown W (secStart s + off) FDB_TSL_STATUS_NUM =
        shown V (secStart s + off) FDB_TSL_STATUS_NUM := by
    refine statusAt_congr fun i low => ?_
    unfold FDB_TSL_STATUS_NUM at low
    rw [Nat.add_assoc]
    exact same _ (by omega)
  refine ⟨?_, ?_⟩
  · rw [table (show 28 + 20 ≤ 2048 by omega)]
    exact stuck.1
  · rw [table (show 56 + 20 ≤ 2048 by omega)]
    exact stuck.2

theorem EmptyAt.congr (empty : EmptyAt V s) (same : SameSector V W s) : EmptyAt W s :=
  PageAt.congr (show PageAt 0 V s .empty from empty) same

theorem Wiped.refl (V : Memory) : Wiped V 0 V :=
  ⟨fun _ less => absurd less (Nat.not_lt_zero _), fun _ _ _ _ _ => rfl⟩

theorem Wiped.next (wiped : Wiped V s U) (kept : KeptOff (secStart s) (secStart (s + 1)) U W)
    (empty : EmptyAt W s) : Wiped V (s + 1) W := by
  have away {s' : Nat} (other : s' ≠ s) : SameSector U W s' := by
    refine kept.sameSector ?_
    unfold secStart
    omega
  refine ⟨fun s' less => ?_, fun s' more low i inside => ?_⟩
  · rcases Nat.lt_or_eq_of_le (Nat.le_of_lt_succ less) with before | rfl
    · exact EmptyAt.congr (wiped.done s' before) (away (by omega))
    · exact empty
  · rw [away (show s' ≠ s by omega) i inside]
    exact wiped.left s' (by omega) low i inside

end Sectors

section Format

variable {env : Environment} {db : FdbTsdb} {V : Memory} {start : Board} {book : Book}

/-- The header of a readable sector is read, whatever it holds. -/
theorem readSectorInfo_readable (env : Environment) (junk m : Memory) (opened : Opened db) {s : Nat}
    (low : s < 63) (readable : Unformatted (view db.parent.part m) s ∨
      ¬Stuck (view db.parent.part m) s) (sector : TsdbSecInfo) :
    ∃ read, readSectorInfo env junk m db (w32 (secStart s)) sector false = some read ∧
      read.2.addr = w32 (secStart s) := by
  by_cases raw : Unformatted (view db.parent.part m) s
  · exact ⟨_, readSectorInfo_unformatted env junk m opened low raw sector false, rfl⟩
  · refine ⟨(.noErr, openedInfo (view db.parent.part m) s sector), ?_, rfl⟩
    rw [readSectorInfo_eq env junk m opened low (not_not.mp raw) (readable.resolve_left raw),
      if_neg (fun both => Bool.false_ne_true both.2)]

theorem Readable.wiped {W : Memory} {s : Nat} (readable : Readable V) (wiped : Wiped V s W)
    (low : s < 63) : Unformatted W s ∨ ¬Stuck W s := by
  have same := wiped.left s (Nat.le_refl _) low
  have back : SameSector W V s := fun i inside => (same i inside).symm
  exact (readable s low).imp (fun raw => Unformatted.congr raw same)
    fun free stuck => free (Stuck.congr stuck back)

/-- Formatting all sectors, whatever they hold. -/
theorem formatSectors_triple (ok : env.Succeeds) (junk : Memory) (opened : Opened db)
    (readable : Readable V) (sector : TsdbSecInfo) :
    Triple (Holds db.parent start V)
      (sectorIterator env junk db .storeUnused (formatAllCb env junk db) false loopFuel 0 0 sector
        ())
      (fun _ b => ∃ W, (∀ s < 63, EmptyAt W s) ∧ Holds db.parent start W b)
      (Lost env db.parent start (CutShort V)) := by
  intro b holds
  refine sectorIterator_triple (I := fun s _ b' => ∃ U, Wiped V s U ∧ Holds db.parent start U b')
    env junk (formatAllCb env junk db) false opened ?_ ?_ (show 0 + (62 + 1) = 63 from rfl)
    (show 62 < loopFuel by unfold loopFuel; omega)
    sector () b ⟨V, Wiped.refl V, holds⟩
  · rintro s low sector ⟨⟩ b' ⟨U, wiped, holds⟩
    obtain ⟨read, header, addr⟩ := readSectorInfo_readable env junk b'.flash opened low
      (by rw [holds.shows]; exact readable.wiped wiped low) sector
    refine ⟨read, ?_, addr, ?_⟩
    · rw [scanSector, header]
      rfl
    · rw [formatAllCb, addr, bind_apply]
      have format : ((formatSector env junk db (w32 (secStart s))) b').Sat _ _ :=
        formatSector_triple ok junk opened low b' holds
      cases result : formatSector env junk db (w32 (secStart s)) b' with
      | done r b'' =>
        rw [result] at format
        obtain ⟨-, W, kept, empty, holds'⟩ := format
        exact ⟨W, wiped.next kept empty, holds'⟩
      | cut b'' =>
        rw [result] at format
        exact Lost.mono format fun W half => ⟨s, low, U, wiped, half⟩
  · rintro ⟨⟩ b' ⟨U, wiped, holds⟩
    exact ⟨U, wiped.done, holds⟩

/-- A database whose sectors have all been formatted, before the last times are looked for. -/
structure Fresh (db db' : FdbTsdb) (W : Memory) : Prop where
  empty : ∀ s < 63, EmptyAt W s
  opened : Opened db'
  parts : db'.parent.part = db.parent.part ∧ db'.maxLen = db.maxLen ∧ db'.rollover = db.rollover ∧
    db'.parent.initOk = db.parent.initOk
  oldest : db'.parent.oldestAddr = w32 (secStart 0)
  info : ∃ sector, db'.curSec = openedInfo W 0 sector
  lastTime : db'.lastTime = 0

theorem tslFormatAll_triple (ok : env.Succeeds) (junk : Memory) (stack : TsdbSecInfo)
    (opened : Opened db) (readable : Readable V) :
    Triple (Holds db.parent start V) (tslFormatAll env junk stack db)
      (fun db' b => ∃ W, Fresh db db' W ∧ Holds db.parent start W b)
      (Lost env db.parent start (CutShort V)) := by
  unfold tslFormatAll
  refine Triple.bind (formatSectors_triple ok junk opened readable { stack with addr := 0 }) ?_
  rintro ⟨⟩ b ⟨W, empty, holds⟩
  obtain ⟨db0, shape⟩ : ∃ db0, db0 = { db with
    parent := { db.parent with oldestAddr := 0 }
    curSec := { db.curSec with addr := 0 }
    lastTime := 0 } := ⟨_, rfl⟩
  have opened0 : Opened db0 := by
    rw [shape]
    exact ⟨⟨opened.stored.listed, opened.stored.flash⟩, opened.secSize, opened.maxSize,
      opened.roomy⟩
  have part : db0.parent.part = db.parent.part := by
    rw [shape]
  have first : PageAt db.maxLen (view db0.parent.part b.flash) 0 .empty := by
    rw [part, holds.shows]
    exact empty 0 (by omega)
  have read := readSectorInfo_page env junk b.flash opened0 (by omega) first db0.curSec
  rw [part, holds.shows] at read
  rw [← shape, get_bind, show db0.curSec.addr = w32 (secStart 0) by rw [shape]; rfl, read, orHang,
    pure_bind]
  refine ⟨W, ?_, holds⟩
  subst shape
  exact ⟨empty, ⟨⟨opened.stored.listed, opened.stored.flash⟩, opened.secSize, opened.maxSize,
    opened.roomy⟩, ⟨rfl, rfl, rfl, rfl⟩, rfl, ⟨_, rfl⟩, rfl⟩

theorem Fresh.inMemory {db' : FdbTsdb} {W : Memory} (fresh : Fresh db db' W)
    (initOk : db.parent.initOk = true) (rollover : db.rollover = true) :
    InMemory db' (blank 0) := by
  obtain ⟨sector, info⟩ := fresh.info
  obtain ⟨-, -, rollover', initOk'⟩ := fresh.parts
  have here : PageAt db'.maxLen W 0 .empty := fresh.empty 0 (by omega)
  refine ⟨fresh.opened, initOk'.trans initOk, rollover'.trans rollover, fresh.oldest, ?_,
    fresh.lastTime, fun _ => ?_, fun sec some => absurd some (Option.some_ne_none sec).symm⟩
  · rw [info]
    exact openedInfo_tracks here sector
  · rw [info]
    exact PageAt.openedInfo_status here sector

/-- A flash that shows a book can be read. -/
theorem OnFlash.readable {maxLen : Word} (shows : OnFlash maxLen V book) : Readable V := by
  intro s low
  obtain ⟨page, here, -⟩ := OnFlash.placed shows low
  exact .inr (PageAt.free here)

/-- Cleaning a database leaves an empty one. -/
theorem fdbTslClean_triple (ok : env.Succeeds) (junk : Memory) (stack : TsdbSecInfo)
    (memory : InMemory db book) (shows : OnFlash db.maxLen V book) :
    Triple (Holds db.parent start V) (fdbTslClean env junk stack db)
      (fun db' b => InMemory db' (blank 0) ∧ db'.maxLen = db.maxLen ∧
        db'.parent.part = db.parent.part ∧
        ∃ W, OnFlash db.maxLen W (blank 0) ∧ Holds db.parent start W b)
      (Lost env db.parent start (CutShort V)) := by
  refine (tslFormatAll_triple ok junk stack memory.opened (OnFlash.readable shows)).mono ?_
    (fun _ lost => lost)
  rintro db' b ⟨W, fresh, holds⟩
  exact ⟨fresh.inMemory memory.initOk memory.rollover, fresh.parts.2.1, fresh.parts.1, W,
    onFlash_blank _ fresh.empty, holds⟩

end Format

/-! ### Initialising a flash that was never formatted to the end -/

/-- Every sector is empty or without the magic word. -/
def Raw (V : Memory) : Prop := ∀ s < 63, EmptyAt V s ∨ Unformatted V s

section Initialise

variable {env : Environment} {db : FdbTsdb} {V W U : Memory} {start : Board}

/-- A formatting that was cut off leaves nothing but empty and unformatted sectors. -/
theorem Raw.cutShort (raw : Raw V) (cut : CutShort V W) : Raw W := by
  obtain ⟨s, low, U, wiped, kept, half⟩ := cut
  have before (s' : Nat) (low' : s' < 63) : EmptyAt U s' ∨ Unformatted U s' := by
    rcases Nat.lt_or_ge s' s with less | more
    · exact .inl (wiped.done s' less)
    · have same := wiped.left s' more low'
      exact (raw s' low').imp (fun empty => EmptyAt.congr empty same)
        fun bare => Unformatted.congr bare same
  intro s' low'
  by_cases here : s' = s
  · subst here
    rcases half with rfl | bare
    · exact before s' low'
    · exact .inr bare
  · have same : SameSector U W s' := by
      refine kept.sameSector ?_
      unfold secStart
      omega
    exact (before s' low').imp (fun empty => EmptyAt.congr empty same)
      fun bare => Unformatted.congr bare same

theorem Raw.readable (raw : Raw V) : Readable V := by
  intro s low
  rcases raw s low with empty | bare
  · exact .inr (PageAt.free (show PageAt 0 V s .empty from empty))
  · exact .inl bare

/-- A sector without the magic word does not pass. -/
theorem scanSector_raw (env : Environment) (junk m : Memory) (opened : Opened db) {s : Nat}
    (low : s < 63) (bare : Unformatted (view db.parent.part m) s) (sector : TsdbSecInfo) :
    ∃ read, scanSector env junk m db (w32 (secStart s)) sector true = some read ∧
      read.2.addr = w32 (secStart s) ∧ read.2.checkOk = false := by
  refine ⟨(.initFailed, { sector with
    addr := w32 (secStart s)
    magic := wordAt (view db.parent.part m) (secStart s + 12)
    checkOk := false }), ?_, rfl, rfl⟩
  rw [scanSector, readSectorInfo_unformatted env junk m opened low bare]
  exact readSectorInfo_unformatted env junk m opened low bare _ _

/-- The check stops at the first sector without the magic word. -/
theorem check_raw (env : Environment) (junk : Memory) (opened : Opened db) {b : Board}
    (raw : Raw (view db.parent.part b.flash))
    (bare : ∃ s < 63, Unformatted (view db.parent.part b.flash) s) (sector : TsdbSecInfo)
    (arg : CheckSecHdr) :
    ∃ arg', sectorIterator env junk db .storeUnused checkSecHdrCb true loopFuel 0 0 sector arg b =
      .done arg' b ∧ arg'.checkFailed = true := by
  have run := sectorIterator_triple
    (I := fun s _ b' => b' = b ∧ ∃ s' < 63, s ≤ s' ∧ Unformatted (view db.parent.part b.flash) s')
    (Q := fun arg' b' => b' = b ∧ arg'.checkFailed = true) (C := fun _ => False) env junk
    checkSecHdrCb true opened ?_ ?_ (show 0 + (62 + 1) = 63 from rfl)
    (show 62 < loopFuel by unfold loopFuel; omega) sector arg b ?_
  · obtain ⟨arg', b', done, rfl, failed⟩ := run.returns
    exact ⟨arg', done, failed⟩
  · rintro s low sector arg b' ⟨rfl, s', low', after, bare⟩
    by_cases here : Unformatted (view db.parent.part b'.flash) s
    · obtain ⟨read, scan, addr, failed⟩ := scanSector_raw env junk b'.flash opened low here sector
      refine ⟨read, scan, addr, ?_⟩
      rw [checkSecHdrCb, if_pos failed]
      exact ⟨rfl, rfl⟩
    · have empty : PageAt db.maxLen (view db.parent.part b'.flash) s .empty :=
        (raw s low).resolve_right here
      obtain ⟨err, before, scan⟩ :=
        scanSector_page env junk opened low empty (fun _ other => nomatch other)
        sector
      refine ⟨_, scan, scanned_addr before, ?_⟩
      have status := scanned_status empty before
      unfold checkSecHdrCb
      rw [scanned_checkOk, if_neg (by simp), status]
      refine ⟨rfl, s', low', ?_, bare⟩
      rcases Nat.lt_or_eq_of_le after with more | rfl
      · exact more
      · exact absurd bare here
  · rintro arg' b' ⟨rfl, s', low', after, -⟩
    omega
  · obtain ⟨s', low', bare⟩ := bare
    exact ⟨rfl, s', low', Nat.zero_le _, bare⟩

/-- Initialising a flash that was never formatted to the end leaves an empty book; where power
goes away the next attempt starts from such a flash again. -/
theorem fdbTsdbInit_raw (ok : env.Succeeds) (junk : Memory) (stack : TsdbSecInfo) {path : String}
    {part : FalPartition} (closed : Closed db path part)
    (formatable : db.parent.notFormatable = false)
    {maxLen : Word} (roomy : wholeWords maxLen.toNat ≤ 1936) {b : Board}
    (raw : Raw (view part b.flash)) :
    (fdbTsdbInit env junk stack db path maxLen b).Sat
      (fun r b' => r.1 = .noErr ∧ r.2.maxLen = maxLen ∧ r.2.parent.part = part ∧
        ∃ W time, (time = 0 ∨ time = db.lastTime) ∧ InMemory r.2 (blank time) ∧
          OnFlash maxLen W (blank time) ∧ Holds (located db.parent part) b W b')
      (Lost env (located db.parent part) b Raw) := by
  by_cases empty : ∀ s < 63, EmptyAt (view part b.flash) s
  · obtain ⟨db', done, memory, maxLen', part'⟩ := fdbTsdbInit_mounts env junk closed roomy
      (onFlash_blank 0 empty) gap_blank stack
    rw [done]
    exact ⟨rfl, maxLen', part', _, _, .inr rfl, memory, onFlash_blank _ empty,
      Holds.refl (located db.parent part) b⟩
  · have bare : ∃ s < 63, Unformatted (view part b.flash) s := by
      by_contra none
      refine empty fun s low => (raw s low).resolve_right fun here => none ⟨s, low, here⟩
    have opened := loaded_opened closed roomy
    have short : maxLen < w32 2048 := by
      rw [BitVec.lt_def, toNat_w32 (by omega)]
      unfold wholeWords at roomy
      omega
    obtain ⟨arg, check, failed⟩ := check_raw env junk opened raw bare { stack with addr := 0 }
      ⟨(loaded db part maxLen).curSec, false, 0, 0⟩
    rw [(fdbTsdbInit_check closed short check).2 failed formatable]
    have stands : Opened { loaded db part maxLen with curSec := arg.curSec } :=
      ⟨opened.stored, opened.secSize, opened.maxSize, opened.roomy⟩
    have format :
        (tslFormatAll env junk stack { loaded db part maxLen with curSec := arg.curSec } b).Sat
        _ _ := tslFormatAll_triple ok junk stack stands raw.readable b (Holds.refl _ b)
    rw [bind_apply]
    cases result :
        tslFormatAll env junk stack { loaded db part maxLen with curSec := arg.curSec } b with
    | cut b' =>
      rw [result] at format
      exact Lost.samePart (Lost.mono format fun W cut => raw.cutShort cut) rfl
    | done db' b' =>
      rw [result] at format
      obtain ⟨W, fresh, holds⟩ := format
      obtain ⟨part', maxLen', rollover, -⟩ := fresh.parts
      obtain ⟨sector, info⟩ := fresh.info
      have shows : OnFlash db'.maxLen (view db'.parent.part b'.flash) (blank 0) := by
        rw [part']
        exact onFlash_blank 0 fun s low => holds.shows.symm ▸ fresh.empty s low
      obtain ⟨db'', done, memory, maxLen'', part''⟩ := readBack_done env junk
        fresh.opened rollover shows gap_blank (by rw [info]; rfl) fresh.oldest stack
      change (readBack env junk stack db' b').Sat _ _
      rw [done]
      exact ⟨rfl, maxLen''.trans maxLen', part''.trans part', W, db'.lastTime, .inl fresh.lastTime,
        memory, onFlash_blank _ fresh.empty, Holds.samePart holds rfl⟩

end Initialise

end BmsFirmware.Flashdb.Formatting
