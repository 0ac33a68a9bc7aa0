/- Module: BmsFirmware/Flashdb/PowerCycles
   Source: application/flashdb/src/fdb_tsdb.c
   Digest: The logs that a device gives back after power cycles and losses of power. -/

import BmsFirmware.Flashdb.Delivery
import BmsFirmware.Flashdb.DeviceLives
import BmsFirmware.Flashdb.Period
import BmsFirmware.Upgrade.Boot

set_option autoImplicit false
set_option relaxedAutoImplicit false

namespace BmsFirmware.Flashdb.PowerCycles

open BmsFirmware.Library.ByteMemory
open BmsFirmware.Library.PowerLogic
open BmsFirmware.Library.EarlyExit
open BmsFirmware.Flash.Controller
open BmsFirmware.Fal.Partitions
open BmsFirmware.Fal.VerifiedPort
open BmsFirmware.Fal.WriteOnce
open BmsFirmware.Flashdb.Utils
open BmsFirmware.Flashdb.Storage
open BmsFirmware.Flashdb.Tsdb
open BmsFirmware.Flashdb.SectorLayout
open BmsFirmware.Flashdb.SectorWrites
open BmsFirmware.Flashdb.LogBook
open BmsFirmware.Flashdb.Appending
open BmsFirmware.Flashdb.Chronology
open BmsFirmware.Flashdb.Traversal
open BmsFirmware.Flashdb.Period
open BmsFirmware.Flashdb.Delivery
open BmsFirmware.Flashdb.Mounting
open BmsFirmware.Flashdb.Formatting
open BmsFirmware.Flashdb.Marking
open BmsFirmware.Flashdb.DeviceLives
open BmsFirmware.Upgrade.Boot (powerOn)

/-! ### What is read back -/

/-- Where iterating calls back for no torn log, the book has none. -/
theorem intact_of_delivers {env : Environment} {m : Memory} {db : FdbTsdb} {got : List FdbTsl}
    {slots : List Slot} (delivers : List.Forall₂ (Delivers env m db) got slots)
    (complete : ∀ tsl ∈ got, tsl.status ≠ .preWrite) : ∀ e ∈ slots, e ≠ .torn := by
  induction delivers with
  | nil => exact fun e listed => nomatch listed
  | cons first _ ih =>
    intro e listed
    rcases List.mem_cons.mp listed with rfl | later
    · rintro rfl
      exact complete _ List.mem_cons_self first
    · exact ih (fun tsl there => complete tsl (List.mem_cons_of_mem _ there)) e later

/-- Counting visits all logs. -/
theorem visit_count (status : TslStatus) (l : List FdbTsl) (count : Word) :
    (visit (queryCountCb status) l count).2 =
      count + w32 (l.countP fun tsl => tsl.status = status) := by
  induction l generalizing count with
  | nil => exact (BitVec.add_zero count).symm
  | cons tsl l ih =>
    rw [visit_cons, if_neg (by simp [queryCountCb]), ih]
    by_cases wanted : tsl.status = status
    · rw [List.countP_cons_of_pos (by simpa using wanted), queryCountCb, if_pos wanted, ← w32_add]
      bv_omega
    · rw [List.countP_cons_of_neg (by simpa using wanted), queryCountCb, if_neg wanted]

/-! ### A device with logs -/

/-- The second partition of the table. -/
def logPart : FalPartition := ⟨"fdb_tsdb1", FLASH_DEV_NAME, 126 * 1024, 126 * 1024⟩

/-- A database before its first initialisation, all zeros. -/
def unopened : FdbTsdb where
  parent := ⟨⟨"", "", 0, 0⟩, 0, 0, 0, false, false, false⟩
  curSec := ⟨false, .storeUnused, 0, 0, 0, 0, 0, .unused, .unused, 0, 0, 0⟩
  lastTime := 0
  maxLen := 0
  rollover := false

theorem unopened_closed : Closed unopened "fdb_tsdb1" logPart :=
  ⟨rfl, rfl, .inl rfl, by decide⟩

theorem zeros_unformatted (part : FalPartition) (s : Nat) :
    Unformatted (view part fun _ => 0) s := by
  have word : wordAt (view part fun _ => 0) (secStart s + 12) = wordAt (fun _ => 0) 0 :=
    wordAt_same fun _ _ => rfl
  rw [Unformatted, word]
  decide

/-- A log of some bytes that is appended at a time. -/
def logOf (size : Word) (time : FdbTime) : Request :=
  ⟨⟨fun i => BitVec.ofNat 8 i, size, 0, 0, 0⟩, time, fun _ => 0⟩

/-- A device whose flash was all zeros and whose logs have at most `maxLen` bytes. -/
abbrev Sample (maxLen : Word) (db : FdbTsdb) (b : Board) (acks : List Record) (book : Book) :
    Prop :=
  Standing "fdb_tsdb1" logPart maxLen (fun _ => 0) db b acks book

/-- Logs of four bytes. -/
def logged (times : List FdbTime) : List Record := times.map fun time => (logOf 4 time).record

theorem sample_first {maxLen : Word} (roomy : wholeWords maxLen.toNat ≤ 1936) :
    ∃ db b, Sample maxLen db b [] (blank 0) :=
  Standing.first roomy (fun s _ => zeros_unformatted logPart s) unopened_closed rfl rfl
    (show (powerOn fun _ => 0).flash = fun _ => 0 from rfl)

/-- The sector of a device with logs at the times 1 and 2. -/
def twoSec : Sector := ⟨(logOf 4 1).record, [.saved (logOf 4 2).record]⟩

def twoBook : Book := ((blank 0).add 64 (logOf 4 1).record).add 64 (logOf 4 2).record

theorem sample_two : ∃ db b, Sample 64 db b (logged [1, 2]) twoBook := by
  obtain ⟨db, b, fresh⟩ := sample_first (show wholeWords (64 : Word).toNat ≤ 1936 by decide)
  obtain ⟨r, b, -, -, one⟩ := fresh.append (show Accepted 64 _ (logOf 4 1).blob 1 by decide)
  obtain ⟨r, b, -, -, two⟩ := one.append (show Accepted 64 _ (logOf 4 2).blob 2 by decide)
  exact ⟨r.2, b, two⟩

/-- A book with a sector in use that has room for an entry can be found again. -/
theorem gap_of_current {maxLen : Word} {book : Book} (sec : Sector)
    (current : book.current = some sec) (room : total maxLen sec.slots + 32 ≤ 1968) :
    Gap maxLen book := by
  intro sec' current' _
  obtain rfl := Option.some.inj (current.symm.trans current')
  exact room

/-- Power goes away while a third log is written. -/
theorem sample_cut : ∃ db b b' book, Sample 64 db b (logged [1, 2]) twoBook ∧
    fdbTslAppendWithTs (.poweredFor (fun _ => 0) (b.clock + 1)) (logOf 4 3).junk db
      (logOf 4 3).blob 3 b = .cut b' ∧
    Lives "fdb_tsdb1" logPart 64 (fun _ => 0) (.off b'.flash) (logged [1, 2]) ∧
    OnFlash 64 (view logPart b'.flash) book ∧
    (book = twoBook ∨ book = twoBook.grown twoSec .torn) := by
  obtain ⟨db, b, two⟩ := sample_two
  obtain ⟨b', run, lives, shows | shows⟩ := two.cut (show twoBook.current = some twoSec from rfl)
    (show Accepted 64 twoBook (logOf 4 3).blob (logOf 4 3).time by decide) (by decide)
  · exact ⟨db, b, b', _, two, run, lives, shows, .inl rfl⟩
  · exact ⟨db, b, b', _, two, run, lives, shows, .inr rfl⟩

theorem left_gap {book : Book} (left : book = twoBook ∨ book = twoBook.grown twoSec .torn) :
    Gap 64 book := by
  rcases left with rfl | rfl
  · exact gap_of_current twoSec rfl (by decide)
  · exact gap_of_current (twoSec.push .torn) rfl (by decide)

/-- Two logs, a third one that power goes away from, and a fourth one after the next start. -/
def Interrupted (db' : FdbTsdb) (b' : Board) : Prop :=
  ∃ db b b₁ db₁, Lives "fdb_tsdb1" logPart 64 (fun _ => 0) (.on db b) (logged [1, 2]) ∧
    fdbTslAppendWithTs (.poweredFor (fun _ => 0) (b.clock + 1)) (logOf 4 3).junk db
      (logOf 4 3).blob 3 b = .cut b₁ ∧
    fdbTsdbInit (.flawless fun _ => 0) (fun _ => 0) unopened.curSec unopened "fdb_tsdb1" 64
      (powerOn b₁.flash) = .done (.noErr, db₁) (powerOn b₁.flash) ∧
    fdbTslAppendWithTs (.flawless fun _ => 0) (logOf 4 4).junk db₁ (logOf 4 4).blob 4
      (powerOn b₁.flash) = .done (.noErr, db') b'

theorem sample_interrupted : ∃ db b book, Interrupted db b ∧
    Sample 64 db b (logged [1, 2, 4]) book ∧ Gap 64 book := by
  obtain ⟨db, b, b₁, book, two, cut, lives, shows, left⟩ := sample_cut
  obtain ⟨db₁, boot, again⟩ := Standing.again (by decide) lives shows (left_gap left)
    unopened_closed rfl (show (powerOn b₁.flash).flash = b₁.flash from rfl)
  have later : Accepted 64 (mounted book unopened.lastTime) (logOf 4 4).blob 4 := by
    rcases left with rfl | rfl <;> decide
  obtain ⟨⟨err, db'⟩, b', run, rfl, three⟩ := again.append later
  refine ⟨db', b', _, ⟨db, b, b₁, db₁, two.lives, cut, boot, run⟩, three, ?_⟩
  rcases left with rfl | rfl
  · exact gap_of_current (twoSec.push (.saved (logOf 4 4).record)) rfl (by decide)
  · exact gap_of_current ((twoSec.push .torn).push (.saved (logOf 4 4).record)) rfl (by decide)

/-- The longest log fills a sector. -/
theorem sample_full : ∃ db b, Sample 1936 db b [(logOf 1936 1).record]
    ((blank 0).add 1936 (logOf 1936 1).record) := by
  obtain ⟨db, b, fresh⟩ := sample_first (show wholeWords (1936 : Word).toNat ≤ 1936 by decide)
  obtain ⟨r, b, -, -, one⟩ := fresh.append (show Accepted 1936 _ (logOf 1936 1).blob 1 by decide)
  exact ⟨r.2, b, one⟩

/-! ### The logs of every life -/

section Results

variable {path : String} {part : FalPartition} {maxLen : Word} {origin : Memory} {db : FdbTsdb}
  {b : Board} {acks : List Record}

/-- In every state of a device, whatever power cycles and cuts it has seen, `fdb_tsl_iter` calls
back for the newest acknowledged logs with their bytes, in their order, and for all of them until 62
sectors are closed; besides them there are only logs whose writing was cut off. -/
theorem iter_delivers (roomy : wholeWords maxLen.toNat ≤ 1936)
    (lives : Lives path part maxLen origin (.on db b) acks) (env : Environment) (junk : Memory)
    (stack : TsdbSecInfo) :
    ∃ got slots, (∀ {α : Type} (cb : FdbTsl → α → Bool × α) (arg : α),
        fdbTslIter env junk b.flash db stack cb arg = some (visit cb got arg).2) ∧
      List.Forall₂ (Delivers env b.flash db) got slots ∧ saved slots <:+ acks ∧
      (saved slots = acks ∨ 62 ≤ (saved slots).length) ∧
      (saved slots).Pairwise fun r r' => r.time.toInt < r'.time.toInt := by
  obtain ⟨book, memory, shows, keeps, rfl, rfl⟩ := lives_book roomy lives
  refine ⟨tsls db.maxLen book, book.logs, fun cb arg => fdbTslIter_eq memory shows stack cb arg,
    delivers_book env memory.opened shows, keeps.newest, ?_, keeps.ordered⟩
  refine keeps.whole.imp_right fun closed => ?_
  have records := closed_le_saved book
  omega

theorem iter_delivers_interrupted : ∃ db b, ∃ got : List FdbTsl, Interrupted db b ∧
    fdbTslIter (.flawless fun _ => 0) (fun _ => 0) b.flash db unopened.curSec collect [] =
      some (visit collect got []).2 ∧
    ∃ slots, List.Forall₂ (Delivers (.flawless fun _ => 0) b.flash db) got slots ∧
      saved slots = logged [1, 2, 4] := by
  obtain ⟨db, b, book, interrupted, sample, -⟩ := sample_interrupted
  obtain ⟨got, slots, all, delivers, newest, whole, -⟩ :=
    iter_delivers (by decide) sample.lives (.flawless fun _ => 0) (fun _ => 0) unopened.curSec
  refine ⟨db, b, got, interrupted, all collect [], slots, delivers, ?_⟩
  refine whole.resolve_right fun many => ?_
  exact absurd (Nat.le_trans many newest.length_le) (by decide)

/-- Backwards, `fdb_tsl_iter_reverse` calls back for the same logs, where any was acknowledged. -/
theorem iter_reverse_reverses (roomy : wholeWords maxLen.toNat ≤ 1936)
    (lives : Lives path part maxLen origin (.on db b) acks) (some : acks ≠ []) (env : Environment)
    (junk : Memory) (stack : TsdbSecInfo) :
    ∃ got ≠ [], (∀ {α : Type} (cb : FdbTsl → α → Bool × α) (arg : α),
        fdbTslIter env junk b.flash db stack cb arg = .some (visit cb got arg).2) ∧
      ∀ {α : Type} (cb : FdbTsl → α → Bool × α) (arg : α),
        fdbTslIterReverse env junk b.flash db stack cb arg =
          .some (visit cb got.reverse arg).2 := by
  obtain ⟨book, memory, shows, keeps, rfl, rfl⟩ := lives_book roomy lives
  have held : saved book.logs ≠ [] := by
    intro none
    rcases keeps.whole with all | closed
    · exact some (all ▸ none)
    · have records := closed_le_saved book
      rw [none] at records
      exact absurd (closed ▸ records) (by decide)
  have busy : book.current ≠ none := by
    intro none
    refine held ?_
    rw [Book.logs, slots_none book none, keeps.begun none]
    rfl
  have delivers := delivers_book env memory.opened shows
  refine ⟨tsls db.maxLen book, ?_, fun cb arg => fdbTslIter_eq memory shows stack cb arg,
    fun cb arg => fdbTslIterReverse_eq memory shows busy stack cb arg⟩
  intro none
  rw [none] at delivers
  exact held (by rw [List.forall₂_nil_left_iff.mp delivers]; rfl)

theorem iter_reverse_reverses_two : ∃ db b,
    Lives "fdb_tsdb1" logPart 64 (fun _ => 0) (.on db b) (logged [1, 2]) ∧
    ∃ got, fdbTslIterReverse (.flawless fun _ => 0) (fun _ => 0) b.flash db unopened.curSec
        collect [] = some got ∧ got.map FdbTsl.time = [2, 1] := by
  obtain ⟨db, b, two⟩ := sample_two
  obtain ⟨got, -, all, reversed⟩ := iter_reverse_reverses (by decide) two.lives
    (List.cons_ne_nil _ _) (.flawless fun _ => 0) (fun _ => 0) unopened.curSec
  obtain rfl := two.got (all collect [])
  refine ⟨db, b, two.lives, _, (reversed collect []).trans (congrArg some (collected _)), ?_⟩
  rfl

/-- From an earlier time to a later one, `fdb_tsl_iter_by_time` calls back for just those logs that
`fdb_tsl_iter` calls back for and that are between the two, and `fdb_tsl_query_count` counts those
of them that have the status; a log that was cut off would end both. -/
theorem query_selects (roomy : wholeWords maxLen.toNat ≤ 1936)
    (lives : Lives path part maxLen origin (.on db b) acks) (env : Environment) (junk : Memory)
    (stack : TsdbSecInfo) {fromTime toTime : FdbTime} (forward : fromTime.toInt ≤ toTime.toInt) :
    ∃ got, (∀ {α : Type} (cb : FdbTsl → α → Bool × α) (arg : α),
        fdbTslIter env junk b.flash db stack cb arg = some (visit cb got arg).2) ∧
      ((∀ tsl ∈ got, tsl.status ≠ .preWrite) →
        (∀ {α : Type} (cb : FdbTsl → α → Bool × α) (arg : α),
          fdbTslIterByTime env junk b.flash db stack fromTime toTime cb arg = some
            (visit cb (got.filter fun tsl => inPeriod fromTime toTime tsl.time) arg).2) ∧
        ∀ status, fdbTslQueryCount env junk b.flash db stack fromTime toTime status = some
          (w32 (got.countP fun tsl =>
            inPeriod fromTime toTime tsl.time ∧ tsl.status = status))) := by
  obtain ⟨book, memory, shows, keeps, rfl, rfl⟩ := lives_book roomy lives
  refine ⟨tsls db.maxLen book, fun cb arg => fdbTslIter_eq memory shows stack cb arg,
    fun complete => ?_⟩
  have dated := keeps.dated (intact_of_delivers (delivers_book env memory.opened shows) complete)
  refine ⟨fun cb arg => fdbTslIterByTime_forward memory shows dated forward stack cb arg,
    fun status => ?_⟩
  rw [fdbTslQueryCount, if_pos memory.initOk, fdbTslIterByTime_forward memory shows dated forward,
    visit_count, List.countP_filter]
  refine (congrArg some (BitVec.zero_add _)).trans ?_
  refine congrArg (fun n => some (w32 n)) (List.countP_congr fun tsl _ => ?_)
  rw [Bool.and_eq_true, decide_eq_true_eq, decide_eq_true_eq, and_comm]

theorem query_selects_later : ∃ db b,
    Lives "fdb_tsdb1" logPart 64 (fun _ => 0) (.on db b) (logged [1, 2]) ∧
    (∃ got, fdbTslIterByTime (.flawless fun _ => 0) (fun _ => 0) b.flash db unopened.curSec 2 3
        collect [] = some got ∧ got.map FdbTsl.time = [2]) ∧
    fdbTslQueryCount (.flawless fun _ => 0) (fun _ => 0) b.flash db unopened.curSec 2 3 .write =
      some 1 := by
  obtain ⟨db, b, two⟩ := sample_two
  obtain ⟨got, all, selects⟩ := query_selects (by decide) two.lives (.flawless fun _ => 0)
    (fun _ => 0) unopened.curSec (show (2 : FdbTime).toInt ≤ (3 : FdbTime).toInt by decide)
  obtain rfl := two.got (all collect [])
  obtain ⟨period, count⟩ := selects (by decide)
  exact ⟨db, b, two.lives,
    ⟨_, (period collect []).trans (congrArg some (collected _)), by decide⟩, count .write⟩

/-- A log that was not cut off gets a later status, unless power goes, which changes nothing. Then
iterating calls back for the same logs, that one with its new status. -/
theorem set_status_marks (roomy : wholeWords maxLen.toNat ≤ 1936)
    (lives : Lives path part maxLen origin (.on db b) acks) {env : Environment} (ok : env.Succeeds)
    (junk : Memory) {tsl : FdbTsl} {status : TslStatus} (listed : Iterated b.flash db tsl)
    (complete : tsl.status ≠ .preWrite) (later : tsl.status.index < status.index) :
    ∃ got, (∀ env' junk' stack {α : Type} (cb : FdbTsl → α → Bool × α) (arg : α),
        fdbTslIter env' junk' b.flash db stack cb arg = some (visit cb got arg).2) ∧
      (fdbTslSetStatus env junk db tsl status b).Sat
        (fun err b' => err = .noErr ∧ Framed part b b' ∧
          ∀ env' junk' stack {α : Type} (cb : FdbTsl → α → Bool × α) (arg : α),
            fdbTslIter env' junk' b'.flash db stack cb arg =
              some (visit cb (got.map (retag tsl status)) arg).2)
        (fun b' => PowerLost env ∧ b'.flash = b.flash) := by
  obtain ⟨book, memory, shows, keeps, rfl, rfl⟩ := lives_book roomy lives
  obtain ⟨o, i, alone, index, shown⟩ := Iterated.alone listed complete memory shows keeps
  refine ⟨tsls db.maxLen book,
    fun _ _ stack _ cb arg => fdbTslIter_eq memory shows stack cb arg, ?_⟩
  refine (fdbTslSetStatus_triple ok junk memory.opened shows alone index
    (fun r here => shown r here ▸ later) b (Holds.refl db.parent b)).mono ?_ ?_
  · rintro err b' ⟨done, W, shows', holds⟩
    refine ⟨done, Framed.ofHolds holds, fun _ _ stack _ cb arg => ?_⟩
    have marked : OnFlash db.maxLen (view db.parent.part b'.flash)
        (Book.marked tsl.time status book) := by
      rw [holds.shows]
      exact shows'
    rw [fdbTslIter_eq (InMemory.marked memory tsl.time status) marked stack cb arg,
      tsls_marked shows alone index]
  · rintro b' ⟨power, W, rfl, holds⟩
    exact ⟨power, sameFlash holds⟩

theorem set_status_marks_first : ∃ db b tsl b',
    Lives "fdb_tsdb1" logPart 64 (fun _ => 0) (.on db b) (logged [1, 2]) ∧
    fdbTslSetStatus (.flawless fun _ => 0) (fun _ => 0) db tsl .deleted b = .done .noErr b' ∧
    ∃ got, fdbTslIter (.flawless fun _ => 0) (fun _ => 0) b'.flash db unopened.curSec collect [] =
        some got ∧
      got.map (fun tsl => (tsl.time, tsl.status)) = [(1, .deleted), (2, .write)] := by
  obtain ⟨db, b, two⟩ := sample_two
  obtain ⟨got, all, marks⟩ := set_status_marks (by decide) two.lives
    (Environment.flawless_succeeds fun _ => 0) (fun _ => 0)
    (two.iterated ((tsls 64 twoBook).head_mem (by decide))) (by decide)
    (show TslStatus.write.index < TslStatus.deleted.index by decide)
  obtain rfl := two.got (all (.flawless fun _ => 0) (fun _ => 0) unopened.curSec collect [])
  obtain ⟨_, b', run, rfl, -, marked⟩ := powered marks
  exact ⟨db, b, _, b', two.lives, run, _,
    (marked (.flawless fun _ => 0) (fun _ => 0) unopened.curSec collect []).trans
      (congrArg Option.some (collected _)), by decide⟩

/-- An append returns unless power goes. It is accepted if and only if the log is not longer than
the longest one and later than the last one; else neither the flash nor the database changes. No
word is programmed twice and nothing is written outside the partition, wherever power goes. -/
theorem append_guarded (roomy : wholeWords maxLen.toNat ≤ 1936)
    (lives : Lives path part maxLen origin (.on db b) acks) {env : Environment} (ok : env.Succeeds)
    (req : Request) :
    (fdbTslAppendWithTs env req.junk db req.blob req.time b).Sat
      (fun r b' => Framed part b b' ∧
        if req.blob.size ≤ maxLen ∧ db.lastTime.toInt < req.time.toInt then
          r.1 = .noErr ∧ r.2.lastTime = req.time
        else r = (.writeErr, db) ∧ b'.flash = b.flash)
      (fun b' => PowerLost env ∧ Framed part b b') := by
  obtain ⟨book, memory, shows, keeps, rfl, rfl⟩ := lives_book roomy lives
  have same : Accepted db.maxLen book req.blob req.time ↔
      req.blob.size ≤ db.maxLen ∧ db.lastTime.toInt < req.time.toInt := by
    rw [Accepted, memory.lastTime, BitVec.le_def]
  refine (fdbTslAppend_triple ok req.junk memory shows req.blob req.time b
    (Holds.refl db.parent b)).mono ?_ ?_
  · intro r b' post
    by_cases accepted : Accepted db.maxLen book req.blob req.time
    · rw [if_pos accepted] at post
      rw [if_pos (same.mp accepted)]
      obtain ⟨done, part', maxLen', memory', W, shows', -, holds⟩ := post
      refine ⟨Framed.ofHolds holds, done, ?_⟩
      rw [memory'.lastTime, last_add]
      rfl
    · rw [if_neg accepted] at post
      rw [if_neg fun fits => accepted (same.mpr fits)]
      exact ⟨Framed.ofHolds post.2, post.1, sameFlash post.2⟩
  · rintro b' ⟨power, W, -, holds⟩
    exact ⟨power, Framed.ofHolds holds⟩

theorem append_guarded_late : ∃ db b,
    Lives "fdb_tsdb1" logPart 64 (fun _ => 0) (.on db b) (logged [1, 2]) ∧
    (∃ b', fdbTslAppendWithTs (.flawless fun _ => 0) (logOf 4 2).junk db (logOf 4 2).blob 2 b =
      .done (.writeErr, db) b' ∧ b'.flash = b.flash) ∧
    ∃ r b', fdbTslAppendWithTs (.flawless fun _ => 0) (logOf 4 3).junk db (logOf 4 3).blob 3 b =
      .done r b' ∧ r.1 = .noErr ∧ r.2.lastTime = 3 := by
  obtain ⟨db, b, two⟩ := sample_two
  have ok := Environment.flawless_succeeds fun _ => 0
  have last : db.lastTime = 2 := two.memory.lastTime
  have late := append_guarded (by decide) two.lives ok (logOf 4 2)
  have next := append_guarded (by decide) two.lives ok (logOf 4 3)
  rw [last] at late next
  obtain ⟨r, b', run, -, refused⟩ := powered late
  obtain ⟨r', b'', run', -, accepted⟩ := powered next
  rw [if_neg (by decide)] at refused
  rw [if_pos (by decide)] at accepted
  exact ⟨db, b, two.lives, ⟨b', run.trans (refused.1 ▸ rfl), refused.2⟩, r', b'', run', accepted⟩

/-- Wherever an append stops, also where power goes away while it changes to another sector, all
sectors but the one in use and the next one are as they were. -/
theorem append_elsewhere (roomy : wholeWords maxLen.toNat ≤ 1936)
    (lives : Lives path part maxLen origin (.on db b) acks) {env : Environment} (ok : env.Succeeds)
    (req : Request) :
    ∃ s₀ < 63, db.curSec.addr = w32 (secStart s₀) ∧ ∀ s < 63, s ≠ s₀ → s ≠ (s₀ + 1) % 63 →
      SameSector (view part b.flash)
        (view part (fdbTslAppendWithTs env req.junk db req.blob req.time b).state.flash) s := by
  obtain ⟨book, memory, shows, keeps, rfl, rfl⟩ := lives_book roomy lives
  refine ⟨book.cursor, book.inside, memory.tracks.addr, ?_⟩
  refine Outcome.Sat.stopped (P := fun b' : Board => ∀ s < 63, s ≠ book.cursor →
    s ≠ (book.cursor + 1) % 63 →
      SameSector (view db.parent.part b.flash) (view db.parent.part b'.flash) s) ?_
  refine (fdbTslAppend_triple ok req.junk memory shows req.blob req.time b
    (Holds.refl db.parent b)).mono ?_ ?_
  · intro r b' post s _ here next
    by_cases accepted : Accepted db.maxLen book req.blob req.time
    · rw [if_pos accepted] at post
      obtain ⟨-, -, -, -, W, -, away, holds⟩ := post
      rw [holds.shows]
      exact away s here next
    · rw [if_neg accepted] at post
      rw [post.2.shows]
      exact fun _ _ => rfl
  · rintro b' ⟨-, W, left, holds⟩ s _ here next
    rw [holds.shows]
    exact left.elsewhere s here next

theorem append_elsewhere_full : ∃ db b,
    Lives "fdb_tsdb1" logPart 1936 (fun _ => 0) (.on db b) [(logOf 1936 1).record] ∧
    (∃ r b', fdbTslAppendWithTs (.flawless fun _ => 0) (logOf 4 2).junk db (logOf 4 2).blob 2 b =
      .done r b' ∧ r.2.curSec.addr = w32 (secStart 1)) ∧
    ∀ words, ∀ s < 63, s ≠ 0 → s ≠ 1 → SameSector (view logPart b.flash)
      (view logPart (fdbTslAppendWithTs (.poweredFor (fun _ => 0) words) (logOf 4 2).junk db
        (logOf 4 2).blob 2 b).state.flash) s := by
  obtain ⟨db, b, one⟩ := sample_full
  obtain ⟨r, b', run, -, two⟩ := one.append (show Accepted 1936 _ (logOf 4 2).blob (logOf 4 2).time
    by decide)
  refine ⟨db, b, one.lives, ⟨r, b', run, two.memory.tracks.addr⟩, ?_⟩
  intro words s low first second
  obtain ⟨s₀, low', here, away⟩ := append_elsewhere (by decide) one.lives
    (Environment.poweredFor_succeeds (fun _ => 0) words) (logOf 4 2)
  obtain rfl : s₀ = 0 := by
    have there : w32 (secStart s₀) = w32 (secStart 0) := here.symm.trans one.memory.tracks.addr
    have number := congrArg BitVec.toNat there
    rw [toNat_w32 (by unfold secStart; omega), toNat_w32 (by decide)] at number
    exact Nat.eq_of_mul_eq_mul_left (by decide) number
  exact away s low first second

/-- Initialising returns unless power goes, and never with an error. -/
theorem init_succeeds (roomy : wholeWords maxLen.toNat ≤ 1936) {m : Memory}
    (lives : Lives path part maxLen origin (.off m) acks) {env : Environment} (ok : env.Succeeds)
    (junk : Memory) (stack : TsdbSecInfo) {db : FdbTsdb} (closed : Closed db path part)
    (formatable : db.parent.notFormatable = false) (tight : Tight maxLen (view part m))
    {b : Board} (image : b.flash = m) :
    (fdbTsdbInit env junk stack db path maxLen b).Sat
      (fun r b' => r.1 = .noErr ∧ r.2.parent.initOk = true ∧ Framed part b b')
      (fun b' => PowerLost env ∧ Framed part b b') := by
  subst image
  have sound := (lives_sound roomy lives).1
  refine (init_sound ok junk stack closed formatable roomy tight sound).mono ?_ ?_
  · rintro r b' ⟨done, ⟨-, -, book, memory, -⟩, framed⟩
    exact ⟨done, memory.initOk, framed⟩
  · rintro b' ⟨power, -, framed⟩
    exact ⟨power, framed⟩

theorem init_succeeds_cut : ∃ db b b₁ r b₂,
    Lives "fdb_tsdb1" logPart 64 (fun _ => 0) (.on db b) (logged [1, 2]) ∧
    fdbTslAppendWithTs (.poweredFor (fun _ => 0) (b.clock + 1)) (logOf 4 3).junk db
      (logOf 4 3).blob 3 b = .cut b₁ ∧
    fdbTsdbInit (.flawless fun _ => 0) (fun _ => 0) unopened.curSec unopened "fdb_tsdb1" 64
      (powerOn b₁.flash) = .done r b₂ ∧ r.1 = .noErr ∧ r.2.parent.initOk = true := by
  obtain ⟨db, b, b₁, book, two, cut, lives, shows, left⟩ := sample_cut
  have started := init_succeeds (by decide) lives (Environment.flawless_succeeds fun _ => 0)
    (fun _ => 0) unopened.curSec unopened_closed rfl (tight_of_gap shows (left_gap left))
    (show (powerOn b₁.flash).flash = b₁.flash from rfl)
  obtain ⟨r, b₂, run, done, opened, -⟩ := powered started
  exact ⟨db, b, b₁, r, b₂, two.lives, cut, run, done, opened⟩

/-- Switching off and initialising again writes nothing, and iterating gives the same logs. -/
theorem reboot_transparent (roomy : wholeWords maxLen.toNat ≤ 1936)
    (lives : Lives path part maxLen origin (.on db b) acks)
    (tight : Tight maxLen (view part b.flash)) (env env' : Environment) (junk junk' : Memory)
    (stack stack' : TsdbSecInfo) {db₀ : FdbTsdb}
    (closed : Closed db₀ path part) {b₀ : Board} (image : b₀.flash = b.flash) :
    ∃ db', fdbTsdbInit env junk stack db₀ path maxLen b₀ = .done (.noErr, db') b₀ ∧
      ∀ {α : Type} (cb : FdbTsl → α → Bool × α) (arg : α),
        fdbTslIter env' junk' b₀.flash db' stack' cb arg =
          fdbTslIter env' junk' b.flash db stack' cb arg := by
  obtain ⟨book, memory, shows, keeps, rfl, rfl⟩ := lives_book roomy lives
  have shows₀ : OnFlash db.maxLen (view db.parent.part b₀.flash) book := image.symm ▸ shows
  obtain ⟨db', done, memory', maxLen', part'⟩ :=
    fdbTsdbInit_mounts env junk closed roomy shows₀ (tight.gap shows) stack
  refine ⟨db', done, fun cb arg => ?_⟩
  have shows' : OnFlash db'.maxLen (view db'.parent.part b₀.flash) (mounted book db₀.lastTime) := by
    rw [maxLen', part']
    exact shows₀
  rw [fdbTslIter_eq memory' shows', fdbTslIter_eq memory shows, maxLen']
  rfl

theorem reboot_transparent_interrupted : ∃ db b db', Interrupted db b ∧
    fdbTsdbInit (.flawless fun _ => 0) (fun _ => 0) unopened.curSec unopened "fdb_tsdb1" 64
      (powerOn b.flash) = .done (.noErr, db') (powerOn b.flash) ∧
    fdbTslIter (.flawless fun _ => 0) (fun _ => 0) b.flash db' unopened.curSec collect [] =
      fdbTslIter (.flawless fun _ => 0) (fun _ => 0) b.flash db unopened.curSec collect [] := by
  obtain ⟨db, b, book, interrupted, three, gap⟩ := sample_interrupted
  have tight : Tight 64 (view logPart b.flash) := by
    have shows := three.shows
    rw [three.maxLen, three.part] at shows
    exact tight_of_gap shows gap
  obtain ⟨db', done, same⟩ := reboot_transparent (by decide) three.lives tight
    (.flawless fun _ => 0) (.flawless fun _ => 0) (fun _ => 0) (fun _ => 0) unopened.curSec
    unopened.curSec unopened_closed (show (powerOn b.flash).flash = b.flash from rfl)
  exact ⟨db, b, db', interrupted, done, same collect []⟩

end Results

end BmsFirmware.Flashdb.PowerCycles
