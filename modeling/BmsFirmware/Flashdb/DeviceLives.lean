/- Module: BmsFirmware/Flashdb/DeviceLives
   Source: application/flashdb/src/fdb_tsdb.c
   Digest: What holds of a device that is switched off and on again, and loses power in between. -/

import BmsFirmware.Flashdb.Chronology
import BmsFirmware.Flashdb.Delivery
import BmsFirmware.Flashdb.Formatting
import BmsFirmware.Flashdb.Marking
import BmsFirmware.Flashdb.Period

set_option autoImplicit false
set_option relaxedAutoImplicit false

namespace BmsFirmware.Flashdb.DeviceLives

open BmsFirmware.Library.ByteMemory
open BmsFirmware.Library.PowerLogic
open BmsFirmware.Library.EarlyExit
open BmsFirmware.Flash.Controller
open BmsFirmware.Fal.Partitions
open BmsFirmware.Fal.VerifiedPort
open BmsFirmware.Fal.WriteOnce
open BmsFirmware.Flashdb.Utils
open BmsFirmware.Flashdb.Storage
open BmsFirmware.Flashdb.Tsdb
open BmsFirmware.Flashdb.SectorLayout
open BmsFirmware.Flashdb.SectorWrites
open BmsFirmware.Flashdb.LogBook
open BmsFirmware.Flashdb.Appending
open BmsFirmware.Flashdb.Chronology
open BmsFirmware.Flashdb.Traversal
open BmsFirmware.Flashdb.Period
open BmsFirmware.Flashdb.Delivery
open BmsFirmware.Flashdb.Mounting
open BmsFirmware.Flashdb.Formatting
open BmsFirmware.Flashdb.Marking

/-! ### The records of a book -/

/-- A book holds the newest of the logs that have been acknowledged, and all of them until 62
sectors are closed. -/
structure Keeps (book : Book) (acks : List Record) : Prop where
  newest : saved book.logs <:+ acks
  whole : saved book.logs = acks ∨ book.closed.length = 62
  begun : book.current = none → book.closed = []
  ordered : (saved book.logs).Pairwise fun r r' => r.time.toInt < r'.time.toInt
  upTo : ∀ r ∈ saved book.logs, r.time.toInt ≤ book.last.toInt

section Books

variable {book : Book} {acks : List Record} {maxLen : Word}

theorem keeps_blank (time : FdbTime) : Keeps (blank time) [] :=
  ⟨List.suffix_rfl, .inl rfl, fun _ => rfl, List.Pairwise.nil, fun _ listed => nomatch listed⟩

/-- A log that is appended is the newest one. -/
theorem Keeps.add (keeps : Keeps book acks) {r : Record} (later : book.last.toInt < r.time.toInt) :
    Keeps (book.add maxLen r) (acks ++ [r]) := by
  obtain ⟨k, logs, -, given⟩ := logs_add maxLen book r
  have records : saved (book.add maxLen r).logs = saved (book.logs.drop k) ++ [r] := by
    rw [logs, saved_append]
    rfl
  have older {r' : Record} (listed : r' ∈ saved (book.logs.drop k)) :
      r'.time.toInt ≤ book.last.toInt :=
    keeps.upTo r' ((saved_drop book.logs k).mem listed)
  refine ⟨?_, ?_, ?_, ?_, ?_⟩
  · rw [records]
    obtain ⟨front, rfl⟩ := (saved_drop book.logs k).trans keeps.newest
    exact ⟨front, (List.append_assoc _ _ _).symm⟩
  · rcases given with rfl | closed
    · rcases keeps.whole with all | closed
      · rw [records, List.drop_zero, all]
        exact .inl rfl
      · have more := closed_add maxLen book r
        have most := (book.add maxLen r).closed_le
        exact .inr (by omega)
    · exact .inr closed
  · intro none
    obtain ⟨sec, current, -⟩ := (book.target maxLen r.size.toNat).put_current r
    exact nomatch none.symm.trans current
  · rw [records, List.pairwise_append]
    refine ⟨keeps.ordered.sublist (saved_drop book.logs k).sublist, List.pairwise_singleton _ _,
      ?_⟩
    intro r' old _ new
    obtain rfl := List.mem_singleton.mp new
    exact Int.lt_of_le_of_lt (older old) later
  · intro r' listed
    rw [last_add]
    rw [records] at listed
    rcases List.mem_append.mp listed with old | new
    · exact Int.le_trans (older old) (Int.le_of_lt later)
    · obtain rfl := List.mem_singleton.mp new
      exact Int.le_refl _

/-- A torn slot changes nothing but the room that is left. -/
theorem Keeps.torn (keeps : Keeps book acks) {sec : Sector} (current : book.current = some sec) :
    Keeps (book.grown sec .torn) acks := by
  have logs : (book.grown sec .torn).logs = book.logs ++ [.torn] := by
    rw [Book.logs, Book.logs, slots_some current, List.append_assoc]
    rfl
  have records : saved (book.grown sec .torn).logs = saved book.logs := by
    rw [logs, saved_append]
    exact List.append_nil _
  have last : (book.grown sec .torn).last = book.last := by
    rw [book.latest sec current]
    exact sec.endTime_push_torn
  refine ⟨?_, ?_, fun none => absurd none (Option.some_ne_none _), ?_, ?_⟩
  · rw [records]
    exact keeps.newest
  · rw [records]
    exact keeps.whole
  · rw [records]
    exact keeps.ordered
  · rw [records, last]
    exact keeps.upTo

/-- A log that gets another status is acknowledged with it. -/
theorem Keeps.marked (keeps : Keeps book acks) (time : FdbTime) (status : TslStatus) :
    Keeps (Book.marked time status book) (acks.map (Record.marked time status)) := by
  have records : saved (Book.marked time status book).logs =
      (saved book.logs).map (Record.marked time status) := by
    rw [marked_logs, marked_saved]
  refine ⟨?_, ?_, ?_, ?_, ?_⟩
  · rw [records]
    exact keeps.newest.map _
  · rw [records, marked_closed, List.length_map]
    exact keeps.whole.imp_left (congrArg _)
  · intro none
    rw [marked_closed, keeps.begun (Option.map_eq_none_iff.mp none)]
    rfl
  · rw [records, List.pairwise_map]
    refine keeps.ordered.imp fun {r r'} less => ?_
    rwa [marked_time, marked_time]
  · intro r listed
    rw [records] at listed
    obtain ⟨r', there, rfl⟩ := List.mem_map.mp listed
    rw [marked_time]
    exact keeps.upTo r' there

/-- Finding the book again loses nothing. -/
theorem Keeps.mounted (keeps : Keeps book acks) (otherwise : FdbTime) :
    Keeps (mounted book otherwise) acks := by
  refine ⟨keeps.newest, keeps.whole, keeps.begun, keeps.ordered, fun r listed => ?_⟩
  change r ∈ saved book.logs at listed
  change r.time.toInt ≤ (lastIn book otherwise).toInt
  cases current : book.current with
  | some sec =>
    have last : lastIn book otherwise = book.last := by
      rw [lastIn, current, book.latest sec current]
    rw [last]
    exact keeps.upTo r listed
  | none =>
    have empty : book.logs = [] := by
      rw [Book.logs, slots_none book current, keeps.begun current]
      rfl
    rw [empty] at listed
    exact absurd listed List.not_mem_nil

/-- Every closed sector holds a log that was saved. -/
theorem closed_le_saved (book : Book) : book.closed.length ≤ (saved book.logs).length := by
  have each (l : List Sector) : l.length ≤ (saved (l.flatMap Sector.slots)).length := by
    induction l with
    | nil => exact Nat.zero_le _
    | cons sec l ih =>
      have first : saved sec.slots = sec.first :: saved sec.rest := rfl
      rw [List.flatMap_cons, saved_append, first, List.length_append, List.length_cons,
        List.length_cons]
      omega
  rw [Book.logs, saved_append, List.length_append]
  exact Nat.le_trans (each book.closed) (Nat.le_add_right _ _)

/-- Slots of which none is torn are those of their records. -/
theorem saved_intact {slots : List Slot} (intact : ∀ e ∈ slots, e ≠ .torn) :
    slots = (saved slots).map Slot.saved := by
  induction slots with
  | nil => rfl
  | cons e slots ih =>
    have rest := ih fun e' listed => intact e' (List.mem_cons_of_mem e listed)
    cases e with
    | torn => exact absurd rfl (intact .torn List.mem_cons_self)
    | saved r => exact congrArg (Slot.saved r :: ·) rest

theorem Keeps.dated (keeps : Keeps book acks) (intact : ∀ e ∈ book.logs, e ≠ .torn) :
    Dated book := by
  refine ⟨intact, ?_⟩
  rw [saved_intact intact, List.pairwise_map]
  exact keeps.ordered

end Books

/-! ### Lives of a device -/

/-- A device that runs with a database, or one without power. -/
inductive Device where
  | on (db : FdbTsdb) (b : Board)
  | off (flash : Memory)

def Device.flash : Device → Memory
  | .on _ b => b.flash
  | .off m => m

/-- Every sector in use is filled to the end or has room for another index entry. Behind fewer
bytes `read_sector_info` looks for an entry that begins in one sector and ends in the next. -/
def Tight (maxLen : Word) (V : Memory) : Prop :=
  ∀ s < 63, ∀ sec, PageAt maxLen V s (.active sec) → total maxLen sec.slots < 1968 →
    total maxLen sec.slots + 32 ≤ 1968

/-- `fdb_tsl_append` stays in the sector in use: the log is not too long and fits into it. -/
def Stays (db : FdbTsdb) (blob : FdbBlob) : Prop :=
  blob.size ≤ db.maxLen ∧ db.curSec.status = .storeUsing ∧
    ¬db.curSec.remain < LOG_IDX_DATA_SIZE + fdbWgAlign blob.size

/-- A log that `fdb_tsl_iter` calls back for. -/
def Iterated (m : Memory) (db : FdbTsdb) (tsl : FdbTsl) : Prop :=
  ∃ env junk stack got, fdbTslIter env junk m db stack collect [] = some got ∧ tsl ∈ got

/-- The states that a device comes to from a flash that was never formatted to the end, with the
logs acknowledged since it was cleaned last. Power may go at any moment while the sectors are
formatted, while a log is written into the sector in use and while one gets a status, but neither
while an append changes the sector nor while the database is cleaned. -/
inductive Lives (path : String) (part : FalPartition) (maxLen : Word) (origin : Memory) :
    Device → List Record → Prop
  | new (raw : Raw (view part origin)) : Lives path part maxLen origin (.off origin) []
  | boot {env : Environment} {db : FdbTsdb} {b b' : Board} {r : FdbErr × FdbTsdb}
      {acks : List Record} (junk : Memory) (stack : TsdbSecInfo) (ok : env.Succeeds)
      (closed : Closed db path part) (formatable : db.parent.notFormatable = false)
      (tight : Tight maxLen (view part b.flash))
      (before : Lives path part maxLen origin (.off b.flash) acks)
      (run : fdbTsdbInit env junk stack db path maxLen b = .done r b') :
      Lives path part maxLen origin (.on r.2 b') acks
  | bootCut {env : Environment} {db : FdbTsdb} {b b' : Board} {acks : List Record} (junk : Memory)
      (stack : TsdbSecInfo) (ok : env.Succeeds) (closed : Closed db path part)
      (formatable : db.parent.notFormatable = false) (tight : Tight maxLen (view part b.flash))
      (before : Lives path part maxLen origin (.off b.flash) acks)
      (run : fdbTsdbInit env junk stack db path maxLen b = .cut b') :
      Lives path part maxLen origin (.off b'.flash) acks
  | append {env : Environment} {db : FdbTsdb} {b b' : Board} {r : FdbErr × FdbTsdb}
      {acks : List Record} (req : Request) (ok : env.Succeeds)
      (before : Lives path part maxLen origin (.on db b) acks)
      (run : fdbTslAppendWithTs env req.junk db req.blob req.time b = .done r b') :
      Lives path part maxLen origin (.on r.2 b')
        (if r.1 = .noErr then acks ++ [req.record] else acks)
  | appendCut {env : Environment} {db : FdbTsdb} {b b' : Board} {acks : List Record} (req : Request)
      (ok : env.Succeeds) (stays : Stays db req.blob)
      (before : Lives path part maxLen origin (.on db b) acks)
      (run : fdbTslAppendWithTs env req.junk db req.blob req.time b = .cut b') :
      Lives path part maxLen origin (.off b'.flash) acks
  | mark {env : Environment} {db : FdbTsdb} {b b' : Board} {err : FdbErr} {acks : List Record}
      (junk : Memory) {tsl : FdbTsl} {status : TslStatus} (ok : env.Succeeds)
      (listed : Iterated b.flash db tsl) (complete : tsl.status ≠ .preWrite)
      (later : tsl.status.index < status.index)
      (before : Lives path part maxLen origin (.on db b) acks)
      (run : fdbTslSetStatus env junk db tsl status b = .done err b') :
      Lives path part maxLen origin (.on db b')
        (if err = .noErr then acks.map (Record.marked tsl.time status) else acks)
  | markCut {env : Environment} {db : FdbTsdb} {b b' : Board} {acks : List Record} (junk : Memory)
      {tsl : FdbTsl} {status : TslStatus} (ok : env.Succeeds) (listed : Iterated b.flash db tsl)
      (complete : tsl.status ≠ .preWrite) (later : tsl.status.index < status.index)
      (before : Lives path part maxLen origin (.on db b) acks)
      (run : fdbTslSetStatus env junk db tsl status b = .cut b') :
      Lives path part maxLen origin (.off b'.flash) acks
  | powerOff {db : FdbTsdb} {b : Board} {acks : List Record}
      (before : Lives path part maxLen origin (.on db b) acks) :
      Lives path part maxLen origin (.off b.flash) acks
  | clean {env : Environment} {db db' : FdbTsdb} {b b' : Board} {acks : List Record} (junk : Memory)
      (stack : TsdbSecInfo) (ok : env.Succeeds)
      (before : Lives path part maxLen origin (.on db b) acks)
      (run : fdbTslClean env junk stack db b = .done db' b') :
      Lives path part maxLen origin (.on db' b') []

/-- What holds of a device in all its states. -/
def Sound (part : FalPartition) (maxLen : Word) (acks : List Record) : Device → Prop
  | .on db b => db.maxLen = maxLen ∧ db.parent.part = part ∧
      ∃ book, InMemory db book ∧ OnFlash maxLen (view part b.flash) book ∧ Keeps book acks
  | .off m => (Raw (view part m) ∧ acks = []) ∨
      ∃ book, OnFlash maxLen (view part m) book ∧ Keeps book acks

/-- A call leaves the flash outside the partition alone and programs no word twice. -/
structure Framed (part : FalPartition) (b b' : Board) : Prop where
  outside : ∀ x, x < partBase part ∨ partBase part + partLen ≤ x → b'.flash x = b.flash x
  reached : Reached b b'

section Steps

variable {path : String} {part : FalPartition} {maxLen : Word} {env : Environment} {db : FdbTsdb}
  {b b' : Board} {book : Book} {acks : List Record}

theorem Tight.gap {V : Memory} (tight : Tight maxLen V) (shows : OnFlash maxLen V book) :
    Gap maxLen book := by
  intro sec current
  refine tight book.cursor book.inside sec ?_
  have active := OnFlash.active shows current
  exact active

/-- A flash that shows what it showed is the same flash. -/
theorem sameFlash {db' : FdbDb} (holds : Holds db' b (view db'.part b.flash) b') :
    b'.flash = b.flash := by
  funext x
  rcases Nat.lt_or_ge x (partBase db'.part) with before | behind
  · exact holds.outside x (.inl before)
  · have same := congrFun holds.shows (x - partBase db'.part)
    unfold view at same
    rwa [Nat.add_sub_cancel' behind] at same

theorem Framed.ofHolds {db' : FdbDb} {V : Memory} (holds : Holds db' b V b') :
    Framed db'.part b b' :=
  ⟨holds.outside, holds.reached⟩

/-- Initialising, from every state without power. -/
theorem init_sound (ok : env.Succeeds) (junk : Memory) (stack : TsdbSecInfo)
    (closed : Closed db path part) (formatable : db.parent.notFormatable = false)
    (roomy : wholeWords maxLen.toNat ≤ 1936) (tight : Tight maxLen (view part b.flash))
    (sound : Sound part maxLen acks (.off b.flash)) :
    (fdbTsdbInit env junk stack db path maxLen b).Sat
      (fun r b' => r.1 = .noErr ∧ Sound part maxLen acks (.on r.2 b') ∧ Framed part b b')
      (fun b' => PowerLost env ∧ Sound part maxLen acks (.off b'.flash) ∧ Framed part b b') := by
  rcases sound with ⟨raw, rfl⟩ | ⟨book, shows, keeps⟩
  · refine (fdbTsdbInit_raw ok junk stack closed formatable roomy raw).mono ?_ ?_
    · rintro r b' ⟨done, maxLen', part', W, time, -, memory, shows, holds⟩
      have image : view part b'.flash = W := holds.shows
      exact ⟨done, ⟨maxLen', part', blank time, memory, image.symm ▸ shows, keeps_blank time⟩,
        Framed.ofHolds holds⟩
    · rintro b' ⟨power, W, raw', holds⟩
      have image : view part b'.flash = W := holds.shows
      exact ⟨power, .inl ⟨image.symm ▸ raw', rfl⟩, Framed.ofHolds holds⟩
  · obtain ⟨db', done, memory, maxLen', part'⟩ :=
      fdbTsdbInit_mounts env junk closed roomy shows (tight.gap shows) stack
    rw [done]
    exact ⟨rfl, ⟨maxLen', part', mounted book db.lastTime, memory, shows, keeps.mounted _⟩,
      fun _ _ => rfl, Reached.refl b⟩

/-- What an append leaves that power went away from while it wrote into the sector in use. -/
theorem CutOff.torn {V W : Memory} {n : Nat} (cut : CutOff maxLen V book n W)
    (shows : OnFlash maxLen V book) {sec : Sector} (current : book.current = some sec)
    (takes : sec.Takes maxLen n) :
    OnFlash maxLen W book ∨ OnFlash maxLen W (book.grown sec .torn) := by
  rcases cut.within sec current takes with rfl | ⟨kept, body⟩
  · exact .inl shows
  · have active := ActiveAt.grown (OnFlash.active shows current) kept body
    have grown : PageAt maxLen W book.cursor (book.grown sec .torn).currentPage := active
    exact .inr (OnFlash.current shows rfl rfl (kept.widen (by omega) (Nat.le_refl _)) grown)

/-- Appending, from every state with power. -/
theorem append_sound (ok : env.Succeeds) (sound : Sound part maxLen acks (.on db b))
    (req : Request) :
    (fdbTslAppendWithTs env req.junk db req.blob req.time b).Sat
      (fun r b' => Sound part maxLen (if r.1 = .noErr then acks ++ [req.record] else acks)
        (.on r.2 b') ∧ Framed part b b')
      (fun b' => PowerLost env ∧ (Stays db req.blob → Sound part maxLen acks (.off b'.flash)) ∧
        Framed part b b') := by
  obtain ⟨rfl, rfl, book, memory, shows, keeps⟩ := sound
  refine (fdbTslAppend_triple ok req.junk memory shows req.blob req.time b
    (Holds.refl db.parent b)).mono ?_ ?_
  · intro r b' post
    by_cases accepted : Accepted db.maxLen book req.blob req.time
    · rw [if_pos accepted] at post
      obtain ⟨done, part', maxLen', memory', W, shows', -, holds⟩ := post
      rw [if_pos done]
      refine ⟨⟨maxLen', part', _, memory', ?_, keeps.add accepted.2⟩, Framed.ofHolds holds⟩
      rw [holds.shows]
      exact shows'
    · rw [if_neg accepted] at post
      obtain ⟨rfl, holds⟩ := post
      rw [if_neg (fun same => nomatch same)]
      refine ⟨⟨rfl, rfl, book, memory, ?_, keeps⟩, Framed.ofHolds holds⟩
      rw [holds.shows]
      exact shows
  · rintro b' ⟨power, W, cut, holds⟩
    refine ⟨power, ?_, Framed.ofHolds holds⟩
    rintro ⟨short, busy, room⟩
    have image : view db.parent.part b'.flash = W := holds.shows
    cases current : book.current with
    | none =>
      rw [memory.idle current] at busy
      cases busy
    | some sec =>
      have takes : sec.Takes db.maxLen req.blob.size.toNat :=
        not_not.mp fun full => room ((remain_lt memory current (BitVec.le_def.mp short)).mpr full)
      rcases CutOff.torn cut shows current takes with same | torn
      · exact .inr ⟨book, image.symm ▸ same, keeps⟩
      · exact .inr ⟨_, image.symm ▸ torn, keeps.torn current⟩

/-- A log that iterating calls back for is in the book, at a place that no other log shares. -/
theorem Iterated.alone {m : Memory} {tsl : FdbTsl} (listed : Iterated m db tsl)
    (complete : tsl.status ≠ .preWrite) (memory : InMemory db book)
    (shows : OnFlash db.maxLen (view db.parent.part m) book) (keeps : Keeps book acks) :
    ∃ o i, Alone book tsl.time o i ∧ tsl.index = w32 (slotAddr (book.place o) i) ∧
      ∀ r, (book.page o).slots[i]? = some (.saved r) → tsl.status = r.status := by
  obtain ⟨env, junk, stack, got, all, listed⟩ := listed
  rw [fdbTslIter_eq memory shows, visit_collect, List.nil_append] at all
  obtain rfl := Option.some.inj all
  obtain ⟨o, low, i, r, here, status, dated, index⟩ := mem_tsls listed complete
  refine ⟨o, i, dated ▸ Alone.ofOrdered keeps.ordered low here, index, fun r' here' => ?_⟩
  obtain rfl := Slot.saved.inj (Option.some.inj (here.symm.trans here'))
  exact status

/-- Giving a status, in every state with power. -/
theorem mark_sound (ok : env.Succeeds) (junk : Memory) (sound : Sound part maxLen acks (.on db b))
    {tsl : FdbTsl} {status : TslStatus} (listed : Iterated b.flash db tsl)
    (complete : tsl.status ≠ .preWrite) (later : tsl.status.index < status.index) :
    (fdbTslSetStatus env junk db tsl status b).Sat
      (fun err b' => err = .noErr ∧
        Sound part maxLen (acks.map (Record.marked tsl.time status)) (.on db b') ∧ Framed part b b')
      (fun b' => PowerLost env ∧ b'.flash = b.flash ∧ Framed part b b') := by
  obtain ⟨rfl, rfl, book, memory, shows, keeps⟩ := sound
  obtain ⟨o, i, alone, index, shown⟩ := Iterated.alone listed complete memory shows keeps
  refine (fdbTslSetStatus_triple ok junk memory.opened shows alone index
    (fun r here => shown r here ▸ later) b (Holds.refl db.parent b)).mono ?_ ?_
  · rintro err b' ⟨done, W, shows', holds⟩
    refine ⟨done, ⟨rfl, rfl, _, InMemory.marked memory tsl.time status, ?_, keeps.marked _ _⟩,
      Framed.ofHolds holds⟩
    rw [holds.shows]
    exact shows'
  · rintro b' ⟨power, W, rfl, holds⟩
    exact ⟨power, sameFlash holds, Framed.ofHolds holds⟩

/-- Cleaning leaves nothing. -/
theorem clean_sound (ok : env.Succeeds) (junk : Memory) (stack : TsdbSecInfo)
    (sound : Sound part maxLen acks (.on db b)) :
    (fdbTslClean env junk stack db b).Sat
      (fun db' b' => Sound part maxLen [] (.on db' b') ∧ Framed part b b')
      (fun b' => PowerLost env ∧ Framed part b b') := by
  obtain ⟨rfl, rfl, book, memory, shows, -⟩ := sound
  refine (fdbTslClean_triple ok junk stack memory shows b (Holds.refl db.parent b)).mono ?_ ?_
  · rintro db' b' ⟨memory', maxLen', part', W, shows', holds⟩
    refine ⟨⟨maxLen', part', blank 0, memory', ?_, keeps_blank 0⟩, Framed.ofHolds holds⟩
    rw [holds.shows]
    exact shows'
  · rintro b' ⟨power, W, -, holds⟩
    exact ⟨power, Framed.ofHolds holds⟩

/-- Every state of a device is sound, and the flash outside its partition is as it was. -/
theorem lives_sound {origin : Memory} {device : Device} (roomy : wholeWords maxLen.toNat ≤ 1936)
    (lives : Lives path part maxLen origin device acks) : Sound part maxLen acks device ∧
      ∀ x, x < partBase part ∨ partBase part + partLen ≤ x → device.flash x = origin x := by
  induction lives with
  | new raw => exact ⟨.inl ⟨raw, rfl⟩, fun _ _ => rfl⟩
  | boot junk stack ok closed formatable tight before run ih =>
    have next := init_sound ok junk stack closed formatable roomy tight ih.1
    rw [run] at next
    exact ⟨next.2.1, fun x away => (next.2.2.outside x away).trans (ih.2 x away)⟩
  | bootCut junk stack ok closed formatable tight before run ih =>
    have next := init_sound ok junk stack closed formatable roomy tight ih.1
    rw [run] at next
    exact ⟨next.2.1, fun x away => (next.2.2.outside x away).trans (ih.2 x away)⟩
  | append req ok before run ih =>
    have next := append_sound ok ih.1 req
    rw [run] at next
    exact ⟨next.1, fun x away => (next.2.outside x away).trans (ih.2 x away)⟩
  | appendCut req ok stays before run ih =>
    have next := append_sound ok ih.1 req
    rw [run] at next
    exact ⟨next.2.1 stays, fun x away => (next.2.2.outside x away).trans (ih.2 x away)⟩
  | mark junk ok listed complete later before run ih =>
    have next := mark_sound ok junk ih.1 listed complete later
    rw [run] at next
    rw [if_pos next.1]
    exact ⟨next.2.1, fun x away => (next.2.2.outside x away).trans (ih.2 x away)⟩
  | markCut junk ok listed complete later before run ih =>
    have next := mark_sound ok junk ih.1 listed complete later
    rw [run] at next
    obtain ⟨⟨rfl, rfl, book, -, shows, keeps⟩, outside⟩ := ih
    rw [next.2.1]
    exact ⟨.inr ⟨book, shows, keeps⟩, outside⟩
  | powerOff before ih =>
    obtain ⟨⟨rfl, rfl, book, memory, shows, keeps⟩, outside⟩ := ih
    exact ⟨.inr ⟨book, shows, keeps⟩, outside⟩
  | clean junk stack ok before run ih =>
    have next := clean_sound ok junk stack ih.1
    rw [run] at next
    exact ⟨next.1, fun x away => (next.2.outside x away).trans (ih.2 x away)⟩

end Steps

/-! ### Following a life -/

section Following

variable {path : String} {part : FalPartition} {maxLen : Word} {origin : Memory} {db : FdbTsdb}
  {b : Board} {book : Book} {acks : List Record} {V m : Memory}

/-- The book of a device that runs. -/
theorem lives_book (roomy : wholeWords maxLen.toNat ≤ 1936)
    (lives : Lives path part maxLen origin (.on db b) acks) :
    ∃ book, InMemory db book ∧ OnFlash db.maxLen (view db.parent.part b.flash) book ∧
      Keeps book acks ∧ db.parent.part = part ∧ db.maxLen = maxLen := by
  obtain ⟨⟨rfl, rfl, book, memory, shows, keeps⟩, -⟩ := lives_sound roomy lives
  exact ⟨book, memory, shows, keeps, rfl, rfl⟩

/-- A call returns where power does not go away. -/
theorem powered {α : Type} {uart : Nat → Byte} {o : Outcome Board α} {Q : α → Board → Prop}
    {C : Board → Prop} (sat : o.Sat Q fun b => PowerLost (.flawless uart) ∧ C b) :
    ∃ a b, o = .done a b ∧ Q a b := by
  refine (sat.mono (fun _ _ post => post) fun _ lost => ?_).returns
  obtain ⟨_, gone⟩ := lost.1
  cases gone

theorem tight_unformatted (bare : ∀ s < 63, Unformatted V s) : Tight maxLen V :=
  fun s low _ here => absurd (PageAt.formatted here).magic (bare s low)

/-- On the flash that shows a book, only its sector in use is in use. -/
theorem tight_of_gap (shows : OnFlash maxLen V book) (gap : Gap maxLen book) : Tight maxLen V := by
  intro s low sec here room
  obtain ⟨page, there, placed⟩ := OnFlash.placed shows low
  have shown := (PageAt.formatted there).table.shows
  rw [(PageAt.formatted here).table.shows] at shown
  cases page with
  | empty => cases shown
  | full sec' => cases shown
  | active sec' =>
    have active : ActiveAt maxLen V s sec.startTime sec.slots := here
    have active' : ActiveAt maxLen V s sec'.startTime sec'.slots := there
    have same := active.body.total_unique active'.body
    rw [same] at room ⊢
    refine gap sec' ?_ room
    exact placed.active

/-- A device that runs with a database that stands for a book. -/
structure Standing (path : String) (part : FalPartition) (maxLen : Word) (origin : Memory)
    (db : FdbTsdb) (b : Board) (acks : List Record) (book : Book) : Prop where
  lives : Lives path part maxLen origin (.on db b) acks
  memory : InMemory db book
  maxLen : db.maxLen = maxLen
  part : db.parent.part = part
  shows : OnFlash db.maxLen (view db.parent.part b.flash) book

/-- A new device that is switched on for the first time. -/
theorem Standing.first (roomy : wholeWords maxLen.toNat ≤ 1936)
    (bare : ∀ s < 63, Unformatted (view part origin) s) (closed : Closed db path part)
    (formatable : db.parent.notFormatable = false) (reset : db.lastTime = 0)
    (image : b.flash = origin) :
    ∃ db' b', Standing path part maxLen origin db' b' [] (blank 0) := by
  subst image
  have ok := Environment.flawless_succeeds fun _ => 0
  have raw : Raw (view part b.flash) := fun s low => .inr (bare s low)
  obtain ⟨r, b', run, -, maxLen', part', W, time, zero, memory, shows, holds⟩ :=
    powered (fdbTsdbInit_raw ok (fun _ => 0) db.curSec closed formatable roomy raw)
  obtain rfl : time = 0 := zero.elim id fun same => same.trans reset
  have image : view part b'.flash = W := holds.shows
  refine ⟨r.2, b', .boot _ _ ok closed formatable (tight_unformatted bare) (.new raw) run,
    memory, maxLen', part', ?_⟩
  rw [maxLen', part', image]
  exact shows

/-- A log is added where power does not go away. -/
theorem Standing.append (standing : Standing path part maxLen origin db b acks book)
    {req : Request} (accepted : Accepted maxLen book req.blob req.time) :
    ∃ r b', fdbTslAppendWithTs (.flawless fun _ => 0) req.junk db req.blob req.time b =
        .done r b' ∧ r.1 = .noErr ∧
      Standing path part maxLen origin r.2 b' (acks ++ [req.record])
        (book.add maxLen req.record) := by
  obtain ⟨lives, memory, rfl, rfl, shows⟩ := standing
  have ok := Environment.flawless_succeeds fun _ => 0
  obtain ⟨r, b', run, post⟩ := powered (fdbTslAppend_triple ok req.junk memory shows req.blob
    req.time b (Holds.refl db.parent b))
  rw [if_pos accepted] at post
  obtain ⟨done, part', maxLen', memory', W, shows', -, holds⟩ := post
  have next := Lives.append req ok lives run
  rw [if_pos done] at next
  refine ⟨r, b', run, done, next, memory', maxLen', part', ?_⟩
  rw [maxLen', part', holds.shows]
  exact shows'

/-- An append into the sector in use does not return without power for its second word. -/
theorem append_returns {env : Environment} (ok : env.Succeeds) (junk : Memory)
    (memory : InMemory db book) {sec : Sector} (current : book.current = some sec)
    {blob : FdbBlob} {time : FdbTime} (accepted : Accepted db.maxLen book blob time)
    (takes : sec.Takes db.maxLen blob.size.toNat) (b : Board) :
    (fdbTslAppendWithTs env junk db blob time b).Sat (fun _ _ => env.power (b.clock + 1) = true)
      fun _ => True := by
  obtain ⟨short, later⟩ := accepted
  have inUse := memory.inUse sec current
  have slots : book.slots = sec.slots := slots_some current
  have entries := total_ge db.maxLen sec.slots
  have room : ¬(db.curSec.status = .storeUsing ∧
      db.curSec.remain < LOG_IDX_DATA_SIZE + fdbWgAlign blob.size) :=
    fun full => (remain_lt memory current short).mp full.2 takes
  have stays : updateSecStatus env junk db blob time = pure (.noErr, db) := by
    rw [updateSecStatus, if_neg room, if_neg (by rw [inUse.status]; decide), openSector,
      if_neg (by rw [inUse.status]; decide)]
  have written := writeTsl_powered ok junk blob memory.opened book.inside memory.tracks.emptyIdx
    (by rw [slots]; unfold Sector.Takes at takes; omega) time b
  rw [fdbTslAppendWithTs, if_pos memory.initOk, tslAppend,
    if_neg (by rw [BitVec.lt_def]; omega), if_neg (by rw [memory.lastTime]; omega), stays,
    pure_bind, if_neg (by simp)]
  refine Triple.bind (P := (· = b)) (R := fun _ _ => env.power (b.clock + 1) = true) ?_ ?_ b rfl
  · rintro _ rfl
    exact written
  · exact fun _ t lasting => Outcome.Sat.const lasting _

/-- Where power goes behind the first word of an append into the sector in use, the log is torn
at most. -/
theorem Standing.cut (standing : Standing path part maxLen origin db b acks book) {sec : Sector}
    (current : book.current = some sec) {req : Request}
    (accepted : Accepted maxLen book req.blob req.time)
    (takes : sec.Takes maxLen req.blob.size.toNat) :
    ∃ b', fdbTslAppendWithTs (.poweredFor (fun _ => 0) (b.clock + 1)) req.junk db req.blob req.time
        b = .cut b' ∧
      Lives path part maxLen origin (.off b'.flash) acks ∧
      (OnFlash maxLen (view part b'.flash) book ∨
        OnFlash maxLen (view part b'.flash) (book.grown sec .torn)) := by
  obtain ⟨lives, memory, rfl, rfl, shows⟩ := standing
  have ok := Environment.poweredFor_succeeds (fun _ => 0) (b.clock + 1)
  have stays : Stays db req.blob := by
    refine ⟨BitVec.le_def.mpr accepted.1, (memory.inUse sec current).status, fun full => ?_⟩
    exact (remain_lt memory current accepted.1).mp full takes
  have returns := append_returns ok req.junk memory current accepted takes b
  have sat := fdbTslAppend_triple ok req.junk memory shows req.blob req.time b
    (Holds.refl db.parent b)
  cases run : fdbTslAppendWithTs (.poweredFor (fun _ => 0) (b.clock + 1)) req.junk db req.blob
      req.time b with
  | done r b' =>
    rw [run] at returns
    exact absurd returns (by simp [Outcome.Sat, Environment.poweredFor])
  | cut b' =>
    rw [run] at sat
    obtain ⟨-, W, left, holds⟩ := sat
    refine ⟨b', rfl, .appendCut req ok stays lives run, ?_⟩
    rw [holds.shows]
    exact CutOff.torn left shows current takes

/-- A device that is switched on again finds its book. -/
theorem Standing.again (roomy : wholeWords maxLen.toNat ≤ 1936)
    (lives : Lives path part maxLen origin (.off m) acks)
    (shows : OnFlash maxLen (view part m) book) (gap : Gap maxLen book)
    (closed : Closed db path part) (formatable : db.parent.notFormatable = false)
    (image : b.flash = m) :
    ∃ db', fdbTsdbInit (.flawless fun _ => 0) (fun _ => 0) db.curSec db path maxLen b =
        .done (.noErr, db') b ∧
      Standing path part maxLen origin db' b acks (mounted book db.lastTime) := by
  subst image
  obtain ⟨db', run, memory, maxLen', part'⟩ :=
    fdbTsdbInit_mounts (.flawless fun _ => 0) (fun _ => 0) closed roomy shows gap db.curSec
  refine ⟨db', run, .boot _ _ (Environment.flawless_succeeds _) closed formatable
    (tight_of_gap shows gap) lives run, memory, maxLen', part', ?_⟩
  rw [maxLen', part']
  exact shows

theorem collected (l : List FdbTsl) : (visit collect l []).2 = l := by
  rw [visit_collect, List.nil_append]

/-- What iterating calls back for is fixed by the book. -/
theorem Standing.got (standing : Standing path part maxLen origin db b acks book)
    {env : Environment} {junk : Memory} {stack : TsdbSecInfo} {got : List FdbTsl}
    (all : fdbTslIter env junk b.flash db stack collect [] = some (visit collect got []).2) :
    got = tsls maxLen book := by
  obtain ⟨-, memory, rfl, rfl, shows⟩ := standing
  rw [fdbTslIter_eq memory shows, collected, collected] at all
  exact (Option.some.inj all).symm

theorem Standing.iterated (standing : Standing path part maxLen origin db b acks book)
    {tsl : FdbTsl} (listed : tsl ∈ tsls maxLen book) : Iterated b.flash db tsl := by
  obtain ⟨-, memory, rfl, rfl, shows⟩ := standing
  refine ⟨.flawless fun _ => 0, fun _ => 0, db.curSec, tsls db.maxLen book, ?_, listed⟩
  rw [fdbTslIter_eq memory shows, collected]

end Following

end BmsFirmware.Flashdb.DeviceLives
