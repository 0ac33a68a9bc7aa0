/- Module: BmsFirmware/Flashdb/Storage
   Source: application/flashdb/src/fdb_utils.c
   Digest: What the storage functions do to the bytes of a partition. -/

import BmsFirmware.Fal.VerifiedPort
import BmsFirmware.Fal.WriteOnce
import BmsFirmware.Flashdb.Utils

set_option autoImplicit false
set_option relaxedAutoImplicit false

namespace BmsFirmware.Flashdb.Storage

open BmsFirmware.Library.ByteMemory
open BmsFirmware.Library.PowerLogic
open BmsFirmware.Library.StatusTable
open BmsFirmware.Flash.Controller
open BmsFirmware.Flash.Systick
open BmsFirmware.Flash.PageImage
open BmsFirmware.Fal.FalPort
open BmsFirmware.Fal.Partitions
open BmsFirmware.Fal.VerifiedPort
open BmsFirmware.Fal.WriteOnce
open BmsFirmware.Flashdb.Utils

/-! ### The bytes of a partition -/

/-- Where a partition begins in the flash. -/
def partBase (part : FalPartition) : Nat := deviceAddr.toNat + part.offset.toNat

/-- The length of both partitions. -/
def partLen : Nat := 126 * 1024

/-- The flash as a partition addresses it. -/
def view (part : FalPartition) (m : Memory) : Memory := fun x => m (partBase part + x)

/-- A database in one of the two partitions, not in a file. -/
structure Stored (db : FdbDb) : Prop where
  listed : db.part ∈ FAL_PART_TABLE
  flash : db.fileMode = false

/-- A board reached from `start` by operations on erased words, whose flash shows `V` from
the partition on and has not changed outside it. -/
structure Holds (db : FdbDb) (start : Board) (V : Memory) (s : Board) : Prop where
  shows : view db.part s.flash = V
  outside : ∀ x, x < partBase db.part ∨ partBase db.part + partLen ≤ x →
    s.flash x = start.flash x
  reached : Reached start s

theorem Holds.refl (db : FdbDb) (start : Board) : Holds db start (view db.part start.flash) start :=
  ⟨rfl, fun _ _ => rfl, Reached.refl start⟩

/-- Power has gone with a flash that satisfies `K`. -/
def Lost (env : Environment) (db : FdbDb) (start : Board) (K : Memory → Prop) (s : Board) : Prop :=
  PowerLost env ∧ ∃ V, K V ∧ Holds db start V s

theorem Lost.mono {env : Environment} {db : FdbDb} {start s : Board} {K K' : Memory → Prop}
    (lost : Lost env db start K s) (weaker : ∀ V, K V → K' V) : Lost env db start K' s := by
  obtain ⟨power, V, holds, shown⟩ := lost
  exact ⟨power, V, weaker V holds, shown⟩

theorem listed_bounds {part : FalPartition} (listed : part ∈ FAL_PART_TABLE) :
    part.flashName = FLASH_DEV_NAME ∧ part.offset.toNat ≤ partLen ∧ part.len.toNat = partLen ∧
      partBase part % pageSize = 0 := by
  rcases List.mem_cons.mp listed with rfl | listed
  · exact ⟨rfl, by decide, by decide, by decide⟩
  · obtain rfl := List.mem_singleton.mp listed
    exact ⟨rfl, by decide, by decide, by decide⟩

section Access

variable {env : Environment} {db : FdbDb} {addr size : Word} {V buf : Memory} {start : Board}

private theorem partBase_le (stored : Stored db) : partBase db.part ≤ 0x08040000 + 126 * 1024 := by
  have offset := (listed_bounds stored.listed).2.1
  have device : deviceAddr.toNat = 0x08040000 := rfl
  unfold partBase partLen at *
  omega

private theorem place (stored : Stored db) (inside : addr.toNat ≤ partLen) (i : Nat)
    (low : i ≤ partLen) :
    (deviceAddr + (db.part.offset + addr) + BitVec.ofNat 32 i).toNat =
      partBase db.part + (addr.toNat + i) := by
  have offset := (listed_bounds stored.listed).2.1
  have device : deviceAddr.toNat = 0x08040000 := rfl
  unfold partBase partLen at *
  simp only [BitVec.toNat_add, BitVec.toNat_ofNat]
  omega

private theorem range_inside (stored : Stored db) (inside : addr.toNat + size.toNat ≤ partLen) :
    Inside db.part addr size := by
  unfold Inside
  rw [(listed_bounds stored.listed).2.2.1]
  exact inside

private theorem bound_passed (stored : Stored db) (inside : addr.toNat + size.toNat ≤ partLen) :
    ¬db.part.len < addr + size := by
  have length := (listed_bounds stored.listed).2.2.1
  unfold partLen at *
  rw [BitVec.lt_def, BitVec.toNat_add]
  omega

private theorem not_negative (inside : addr.toNat + size.toNat ≤ partLen) : ¬size.toInt < 0 := by
  unfold partLen at inside
  rw [BitVec.toInt_eq_toNat_of_lt (by omega)]
  omega

/-- Reading inside the partition copies its bytes. -/
theorem fdbFlashRead_eq (env : Environment) (stored : Stored db) (addr size : Word)
    (inside : addr.toNat + size.toNat ≤ partLen) (m buf : Memory) :
    fdbFlashRead env m db addr buf size =
      (.noErr, fill buf 0 size.toNat fun i => view db.part m (addr.toNat + i)) := by
  have found : (flashDeviceFindByPart env db.part).isNone = false := by
    unfold flashDeviceFindByPart
    rw [(listed_bounds stored.listed).1]
    rfl
  have copied : fill buf 0 size.toNat (portBytes m (db.part.offset + addr)) =
      fill buf 0 size.toNat fun i => view db.part m (addr.toNat + i) := by
    funext x
    by_cases low : x < size.toNat
    · rw [fill_inside (by omega) (by omega), fill_inside (by omega) (by omega), Nat.sub_zero,
        portBytes, place stored (by omega) x (by omega), view]
    · rw [fill_outside (by omega), fill_outside (by omega)]
  have passed : falPartitionRead env m db.part addr buf size =
      (size.toInt, fill buf 0 size.toNat fun i => view db.part m (addr.toNat + i)) := by
    rw [falPartitionRead, if_neg (bound_passed stored inside), found, if_neg (by simp), copied]
  rw [fdbFlashRead, stored.flash, if_neg (by simp), passed]
  simp only [if_neg (not_negative inside)]

private theorem view_fill (db : FdbDb) (m : Memory) (a n : Nat) (f : Nat → Byte) :
    view db.part (fill m (partBase db.part + a) n f) = fill (view db.part m) a n f := by
  funext x
  simp only [view, fill]
  by_cases low : a ≤ x ∧ x < a + n
  · rw [if_pos (by omega), if_pos low]
    congr 1
    omega
  · rw [if_neg (by omega), if_neg low]

private theorem Holds.filled {b s : Board} {a n : Nat} {f : Nat → Byte}
    (holds : Holds db start V b) (inside : a + n ≤ partLen)
    (flash : s.flash = fill b.flash (partBase db.part + a) n f) (reached : Reached start s) :
    Holds db start (fill V a n f) s := by
  refine ⟨?_, ?_, reached⟩
  · rw [flash, view_fill db, holds.shows]
  · intro x away
    rw [flash, fill_outside (by omega), holds.outside x away]

/-- Where a write begins in the flash. -/
def writeAddr (db : FdbDb) (addr : Word) : Word := deviceAddr + (db.part.offset + addr)

private theorem writeAddr_toNat (stored : Stored db) (inside : addr.toNat ≤ partLen) :
    (writeAddr db addr).toNat = partBase db.part + addr.toNat := by
  have first := place stored inside 0 (Nat.zero_le _)
  rwa [BitVec.add_zero, Nat.add_zero] at first

private theorem writeAddr_room (stored : Stored db)
    (inside : addr.toNat + 4 * writtenWords size ≤ partLen) :
    (writeAddr db addr).toNat + 4 * writtenWords size ≤ 2 ^ 32 ∧ size.toNat + 4 ≤ 2 ^ 32 := by
  have base := partBase_le stored
  rw [writeAddr_toNat stored (by omega)]
  unfold partLen writtenWords at *
  omega

/-- A write whose operations succeed programs its words one after the other. It returns only if
power is there for all of them, and is cut off before the first for which there is none. -/
theorem fdbFlashWrite_run (ok : env.Succeeds) (stored : Stored db) (buf : Memory)
    (inside : addr.toNat + 4 * writtenWords size ≤ partLen) (b : Board) :
    (fdbFlashWrite env db addr buf size b).Sat
      (fun r s => r = .noErr ∧
        s = programmed b (writeAddr db addr) buf (writtenWords size) true ∧
        ∀ j < writtenWords size, env.power (b.clock + j) = true)
      (fun s => ∃ k < writtenWords size, s = programmed b (writeAddr db addr) buf k false ∧
        env.power (b.clock + k) = false) := by
  have within : addr.toNat + size.toNat ≤ partLen := by
    unfold writtenWords at inside
    omega
  obtain ⟨room, few⟩ := writeAddr_room stored inside
  have run := write_programmed ok buf room few b
  rw [fdbFlashWrite, stored.flash, if_neg (by simp),
    falPartitionWrite_eq env stored.listed (range_inside stored within), bind_apply]
  cases result : write env (db.part.offset + addr) buf size b with
  | done r s =>
    rw [result] at run
    obtain ⟨rfl, done, powered⟩ := run
    change (pure _ : Proc Board FdbErr) _ |>.Sat _ _
    rw [if_neg (not_negative within)]
    exact ⟨rfl, done, powered⟩
  | cut s =>
    rw [result] at run
    exact run

/-- A write whose operations succeed fills its range, which must be erased; power may go
between two words. -/
theorem fdbFlashWrite_triple (ok : env.Succeeds) (stored : Stored db) (buf : Memory)
    (inside : addr.toNat + 4 * writtenWords size ≤ partLen)
    (erased : ∀ i < 4 * writtenWords size, V (addr.toNat + i) = 0xFF) :
    Triple (Holds db start V) (fdbFlashWrite env db addr buf size)
      (fun r s => r = .noErr ∧
        Holds db start (fill V addr.toNat (4 * writtenWords size) buf) s)
      (Lost env db start fun W =>
        ∃ k < writtenWords size, W = fill V addr.toNat (4 * k) buf) := by
  intro b holds
  have first := writeAddr_toNat stored (show addr.toNat ≤ partLen by omega)
  have room := (writeAddr_room stored inside).1
  have next (k : Nat) (low : k ≤ writtenWords size) (locked : Bool) :
      Holds db start (fill V addr.toNat (4 * k) buf)
        (programmed b (writeAddr db addr) buf k locked) := by
    refine holds.filled (by omega) ?_ (holds.reached.programmed (by omega) ?_)
    · rw [← first]
      rfl
    · intro i inside
      rw [first, Nat.add_assoc]
      change view db.part b.flash _ = _
      rw [holds.shows]
      exact erased i (by omega)
  refine (fdbFlashWrite_run ok stored buf inside b).mono ?_ ?_
  · rintro r s ⟨rfl, rfl, -⟩
    exact ⟨rfl, next _ (Nat.le_refl _) true⟩
  · rintro s ⟨k, low, rfl, power⟩
    exact ⟨⟨_, power⟩, _, ⟨k, low, rfl⟩, next k (by omega) false⟩

/-- An erase of whole pages leaves ones in its range; power may go between two pages. -/
theorem fdbFlashErase_triple (ok : env.Succeeds) (stored : Stored db)
    (inside : addr.toNat + size.toNat ≤ partLen) (aligned : addr.toNat % pageSize = 0)
    (whole : size.toNat % pageSize = 0) :
    Triple (Holds db start V) (fdbFlashErase env db addr size)
      (fun r s => r = .noErr ∧ Holds db start (fill V addr.toNat size.toNat fun _ => 0xFF) s)
      (Lost env db start fun W => ∃ k, pageSize * k ≤ size.toNat ∧
        W = fill V addr.toNat (pageSize * k) fun _ => 0xFF) := by
  intro b holds
  have here := range_inside stored inside
  have first : (deviceAddr + (db.part.offset + addr)).toNat = partBase db.part + addr.toNat := by
    simpa using place stored (by omega) 0 (Nat.zero_le _)
  have pages : pageSize * (erasePages size).toNat = size.toNat := by
    rw [erasePages_toNat]
    unfold pageSize at *
    omega
  have room : (deviceAddr + (db.part.offset + addr)).toNat + pageSize * (erasePages size).toNat ≤
      2 ^ 32 := by
    have base := partBase_le stored
    rw [first, pages]
    unfold partLen at *
    omega
  have page : (deviceAddr + (db.part.offset + addr)).toNat / pageSize * pageSize =
      partBase db.part + addr.toNat := by
    have base := (listed_bounds stored.listed).2.2.2
    rw [first]
    unfold pageSize at *
    omega
  have next (k : Nat) (low : k ≤ (erasePages size).toNat) (locked : Bool) :
      Holds db start (fill V addr.toNat (pageSize * k) fun _ => 0xFF)
        (issued b (eraseOps (deviceAddr + (db.part.offset + addr)) k) locked) := by
    have below := Nat.mul_le_mul_left pageSize low
    refine holds.filled (by omega) ?_ (holds.reached.more rfl rfl (eraseOps_programsOnce _ _ _))
    rw [← page]
    exact eraseOps_apply room b.flash k low
  have run := guarded_succeeds ok (eraseOps (deviceAddr + (db.part.offset + addr))
    (erasePages size).toNat) b
  rw [fdbFlashErase, stored.flash, if_neg (by simp), falPartitionErase_eq env stored.listed here,
    erase_eq, bind_apply, bind_apply]
  cases result : guarded env (eraseOps (deviceAddr + (db.part.offset + addr))
      (erasePages size).toNat) b with
  | done st s =>
    rw [result] at run
    obtain ⟨ready, rfl, -⟩ := run
    change (pure _ : Proc Board FdbErr) _ |>.Sat _ _
    rw [if_pos ready, if_neg (not_negative inside), ← pages]
    exact ⟨rfl, next _ (Nat.le_refl _) true⟩
  | cut s =>
    rw [result] at run
    obtain ⟨k, low, rfl, -, power⟩ := run
    have length : (eraseOps (deviceAddr + (db.part.offset + addr))
        (erasePages size).toNat).length = (erasePages size).toNat := by
      simp [eraseOps]
    rw [length] at low
    have taken : (eraseOps (deviceAddr + (db.part.offset + addr)) (erasePages size).toNat).take k =
        eraseOps (deviceAddr + (db.part.offset + addr)) k := by
      rw [eraseOps, ← List.map_take, List.take_range, Nat.min_eq_left (by omega)]
      rfl
    rw [taken]
    have below := Nat.mul_le_mul_left pageSize (show k ≤ (erasePages size).toNat by omega)
    exact ⟨⟨_, power⟩, _, ⟨k, by omega, rfl⟩, next k (by omega) false⟩

/-! ### Status tables -/

/-- The status a table of `num` statuses at `a` shows. -/
def shown (V : Memory) (a num : Nat) : Nat := statusAt 4 FDB_BYTE_WRITTEN V a (num - 1)

private theorem getStatusFrom_eq (t : Memory) (n i : Nat) :
    getStatusFrom t n i + highest (fun j => t (4 * j) == FDB_BYTE_WRITTEN) n = i + n := by
  induction n generalizing i with
  | zero => rfl
  | succ n ih =>
    have cell : n * FDB_WRITE_GRAN / 8 = 4 * n := by
      unfold FDB_WRITE_GRAN
      omega
    rw [getStatusFrom, highest, cell]
    by_cases written : t (4 * n) = FDB_BYTE_WRITTEN
    · rw [if_pos written, if_pos (by simp [written])]
    · rw [if_neg written, if_neg (by simp [written])]
      have rest := ih (i + 1)
      omega

/-- `_fdb_get_status` finds the last marked cell. -/
theorem fdbGetStatus_eq (t : Memory) (num : Nat) : fdbGetStatus t num = shown t 0 num := by
  have scan := getStatusFrom_eq t (num - 1) 0
  have high := highest_le (fun j => t (4 * j) == FDB_BYTE_WRITTEN) (num - 1)
  simp only [fdbGetStatus, shown, statusAt, Nat.zero_add] at *
  omega

/-- The word that marks one status. -/
def markWord (i : Nat) : Byte := if i = 0 then FDB_BYTE_WRITTEN else FDB_BYTE_ERASED

/-- Setting a status touches one word, which is then the mark. -/
theorem fdbSetStatus_eq (t : Memory) {num k : Nat} (inside : k + 1 < num) :
    (fdbSetStatus t num (k + 1)).2 = some (4 * k) ∧
      ∀ i < 4, (fdbSetStatus t num (k + 1)).1 (4 * k + i) = markWord i := by
  have cell : (k + 1 - 1) * (FDB_WRITE_GRAN / 8) = 4 * k := by
    unfold FDB_WRITE_GRAN
    omega
  rw [fdbSetStatus, if_pos (Nat.succ_pos k), cell]
  refine ⟨rfl, ?_⟩
  intro i low
  dsimp only
  rw [markWord]
  by_cases first : i = 0
  · rw [if_pos first, first, Nat.add_zero, Function.update_self]
  · rw [if_neg first, Function.update_of_ne (by omega), fill_inside (by omega)]
    unfold fdbStatusTableSize FDB_WRITE_GRAN
    omega

theorem fill_congr {m : Memory} {a n : Nat} {f g : Nat → Byte} (same : ∀ i < n, f i = g i) :
    fill m a n f = fill m a n g := by
  funext x
  simp only [fill]
  by_cases low : a ≤ x ∧ x < a + n
  · rw [if_pos low, if_pos low, same _ (by omega)]
  · rw [if_neg low, if_neg low]

/-- Writing a status writes its mark. -/
theorem fdbWriteStatus_eq (env : Environment) (db : FdbDb) (addr : Word) (t : Memory) {num k : Nat}
    (low : k + 1 < num) :
    fdbWriteStatus env db addr t num (k + 1) =
      fdbFlashWrite env db (addr + BitVec.ofNat 32 (4 * k))
        (fun i => (fdbSetStatus t num (k + 1)).1 (4 * k + i))
        (BitVec.ofNat 32 (FDB_WRITE_GRAN / 8)) := by
  simp only [fdbWriteStatus, fdbAssert, decide_eq_true low, if_true, pure_bind,
    (fdbSetStatus_eq t low).1]

private theorem mark_place {k : Nat} (inside : addr.toNat + 4 * (k + 1) ≤ partLen) :
    (addr + BitVec.ofNat 32 (4 * k)).toNat = addr.toNat + 4 * k := by
  unfold partLen at inside
  rw [BitVec.toNat_add, BitVec.toNat_ofNat]
  omega

/-- A status has been written only if power was there for its word. -/
theorem fdbWriteStatus_powered (ok : env.Succeeds) (stored : Stored db) (addr : Word) (t : Memory)
    {num k : Nat} (low : k + 1 < num) (inside : addr.toNat + 4 * (k + 1) ≤ partLen) (b : Board) :
    (fdbWriteStatus env db addr t num (k + 1) b).Sat
      (fun r s => r = .noErr ∧ s.clock = b.clock + 1 ∧ env.power b.clock = true)
      (fun s => s.clock = b.clock ∧ env.power b.clock = false) := by
  have one : writtenWords (BitVec.ofNat 32 (FDB_WRITE_GRAN / 8)) = 1 := rfl
  rw [fdbWriteStatus_eq env db addr t low]
  refine (fdbFlashWrite_run ok stored _ (by rw [mark_place inside, one]; omega) b).mono ?_ ?_
  · rintro r s ⟨rfl, rfl, powered⟩
    exact ⟨rfl, programmed_clock _ _ _ _ _, powered 0 (by rw [one]; omega)⟩
  · rintro s ⟨j, none, rfl, power⟩
    obtain rfl : j = 0 := by omega
    exact ⟨programmed_clock _ _ _ _ _, power⟩

/-- Writing a status programs one word; power may go before it. -/
theorem fdbWriteStatus_triple (ok : env.Succeeds) (stored : Stored db) (addr : Word) (t : Memory)
    {num k : Nat} (low : k + 1 < num) (inside : addr.toNat + 4 * (k + 1) ≤ partLen)
    (erased : ∀ i < 4, V (addr.toNat + 4 * k + i) = 0xFF) :
    Triple (Holds db start V) (fdbWriteStatus env db addr t num (k + 1))
      (fun r s => r = .noErr ∧ Holds db start (fill V (addr.toNat + 4 * k) 4 markWord) s)
      (Lost env db start fun W => W = V) := by
  have place := mark_place inside
  have one : writtenWords (BitVec.ofNat 32 (FDB_WRITE_GRAN / 8)) = 1 := rfl
  rw [fdbWriteStatus_eq env db addr t low]
  intro b holds
  have write : Triple (Holds db start V) _ _ _ := fdbFlashWrite_triple ok stored
    (fun i => (fdbSetStatus t num (k + 1)).1 (4 * k + i))
    (by rw [place, one]; omega) (by rwa [place, one])
  have run := write b holds
  rw [place, one] at run
  refine run.mono ?_ ?_
  · rintro r s ⟨rfl, after⟩
    refine ⟨rfl, ?_⟩
    rwa [fill_congr (fdbSetStatus_eq t low).2] at after
  · intro s lost
    refine lost.mono ?_
    rintro W ⟨k, none, rfl⟩
    obtain rfl : k = 0 := by omega
    exact fill_zero _ _ _

end Access

/-- Steps of which each returns with the first error. -/
theorem orReturn_triple {P R C : Board → Prop} {Q : FdbErr → Board → Prop}
    {step rest : Proc Board FdbErr} (first : Triple P step (fun r b => r = .noErr ∧ R b) C)
    (next : Triple R rest Q C) : Triple P (orReturn step rest) Q C := by
  refine Triple.bind first fun r => ?_
  rintro b ⟨rfl, here⟩
  exact next b here

end BmsFirmware.Flashdb.Storage
