/- Module: BmsFirmware/Flashdb/Delivery
   Source: application/flashdb/src/fdb_tsdb.c, application/flashdb/src/fdb_utils.c
   Digest: What a callback gets is what was appended, down to the bytes of each log. -/

import BmsFirmware.Flashdb.Traversal
import Mathlib.Data.List.Forall2

set_option autoImplicit false
set_option relaxedAutoImplicit false

namespace BmsFirmware.Flashdb.Delivery

open BmsFirmware.Library.ByteMemory
open BmsFirmware.Flash.Controller
open BmsFirmware.Flashdb.Utils
open BmsFirmware.Flashdb.Storage
open BmsFirmware.Flashdb.Tsdb
open BmsFirmware.Flashdb.SectorLayout
open BmsFirmware.Flashdb.SectorWrites
open BmsFirmware.Flashdb.LogBook
open BmsFirmware.Flashdb.Appending
open BmsFirmware.Flashdb.Traversal

/-- Reading the blob of a log into a buffer fills that, or the part that the log has bytes for. -/
def BlobRead (env : Environment) (m : Memory) (db : FdbTsdb) (tsl : FdbTsl) (r : Record) : Prop :=
  ∀ blob : FdbBlob, (fdbBlobRead env m db.parent (fdbTslToBlob tsl blob)).1.toNat =
      min r.size.toNat blob.size.toNat ∧
    ∀ i < min r.size.toNat blob.size.toNat,
      (fdbBlobRead env m db.parent (fdbTslToBlob tsl blob)).2 i = r.data i

/-- A log as it is read stands for the slot it was written to. -/
def Delivers (env : Environment) (m : Memory) (db : FdbTsdb) (tsl : FdbTsl) : Slot → Prop
  | .torn => tsl.status = .preWrite
  | .saved r => tsl.status = r.status ∧ tsl.time = r.time ∧ tsl.logLen = r.size ∧
      BlobRead env m db tsl r

section Slots

variable (env : Environment) {m : Memory} {db : FdbTsdb} {book : Book}

/-- The blob of a log that is stored in a sector. -/
theorem blobRead_saved (opened : Opened db) {s d a : Nat} {r : Record} (low : s < 63)
    (saved : SavedAt (view db.parent.part m) a d r) (room : wholeWords r.size.toNat ≤ d)
    (inside : d ≤ secStart (s + 1)) :
    BlobRead env m db ((Slot.saved r).tsl db.maxLen a d) r := by
  have length : partLen = 129024 := rfl
  have begin : secStart (s + 1) = 2048 * (s + 1) := rfl
  have whole := wholeWords_ge r.size.toNat
  intro blob
  obtain ⟨n, size⟩ : ∃ n, n = if r.size < blob.size then r.size else blob.size := ⟨_, rfl⟩
  have count : n.toNat = min r.size.toNat blob.size.toNat := by
    rw [size]
    split
    case isTrue less =>
      rw [BitVec.lt_def] at less
      omega
    case isFalse more =>
      rw [BitVec.lt_def] at more
      omega
  have place : (w32 (d - wholeWords r.size.toNat)).toNat = d - wholeWords r.size.toNat :=
    toNat_w32 (by omega)
  have read := fdbFlashRead_eq env opened.stored (w32 (d - wholeWords r.size.toNat)) n
    (by rw [place]; omega) m blob.buf
  have run : fdbBlobRead env m db.parent (fdbTslToBlob ((Slot.saved r).tsl db.maxLen a d) blob) =
      (n, fill blob.buf 0 n.toNat fun i =>
        view db.parent.part m ((w32 (d - wholeWords r.size.toNat)).toNat + i)) := by
    change (if (fdbFlashRead env m db.parent (w32 (d - wholeWords r.size.toNat)) blob.buf
        (if r.size < blob.size then r.size else blob.size)).1 ≠ .noErr then (0 : Word)
      else if r.size < blob.size then r.size else blob.size,
      (fdbFlashRead env m db.parent (w32 (d - wholeWords r.size.toNat)) blob.buf
        (if r.size < blob.size then r.size else blob.size)).2) = _
    rw [← size, read]
    rfl
  rw [run, place]
  refine ⟨count, fun i less => ?_⟩
  dsimp only
  rw [fill_inside (by omega) (by omega)]
  exact saved.data i (by omega)

theorem delivers_slot (opened : Opened db) {s a d : Nat} {e : Slot} (low : s < 63)
    (stored : SlotAt (view db.parent.part m) a d e)
    (room : ∀ r, e = .saved r → wholeWords r.size.toNat ≤ d) (inside : d ≤ secStart (s + 1)) :
    Delivers env m db (e.tsl db.maxLen a d) e := by
  cases e with
  | torn => rfl
  | saved r => exact ⟨rfl, rfl, rfl, blobRead_saved env opened low stored (room r rfl) inside⟩

/-- The logs of one sector. -/
theorem delivers_sector (opened : Opened db) {s : Nat} {slots : List Slot} (low : s < 63)
    (stored : SlotsAt db.maxLen (view db.parent.part m) s slots) :
    List.Forall₂ (Delivers env m db) (tslsOf db.maxLen s slots) slots := by
  refine List.forall₂_iff_get.mpr ⟨length_tslsOf, fun i inside inside' => ?_⟩
  have here := List.getElem?_eq_getElem inside'
  have value := getElem?_tslsOf db.maxLen s here
  rw [List.getElem?_eq_getElem inside] at value
  rw [List.get_eq_getElem, List.get_eq_getElem, Option.some.inj value]
  refine delivers_slot env opened low (stored.each i _ here) ?_ (Nat.sub_le _ _)
  intro r saved
  have fits := stored.savedFits i r (saved ▸ here)
  have taken := used_take_succ db.maxLen here
  have within := used_le_total db.maxLen (slots.take (i + 1))
  have begin : secStart (s + 1) = 2048 * s + 2048 := rfl
  rw [saved] at taken
  change _ = _ + wholeWords r.size.toNat at taken
  omega

/-- The logs that iterating calls back for stand for those of the book, one by one. -/
theorem delivers_book (opened : Opened db)
    (shows : OnFlash db.maxLen (view db.parent.part m) book) :
    List.Forall₂ (Delivers env m db) (tsls db.maxLen book) book.logs := by
  rw [← book.flatMap_pages, tsls]
  have pages (l : List Nat) (low : ∀ o ∈ l, o < 63) : List.Forall₂ (Delivers env m db)
      (l.flatMap fun o => tslsOf db.maxLen (book.place o) (book.page o).slots)
      (l.flatMap fun o => (book.page o).slots) := by
    induction l with
    | nil => exact .nil
    | cons o l ih =>
      have here := low o List.mem_cons_self
      exact List.rel_append
        (delivers_sector env opened (book.place_lt o) (PageAt.stored (shows o here)))
        (ih fun o' listed => low o' (List.mem_cons_of_mem o listed))
  exact pages _ fun o => List.mem_range.mp

end Slots

end BmsFirmware.Flashdb.Delivery
