/- Module: BmsFirmware/Flashdb/SectorWrites
   Source: application/flashdb/src/fdb_tsdb.c
   Digest: What appending a log, closing, formatting and opening do to a sector. -/

import BmsFirmware.Flashdb.SectorLayout

set_option autoImplicit false
set_option relaxedAutoImplicit false

namespace BmsFirmware.Flashdb.SectorWrites

open BmsFirmware.Library.ByteMemory
open BmsFirmware.Library.PowerLogic
open BmsFirmware.Library.StatusTable
open BmsFirmware.Flash.Controller
open BmsFirmware.Flash.PageImage
open BmsFirmware.Fal.FalPort
open BmsFirmware.Fal.WriteOnce
open BmsFirmware.Flashdb.Utils
open BmsFirmware.Flashdb.Storage
open BmsFirmware.Flashdb.Tsdb
open BmsFirmware.Flashdb.SectorLayout

/-! ### Sectors in flash -/

/-- Nothing has changed outside a range. -/
def KeptOff (lo hi : Nat) (V W : Memory) : Prop := ∀ x, x < lo ∨ hi ≤ x → W x = V x

theorem KeptOff.refl (lo hi : Nat) (V : Memory) : KeptOff lo hi V V := fun _ _ => rfl

theorem KeptOff.trans {lo hi : Nat} {V W X : Memory} (first : KeptOff lo hi V W)
    (second : KeptOff lo hi W X) : KeptOff lo hi V X :=
  fun x away => (second x away).trans (first x away)

theorem KeptOff.widen {lo hi lo' hi' : Nat} {V W : Memory} (kept : KeptOff lo hi V W)
    (left : lo' ≤ lo) (right : hi ≤ hi') : KeptOff lo' hi' V W :=
  fun x away => kept x (by omega)

theorem KeptOff.filled {lo hi a n : Nat} {V W : Memory} {f : Nat → Byte} (kept : KeptOff lo hi V W)
    (left : lo ≤ a) (right : a + n ≤ hi) : KeptOff lo hi V (fill W a n f) := by
  intro x away
  rw [fill_outside (by omega)]
  exact kept x away

/-- A formatted sector whose header shows the status `k`. -/
structure Formatted (V : Memory) (s k : Nat) : Prop where
  table : TableAt V (secStart s) FDB_SECTOR_STORE_STATUS_NUM k
  magic : wordAt V (secStart s + 12) = SECTOR_MAGIC_WORD

/-- A sector without the magic word. -/
def Unformatted (V : Memory) (s : Nat) : Prop := wordAt V (secStart s + 12) ≠ SECTOR_MAGIC_WORD

/-- A formatted sector that nothing has been written to. -/
structure EmptyAt (V : Memory) (s : Nat) : Prop where
  header : Formatted V s SectorStatus.storeEmpty.index
  clear : ∀ i, 16 ≤ i → i < 2048 → V (secStart s + i) = 0xFF

/-- The logs of a sector, and erased bytes between the index and the data. -/
structure Body (maxLen : Word) (V : Memory) (s : Nat) (slots : List Slot) : Prop where
  stored : SlotsAt maxLen V s slots
  clear : ∀ i, 80 + 32 * slots.length ≤ i → i < 2048 - used maxLen slots →
    V (secStart s + i) = 0xFF

/-- A sector in use. -/
structure ActiveAt (maxLen : Word) (V : Memory) (s : Nat) (start : FdbTime) (slots : List Slot) :
    Prop where
  header : Formatted V s SectorStatus.storeUsing.index
  start : wordAt V (secStart s + 16) = start
  unclosed : ∀ i, 20 ≤ i → i < 80 → V (secStart s + i) = 0xFF
  body : Body maxLen V s slots

/-- A sector that has been closed, with its first end info. -/
structure FullAt (maxLen : Word) (V : Memory) (s : Nat) (start ended : FdbTime)
    (slots : List Slot) : Prop where
  header : Formatted V s SectorStatus.storeFull.index
  start : wordAt V (secStart s + 16) = start
  table : TableAt V (secStart s + 28) FDB_TSL_STATUS_NUM TslStatus.write.index
  ended : wordAt V (secStart s + 20) = ended
  endIdx : wordAt V (secStart s + 24) = w32 (slotAddr s (slots.length - 1))
  body : Body maxLen V s slots

section Congruence

variable {maxLen : Word} {V W : Memory} {s k : Nat} {slots : List Slot} {start ended : FdbTime}

/-- A sector's bytes are the same in both. -/
def SameSector (V W : Memory) (s : Nat) : Prop :=
  ∀ i < 2048, W (secStart s + i) = V (secStart s + i)

theorem KeptOff.sameSector {lo hi : Nat} (kept : KeptOff lo hi V W)
    (away : secStart (s + 1) ≤ lo ∨ hi ≤ secStart s) : SameSector V W s := by
  intro i low
  refine kept _ ?_
  unfold secStart at *
  omega

theorem SameSector.word (same : SameSector V W s) {off : Nat} (inside : off + 4 ≤ 2048) :
    wordAt W (secStart s + off) = wordAt V (secStart s + off) := by
  refine wordAt_congr fun i low => ?_
  rw [Nat.add_assoc]
  exact same _ (by omega)

theorem Formatted.congr (formatted : Formatted V s k)
    (same : ∀ i < 16, W (secStart s + i) = V (secStart s + i)) : Formatted W s k := by
  have cells : 4 * (FDB_SECTOR_STORE_STATUS_NUM - 1) = 12 := rfl
  constructor
  · exact formatted.table.congr fun i low => same i (by omega)
  · rw [← formatted.magic]
    refine wordAt_congr fun i low => ?_
    rw [Nat.add_assoc]
    exact same _ (by omega)

theorem wholeWords_ge (n : Nat) : n ≤ wholeWords n := by
  unfold wholeWords
  omega

/-- A slot depends on its index entry and on its data. -/
theorem SlotAt.congr {a d : Nat} {e : Slot} (stored : SlotAt V a d e)
    (entry : ∀ i < 32, W (a + i) = V (a + i))
    (data : ∀ r, e = .saved r → wholeWords r.size.toNat ≤ d ∧
      ∀ x, d - wholeWords r.size.toNat ≤ x → x < d → W x = V x) : SlotAt W a d e := by
  have cells : 4 * (FDB_TSL_STATUS_NUM - 1) = 20 := rfl
  have word (off : Nat) (inside : off + 4 ≤ 32) : wordAt W (a + off) = wordAt V (a + off) := by
    refine wordAt_congr fun i low => ?_
    rw [Nat.add_assoc]
    exact entry _ (by omega)
  cases e with
  | torn => exact TableAt.congr stored fun i low => entry i (by omega)
  | saved r =>
    have saved : SavedAt V a d r := stored
    obtain ⟨room, same⟩ := data r rfl
    refine ⟨saved.table.congr fun i low => entry i (by omega), saved.written, ?_, ?_, ?_, ?_⟩
    · rw [word 20 (by omega), saved.time]
    · rw [word 24 (by omega), saved.size]
    · rw [word 28 (by omega), saved.log]
    · intro j low
      have within := wholeWords_ge r.size.toNat
      rw [same _ (by omega) (by omega)]
      exact saved.data j low

theorem used_take_le (maxLen : Word) (slots : List Slot) (i : Nat) :
    used maxLen (slots.take i) ≤ used maxLen slots := by
  conv => rhs; rw [← List.take_append_drop i slots]
  rw [used_append]
  omega

theorem used_le_total (maxLen : Word) (slots : List Slot) :
    used maxLen slots ≤ total maxLen slots :=
  Nat.le_add_left _ _

/-- The logs of a sector depend on their index entries and on their data. -/
theorem SlotsAt.congr (stored : SlotsAt maxLen V s slots)
    (entries : ∀ i, 80 ≤ i → i < 80 + 32 * slots.length → W (secStart s + i) = V (secStart s + i))
    (data : ∀ x, secStart s + 80 ≤ x → secStart (s + 1) - used maxLen slots ≤ x →
      x < secStart (s + 1) → W x = V x) : SlotsAt maxLen W s slots := by
  refine ⟨fun i e here => ?_, stored.fits, stored.savedFits⟩
  have inside : i < slots.length := (List.getElem?_eq_some_iff.mp here).1
  refine SlotAt.congr (stored.each i e here) ?_ ?_
  · intro j low
    have same := entries (80 + 32 * i + j) (by omega) (by omega)
    rw [show slotAddr s i + j = secStart s + (80 + 32 * i + j) by unfold slotAddr; omega]
    exact same
  · rintro r rfl
    have fits := stored.savedFits i r here
    have low := used_le_total maxLen (slots.take (i + 1))
    have part := used_take_le maxLen slots (i + 1)
    have taken := used_take_succ maxLen here
    change _ = _ + wholeWords r.size.toNat at taken
    have sector : secStart (s + 1) = secStart s + 2048 := rfl
    refine ⟨by omega, fun x left right => data x (by omega) (by omega) (by omega)⟩

theorem SlotsAt.length_le (stored : SlotsAt maxLen V s slots) : 32 * slots.length ≤ 1968 := by
  rcases Nat.eq_zero_or_pos slots.length with none | some
  · omega
  · have fits := stored.fits (slots.length - 1) (by omega)
    have entries := total_ge maxLen (slots.take (slots.length - 1))
    rw [List.length_take] at entries
    omega

/-- A sector's logs and free bytes do not depend on its header. -/
theorem Body.congr (body : Body maxLen V s slots)
    (same : ∀ i, 80 ≤ i → i < 2048 → W (secStart s + i) = V (secStart s + i)) :
    Body maxLen W s slots := by
  have sector : secStart (s + 1) = secStart s + 2048 := rfl
  have short := SlotsAt.length_le body.stored
  refine ⟨SlotsAt.congr body.stored (fun i left right => same i left (by omega)) ?_, ?_⟩
  · intro x left _ right
    rw [show x = secStart s + (x - secStart s) by omega]
    exact same _ (by omega) (by omega)
  · intro i left right
    rw [same i (by omega) (by omega)]
    exact body.clear i left right

/-- The room of a slot can be read off its index entry. -/
theorem SlotAt.room_eq {a d : Nat} {e : Slot} (stored : SlotAt V a d e) :
    e.room maxLen = wholeWords (tslAt maxLen V a).logLen.toNat := by
  rw [tslAt_slot stored]
  cases e <;> rfl

private theorem Body.total_take {slots' : List Slot} (body : Body maxLen V s slots)
    (body' : Body maxLen V s slots') {i : Nat} (low : i ≤ slots.length) (low' : i ≤ slots'.length) :
    total maxLen (slots.take i) = total maxLen (slots'.take i) := by
  induction i with
  | zero => rfl
  | succ i ih =>
    have here := List.getElem?_eq_getElem (show i < slots.length from low)
    have here' := List.getElem?_eq_getElem (show i < slots'.length from low')
    rw [total_take_succ maxLen here, total_take_succ maxLen here', ih (by omega) (by omega),
      SlotAt.room_eq (body.stored.each i _ here), SlotAt.room_eq (body'.stored.each i _ here')]

/-- Behind the last log nothing is begun. -/
private theorem Body.length_le {slots' : List Slot} (body : Body maxLen V s slots)
    (body' : Body maxLen V s slots') : slots'.length ≤ slots.length := by
  by_contra longer
  have here := List.getElem?_eq_getElem (show slots.length < slots'.length by omega)
  have fits := body'.stored.fits slots.length (by omega)
  have same := body.total_take body' (Nat.le_refl _) (show slots.length ≤ slots'.length by omega)
  rw [← same, List.take_length] at fits
  have split : total maxLen slots = 32 * slots.length + used maxLen slots := rfl
  have cells : 4 * (FDB_TSL_STATUS_NUM - 1) = 20 := rfl
  have erased : TableAt V (slotAddr s slots.length) FDB_TSL_STATUS_NUM 0 :=
    TableAt.erased fun i low => by
      have byte := body.clear (80 + 32 * slots.length + i) (by omega) (by omega)
      rwa [← Nat.add_assoc, ← Nat.add_assoc] at byte
  have begun := body'.stored.each slots.length _ here
  have unused : (tslAt maxLen V (slotAddr s slots.length)).status = .unused := tslAt_unused erased
  rw [tslAt_slot begun] at unused
  exact Slot.tsl_used begun unused

/-- Whichever slots a sector shows, they take the same room. -/
theorem Body.total_unique {slots' : List Slot} (body : Body maxLen V s slots)
    (body' : Body maxLen V s slots') : total maxLen slots = total maxLen slots' := by
  have same : slots.length = slots'.length :=
    Nat.le_antisymm (body'.length_le body) (body.length_le body')
  have taken := body.total_take body' (Nat.le_refl _) (Nat.le_of_eq same)
  rwa [List.take_length, same, List.take_length] at taken

/-- Only the next index entry and the `n` bytes in front of the data have changed. -/
def OnlySlot (maxLen : Word) (V W : Memory) (s : Nat) (slots : List Slot) (n : Nat) : Prop :=
  ∀ x, x < slotAddr s slots.length ∨ slotAddr s slots.length + 32 ≤ x →
    x < secStart (s + 1) - used maxLen slots - n ∨ secStart (s + 1) - used maxLen slots ≤ x →
    W x = V x

theorem OnlySlot.keptOff {n : Nat} (only : OnlySlot maxLen V W s slots n)
    (fits : total maxLen slots + 32 + n ≤ 1968) :
    KeptOff (secStart s + 80) (secStart (s + 1)) V W := by
  intro x away
  have place : slotAddr s slots.length = secStart s + 80 + 32 * slots.length := rfl
  have sector : secStart (s + 1) = secStart s + 2048 := rfl
  unfold total at fits
  refine only x ?_ ?_ <;> omega

/-- One more slot behind those of a sector. -/
theorem Body.push {e : Slot} {n : Nat} (body : Body maxLen V s slots) (small : n ≤ e.room maxLen)
    (fits : total maxLen slots + 32 + n ≤ 1968)
    (whole : ∀ r, e = .saved r → e.room maxLen ≤ n) (only : OnlySlot maxLen V W s slots n)
    (placed : SlotAt W (slotAddr s slots.length) (secStart (s + 1) - used maxLen slots) e) :
    Body maxLen W s (slots ++ [e]) := by
  have split : total maxLen slots = 32 * slots.length + used maxLen slots := rfl
  have sector : secStart (s + 1) = secStart s + 2048 := rfl
  have place : slotAddr s slots.length = secStart s + 80 + 32 * slots.length := rfl
  have before : SlotsAt maxLen W s slots := by
    refine SlotsAt.congr body.stored ?_ ?_
    · intro i left right
      refine only _ ?_ ?_ <;> omega
    · intro x _ left right
      refine only _ ?_ ?_ <;> omega
  refine ⟨⟨?_, ?_, ?_⟩, ?_⟩
  · intro i e' here
    rcases Nat.lt_or_ge i slots.length with low | high
    · rw [List.getElem?_append_left low] at here
      rw [List.take_append_of_le_length (by omega)]
      exact before.each i e' here
    · obtain rfl : i = slots.length := by
        have inside := (List.getElem?_eq_some_iff.mp here).1
        rw [List.length_append, List.length_singleton] at inside
        omega
      rw [List.getElem?_concat_length] at here
      obtain rfl := Option.some.inj here
      rw [List.take_left]
      exact placed
  · intro i inside
    rw [List.length_append, List.length_singleton] at inside
    rw [List.take_append_of_le_length (by omega)]
    rcases Nat.lt_or_ge i slots.length with low | high
    · exact before.fits i low
    · rw [List.take_of_length_le high]
      omega
  · intro i r here
    rcases Nat.lt_or_ge i slots.length with low | high
    · rw [List.getElem?_append_left low] at here
      rw [List.take_append_of_le_length (by omega)]
      exact before.savedFits i r here
    · obtain rfl : i = slots.length := by
        have inside := (List.getElem?_eq_some_iff.mp here).1
        rw [List.length_append, List.length_singleton] at inside
        omega
      rw [List.getElem?_concat_length] at here
      obtain rfl := Option.some.inj here
      have full := whole r rfl
      rw [List.take_of_length_le (by simp), total_snoc]
      omega
  · intro i left right
    rw [List.length_append, List.length_singleton] at left
    rw [used_append, used_singleton] at right
    rw [only _ (by omega) (by omega)]
    exact body.clear i (by omega) (by omega)

end Congruence

/-! ### Appending a log -/

section Appending

variable {maxLen : Word} {V W : Memory} {s n : Nat} {slots : List Slot}

private theorem idxBuf_words (time : FdbTime) (logLen logAddr : Word) :
    wordAt (idxBuf time logLen logAddr) 0 = time ∧
      wordAt (idxBuf time logLen logAddr) 4 = logLen ∧
      wordAt (idxBuf time logLen logAddr) 8 = logAddr := by
  refine ⟨?_, ?_, wordAt_fill _ 8 logAddr⟩
  · refine (wordAt_congr fun i low => ?_).trans (wordAt_fill (fun _ => 0) 0 time)
    rw [idxBuf, fill_outside (by omega), fill_outside (by omega)]
    rfl
  · refine (wordAt_congr fun i low => ?_).trans (wordAt_fill (wordBuf time) 4 logLen)
    rw [idxBuf, fill_outside (by omega)]

/-- A word of a buffer that has been written. -/
theorem wordAt_written {m buf : Memory} {a n off : Nat} (inside : off + 4 ≤ n) :
    wordAt (fill m a n buf) (a + off) = wordAt buf off := by
  refine wordAt_same fun i low => ?_
  rw [fill_inside (by omega) (by omega)]
  congr 1
  omega

theorem OnlySlot.refl (maxLen : Word) (V : Memory) (s : Nat) (slots : List Slot) (n : Nat) :
    OnlySlot maxLen V V s slots n :=
  fun _ _ _ => rfl

theorem OnlySlot.filled {a k : Nat} {f : Nat → Byte} (only : OnlySlot maxLen V W s slots n)
    (inside : (slotAddr s slots.length ≤ a ∧ a + k ≤ slotAddr s slots.length + 32) ∨
      (secStart (s + 1) - used maxLen slots - n ≤ a ∧
        a + k ≤ secStart (s + 1) - used maxLen slots)) :
    OnlySlot maxLen V (fill W a k f) s slots n := by
  intro x entry data
  rw [fill_outside (by omega)]
  exact only x entry data

/-- What a log leaves that power went away from: nothing, or a torn slot. -/
def Interrupted (maxLen : Word) (V : Memory) (s : Nat) (slots : List Slot) (W : Memory) : Prop :=
  W = V ∨ KeptOff (secStart s + 80) (secStart (s + 1)) V W ∧ Body maxLen W s (slots ++ [.torn])

/-- A slot that has been begun, while the rest of it is being written. -/
private structure Begun (maxLen : Word) (V : Memory) (s : Nat) (slots : List Slot) (n : Nat)
    (W : Memory) : Prop where
  only : OnlySlot maxLen V W s slots n
  table : TableAt W (slotAddr s slots.length) FDB_TSL_STATUS_NUM 1

private theorem Begun.filled {a k : Nat} {f : Nat → Byte} (begun : Begun maxLen V s slots n W)
    (fits : total maxLen slots + 32 + n ≤ 1968)
    (inside : (slotAddr s slots.length + 20 ≤ a ∧ a + k ≤ slotAddr s slots.length + 32) ∨
      (secStart (s + 1) - used maxLen slots - n ≤ a ∧
        a + k ≤ secStart (s + 1) - used maxLen slots)) :
    Begun maxLen V s slots n (fill W a k f) := by
  have split : total maxLen slots = 32 * slots.length + used maxLen slots := rfl
  have sector : secStart (s + 1) = secStart s + 2048 := rfl
  have place : slotAddr s slots.length = secStart s + 80 + 32 * slots.length := rfl
  have cells : 4 * (FDB_TSL_STATUS_NUM - 1) = 20 := rfl
  exact ⟨begun.only.filled (by omega), begun.table.congr fun i low => fill_outside (by omega)⟩

private theorem Begun.interrupted (begun : Begun maxLen V s slots n W)
    (body : Body maxLen V s slots) (small : n ≤ wholeWords maxLen.toNat)
    (fits : total maxLen slots + 32 + n ≤ 1968) : Interrupted maxLen V s slots W :=
  .inr ⟨begun.only.keptOff fits,
    body.push small fits (fun _ torn => nomatch torn) begun.only begun.table⟩

/-- A write into a slot that has been begun leaves a torn one where power goes. -/
private theorem Begun.write {env : Environment} {db : FdbDb} {start : Board} {addr size : Word}
    (begun : Begun maxLen V s slots n W) (ok : env.Succeeds) (stored : Stored db)
    (body : Body maxLen V s slots) (small : n ≤ wholeWords maxLen.toNat)
    (fits : total maxLen slots + 32 + n ≤ 1968) (low : s < 63) (buf : Memory)
    (inside : (slotAddr s slots.length + 20 ≤ addr.toNat ∧
        addr.toNat + 4 * writtenWords size ≤ slotAddr s slots.length + 32) ∨
      (secStart (s + 1) - used maxLen slots - n ≤ addr.toNat ∧
        addr.toNat + 4 * writtenWords size ≤ secStart (s + 1) - used maxLen slots))
    (erased : ∀ i < 4 * writtenWords size, W (addr.toNat + i) = 0xFF) :
    Triple (Holds db start W) (fdbFlashWrite env db addr buf size)
      (fun r b => r = .noErr ∧
        Holds db start (fill W addr.toNat (4 * writtenWords size) buf) b)
      (Lost env db start (Interrupted maxLen V s slots)) := by
  have split : total maxLen slots = 32 * slots.length + used maxLen slots := rfl
  have sector : secStart (s + 1) = secStart s + 2048 := rfl
  have place : slotAddr s slots.length = secStart s + 80 + 32 * slots.length := rfl
  have begin : secStart s = 2048 * s := rfl
  have length : partLen = 129024 := rfl
  refine (fdbFlashWrite_triple ok stored buf (by omega) erased).mono (fun _ _ post => post) ?_
  intro b lost
  refine lost.mono ?_
  rintro Z ⟨k, less, rfl⟩
  exact (begun.filled fits (by omega)).interrupted body small fits

/-- The first write of a log. -/
private theorem Body.begin (body : Body maxLen V s slots)
    (fits : total maxLen slots + 32 + n ≤ 1968) :
    Begun maxLen V s slots n (fill V (slotAddr s slots.length) 4 markWord) := by
  have split : total maxLen slots = 32 * slots.length + used maxLen slots := rfl
  have place : slotAddr s slots.length = secStart s + 80 + 32 * slots.length := rfl
  have cells : 4 * (FDB_TSL_STATUS_NUM - 1) = 20 := rfl
  have unused : TableAt V (slotAddr s slots.length) FDB_TSL_STATUS_NUM 0 := by
    refine TableAt.erased fun i low => ?_
    rw [show slotAddr s slots.length + i = secStart s + (80 + 32 * slots.length + i) by omega]
    exact body.clear _ (by omega) (by omega)
  exact ⟨(OnlySlot.refl maxLen V s slots n).filled (.inl (by omega)),
    unused.mark (Nat.le_refl 0) (by decide)⟩

/-- The bytes of a slot that has not been begun are erased. -/
private theorem Body.erased (body : Body maxLen V s slots) {x : Nat}
    (left : slotAddr s slots.length ≤ x) (right : x < secStart (s + 1) - used maxLen slots) :
    V x = 0xFF := by
  have sector : secStart (s + 1) = secStart s + 2048 := rfl
  have place : slotAddr s slots.length = secStart s + 80 + 32 * slots.length := rfl
  rw [show x = secStart s + (x - secStart s) by omega]
  exact body.clear _ (by omega) (by omega)

/-- The last write of a log, behind its index entry and its data. -/
private theorem Begun.finish {size : Word} {buf : Memory} {time : FdbTime}
    (begun : Begun maxLen V s slots (wholeWords size.toNat) W)
    (body : Body maxLen V s slots)
    (fits : total maxLen slots + 32 + wholeWords size.toNat ≤ 1968)
    (entry : ∀ off, off + 4 ≤ 12 → wordAt W (slotAddr s slots.length + 20 + off) =
      wordAt (idxBuf time size
        (w32 (secStart (s + 1) - used maxLen slots - wholeWords size.toNat))) off)
    (data : ∀ j < size.toNat,
      W (secStart (s + 1) - used maxLen slots - wholeWords size.toNat + j) = buf j) :
    Body maxLen (fill W (slotAddr s slots.length + 4) 4 markWord) s
      (slots ++ [.saved ⟨.write, time, size, buf⟩]) := by
  have split : total maxLen slots = 32 * slots.length + used maxLen slots := rfl
  have sector : secStart (s + 1) = secStart s + 2048 := rfl
  have place : slotAddr s slots.length = secStart s + 80 + 32 * slots.length := rfl
  have grow := wholeWords_ge size.toNat
  obtain ⟨first, second, third⟩ := idxBuf_words time size
    (w32 (secStart (s + 1) - used maxLen slots - wholeWords size.toNat))
  have word (off : Nat) (inside : off + 4 ≤ 12) :
      wordAt (fill W (slotAddr s slots.length + 4) 4 markWord)
        (slotAddr s slots.length + (20 + off)) =
      wordAt (idxBuf time size
        (w32 (secStart (s + 1) - used maxLen slots - wholeWords size.toNat))) off := by
    rw [← Nat.add_assoc, ← entry off inside]
    exact wordAt_congr fun i low => fill_outside (by omega)
  refine body.push (Nat.le_refl _) fits (fun _ _ => Nat.le_refl _)
    (begun.only.filled (.inl (by omega))) ⟨?_, Nat.le_refl 2, ?_, ?_, ?_, ?_⟩
  · exact begun.table.mark (Nat.le_refl 1) (by decide)
  · rw [word 0 (by omega), first]
  · rw [word 4 (by omega), second]
  · rw [word 8 (by omega), third]
  · intro j low
    change j < size.toNat at low
    change fill W _ 4 markWord
      (secStart (s + 1) - used maxLen slots - wholeWords size.toNat + j) = buf j
    rw [fill_outside (by omega)]
    exact data j low

/-- `write_tsl` adds a slot to the sector in use. -/
theorem writeTsl_triple {env : Environment} (ok : env.Succeeds) (junk : Memory) {db : FdbTsdb}
    {blob : FdbBlob} (opened : Opened db) (low : s < 63) (body : Body db.maxLen V s slots)
    (idx : db.curSec.emptyIdx = w32 (slotAddr s slots.length))
    (data : db.curSec.emptyData = w32 (secStart (s + 1)) - w32 (used db.maxLen slots))
    (small : blob.size.toNat ≤ db.maxLen.toNat)
    (fits : total db.maxLen slots + 32 + wholeWords blob.size.toNat ≤ 1968) (time : FdbTime)
    (start : Board) :
    Triple (Holds db.parent start V) (writeTsl env junk db blob time)
      (fun r b => r = .noErr ∧ ∃ W, KeptOff (secStart s + 80) (secStart (s + 1)) V W ∧
        Body db.maxLen W s (slots ++ [.saved ⟨.write, time, blob.size, blob.buf⟩]) ∧
        Holds db.parent start W b)
      (Lost env db.parent start (Interrupted db.maxLen V s slots)) := by
  have split : total db.maxLen slots = 32 * slots.length + used db.maxLen slots := rfl
  have sector : secStart (s + 1) = secStart s + 2048 := rfl
  have place : slotAddr s slots.length = secStart s + 80 + 32 * slots.length := rfl
  have length : partLen = 129024 := rfl
  have begin : secStart s = 2048 * s := rfl
  have grow := wholeWords_ge blob.size.toNat
  have words : 4 * writtenWords blob.size = wholeWords blob.size.toNat := Nat.mul_comm _ _
  have shorter : wholeWords blob.size.toNat ≤ wholeWords db.maxLen.toNat := by
    unfold wholeWords
    omega
  have idxPlace : (w32 (slotAddr s slots.length)).toNat = slotAddr s slots.length :=
    toNat_w32 (by omega)
  have tsPlace : (w32 (slotAddr s slots.length) + LOG_IDX_TS_OFFSET).toNat =
      slotAddr s slots.length + 20 := by
    rw [show LOG_IDX_TS_OFFSET = w32 20 from rfl, w32_add, toNat_w32 (by omega)]
  have log : db.curSec.emptyData - fdbWgAlign blob.size =
      w32 (secStart (s + 1) - used db.maxLen slots - wholeWords blob.size.toNat) := by
    rw [data, fdbWgAlign_eq (by omega), w32_sub (by omega), w32_sub (by omega)]
  have logPlace : (w32 (secStart (s + 1) - used db.maxLen slots -
      wholeWords blob.size.toNat)).toNat =
      secStart (s + 1) - used db.maxLen slots - wholeWords blob.size.toNat :=
    toNat_w32 (by omega)
  obtain ⟨W, written⟩ : ∃ W, W = fill V (slotAddr s slots.length) 4 markWord := ⟨_, rfl⟩
  obtain ⟨X, indexed⟩ : ∃ X, X = fill W (slotAddr s slots.length + 20) 12
    (idxBuf time blob.size (w32 (secStart (s + 1) - used db.maxLen slots -
      wholeWords blob.size.toNat))) := ⟨_, rfl⟩
  obtain ⟨Y, filled⟩ : ∃ Y, Y = fill X (secStart (s + 1) - used db.maxLen slots -
    wholeWords blob.size.toNat) (wholeWords blob.size.toNat) blob.buf := ⟨_, rfl⟩
  have begun : Begun db.maxLen V s slots (wholeWords blob.size.toNat) W :=
    written ▸ body.begin fits
  have entered : Begun db.maxLen V s slots (wholeWords blob.size.toNat) X :=
    indexed ▸ begun.filled fits (.inl (by omega))
  have stored : Begun db.maxLen V s slots (wholeWords blob.size.toNat) Y :=
    filled ▸ entered.filled fits (.inr (by omega))
  have torn {Z : Memory} (begun : Begun db.maxLen V s slots (wholeWords blob.size.toNat) Z) :=
    begun.interrupted body shorter fits
  have first : Triple (Holds db.parent start V)
      (fdbWriteStatus env db.parent (w32 (slotAddr s slots.length)) junk FDB_TSL_STATUS_NUM
        TslStatus.preWrite.index)
      (fun r b => r = .noErr ∧ Holds db.parent start W b)
      (Lost env db.parent start (Interrupted db.maxLen V s slots)) := by
    refine (fdbWriteStatus_triple ok opened.stored _ junk (by decide) (by omega) ?_).mono ?_ ?_
    · intro i low
      exact body.erased (by omega) (by omega)
    · rintro r b ⟨rfl, holds⟩
      rw [idxPlace] at holds
      exact ⟨rfl, written ▸ holds⟩
    · exact fun b lost => lost.mono fun Z none => .inl none
  have second : Triple (Holds db.parent start W)
      (fdbFlashWrite env db.parent (w32 (slotAddr s slots.length) + LOG_IDX_TS_OFFSET)
        (idxBuf time blob.size (w32 (secStart (s + 1) - used db.maxLen slots -
          wholeWords blob.size.toNat))) 12)
      (fun r b => r = .noErr ∧ Holds db.parent start X b)
      (Lost env db.parent start (Interrupted db.maxLen V s slots)) := by
    have three : writtenWords 12 = 3 := rfl
    refine (begun.write ok opened.stored body shorter fits low _ (.inl (by omega)) ?_).mono ?_ ?_
    · intro i low
      rw [tsPlace, written, fill_outside (by omega)]
      exact body.erased (by omega) (by omega)
    · rintro r b ⟨rfl, holds⟩
      rw [tsPlace, three] at holds
      exact ⟨rfl, indexed ▸ holds⟩
    · exact fun b lost => lost
  have third : Triple (Holds db.parent start X)
      (fdbFlashWrite env db.parent (w32 (secStart (s + 1) - used db.maxLen slots -
        wholeWords blob.size.toNat)) blob.buf blob.size)
      (fun r b => r = .noErr ∧ Holds db.parent start Y b)
      (Lost env db.parent start (Interrupted db.maxLen V s slots)) := by
    refine (entered.write ok opened.stored body shorter fits low _ (.inr (by omega)) ?_).mono ?_ ?_
    · intro i low
      rw [logPlace, indexed, fill_outside (by omega), written, fill_outside (by omega)]
      exact body.erased (by omega) (by omega)
    · rintro r b ⟨rfl, holds⟩
      rw [logPlace, words] at holds
      exact ⟨rfl, filled ▸ holds⟩
    · exact fun b lost => lost
  have fourth : Triple (Holds db.parent start Y)
      (fdbWriteStatus env db.parent (w32 (slotAddr s slots.length)) junk FDB_TSL_STATUS_NUM
        TslStatus.write.index)
      (fun r b => r = .noErr ∧
        Holds db.parent start (fill Y (slotAddr s slots.length + 4) 4 markWord) b)
      (Lost env db.parent start (Interrupted db.maxLen V s slots)) := by
    refine (fdbWriteStatus_triple ok opened.stored _ junk (by decide) (by omega) ?_).mono ?_ ?_
    · intro i low
      rw [filled, fill_outside (by omega), indexed, fill_outside (by omega), written,
        fill_outside (by omega)]
      exact body.erased (by omega) (by omega)
    · rintro r b ⟨rfl, holds⟩
      rw [idxPlace] at holds
      exact ⟨rfl, holds⟩
    · rintro b lost
      refine lost.mono ?_
      rintro Z rfl
      exact torn stored
  unfold writeTsl
  rw [idx, log]
  refine orReturn_triple first (orReturn_triple second (orReturn_triple third (fourth.mono ?_ ?_)))
  · rintro r b ⟨rfl, holds⟩
    refine ⟨rfl, _, (stored.only.filled (.inl (by omega))).keptOff fits, ?_, holds⟩
    refine stored.finish body fits ?_ ?_
    · intro off inside
      rw [filled, ← wordAt_written (m := W) (a := slotAddr s slots.length + 20) inside, ← indexed]
      exact wordAt_congr fun i low => fill_outside (by omega)
    · intro j low
      rw [filled, fill_inside (by omega) (by omega), Nat.add_sub_cancel_left]
  · exact fun b lost => lost

/-- A log is written only if power lasts beyond the first word of its index entry. -/
theorem writeTsl_powered {env : Environment} (ok : env.Succeeds) (junk : Memory) {db : FdbTsdb}
    (blob : FdbBlob) (opened : Opened db) (low : s < 63) {i : Nat}
    (idx : db.curSec.emptyIdx = w32 (slotAddr s i)) (room : 32 * i + 32 ≤ 1968) (time : FdbTime)
    (b : Board) :
    (writeTsl env junk db blob time b).Sat (fun _ _ => env.power (b.clock + 1) = true)
      fun _ => True := by
  have length : partLen = 129024 := rfl
  have entry : slotAddr s i = 2048 * s + 80 + 32 * i := rfl
  have place : (w32 (slotAddr s i)).toNat = slotAddr s i := toNat_w32 (by omega)
  have behind : (w32 (slotAddr s i) + LOG_IDX_TS_OFFSET).toNat = slotAddr s i + 20 := by
    rw [show LOG_IDX_TS_OFFSET = w32 20 from rfl, w32_add, toNat_w32 (by omega)]
  have three : writtenWords 12 = 3 := rfl
  have marked : Triple (· = b) (fdbWriteStatus env db.parent (w32 (slotAddr s i)) junk
      FDB_TSL_STATUS_NUM TslStatus.preWrite.index)
      (fun r t => r = .noErr ∧ t.clock = b.clock + 1) fun _ => True := by
    rintro _ rfl
    refine (fdbWriteStatus_powered ok opened.stored _ junk (by decide) (by omega) _).mono ?_ ?_
    · exact fun r t post => ⟨post.1, post.2.1⟩
    · exact fun _ _ => trivial
  have indexed : Triple (fun t => t.clock = b.clock + 1) (fdbFlashWrite env db.parent
      (w32 (slotAddr s i) + LOG_IDX_TS_OFFSET)
      (idxBuf time blob.size (db.curSec.emptyData - fdbWgAlign blob.size)) 12)
      (fun r _ => r = .noErr ∧ env.power (b.clock + 1) = true) fun _ => True := by
    intro t clock
    refine (fdbFlashWrite_run ok opened.stored _ (by omega) t).mono ?_ fun _ _ => trivial
    rintro r u ⟨done, -, powered⟩
    exact ⟨done, clock ▸ powered 0 (by decide)⟩
  unfold writeTsl
  rw [idx]
  refine orReturn_triple marked (orReturn_triple indexed ?_) b rfl
  exact fun u powered => Outcome.Sat.const powered _

end Appending

/-! ### Words of a header -/

section Words

variable {env : Environment} {db : FdbDb} {start : Board} {V W : Memory}

/-- A step that writes one word: power may go before it. -/
def Writes (env : Environment) (db : FdbDb) (start : Board) (step : Proc Board FdbErr)
    (V W : Memory) : Prop :=
  Triple (Holds db start V) step (fun r b => r = .noErr ∧ Holds db start W b)
    (Lost env db start fun X => X = V)

theorem Writes.andThen {step rest : Proc Board FdbErr} {K : Memory → Prop}
    {Q : FdbErr → Board → Prop} (first : Writes env db start step V W) (kept : K V)
    (next : Triple (Holds db start W) rest Q (Lost env db start K)) :
    Triple (Holds db start V) (orReturn step rest) Q (Lost env db start K) := by
  refine orReturn_triple (first.mono (fun _ _ post => post) fun b lost => ?_) next
  refine lost.mono ?_
  rintro X rfl
  exact kept

theorem Writes.last {step : Proc Board FdbErr} {K : Memory → Prop} {Q : FdbErr → Board → Prop}
    (first : Writes env db start step V W) (kept : K V)
    (post : ∀ b, Holds db start W b → Q .noErr b) :
    Triple (Holds db start V) step Q (Lost env db start K) := by
  refine first.mono ?_ fun b lost => ?_
  · rintro r b ⟨rfl, holds⟩
    exact post b holds
  · refine lost.mono ?_
    rintro X rfl
    exact kept

/-- Writing a word at an address whose four bytes are erased. -/
theorem writeWord (ok : env.Succeeds) (stored : Stored db) {a : Nat} (inside : a + 4 ≤ partLen)
    (erased : ∀ i < 4, V (a + i) = 0xFF) (w : Word) :
    Writes env db start (fdbFlashWrite env db (w32 a) (wordBuf w) 4) V
      (fill V a 4 (wordBytes w)) := by
  have one : writtenWords 4 = 1 := rfl
  have length : partLen = 129024 := rfl
  have place : (w32 a).toNat = a := toNat_w32 (by omega)
  refine (fdbFlashWrite_triple ok stored (wordBuf w) (by omega) ?_).mono ?_ ?_
  · rw [place]
    exact erased
  · rintro r b ⟨rfl, holds⟩
    rw [place, one] at holds
    refine ⟨rfl, ?_⟩
    rwa [fill_congr (g := wordBytes w) fun i low => fill_inside (by omega) (by omega)] at holds
  · intro b lost
    refine lost.mono ?_
    rintro X ⟨k, low, rfl⟩
    obtain rfl : k = 0 := by omega
    exact fill_zero _ _ _

/-- Writing a status marks one cell of its table. -/
theorem writeStatus (ok : env.Succeeds) (stored : Stored db) (junk : Memory) {a num k : Nat}
    (low : k + 1 < num) (inside : a + 4 * (k + 1) ≤ partLen)
    (erased : ∀ i < 4, V (a + 4 * k + i) = 0xFF) :
    Writes env db start (fdbWriteStatus env db (w32 a) junk num (k + 1)) V
      (fill V (a + 4 * k) 4 markWord) := by
  have length : partLen = 129024 := rfl
  have place : (w32 a).toNat = a := toNat_w32 (by omega)
  have triple : Triple (Holds db start V) _ _ _ :=
    fdbWriteStatus_triple ok stored (w32 a) junk low (by omega) (by rwa [place])
  rw [place] at triple
  exact triple

end Words

/-! ### Closing, formatting and opening a sector -/

section Sectors

variable {env : Environment} {db : FdbTsdb} {V : Memory} {s : Nat} {slots : List Slot}
  {first : FdbTime} {start : Board}

/-- The header at `h` behind the four writes of its end info. -/
private def endedHeader (V : Memory) (h : Nat) (lastTime : FdbTime) (endIdx : Word) : Memory :=
  fill (fill (fill (fill V (h + 28 + 4 * 0) 4 markWord) (h + 20) 4 (wordBytes lastTime))
    (h + 24) 4 (wordBytes endIdx)) (h + 28 + 4 * 1) 4 markWord

/-- The header behind the five writes that close its sector. -/
private def closedHeader (V : Memory) (h : Nat) (lastTime : FdbTime) (endIdx : Word) : Memory :=
  fill (endedHeader V h lastTime endIdx) (h + 4 * 2) 4 markWord

private theorem endedHeader_outside {h x : Nat} {ended : FdbTime} {endIdx : Word}
    (away : x < h + 20 ∨ h + 36 ≤ x) : endedHeader V h ended endIdx x = V x := by
  unfold endedHeader
  rw [fill_outside (by omega), fill_outside (by omega), fill_outside (by omega),
    fill_outside (by omega)]

private theorem closedHeader_outside {h x : Nat} {ended : FdbTime} {endIdx : Word}
    (away : x < h + 8 ∨ h + 12 ≤ x ∧ x < h + 20 ∨ h + 36 ≤ x) :
    closedHeader V h ended endIdx x = V x := by
  rw [closedHeader, fill_outside (by omega), endedHeader_outside (by omega)]

private theorem closedHeader_words (V : Memory) (h : Nat) (ended : FdbTime) (endIdx : Word) :
    wordAt (closedHeader V h ended endIdx) (h + 20) = ended ∧
      wordAt (closedHeader V h ended endIdx) (h + 24) = endIdx := by
  unfold closedHeader endedHeader
  constructor
  · rw [← wordAt_fill (fill V (h + 28 + 4 * 0) 4 markWord) (h + 20) ended]
    refine wordAt_congr fun i low => ?_
    rw [wordAt_fill, fill_outside (by omega), fill_outside (by omega), fill_outside (by omega)]
  · refine Eq.trans (wordAt_congr fun i low => ?_) (wordAt_fill (fill
      (fill V (h + 28 + 4 * 0) 4 markWord) (h + 20) 4 (wordBytes ended)) (h + 24) endIdx)
    rw [fill_outside (by omega), fill_outside (by omega)]

private theorem closedHeader_full {maxLen : Word} {ended : FdbTime}
    (active : ActiveAt maxLen V s first slots) :
    FullAt maxLen (closedHeader V (secStart s) ended (w32 (slotAddr s (slots.length - 1)))) s first
      ended slots := by
  have statuses : 4 * (FDB_TSL_STATUS_NUM - 1) = 20 := rfl
  have stores : 4 * (FDB_SECTOR_STORE_STATUS_NUM - 1) = 12 := rfl
  have using_index : SectorStatus.storeUsing.index = 2 := rfl
  obtain ⟨time, idx⟩ := closedHeader_words V (secStart s) ended
    (w32 (slotAddr s (slots.length - 1)))
  have unused : TableAt V (secStart s + 28) FDB_TSL_STATUS_NUM 0 := by
    refine TableAt.erased fun i low => ?_
    rw [Nat.add_assoc]
    exact active.unclosed _ (by omega) (by omega)
  refine ⟨⟨?_, ?_⟩, ?_, ?_, time, idx, ?_⟩
  · refine TableAt.mark ?_ (Nat.le_refl 2) (by decide)
    exact active.header.table.congr fun i low => endedHeader_outside (by omega)
  · rw [← active.header.magic]
    exact wordAt_congr fun i low => closedHeader_outside (by omega)
  · rw [← active.start]
    exact wordAt_congr fun i low => closedHeader_outside (by omega)
  · refine TableAt.congr ?_ fun i low => fill_outside (by omega)
    refine TableAt.mark ?_ (Nat.le_refl 1) (by decide)
    refine (unused.mark (Nat.le_refl 0) (by decide)).congr fun i low => ?_
    rw [fill_outside (by omega), fill_outside (by omega)]
  · exact active.body.congr fun i left _ => closedHeader_outside (by omega)

variable (start) in
/-- The end info is written, then the sector is marked full; its logs are left alone. -/
theorem closeSector_triple (ok : env.Succeeds) (junk : Memory) (opened : Opened db) (low : s < 63)
    (active : ActiveAt db.maxLen V s first slots) (some : slots ≠ [])
    (addr : db.curSec.addr = w32 (secStart s)) (unused : db.curSec.endInfoStat0 = .unused)
    (idx : db.curSec.emptyIdx = w32 (slotAddr s slots.length)) :
    Triple (Holds db.parent start V) (closeSector env junk db)
      (fun r b => r = .noErr ∧ ∃ W, KeptOff (secStart s) (secStart s + 80) V W ∧
        FullAt db.maxLen W s first db.lastTime slots ∧ Holds db.parent start W b)
      (Lost env db.parent start (KeptOff (secStart s) (secStart s + 80) V)) := by
  have length : partLen = 129024 := rfl
  have begin : secStart s = 2048 * s := rfl
  have filled : 0 < slots.length := List.length_pos_iff.mpr some
  have place (off : Nat) : w32 (secStart s) + w32 off = w32 (secStart s + off) := w32_add _ _
  have last : db.curSec.emptyIdx - LOG_IDX_DATA_SIZE = w32 (slotAddr s (slots.length - 1)) := by
    have split : slotAddr s slots.length = slotAddr s (slots.length - 1) + 32 := by
      unfold slotAddr
      omega
    rw [idx, logIdxDataSize_eq, w32_sub (by omega), split, Nat.add_sub_cancel]
  have erased (off : Nat) (left : 20 ≤ off) (right : off + 4 ≤ 80) (i : Nat) (inside : i < 4) :
      V (secStart s + off + i) = 0xFF := by
    rw [Nat.add_assoc]
    exact active.unclosed _ (by omega) (by omega)
  have cell (i : Nat) (inside : i < 4) : V (secStart s + 4 * 2 + i) = 0xFF := by
    have stores : 4 * (FDB_SECTOR_STORE_STATUS_NUM - 1) = 12 := rfl
    have index : SectorStatus.storeUsing.index = 2 := rfl
    rw [Nat.add_assoc]
    exact active.header.table.clear _ (by omega) (by omega)
  have status : w32 (secStart s) + SECTOR_END0_STATUS_OFFSET = w32 (secStart s + 28) := place 28
  have time : w32 (secStart s) + SECTOR_END0_TIME_OFFSET = w32 (secStart s + 20) := place 20
  have endIdx : w32 (secStart s) + SECTOR_END0_IDX_OFFSET = w32 (secStart s + 24) := place 24
  have kept := KeptOff.refl (secStart s) (secStart s + 80) V
  unfold closeSector
  simp only [if_pos unused, saveEndInfo, last, status, time, endIdx, addr]
  refine orReturn_triple (R := Holds db.parent start (endedHeader V (secStart s) db.lastTime
    (w32 (slotAddr s (slots.length - 1))))) ?_ ?_
  · refine (writeStatus ok opened.stored junk (by decide) (by omega) ?_).andThen kept ?_
    · exact erased 28 (by omega) (by omega)
    refine (writeWord ok opened.stored (by omega) ?_ _).andThen
      (kept.filled (by omega) (by omega)) ?_
    · intro i low
      rw [fill_outside (by omega)]
      exact erased 20 (by omega) (by omega) i low
    refine (writeWord ok opened.stored (by omega) ?_ _).andThen
      ((kept.filled (by omega) (by omega)).filled (by omega) (by omega)) ?_
    · intro i low
      rw [fill_outside (by omega), fill_outside (by omega)]
      exact erased 24 (by omega) (by omega) i low
    refine (writeStatus ok opened.stored junk (by decide) (by omega) ?_).last
      (((kept.filled (by omega) (by omega)).filled (by omega) (by omega)).filled (by omega)
        (by omega)) fun b holds => ⟨rfl, holds⟩
    intro i low
    rw [fill_outside (by omega), fill_outside (by omega), fill_outside (by omega)]
    exact erased 32 (by omega) (by omega) i low
  · have before : KeptOff (secStart s) (secStart s + 80) V (endedHeader V (secStart s) db.lastTime
        (w32 (slotAddr s (slots.length - 1)))) :=
      fun x away => endedHeader_outside (by omega)
    refine (writeStatus ok opened.stored junk (by decide) (by omega) ?_).last before fun b holds =>
      ⟨rfl, _, before.filled (by omega) (by omega), closedHeader_full active, holds⟩
    intro i low
    rw [endedHeader_outside (by omega)]
    exact cell i low

/-- What formatting leaves that power went away from: nothing, or a sector without the magic
word, which is written last. -/
def Halfway (V : Memory) (s : Nat) (W : Memory) : Prop :=
  KeptOff (secStart s) (secStart (s + 1)) V W ∧ (W = V ∨ Unformatted W s)

private theorem unformatted_erased {W : Memory} (ones : ∀ i < 4, W (secStart s + 12 + i) = 0xFF) :
    Unformatted W s := by
  have word : wordAt W (secStart s + 12) = 0xFFFFFFFF :=
    (wordAt_congr fun i low => ones i low).trans (wordAt_ones _)
  rw [Unformatted, word]
  decide

/-- Formatting erases a sector and writes the two words of an empty one. -/
theorem formatSector_triple (ok : env.Succeeds) (junk : Memory) (opened : Opened db)
    (low : s < 63) :
    Triple (Holds db.parent start V) (formatSector env junk db (w32 (secStart s)))
      (fun r b => r = .noErr ∧ ∃ W, KeptOff (secStart s) (secStart (s + 1)) V W ∧ EmptyAt W s ∧
        Holds db.parent start W b)
      (Lost env db.parent start (Halfway V s)) := by
  have length : partLen = 129024 := rfl
  have begin : secStart s = 2048 * s := rfl
  have sector : secStart (s + 1) = secStart s + 2048 := rfl
  have place : (w32 (secStart s)).toNat = secStart s := toNat_w32 (by omega)
  have size : (w32 2048).toNat = 2048 := rfl
  have aligned : (w32 (secStart s) % db.parent.secSize = 0) = True := by
    refine eq_true (BitVec.eq_of_toNat_eq ?_)
    rw [opened.secSize, BitVec.toNat_umod, place, size]
    change _ = 0
    omega
  have magic : w32 (secStart s) + SECTOR_MAGIC_OFFSET = w32 (secStart s + 12) := w32_add _ _
  have kept := KeptOff.refl (secStart s) (secStart (s + 1)) V
  obtain ⟨E, erased⟩ : ∃ E, E = fill V (secStart s) 2048 fun _ => 0xFF := ⟨_, rfl⟩
  have ones (i : Nat) (inside : i < 2048) : E (secStart s + i) = 0xFF := by
    rw [erased, fill_inside (by omega) (by omega)]
  have wiped : KeptOff (secStart s) (secStart (s + 1)) V E :=
    erased ▸ kept.filled (Nat.le_refl _) (Nat.le_refl _)
  have table : TableAt E (secStart s) FDB_SECTOR_STORE_STATUS_NUM 0 :=
    TableAt.erased fun i low => ones i (by unfold FDB_SECTOR_STORE_STATUS_NUM at low; omega)
  -- the magic word is still erased behind the erase and behind the status
  have noMagic : Halfway V s E := by
    refine ⟨wiped, .inr (unformatted_erased fun i inside => ?_)⟩
    rw [Nat.add_assoc]
    exact ones _ (by omega)
  have marked : Halfway V s (fill E (secStart s + 4 * 0) 4 markWord) := by
    refine ⟨wiped.filled (by omega) (by omega), .inr (unformatted_erased fun i inside => ?_)⟩
    rw [fill_outside (by omega), Nat.add_assoc]
    exact ones _ (by omega)
  unfold formatSector
  simp only [fdbAssert, aligned, decide_true, if_true, pure_bind, magic]
  refine Triple.bind (R := fun r b => r = .noErr ∧ Holds db.parent start E b) ?_ ?_
  · refine (fdbFlashErase_triple ok opened.stored ?_ ?_ ?_).mono ?_ ?_
    · rw [place, opened.secSize, size]
      omega
    · rw [place]
      unfold pageSize
      omega
    · rw [opened.secSize, size]
      rfl
    · rintro r b ⟨rfl, holds⟩
      rw [place, opened.secSize, size, ← erased] at holds
      exact ⟨rfl, holds⟩
    · intro b lost
      refine lost.mono ?_
      rintro W ⟨k, part, rfl⟩
      rw [opened.secSize, size] at part
      unfold pageSize at part
      rw [place]
      -- a sector is one page: it is erased or it is not
      rcases Nat.eq_zero_or_pos k with rfl | one
      · rw [Nat.mul_zero, fill_zero]
        exact ⟨kept, .inl rfl⟩
      · obtain rfl : k = 1 := by omega
        rw [show pageSize * 1 = 2048 from rfl, ← erased]
        exact noMagic
  · intro r b hb
    obtain ⟨rfl, holds⟩ := hb
    rw [if_neg (by simp)]
    refine (writeStatus ok opened.stored junk (by decide) (by omega) ?_).andThen noMagic
      ((writeWord ok opened.stored (by omega) ?_ _).last marked ?_) b holds
    · intro i inside
      exact ones i (by omega)
    · intro i inside
      rw [fill_outside (by omega), Nat.add_assoc]
      exact ones _ (by omega)
    · intro b holds
      refine ⟨rfl, _, (wiped.filled (by omega) (by omega)).filled (by omega) (by omega),
        ⟨⟨?_, wordAt_fill _ _ _⟩, ?_⟩, holds⟩
      · refine (table.mark (Nat.le_refl 0) (by decide)).congr fun i low => fill_outside ?_
        unfold FDB_SECTOR_STORE_STATUS_NUM at low
        omega
      · intro i left right
        rw [fill_outside (by omega), fill_outside (by omega)]
        exact ones i right

/-- An empty sector becomes one in use that holds nothing yet. -/
theorem openSector_triple (ok : env.Succeeds) (junk : Memory) (opened : Opened db) (low : s < 63)
    (empty : EmptyAt V s) (addr : db.curSec.addr = w32 (secStart s))
    (status : db.curSec.status = .storeEmpty) (time : FdbTime) :
    Triple (Holds db.parent start V) (openSector env junk db time)
      (fun r b => r = (.noErr, { db with
          curSec := { db.curSec with status := .storeUsing, startTime := time } }) ∧
        ∃ W, KeptOff (secStart s) (secStart s + 80) V W ∧ ActiveAt db.maxLen W s time [] ∧
          Holds db.parent start W b)
      (Lost env db.parent start (KeptOff (secStart s) (secStart s + 80) V)) := by
  have length : partLen = 129024 := rfl
  have begin : secStart s = 2048 * s := rfl
  have stores : 4 * (FDB_SECTOR_STORE_STATUS_NUM - 1) = 12 := rfl
  have index : SectorStatus.storeEmpty.index = 1 := rfl
  have place : w32 (secStart s) + SECTOR_START_TIME_OFFSET = w32 (secStart s + 16) := w32_add _ _
  have kept := KeptOff.refl (secStart s) (secStart s + 80) V
  have using_table : TableAt (fill V (secStart s + 4 * 1) 4 markWord) (secStart s)
      FDB_SECTOR_STORE_STATUS_NUM 2 := empty.header.table.mark (Nat.le_refl 1) (by decide)
  unfold openSector
  rw [if_pos status]
  simp only [addr, place]
  refine Triple.bind (R := fun r b => r = .noErr ∧ Holds db.parent start (fill (fill V
    (secStart s + 4 * 1) 4 markWord) (secStart s + 16) 4 (wordBytes time)) b) ?_ ?_
  · refine (writeStatus ok opened.stored junk (by decide) (by omega) ?_).andThen kept ?_
    · intro i low
      rw [Nat.add_assoc]
      exact empty.header.table.clear _ (by omega) (by omega)
    refine (writeWord ok opened.stored (by omega) ?_ _).last
      (kept.filled (by omega) (by omega)) fun b holds => ⟨rfl, holds⟩
    intro i low
    rw [fill_outside (by omega), Nat.add_assoc]
    exact empty.clear _ (by omega) (by omega)
  · intro r b hb
    obtain ⟨rfl, holds⟩ := hb
    refine ⟨rfl, _, (kept.filled (by omega) (by omega)).filled (by omega) (by omega), ?_, holds⟩
    refine ⟨⟨?_, ?_⟩, wordAt_fill _ _ _, ?_, ?_, ?_⟩
    · exact using_table.congr fun i low => fill_outside (by omega)
    · rw [← empty.header.magic]
      refine wordAt_congr fun i low => ?_
      rw [fill_outside (by omega), fill_outside (by omega)]
    · intro i left right
      rw [fill_outside (by omega), fill_outside (by omega)]
      exact empty.clear i (by omega) (by omega)
    · exact ⟨fun i e here => by simp at here, fun i low => absurd low (Nat.not_lt_zero i),
        fun i r here => by simp at here⟩
    · intro i left right
      rw [List.length_nil] at left
      rw [used_nil] at right
      rw [fill_outside (by omega), fill_outside (by omega)]
      exact empty.clear i (by omega) (by omega)

end Sectors

end BmsFirmware.Flashdb.SectorWrites
