/- Module: BmsFirmware/Flashdb/Chronology
   Source: application/flashdb/src/fdb_tsdb.c
   Digest: A book keeps the newest logs, each later than the one before it. -/

import BmsFirmware.Flashdb.Appending

set_option autoImplicit false
set_option relaxedAutoImplicit false

namespace BmsFirmware.Flashdb.Chronology

open BmsFirmware.Library.ByteMemory
open BmsFirmware.Flashdb.Utils
open BmsFirmware.Flashdb.Tsdb
open BmsFirmware.Flashdb.SectorLayout
open BmsFirmware.Flashdb.LogBook
open BmsFirmware.Flashdb.Appending

/-! ### The logs behind an append -/

section Logs

variable {book : Book} {maxLen : Word}

theorem slots_some {sec : Sector} (current : book.current = some sec) : book.slots = sec.slots := by
  rw [Book.slots, current]
  rfl

theorem slots_none (book : Book) (current : book.current = none) : book.slots = [] := by
  rw [Book.slots, current]
  rfl

theorem logs_put (r : Record) : (book.put r).logs = book.logs ++ [.saved r] := by
  unfold Book.put
  cases current : book.current with
  | none => rw [Book.logs, Book.logs, slots_none book current, List.append_nil]; rfl
  | some sec =>
    rw [Book.logs, Book.logs, slots_some current, List.append_assoc]
    rfl

/-- Closing a sector gives up the oldest one where 62 are closed. -/
theorem logs_turned {sec : Sector} (current : book.current = some sec) :
    ∃ k, (book.turned sec).logs = book.logs.drop k ∧ k ≤ book.logs.length ∧
      (k = 0 ∨ (book.turned sec).closed.length = 62) := by
  have short := book.closed_le
  have logs : (book.turned sec).logs =
      ((book.closed ++ [sec]).drop (book.closed.length - 61)).flatMap Sector.slots := by
    rw [Book.logs, slots_none (book.turned sec) rfl, List.append_nil]
    rfl
  have all : book.logs = (book.closed ++ [sec]).flatMap Sector.slots := by
    rw [Book.logs, slots_some current, List.flatMap_append, List.flatMap_singleton]
  rcases Nat.lt_or_ge book.closed.length 62 with more | full
  · refine ⟨0, ?_, Nat.zero_le _, .inl rfl⟩
    rw [logs, all, show book.closed.length - 61 = 0 by omega]
    rfl
  · have length : book.closed.length = 62 := by omega
    cases split : book.closed with
    | nil => simp [split] at length
    | cons first rest =>
      refine ⟨first.slots.length, ?_, ?_, .inr ?_⟩
      · rw [logs, all, length, split, List.cons_append, List.flatMap_cons, List.drop_left]
        rfl
      · rw [all, split, List.cons_append, List.flatMap_cons, List.length_append]
        omega
      · rw [Book.turned_length, length]

/-- An append puts the new log behind the others and may give up the oldest ones. -/
theorem logs_add (maxLen : Word) (book : Book) (r : Record) :
    ∃ k, (book.add maxLen r).logs = book.logs.drop k ++ [.saved r] ∧ k ≤ book.logs.length ∧
      (k = 0 ∨ (book.add maxLen r).closed.length = 62) := by
  unfold Book.add
  rw [logs_put, (Book.put_closed _ r).1]
  unfold Book.target
  cases current : book.current with
  | none => exact ⟨0, rfl, Nat.zero_le _, .inl rfl⟩
  | some sec =>
    by_cases takes : sec.Takes maxLen r.size.toNat
    · simp only [if_pos takes]
      exact ⟨0, rfl, Nat.zero_le _, .inl rfl⟩
    · simp only [if_neg takes]
      obtain ⟨k, logs, bound, full⟩ := logs_turned current
      exact ⟨k, by rw [logs], bound, full⟩

/-- The number of closed sectors never falls. -/
theorem closed_add (maxLen : Word) (book : Book) (r : Record) :
    book.closed.length ≤ (book.add maxLen r).closed.length := by
  have short := book.closed_le
  rw [Book.add, (Book.put_closed _ r).1]
  unfold Book.target
  cases book.current with
  | none => exact Nat.le_refl _
  | some sec =>
    by_cases takes : sec.Takes maxLen r.size.toNat
    · simp only [if_pos takes]
      exact Nat.le_refl _
    · simp only [if_neg takes, Book.turned_length]
      omega

end Logs

/-! ### Records -/

def recordIn : Slot → Option Record
  | .torn => none
  | .saved r => some r

/-- The records among slots; a torn slot holds none. -/
def saved (slots : List Slot) : List Record := slots.filterMap recordIn

theorem saved_append (slots more : List Slot) : saved (slots ++ more) = saved slots ++ saved more :=
  List.filterMap_append

theorem saved_drop (slots : List Slot) (k : Nat) : saved (slots.drop k) <:+ saved slots := by
  refine ⟨saved (slots.take k), ?_⟩
  rw [← saved_append, List.take_append_drop]

/-! ### Times -/

def timeOf : Slot → Int
  | .torn => 0
  | .saved r => r.time.toInt

/-- All logs were saved, each later than the one before it. -/
structure Dated (book : Book) : Prop where
  intact : ∀ e ∈ book.logs, e ≠ .torn
  ordered : book.logs.Pairwise fun e e' => timeOf e < timeOf e'

section Times

variable {maxLen : Word} {book : Book}

theorem last_add (r : Record) : (book.add maxLen r).last = r.time := by
  obtain ⟨sec, current, -, -, ended⟩ := (book.target maxLen r.size.toNat).put_current r
  rw [Book.add, Book.latest _ sec current, ended]

end Times

end BmsFirmware.Flashdb.Chronology
