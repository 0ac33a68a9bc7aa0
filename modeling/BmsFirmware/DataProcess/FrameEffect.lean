/- Module: BmsFirmware/DataProcess/FrameEffect
   Source: application/dataprocess/process.c, application/registers/pu_table.c
   Digest: A frame touches only the registers it names, but for lookups that miss. -/

import BmsFirmware.DataProcess.Process

set_option autoImplicit false
set_option relaxedAutoImplicit false

namespace BmsFirmware.DataProcess.FrameEffect

open BmsFirmware.Library.ByteMemory
open BmsFirmware.Library.BlockHeap
open BmsFirmware.Flash.Controller
open BmsFirmware.Registers.PuTable
open BmsFirmware.Registers.HashIndex
open BmsFirmware.Registers.Frames
open BmsFirmware.DataProcess.Process

/-- The item's address pair is that of entry `i`. -/
def ItemNames (item : Bufdata) (i : Nat) : Prop :=
  Names (item.address.setWidth 32) (item.offset.setWidth 32) i

instance (item : Bufdata) (i : Nat) : Decidable (ItemNames item i) :=
  inferInstanceAs (Decidable (Names _ _ i))

/-- Some item names entry `i`. -/
def Named (items : List Bufdata) (i : Nat) : Prop := ∃ item ∈ items, ItemNames item i

instance (items : List Bufdata) (i : Nat) : Decidable (Named items i) :=
  inferInstanceAs (Decidable (∃ item ∈ items, ItemNames item i))

/-- The data of the last item that names entry `i`. -/
def lastNamed (items : List Bufdata) (i : Nat) : Option Word :=
  ((items.filter fun item => ItemNames item i).getLast?).map Bufdata.data

section Effects

variable (grant : Nat → Bool) (frame : CommFrame) (d : Device)

/-- A write frame puts the last data into every writable entry it names, marks it pending,
and leaves every other entry as it was. -/
def WritesOnlyNamed : Prop :=
  ∀ i < registers.length, (processWrite frame d).table.row i =
    match lastNamed frame.dataField i with
    | some data =>
        if (initialRow i).type = 'W' then { d.table.row i with data := data, status := 10 }
        else d.table.row i
    | none => d.table.row i

/-- A read frame marks the entries it names and leaves every other entry as it was. -/
def ReadsOnlyNamed : Prop :=
  ∀ i < registers.length,
    (Named frame.dataField i →
      (processRead grant frame d).table.row i = { d.table.row i with status := 1 }) ∧
    (¬Named frame.dataField i → (processRead grant frame d).table.row i = d.table.row i)

/-- What the items that miss write into entry 0 is what entry 0 should hold anyway. -/
def MissesHarmless : Prop :=
  match lastWritten frame.dataField 0, lastNamed frame.dataField 0 with
  | none, _ => True
  | some written, some named => written = named
  | some written, none => (d.table.row 0).data = written ∧ (d.table.row 0).status = 10

/-- The answer can be allocated, and an item that misses finds entry 0 named or marked; or
it cannot, and all that is named is marked already. -/
def MarksHarmless : Prop :=
  if FrameGranted grant frame.dataCount d.heap then
    (∃ item ∈ frame.dataField, registerId item = 0) →
      Named frame.dataField 0 ∨ (d.table.row 0).status = 1
  else ∀ i, Named frame.dataField i → (d.table.row i).status = 1

end Effects

section Proofs

variable {grant : Nat → Bool} {frame : CommFrame} {d : Device}

/-- Apart from index 0 a lookup finds exactly the entry that is named. -/
theorem registerId_eq_iff {item : Bufdata} {i : Nat} (other : i ≠ 0) :
    registerId item = i ↔ ItemNames item i :=
  ⟨fun found => names_of_puSearchId found other, puSearchId_of_names⟩

theorem registerId_of_names {item : Bufdata} {i : Nat} (named : ItemNames item i) :
    registerId item = i :=
  puSearchId_of_names named

private theorem lastWritten_eq (items : List Bufdata) {i : Nat} (other : i ≠ 0) :
    lastWritten items i = lastNamed items i := by
  have same : (fun item : Bufdata => decide (registerId item = i)) =
      fun item => decide (ItemNames item i) :=
    funext fun item => decide_eq_decide.mpr (registerId_eq_iff other)
  rw [lastWritten, lastNamed, same]

/-- Where entry 0 is named, something is written to it. -/
private theorem lastWritten_of_named {items : List Bufdata} {i : Nat}
    (named : lastNamed items i ≠ none) : lastWritten items i ≠ none := by
  intro nothing
  rw [lastWritten, Option.map_eq_none_iff, List.getLast?_eq_none_iff,
    List.filter_eq_nil_iff] at nothing
  apply named
  rw [lastNamed, Option.map_eq_none_iff, List.getLast?_eq_none_iff, List.filter_eq_nil_iff]
  intro item member
  have missed := nothing item member
  simp only [decide_eq_true_eq] at missed ⊢
  exact fun h => missed (registerId_of_names h)

private theorem row_zero_writable : (initialRow 0).type = 'W' := rfl

private theorem data_status_inj {r : PUData} {a b : Word} :
    ({ r with data := a, status := 10 } : PUData) = { r with data := b, status := 10 } ↔ a = b :=
  ⟨fun h => congrArg PUData.data h, fun h => by rw [h]⟩

private theorem data_status_kept {r : PUData} {a : Word} :
    ({ r with data := a, status := 10 } : PUData) = r ↔ r.data = a ∧ r.status = 10 := by
  constructor
  · intro same
    exact ⟨(congrArg PUData.data same).symm, (congrArg PUData.status same).symm⟩
  · rintro ⟨rfl, status⟩
    rw [← status]

private theorem writesOnlyNamed_iff : WritesOnlyNamed frame d ↔ MissesHarmless frame d := by
  have rows := processWrite_row frame d
  constructor
  · intro only
    have zero := only 0 (by rw [registers_length]; omega)
    rw [rows 0] at zero
    unfold MissesHarmless
    cases written : lastWritten frame.dataField 0 with
    | none => trivial
    | some a =>
      rw [written] at zero
      simp only [row_zero_writable, if_true] at zero
      cases named : lastNamed frame.dataField 0 with
      | none =>
        rw [named] at zero
        exact data_status_kept.mp zero
      | some b =>
        rw [named] at zero
        exact data_status_inj.mp zero
  · intro harmless i bound
    rw [rows i]
    by_cases other : i = 0
    · subst other
      unfold MissesHarmless at harmless
      cases written : lastWritten frame.dataField 0 with
      | none =>
        cases named : lastNamed frame.dataField 0 with
        | none => rfl
        | some b => exact absurd written (lastWritten_of_named (by simp [named]))
      | some a =>
        rw [written] at harmless
        simp only [row_zero_writable, if_true]
        cases named : lastNamed frame.dataField 0 with
        | none =>
          rw [named] at harmless
          exact data_status_kept.mpr harmless
        | some b =>
          rw [named] at harmless
          exact data_status_inj.mpr harmless
    · have same := lastWritten_eq frame.dataField other
      generalize lastWritten frame.dataField i = written at same ⊢
      subst same
      rfl

private theorem status_kept {r : PUData} : ({ r with status := 1 } : PUData) = r ↔ r.status = 1 :=
  ⟨fun same => (congrArg PUData.status same).symm, fun status => by rw [← status]⟩

private theorem readsOnlyNamed_iff :
    ReadsOnlyNamed grant frame d ↔ MarksHarmless grant frame d := by
  have table := processRead_table grant frame d
  unfold ReadsOnlyNamed MarksHarmless
  by_cases granted : FrameGranted grant frame.dataCount d.heap
  · rw [if_pos granted] at table ⊢
    rw [table]
    constructor
    · rintro only ⟨item, member, zero⟩
      by_cases named : Named frame.dataField 0
      · exact Or.inl named
      · have kept := (only 0 (by rw [registers_length]; omega)).2 named
        rw [readStatus_row, if_pos ⟨item, member, zero⟩] at kept
        exact Or.inr (status_kept.mp kept)
    · intro harmless i bound
      rw [readStatus_row]
      constructor
      · rintro ⟨item, member, named⟩
        rw [if_pos ⟨item, member, registerId_of_names named⟩]
      · intro unnamed
        by_cases hit : ∃ item ∈ frame.dataField, registerId item = i
        · rw [if_pos hit]
          by_cases other : i = 0
          · subst other
            exact status_kept.mpr ((harmless hit).resolve_left unnamed)
          · obtain ⟨item, member, found⟩ := hit
            exact absurd ⟨item, member, (registerId_eq_iff other).mp found⟩ unnamed
        · rw [if_neg hit]
  · rw [if_neg granted] at table ⊢
    rw [table]
    constructor
    · rintro only i ⟨item, member, named⟩
      exact status_kept.mp ((only i named.1).1 ⟨item, member, named⟩).symm
    · intro marked i bound
      exact ⟨fun named => (status_kept.mpr (marked i named)).symm, fun _ => rfl⟩

/-- A frame touches only what it names exactly when the items that are in no table entry
happen to leave entry 0 as it should be and a read frame can build its answer. -/
theorem frame_touchesOnlyNamed_iff (grant : Nat → Bool) (frame : CommFrame) (d : Device) :
    (WritesOnlyNamed frame d ↔ MissesHarmless frame d) ∧
      (ReadsOnlyNamed grant frame d ↔ MarksHarmless grant frame d) :=
  ⟨writesOnlyNamed_iff, readsOnlyNamed_iff⟩

/-- A frame that only misses breaks the rule on any device whose entry 0 is not pending. -/
private theorem not_writesOnlyNamed_of_stray {written : Word}
    (stray : lastWritten frame.dataField 0 = some written)
    (unnamed : lastNamed frame.dataField 0 = none) (idle : (d.table.row 0).status ≠ 10) :
    ¬WritesOnlyNamed frame d := by
  intro only
  have harmless := writesOnlyNamed_iff.mp only
  rw [MissesHarmless, stray, unnamed] at harmless
  exact idle harmless.2

/-- A write of 5 to an address that is in no table entry. -/
def strayItem : Bufdata := ⟨0x2000, 0x0000, 5⟩

def strayWrite : CommFrame := ⟨0x01, PU_FUN_WRITE, 1, [strayItem], 0⟩

private theorem strayItem_misses : registerId strayItem = 0 := by
  rw [registerId, puSearchId_eq]
  decide +kernel

/-- After a reset the stray write lands in entry 0. -/
theorem strayWrite_touchesEntryZero : ¬WritesOnlyNamed strayWrite (.initial fun _ => 0xFF) := by
  have written : lastWritten strayWrite.dataField 0 = some 5 := by
    rw [lastWritten, strayWrite, List.filter_cons_of_pos (by simp [strayItem_misses])]
    rfl
  refine not_writesOnlyNamed_of_stray written ?_ ?_
  · decide +kernel
  · decide +kernel

end Proofs

end BmsFirmware.DataProcess.FrameEffect
