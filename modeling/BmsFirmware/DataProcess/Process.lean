/- Module: BmsFirmware/DataProcess/Process
   Source: application/dataprocess/process.c
   Digest: The handlers of accepted frames and what they do to the register table. -/

import BmsFirmware.Flash.Systick
import BmsFirmware.Registers.Frames
import BmsFirmware.Registers.HashIndex

set_option autoImplicit false
set_option relaxedAutoImplicit false

namespace BmsFirmware.DataProcess.Process

open BmsFirmware.Library.ByteMemory
open BmsFirmware.Library.PowerLogic
open BmsFirmware.Library.BlockHeap
open BmsFirmware.Flash.Controller (Environment Board)
open BmsFirmware.Flash.Systick
open BmsFirmware.Registers.PuTable
open BmsFirmware.Registers.HashIndex
open BmsFirmware.Registers.Frames

/-- What the handlers work on: the register table, the heap, and the flash behind the
parameter writers. -/
structure Device where
  table : Table
  heap : Heap
  board : Board

/-- The device after a reset, over a flash; the variables of `boot.c` play no part in it. -/
def Device.initial (flash : Memory) : Device where
  table := .initial
  heap := .empty
  board :=
    { flash := flash
      locked := true
      journal := []
      mallocs := 0
      received := 0
      sent := []
      appAddress := 0
      totalBlock := 0
      upgradeBlockNumber := fun _ => 0
      updateData := fun _ => 0 }

/-- The register an item is looked up to. -/
def registerId (item : Bufdata) : Nat :=
  puSearchId (item.address.setWidth 32) (item.offset.setWidth 32)

def processUpgrade (env : Environment) (d : Device) : Device :=
  { d with board := (upgradeFmcWriteData env upgradeFlagAddress UPGRADESTART d.board).state }

/-- One turn of the loop of `process_read`: the item of the answer that is being built. -/
def readItem (acc : Table × List Bufdata) (item : Bufdata) : Table × List Bufdata :=
  let table := puSetStatus acc.1 (registerId item) 1
  (table, acc.2 ++ [createBufdata item.address item.offset (puGetData table (registerId item))])

/-- The answer is built and serialised but its sending is commented out. -/
def processRead (grant : Nat → Bool) (input : CommFrame) (d : Device) : Device :=
  let created := createCommFrame grant input.dataCount d.heap
  match created.1 with
  | none => { d with heap := created.2 }
  | some blocks =>
      let answered := input.dataField.foldl readItem (d.table, [])
      let frame := ⟨input.addressID, PU_FUN_READ, input.dataCount, answered.2, 0⟩
      let released := (do
        match ← serializeCommFrame grant frame with
        | none => pure ()
        | some buffer => free buffer.1
        freeCommFrame blocks : StateM Heap Unit) created.2
      { d with table := answered.1, heap := released.2 }

def writeItem (t : Table) (item : Bufdata) : Table :=
  if puGetType t (registerId item) = 'W' then
    puSetStatus (puSetData t (registerId item) item.data) (registerId item) 10
  else t

def processWrite (input : CommFrame) (d : Device) : Device :=
  { d with table := input.dataField.foldl writeItem d.table }

def processReply (env : Environment) (grant : Nat → Bool) (input : CommFrame) (d : Device) :
    Device :=
  if input.functionCode = PU_FUN_READ then processRead grant input d
  else if input.functionCode = PU_FUN_WRITE then processWrite input d
  else if input.functionCode = PU_FUN_UPGRADE then processUpgrade env d
  else d

/-! ### The table after a frame -/

/-- Both blocks of the answer frame are there. -/
def FrameGranted (grant : Nat → Bool) (dataCount : Half) (h : Heap) : Prop :=
  grant h.requests = true ∧ (0 < dataCount → grant (h.requests + 1) = true)

instance (grant : Nat → Bool) (dataCount : Half) (h : Heap) :
    Decidable (FrameGranted grant dataCount h) :=
  inferInstanceAs (Decidable (_ ∧ _))

theorem createCommFrame_isSome (grant : Nat → Bool) (dataCount : Half) (h : Heap) :
    (createCommFrame grant dataCount h).1.isSome = true ↔ FrameGranted grant dataCount h := by
  unfold createCommFrame FrameGranted
  cases first : grant h.requests with
  | false =>
    rw [malloc_refused _ first]
    simp
  | true =>
    rw [malloc_granted _ first]
    dsimp only
    by_cases items : 0 < dataCount
    · rw [if_pos items]
      simp only [items, true_and, forall_const]
      cases second : grant (h.requests + 1) with
      | false =>
        rw [malloc_refused _ second]
        simp
      | true =>
        rw [malloc_granted _ second]
        simp
    · rw [if_neg items]
      exact ⟨fun _ => ⟨rfl, fun h => absurd h items⟩, fun _ => rfl⟩

/-- The status of a set of registers has been set to 1. -/
def readStatus (items : List Bufdata) (t : Table) : Table :=
  items.foldl (fun t item => puSetStatus t (registerId item) 1) t

private theorem readItem_table (items : List Bufdata) (acc : Table × List Bufdata) :
    (items.foldl readItem acc).1 = readStatus items acc.1 := by
  induction items generalizing acc with
  | nil => rfl
  | cons item items ih => exact ih (readItem acc item)

/-- A read frame sets its statuses if its answer could be allocated, and else does nothing. -/
theorem processRead_table (grant : Nat → Bool) (input : CommFrame) (d : Device) :
    (processRead grant input d).table =
      if FrameGranted grant input.dataCount d.heap then readStatus input.dataField d.table
      else d.table := by
  have some_iff := createCommFrame_isSome grant input.dataCount d.heap
  unfold processRead
  cases created : (createCommFrame grant input.dataCount d.heap).1 with
  | none =>
    rw [created] at some_iff
    rw [if_neg fun granted => absurd (some_iff.mpr granted) (by decide)]
    simp only [created]
  | some blocks =>
    rw [created] at some_iff
    rw [if_pos (some_iff.mp rfl)]
    simp only [created]
    exact readItem_table input.dataField (d.table, [])

/-- A read frame gives back every block it has been granted. -/
theorem processRead_heap {grant : Nat → Bool} (input : CommFrame) {d : Device}
    (accounted : d.heap.Accounted grant) :
    (processRead grant input d).heap.Accounted grant ∧
      (processRead grant input d).heap.live = d.heap.live := by
  obtain ⟨first, live⟩ := createCommFrame_heap accounted input.dataCount
  unfold processRead
  cases created : (createCommFrame grant input.dataCount d.heap).1 with
  | none =>
    rw [created] at live
    simp only [created]
    exact ⟨first, live⟩
  | some blocks =>
    rw [created] at live
    simp only [created]
    generalize (createCommFrame grant input.dataCount d.heap).2 = h at first live ⊢
    generalize (⟨input.addressID, PU_FUN_READ, input.dataCount,
      (input.dataField.foldl readItem (d.table, [])).2, 0⟩ : CommFrame) = frame
    obtain ⟨second, buffer⟩ := serializeCommFrame_heap first frame
    cases serialized : (serializeCommFrame grant frame h).1 with
    | none =>
      rw [serialized] at buffer
      rw [bind_run, serialized]
      exact freeCommFrame_heap second (buffer.trans live)
    | some bytes =>
      rw [serialized] at buffer
      rw [bind_run, serialized]
      have taken : bytes.1 ∈ (serializeCommFrame grant frame h).2.live := by simp [buffer]
      refine freeCommFrame_heap (second.free taken) ?_
      change (serializeCommFrame grant frame h).2.live.erase bytes.1 = _
      rw [buffer]
      exact (List.erase_cons_head _ _).trans live

/-- No frame changes the live blocks. -/
theorem processReply_heap (env : Environment) {grant : Nat → Bool} (input : CommFrame) {d : Device}
    (accounted : d.heap.Accounted grant) :
    (processReply env grant input d).heap.Accounted grant ∧
      (processReply env grant input d).heap.live = d.heap.live := by
  unfold processReply
  split_ifs
  · exact processRead_heap input accounted
  · exact ⟨accounted, rfl⟩
  · exact ⟨accounted, rfl⟩
  · exact ⟨accounted, rfl⟩

theorem readStatus_row (items : List Bufdata) (t : Table) (i : Nat) :
    (readStatus items t).row i =
      if ∃ item ∈ items, registerId item = i then { t.row i with status := 1 } else t.row i := by
  induction items generalizing t with
  | nil => simp [readStatus]
  | cons item items ih =>
    change (readStatus items (puSetStatus t (registerId item) 1)).row i = _
    rw [ih]
    by_cases here : registerId item = i
    · subst here
      simp
    · rw [puSetStatus_other t 1 (Ne.symm here)]
      simp [here]

/-- The last value that a list of items writes to a register. -/
def lastWritten (items : List Bufdata) (i : Nat) : Option Word :=
  ((items.filter fun item => registerId item = i).getLast?).map Bufdata.data

theorem lastWritten_isSome {items : List Bufdata} {i : Nat} :
    (lastWritten items i).isSome = true ↔ ∃ item ∈ items, registerId item = i := by
  rw [lastWritten, Option.isSome_map, List.getLast?_isSome, Ne, List.filter_eq_nil_iff]
  simp only [decide_eq_true_eq, not_forall, not_not, exists_prop]

theorem writeItem_row (t : Table) (item : Bufdata) (i : Nat) :
    (writeItem t item).row i =
      if registerId item = i ∧ (initialRow i).type = 'W' then
        { t.row i with data := item.data, status := 10 }
      else t.row i := by
  unfold writeItem
  rw [puGetType_initial]
  by_cases here : registerId item = i
  · subst here
    by_cases writable : (initialRow (registerId item)).type = 'W'
    · simp [writable]
    · simp [writable]
  · rw [if_neg fun h : registerId item = i ∧ _ => here h.1]
    by_cases writable : (initialRow (registerId item)).type = 'W'
    · rw [if_pos writable, puSetStatus_other _ 10 (Ne.symm here),
        puSetData_other _ _ (Ne.symm here)]
    · rw [if_neg writable]

/-- A writable register holds the last value written to it and is pending; nothing else
has changed. -/
theorem processWrite_row (input : CommFrame) (d : Device) (i : Nat) :
    (processWrite input d).table.row i =
      match lastWritten input.dataField i with
      | some data =>
          if (initialRow i).type = 'W' then { d.table.row i with data := data, status := 10 }
          else d.table.row i
      | none => d.table.row i := by
  change (input.dataField.foldl writeItem d.table).row i = _
  generalize d.table = t
  induction input.dataField using List.reverseRecOn with
  | nil => rfl
  | append_singleton items item ih =>
    rw [List.foldl_append, List.foldl_cons, List.foldl_nil, writeItem_row, ih]
    unfold lastWritten
    rw [List.filter_append]
    by_cases here : registerId item = i
    · have kept : [item].filter (fun item => registerId item = i) = [item] := by simp [here]
      rw [kept, List.getLast?_concat]
      by_cases writable : (initialRow i).type = 'W'
      · simp only [here, writable, and_self, if_true, Option.map_some]
        split <;> rfl
      · simp only [here, writable, and_false, if_false, Option.map_some]
        split <;> rfl
    · have dropped : [item].filter (fun item => registerId item = i) = [] := by simp [here]
      rw [dropped, List.append_nil, if_neg fun h => here h.1]

end BmsFirmware.DataProcess.Process
