/- Module: BmsFirmware/DataProcess/Reply
   Source: application/dataprocess/process.c, application/bq76952/bq76952.c
   Digest: What the main loop does for a pending register: answer a read, pass on a write. -/

import BmsFirmware.DataProcess.Process

set_option autoImplicit false
set_option relaxedAutoImplicit false

namespace BmsFirmware.DataProcess.Reply

open BmsFirmware.Library.ByteMemory
open BmsFirmware.Library.BlockHeap
open BmsFirmware.Registers.PuTable
open BmsFirmware.Registers.Frames
open BmsFirmware.DataProcess.Process

/-- What is decided outside one call of `send_reply_data`: the allocations that succeed and
the bytes that `i2c_buffer_read` leaves in `replay_data`, whatever the bus does. -/
structure Service where
  grant : Nat → Bool
  replayData : Byte × Byte

/-- `(replay_data[1] << 8) | replay_data[0]`. -/
def voltageValue (replayData : Byte × Byte) : Half :=
  replayData.2.setWidth 16 <<< 8 ||| replayData.1.setWidth 16

/-- What a call hands to `usartSendDMA`: nothing when the frame could not be allocated, a
length of zero when its serialisation could not, else the bytes of a frame. -/
inductive Handed where
  | nothing
  | empty
  | reply (frame : CommFrame)
  deriving DecidableEq

section Reply

variable (service : Service) (index : Nat) (d : Device)

/-- The register with the answer of the AFE stored in it. -/
def refreshed : Table := puSetData d.table index ((voltageValue service.replayData).setWidth 32)

/-- The frame of an answer, its checksum as the serialisation leaves it. -/
def replyFrame (table : Table) : CommFrame :=
  let item := createBufdata ((puGetAddress table index).setWidth 16)
    ((puGetOffset table index).setWidth 16) (puGetData table index)
  let frame : CommFrame := ⟨0x01, PU_FUN_READ, 1, [item], 0⟩
  { frame with crcCheck := frameCrc frame }

def sendReplyData : Device × Handed :=
  let created := createCommFrame service.grant 1 d.heap
  match created.1 with
  | none => ({ d with heap := created.2 }, .nothing)
  | some blocks =>
      let table := refreshed service index d
      let buffer := serializeCommFrame service.grant (replyFrame index table) created.2
      let released := (do
        match buffer.1 with
        | none => pure ()
        | some serialized => free serialized.1
        freeCommFrame blocks : StateM Heap Unit) buffer.2
      ({ d with table := table, heap := released.2 },
        match buffer.1 with
        | none => .empty
        | some _ => .reply (replyFrame index table))

end Reply

/-- A write of bytes to an AFE command. -/
structure AfeWrite where
  command : Byte
  bytes : List Byte
  deriving DecidableEq

def alarmEnable : AfeWrite := ⟨0x66, [0x82, 0xF0]⟩

def writeCommandData (index : Nat) (d : Device) : Option AfeWrite :=
  match puGetCommand d.table index with
  | 0x62 => none
  | 0x66 => some alarmEnable
  | _ => none

/-! ### The table and the answer after a call -/

section Laws

variable (service : Service) (index : Nat) (d : Device)

/-- The heap after the blocks of an answer frame have been requested. -/
def afterCreate : Heap := (createCommFrame service.grant 1 d.heap).2

/-- The answer frame and its serialisation can be allocated. -/
def ReplyGranted : Prop :=
  FrameGranted service.grant 1 d.heap ∧ service.grant (afterCreate service d).requests = true

theorem sendReplyData_refused (refused : ¬FrameGranted service.grant 1 d.heap) :
    (sendReplyData service index d).1.table = d.table ∧
      (sendReplyData service index d).2 = .nothing := by
  cases created : (createCommFrame service.grant 1 d.heap).1 with
  | none =>
    simp only [sendReplyData, created, and_self]
  | some blocks =>
    have granted := (createCommFrame_isSome service.grant 1 d.heap).mp (by rw [created]; rfl)
    exact absurd granted refused

theorem sendReplyData_created (granted : FrameGranted service.grant 1 d.heap) :
    (sendReplyData service index d).1.table = refreshed service index d ∧
      (sendReplyData service index d).2 =
        if service.grant (afterCreate service d).requests = true then
          .reply (replyFrame index (refreshed service index d))
        else .empty := by
  have some_blocks := (createCommFrame_isSome service.grant 1 d.heap).mpr granted
  cases created : (createCommFrame service.grant 1 d.heap).1 with
  | none =>
    rw [created] at some_blocks
    exact absurd some_blocks (by decide)
  | some blocks =>
    simp only [sendReplyData, created, serializeCommFrame_value, true_and]
    by_cases third : service.grant (afterCreate service d).requests = true
    · have buffer :
          service.grant (createCommFrame service.grant 1 d.heap).2.requests = true := third
      rw [if_pos third, if_pos buffer]
    · have buffer :
          ¬service.grant (createCommFrame service.grant 1 d.heap).2.requests = true := third
      rw [if_neg third, if_neg buffer]

theorem refreshed_data :
    puGetData (refreshed service index d) index =
      (voltageValue service.replayData).setWidth 32 := by
  rw [puGetData, refreshed, puSetData_self]

theorem replyFrame_data (t : Table) :
    (replyFrame index t).dataField.map Bufdata.data = [puGetData t index] := rfl

variable {service index d} in
/-- A frame is handed over if it can be allocated, and then that of the answer. -/
theorem sendReplyData_reply_iff {frame : CommFrame} :
    (sendReplyData service index d).2 = .reply frame ↔
      ReplyGranted service d ∧ frame = replyFrame index (refreshed service index d) := by
  by_cases created : FrameGranted service.grant 1 d.heap
  · rw [(sendReplyData_created service index d created).2]
    by_cases third : service.grant (afterCreate service d).requests = true
    · rw [if_pos third, Handed.reply.injEq]
      exact ⟨fun same => ⟨⟨created, third⟩, same.symm⟩, fun same => same.2.symm⟩
    · rw [if_neg third]
      exact iff_of_false (by simp) fun granted => third granted.1.2
  · rw [(sendReplyData_refused service index d created).2]
    exact iff_of_false (by simp) fun granted => created granted.1.1

/-- A call leaves the status of every register alone. -/
theorem sendReplyData_status (i : Nat) :
    puGetStatus (sendReplyData service index d).1.table i = puGetStatus d.table i := by
  by_cases granted : FrameGranted service.grant 1 d.heap
  · rw [(sendReplyData_created service index d granted).1]
    by_cases here : i = index
    · subst here
      simp [puGetStatus, refreshed]
    · simp [puGetStatus, refreshed, here]
  · rw [(sendReplyData_refused service index d granted).1]

/-- A call changes no other register than its own. -/
theorem sendReplyData_other {i : Nat} (other : i ≠ index) :
    (sendReplyData service index d).1.table.row i = d.table.row i := by
  by_cases granted : FrameGranted service.grant 1 d.heap
  · rw [(sendReplyData_created service index d granted).1, refreshed, puSetData_other _ _ other]
  · rw [(sendReplyData_refused service index d granted).1]

end Laws

end BmsFirmware.DataProcess.Reply
