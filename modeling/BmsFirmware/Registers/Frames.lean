/- Module: BmsFirmware/Registers/Frames
   Source: application/registers/pu_table.c, application/registers/pu_table.h
   Digest: Communication frames, their checksum, allocation and serialisation. -/

import BmsFirmware.Library.BlockHeap
import BmsFirmware.Library.ByteMemory
import Mathlib.Logic.Function.Iterate

set_option autoImplicit false
set_option relaxedAutoImplicit false

namespace BmsFirmware.Registers.Frames

open BmsFirmware.Library.ByteMemory
open BmsFirmware.Library.BlockHeap

structure Bufdata where
  address : Half
  offset : Half
  data : Word
  deriving DecidableEq

/-- `sizeof(Bufdata)`; the structure is packed. -/
def sizeofBufdata : Nat := 8

/-- A frame as a value: `dataField` lists the `dataCount` items it points to. -/
structure CommFrame where
  addressID : Byte
  functionCode : Byte
  dataCount : Half
  dataField : List Bufdata
  crcCheck : Half
  deriving DecidableEq

def PU_FUN_READ : Byte := 0xC0
def PU_FUN_WRITE : Byte := 0x03
def PU_FUN_UPGRADE : Byte := 0x5E

/-! ### Checksum -/

def POLYNOMIAL : Word := 0x11021

/-- One turn of the bit loop. -/
def crcStep (crc : Half) : Half :=
  if crc &&& 0x8000 ≠ 0 then ((crc.setWidth 32 <<< 1) ^^^ POLYNOMIAL).setWidth 16
  else crc <<< 1

/-- One turn of the byte loop. -/
def crcByte (crc : Half) (data : Byte) : Half :=
  Nat.iterate crcStep 8 (crc ^^^ (data.setWidth 16 <<< 8))

def calculateCrc16 (data : Memory) (length : Half) : Half :=
  ((List.range length.toNat).map data).foldl crcByte 0xFFFF

/-- The checksum of a list of bytes. -/
def crcOf (l : List Byte) : Half := l.foldl crcByte 0xFFFF

theorem calculateCrc16_ofList (l : List Byte) (small : l.length < 2 ^ 16) :
    calculateCrc16 (ofList l) (BitVec.ofNat 16 l.length) = crcOf l := by
  rw [calculateCrc16, BitVec.toNat_ofNat, Nat.mod_eq_of_lt small, ofList_range, crcOf]

/-! ### Items -/

def createBufdata (address offset : Half) (data : Word) : Bufdata := ⟨address, offset, data⟩

/-- The bytes of an item as they are sent, most significant first. -/
def bufdataBytes (b : Bufdata) : List Byte :=
  [((b.address >>> 8) &&& 0xFF).setWidth 8, (b.address &&& 0xFF).setWidth 8,
    ((b.offset >>> 8) &&& 0xFF).setWidth 8, (b.offset &&& 0xFF).setWidth 8,
    ((b.data >>> 24) &&& 0xFF).setWidth 8, ((b.data >>> 16) &&& 0xFF).setWidth 8,
    ((b.data >>> 8) &&& 0xFF).setWidth 8, (b.data &&& 0xFF).setWidth 8]

theorem bufdataBytes_eq (b : Bufdata) :
    bufdataBytes b = [halfBytes b.address 1, halfBytes b.address 0, halfBytes b.offset 1,
      halfBytes b.offset 0, wordBytes b.data 3, wordBytes b.data 2, wordBytes b.data 1,
      wordBytes b.data 0] := by
  have address := masked_byte b.address 0
  have offset := masked_byte b.offset 0
  have data := masked_byte b.data 0
  rw [BitVec.ushiftRight_zero] at address offset data
  rw [bufdataBytes, masked_byte, masked_byte, masked_byte, masked_byte, masked_byte, address,
    offset, data]
  rfl

/-! ### Allocation and serialisation -/

/-- The heap blocks of an allocated frame. -/
structure FrameBlocks where
  frame : Nat
  dataField : Option Nat

/-- `createCommFrame`, reduced to its allocations: the caller sets every field. -/
def createCommFrame (grant : Nat → Bool) (dataCount : Half) : StateM Heap (Option FrameBlocks) := do
  match ← malloc grant with
  | none => return none
  | some frame =>
      if 0 < dataCount then
        match ← malloc grant with
        | none =>
            free frame
            return none
        | some dataField => return some ⟨frame, some dataField⟩
      else return some ⟨frame, none⟩

/-- The bytes before the checksum. -/
def frameBytes (frame : CommFrame) : List Byte :=
  [frame.addressID, frame.functionCode, ((frame.dataCount >>> 8) &&& 0xFF).setWidth 8,
    (frame.dataCount &&& 0xFF).setWidth 8] ++ frame.dataField.flatMap bufdataBytes

/-- The checksum `serializeCommFrame` stores in the frame. -/
def frameCrc (frame : CommFrame) : Half :=
  calculateCrc16 (ofList (frameBytes frame)) (BitVec.ofNat 16 (frameBytes frame).length)

/-- All bytes of a serialised frame. -/
def serialized (frame : CommFrame) : List Byte :=
  frameBytes frame ++
    [((frameCrc frame >>> 8) &&& 0xFF).setWidth 8, (frameCrc frame &&& 0xFF).setWidth 8]

/-- `bufferSize` of `serializeCommFrame`. -/
def bufferSize (frame : CommFrame) : Half := 6 + frame.dataCount * BitVec.ofNat 16 sizeofBufdata

/-- The buffer's block, its bytes and the reported size; nothing without memory. -/
def serializeCommFrame (grant : Nat → Bool) (frame : CommFrame) :
    StateM Heap (Option (Nat × List Byte × Half)) := do
  match ← malloc grant with
  | none => return none
  | some buffer => return some (buffer, serialized frame, bufferSize frame)

theorem serializeCommFrame_value (grant : Nat → Bool) (frame : CommFrame) (h : Heap) :
    (serializeCommFrame grant frame h).1 =
      if grant h.requests then some (h.requests, serialized frame, bufferSize frame) else none := by
  cases granted : grant h.requests with
  | false =>
    rw [serializeCommFrame, malloc_refused _ granted]
    rfl
  | true =>
    rw [serializeCommFrame, malloc_granted _ granted]
    rfl

def freeCommFrame (blocks : FrameBlocks) : StateM Heap Unit := do
  match blocks.dataField with
  | some dataField => free dataField
  | none => pure ()
  free blocks.frame

/-! ### The blocks of a frame -/

/-- The blocks of a frame, the last one first. -/
def FrameBlocks.list (blocks : FrameBlocks) : List Nat := blocks.dataField.toList ++ [blocks.frame]

section Blocks

variable {grant : Nat → Bool} {h : Heap} {rest : List Nat}

/-- Either the blocks of the frame are live in addition, or the heap is as it was. -/
theorem createCommFrame_heap (accounted : h.Accounted grant) (dataCount : Half) :
    (createCommFrame grant dataCount h).2.Accounted grant ∧
      (createCommFrame grant dataCount h).2.live =
        ((createCommFrame grant dataCount h).1.map FrameBlocks.list).getD [] ++ h.live := by
  unfold createCommFrame
  cases first : grant h.requests with
  | false =>
    rw [malloc_refused _ first]
    exact ⟨accounted.refused first, rfl⟩
  | true =>
    rw [malloc_granted _ first]
    have once := accounted.granted first
    dsimp only
    by_cases items : 0 < dataCount
    · rw [if_pos items]
      cases second : grant (h.requests + 1) with
      | false =>
        rw [malloc_refused _ second]
        refine ⟨(once.refused second).free List.mem_cons_self, ?_⟩
        exact List.erase_cons_head _ _
      | true =>
        rw [malloc_granted _ second]
        exact ⟨once.granted second, rfl⟩
    · rw [if_neg items]
      exact ⟨once, rfl⟩

theorem serializeCommFrame_heap (accounted : h.Accounted grant) (frame : CommFrame) :
    (serializeCommFrame grant frame h).2.Accounted grant ∧
      (serializeCommFrame grant frame h).2.live =
        ((serializeCommFrame grant frame h).1.map Prod.fst).toList ++ h.live := by
  unfold serializeCommFrame
  cases granted : grant h.requests with
  | false =>
    rw [malloc_refused _ granted]
    exact ⟨accounted.refused granted, rfl⟩
  | true =>
    rw [malloc_granted _ granted]
    exact ⟨accounted.granted granted, rfl⟩

/-- The release of a frame takes its blocks away again. -/
theorem freeCommFrame_heap (accounted : h.Accounted grant) {blocks : FrameBlocks}
    (live : h.live = blocks.list ++ rest) :
    (freeCommFrame blocks h).2.Accounted grant ∧ (freeCommFrame blocks h).2.live = rest := by
  obtain ⟨frame, dataField⟩ := blocks
  cases dataField with
  | none =>
    have first : h.live = frame :: rest := live
    refine ⟨accounted.free (by simp [first]), ?_⟩
    change h.live.erase frame = rest
    rw [first, List.erase_cons_head]
  | some field =>
    have first : h.live = field :: frame :: rest := live
    have taken : field ∈ h.live := by simp [first]
    have released := accounted.free taken
    have next : (free field h).2.live = frame :: rest := by
      change h.live.erase field = _
      rw [first, List.erase_cons_head]
    refine ⟨released.free (by simp [next]), ?_⟩
    change (free field h).2.live.erase frame = rest
    rw [next, List.erase_cons_head]

end Blocks

end BmsFirmware.Registers.Frames
