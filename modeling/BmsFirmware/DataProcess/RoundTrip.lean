/- Module: BmsFirmware/DataProcess/RoundTrip
   Source: application/registers/pu_table.c, application/dataprocess/process.c
   Digest: The receiver reads a serialised frame back. -/

import BmsFirmware.DataProcess.Units

set_option autoImplicit false
set_option relaxedAutoImplicit false

namespace BmsFirmware.DataProcess.RoundTrip

open BmsFirmware.Library.ByteMemory
open BmsFirmware.Library.BlockHeap
open BmsFirmware.Flash.Controller (Environment)
open BmsFirmware.Registers.Frames
open BmsFirmware.DataProcess.Process
open BmsFirmware.DataProcess.Reception
open BmsFirmware.DataProcess.FrameDecode
open BmsFirmware.DataProcess.ReceiverSteps
open BmsFirmware.DataProcess.Units

/-- The frames the receiver takes: a known function and one to three items. -/
structure Receivable (frame : CommFrame) : Prop where
  known : KnownFunction frame.functionCode
  count : frame.dataCount.toNat = frame.dataField.length
  some_items : 1 ≤ frame.dataField.length
  few_items : frame.dataField.length ≤ 3

/-! ### Items -/

@[simp] theorem length_bufdataBytes (b : Bufdata) : (bufdataBytes b).length = 8 := rfl

theorem length_itemBytes (items : List Bufdata) :
    (items.flatMap bufdataBytes).length = 8 * items.length := by
  induction items with
  | nil => rfl
  | cons b items ih =>
    rw [List.flatMap_cons, List.length_append, ih, length_bufdataBytes, List.length_cons]
    omega

private theorem getD_behind (b : Bufdata) (l : List Byte) (k : Nat) :
    (bufdataBytes b ++ l).getD (8 + k) 0 = l.getD k 0 := by
  rw [List.getD_append_right _ _ _ _ (by rw [length_bufdataBytes]; omega), length_bufdataBytes,
    Nat.add_sub_cancel_left]

/-- The first item is read back from its bytes. -/
private theorem bigEndian_first (b : Bufdata) (l : List Byte) :
    (⟨bigEndian16 (bufdataBytes b ++ l) 0, bigEndian16 (bufdataBytes b ++ l) 2,
      bigEndian32 (bufdataBytes b ++ l) 4⟩ : Bufdata) = b := by
  have address := halfBytes_append b.address
  have offset := halfBytes_append b.offset
  have data := wordBytes_append b.data
  rw [bufdataBytes_eq]
  change Bufdata.mk (halfBytes b.address 1 ++ halfBytes b.address 0)
    (halfBytes b.offset 1 ++ halfBytes b.offset 0)
    (wordBytes b.data 3 ++ wordBytes b.data 2 ++ wordBytes b.data 1 ++ wordBytes b.data 0) = b
  rw [address, offset, data]

private theorem bigEndian16_rest (b : Bufdata) (l : List Byte) (k : Nat) :
    bigEndian16 (bufdataBytes b ++ l) (8 + k) = bigEndian16 l k := by
  rw [bigEndian16, Nat.add_assoc, getD_behind, getD_behind, bigEndian16]

private theorem bigEndian32_rest (b : Bufdata) (l : List Byte) (k : Nat) :
    bigEndian32 (bufdataBytes b ++ l) (8 + k) = bigEndian32 l k := by
  simp only [bigEndian32, Nat.add_assoc, getD_behind]

private theorem bigEndianItems_cons (b : Bufdata) (l : List Byte) (n : Nat) :
    bigEndianItems (n + 1) (bufdataBytes b ++ l) = b :: bigEndianItems n l := by
  rw [bigEndianItems, List.range_succ_eq_map, List.map_cons, List.map_map]
  refine congrArg₂ List.cons (bigEndian_first b l) (List.map_congr_left ?_)
  intro i _
  have place : 8 * (i + 1) = 8 + 8 * i := by omega
  simp only [Function.comp_apply, Nat.succ_eq_add_one, place, Nat.add_assoc, bigEndian16_rest,
    bigEndian32_rest]

/-- The items of a data field are read back from its bytes. -/
theorem bigEndianItems_serialized (items : List Bufdata) (rest : List Byte) :
    bigEndianItems items.length (items.flatMap bufdataBytes ++ rest) = items := by
  induction items with
  | nil => rfl
  | cons b items ih =>
    rw [List.length_cons, List.flatMap_cons, List.append_assoc, bigEndianItems_cons, ih]

/-! ### Frames -/

/-- The two bytes of a half word as they are sent. -/
private theorem halfBytes_masked (w : Half) :
    ((w >>> 8) &&& 0xFF).setWidth 8 = halfBytes w 1 ∧
      (w &&& 0xFF).setWidth 8 = halfBytes w 0 := by
  have low := masked_byte w 0
  rw [BitVec.ushiftRight_zero] at low
  exact ⟨masked_byte w 8, low⟩

private theorem frameBytes_eq (frame : CommFrame) :
    frameBytes frame = [frame.addressID, frame.functionCode, halfBytes frame.dataCount 1,
      halfBytes frame.dataCount 0] ++ frame.dataField.flatMap bufdataBytes := by
  rw [frameBytes, (halfBytes_masked frame.dataCount).1, (halfBytes_masked frame.dataCount).2]

private theorem serialized_eq (frame : CommFrame) :
    serialized frame = frame.addressID :: frame.functionCode :: halfBytes frame.dataCount 1 ::
      halfBytes frame.dataCount 0 :: (frame.dataField.flatMap bufdataBytes ++
        [halfBytes (frameCrc frame) 1, halfBytes (frameCrc frame) 0]) := by
  rw [serialized, frameBytes_eq, (halfBytes_masked (frameCrc frame)).1,
    (halfBytes_masked (frameCrc frame)).2, List.append_assoc]
  rfl

private theorem length_frameBytes (frame : CommFrame) :
    (frameBytes frame).length = 4 + 8 * frame.dataField.length := by
  rw [frameBytes_eq, List.length_append, length_itemBytes]
  rfl

section Frame

variable {frame : CommFrame} (sent : Receivable frame)

include sent

private theorem announced_dataCount :
    announcedItems (halfBytes frame.dataCount 1) (halfBytes frame.dataCount 0) =
      frame.dataField.length := by
  rw [← count_toNat, halfBytes_append]
  exact sent.count

omit sent in
variable (frame) in
theorem length_serialized : (serialized frame).length = 6 + 8 * frame.dataField.length := by
  rw [serialized, List.length_append, length_frameBytes]
  simp only [List.length_cons, List.length_nil]
  omega

theorem bufferSize_toNat : (bufferSize frame).toNat = 6 + 8 * frame.dataField.length := by
  have few := sent.few_items
  rw [bufferSize, BitVec.toNat_add, BitVec.toNat_mul, sent.count]
  change (6 + frame.dataField.length * 8 % 2 ^ 16) % 2 ^ 16 = _
  omega

/-- The checksum is that of the bytes before it. -/
private theorem frameCrc_eq : frameCrc frame = crcOf (frameBytes frame) := by
  refine calculateCrc16_ofList _ ?_
  have few := sent.few_items
  rw [length_frameBytes]
  omega

private theorem checkedFrame_serialized :
    checkedFrame frame.addressID frame.functionCode (halfBytes frame.dataCount 1)
        (halfBytes frame.dataCount 0) (frame.dataField.flatMap bufdataBytes) (frameCrc frame) =
      [{ frame with crcCheck := frameCrc frame }] := by
  have items := bigEndianItems_serialized frame.dataField []
  have count := halfBytes_append frame.dataCount
  rw [List.append_nil] at items
  rw [checkedFrame, ← frameBytes_eq, if_pos (frameCrc_eq sent), announced_dataCount sent, items,
    count]

/-! ### Feeding the bytes -/

/-- A serialised frame is a unit. -/
theorem serialized_wholeUnit : WholeUnit (serialized frame) := by
  have count := announced_dataCount sent
  have size := length_serialized frame
  have good : 1 ≤ frame.dataField.length ∧ frame.dataField.length ≤ 3 :=
    ⟨sent.some_items, sent.few_items⟩
  rw [serialized_eq] at size ⊢
  generalize frame.dataField.flatMap bufdataBytes ++
    [halfBytes (frameCrc frame) 1, halfBytes (frameCrc frame) 0] = rest at size ⊢
  simp only [List.length_cons] at size
  rw [← count] at good size
  constructor
  · cases rest with
    | nil => exact sent.known
    | cons b rest =>
      refine ⟨sent.known, good, ?_⟩
      rw [List.length_cons] at size
      rw [List.length_dropLast, List.length_cons]
      omega
  · intro inside
    have short := inside.2.2
    omega

theorem unitFrames_serialized :
    unitFrames (serialized frame) = [{ frame with crcCheck := frameCrc frame }] := by
  have count := announced_dataCount sent
  have good : 1 ≤ frame.dataField.length ∧ frame.dataField.length ≤ 3 :=
    ⟨sent.some_items, sent.few_items⟩
  have size : 8 * frame.dataField.length = (frame.dataField.flatMap bufdataBytes).length :=
    (length_itemBytes _).symm
  have checksum : bigEndian16 (frame.dataField.flatMap bufdataBytes ++
      [halfBytes (frameCrc frame) 1, halfBytes (frameCrc frame) 0])
      (frame.dataField.flatMap bufdataBytes).length = frameCrc frame := by
    rw [bigEndian16_behind]
    exact halfBytes_append (frameCrc frame)
  rw [serialized_eq, unitFrames, count, if_pos ⟨sent.known, good⟩, size, List.take_left, checksum,
    checkedFrame_serialized sent]

end Frame

/-! ### From bytes to a frame and back -/

private theorem halfBytes_of_append (c b : Byte) :
    halfBytes (c ++ b) 1 = c ∧ halfBytes (c ++ b) 0 = b := by
  have h := halfBytes_halfAt (ofList [b, c]) 0
  exact ⟨h 1 (by omega), h 0 (by omega)⟩

/-- The bytes of an item that has been read. -/
private theorem bufdataBytes_read (l : List Byte) (k : Nat) :
    bufdataBytes ⟨bigEndian16 l k, bigEndian16 l (k + 2), bigEndian32 l (k + 4)⟩ =
      (List.range 8).map fun i => l.getD (k + i) 0 := by
  have half (a : Nat) (i : Nat) (bound : i < 2) :
      halfBytes (bigEndian16 l a) i = l.getD (a + (1 - i)) 0 := by
    have h := halfBytes_halfAt (fun i => l.getD (a + (1 - i)) 0) 0 i bound
    rwa [Nat.zero_add] at h
  have word (a : Nat) (i : Nat) (bound : i < 4) :
      wordBytes (bigEndian32 l a) i = l.getD (a + (3 - i)) 0 := by
    have h := wordBytes_wordAt (fun i => l.getD (a + (3 - i)) 0) 0 i bound
    rwa [Nat.zero_add] at h
  rw [bufdataBytes_eq]
  simp only [half _ _ (show 0 < 2 by omega), half _ _ (show 1 < 2 by omega),
    word _ _ (show 0 < 4 by omega), word _ _ (show 1 < 4 by omega), word _ _ (show 2 < 4 by omega),
    word _ _ (show 3 < 4 by omega), Nat.add_assoc]
  rfl

/-- A data field is the bytes of its items. -/
private theorem itemBytes_read {l : List Byte} {n : Nat} (size : l.length = 8 * n) :
    (bigEndianItems n l).flatMap bufdataBytes = l := by
  have read (k : Nat) (within : k ≤ n) :
      (bigEndianItems k l).flatMap bufdataBytes = l.take (8 * k) := by
    induction k with
    | zero => rfl
    | succ k ih =>
      have last : (List.range 8).map (fun i => l.getD (8 * k + i) 0) = (l.drop (8 * k)).take 8 := by
        refine List.ext_getElem (by simp; omega) ?_
        intro i inside _
        have small : i < 8 := by simpa using inside
        simp only [List.getElem_map, List.getElem_range, List.getElem_take, List.getElem_drop]
        exact List.getD_eq_getElem _ _ (by omega)
      rw [bigEndianItems, List.range_succ, List.map_append, List.flatMap_append,
        ← bigEndianItems, ih (by omega), List.map_singleton, List.flatMap_singleton,
        bufdataBytes_read, last, ← List.take_add]
      rfl
  rw [read n (Nat.le_refl n), ← size, List.take_length]

/-- A dispatched frame serialises to the bytes it was read from. -/
theorem serialized_unitFrames {u : List Byte} (whole : WholeUnit u) {frame : CommFrame}
    (dispatched : frame ∈ unitFrames u) : Receivable frame ∧ serialized frame = u := by
  match u, whole, dispatched with
  | a :: f :: hi :: lo :: rest, whole, dispatched =>
    rw [unitFrames] at dispatched
    split_ifs at dispatched with header
    · obtain ⟨known, good⟩ := header
      have size := whole.field_length known good
      generalize field : rest.take (8 * announcedItems hi lo) = items at dispatched
      have length : items.length = 8 * announcedItems hi lo := by
        rw [← field, List.length_take]
        omega
      obtain ⟨c, b, rfl⟩ : ∃ c b, rest = items ++ [c, b] := by
        have tail : (rest.drop (8 * announcedItems hi lo)).length = 2 := by
          rw [List.length_drop]
          omega
        obtain ⟨c, b, same⟩ := List.length_eq_two.mp tail
        exact ⟨c, b, by rw [← field, ← same, List.take_append_drop]⟩
      have checksum : bigEndian16 (items ++ [c, b]) (8 * announcedItems hi lo) = c ++ b := by
        rw [← length, bigEndian16_behind]
      rw [checkedFrame, checksum] at dispatched
      split_ifs at dispatched with fits
      · obtain rfl := List.mem_singleton.mp dispatched
        have count :
            (bigEndianItems (announcedItems hi lo) items).length = announcedItems hi lo := by
          simp [bigEndianItems]
        have sent :
            Receivable ⟨a, f, hi ++ lo, bigEndianItems (announcedItems hi lo) items, c ++ b⟩ :=
          ⟨known, (count_toNat hi lo).trans count.symm, by rw [count]; exact good.1,
            by rw [count]; exact good.2⟩
        refine ⟨sent, ?_⟩
        have crc := frameCrc_eq sent
        rw [frameBytes_eq] at crc
        rw [serialized_eq, crc]
        simp only [itemBytes_read length, (halfBytes_of_append hi lo).1,
          (halfBytes_of_append hi lo).2, ← fits, (halfBytes_of_append c b).1,
          (halfBytes_of_append c b).2]
      · exact absurd dispatched List.not_mem_nil
    · exact absurd dispatched List.not_mem_nil

section ReadBack

variable (env : Environment) (d : Device)

/-- What the receiver does with the bytes of a frame: it dispatches the frame, with its
checksum, on the last byte, and is idle again. -/
structure ReadBack (frame : CommFrame) (bytes : List Byte) : Prop where
  early : ∀ front, front <+: bytes → front ≠ bytes →
    (feed env (fun _ => true) front (.atIdle d [])).dispatched = []
  last : (feed env (fun _ => true) bytes (.atIdle d [])).dispatched =
    [{ frame with crcCheck := frameCrc frame }]
  idle : (feed env (fun _ => true) bytes (.atIdle d [])).receiver = .idle

/-- Serialising a frame and feeding its bytes to the idle receiver gives the frame back. -/
theorem serializeCommFrame_readBack (frame : CommFrame) (sent : Receivable frame) (h : Heap) :
    ∃ buffer bytes size,
      (serializeCommFrame (fun _ => true) frame h).1 = some (buffer, bytes, size) ∧
        bytes.length = size.toNat ∧ size.toNat = 6 + 8 * frame.dataField.length ∧
          ReadBack env d frame bytes := by
  obtain ⟨d', read⟩ := feed_unit env d [] (serialized_wholeUnit sent)
  rw [unitFrames_serialized sent, List.nil_append] at read
  have size := bufferSize_toNat sent
  have length := length_serialized frame
  refine ⟨h.requests, serialized frame, bufferSize frame, ?_, length.trans size.symm, size, ?_⟩
  · rw [serializeCommFrame_value, if_pos rfl]
  · refine ⟨?_, congrArg Station.dispatched read,
      congrArg Station.receiver read⟩
    intro front prefixed proper
    have inside := (serialized_wholeUnit sent).inside_of_proper prefixed proper
    obtain ⟨_, _, early⟩ := feed_inside env d [] 0 (g := []) front inside
    exact congrArg Station.dispatched early

/-- A read of one item from another device's address. -/
theorem serializeCommFrame_readBack_single :
    ∃ buffer bytes size,
      (serializeCommFrame (fun _ => true) ⟨0xFE, 0xC0, 1, [⟨0x1200, 0xFF80, 0x80FFEEDD⟩], 0⟩
          Heap.empty).1 = some (buffer, bytes, size) ∧
        bytes.length = size.toNat ∧ size.toNat = 6 + 8 * 1 ∧
          ReadBack (.flawless fun _ => 0) (.initial fun _ => 0xFF)
            ⟨0xFE, 0xC0, 1, [⟨0x1200, 0xFF80, 0x80FFEEDD⟩], 0⟩ bytes :=
  serializeCommFrame_readBack _ _ _ ⟨by decide, rfl, by decide, by decide⟩ _

end ReadBack

end BmsFirmware.DataProcess.RoundTrip
